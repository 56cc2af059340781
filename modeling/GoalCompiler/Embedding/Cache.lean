import GoalCompiler.Dict
import GoalCompiler.Embedding.Embedder

/-! Keeping vectors, so that a text is embedded once. Each operation gives its result, the vectors kept
from then on, and what it asked of the provider below. Nothing is kept when the provider fails. -/
namespace GoalCompiler

abbrev Cache := Dict Embedding

namespace Cache

/-- What was asked of the provider. -/
inductive Asked where
  | nothing
  | one (text : String)
  | several (texts : List String)
deriving DecidableEq, Repr

structure Answer (α : Type) where
  result : Except ServiceError α
  cache : Cache
  asked : Asked

def embed (inner : Embedder) (c : Cache) (text : String) : Answer Embedding :=
  match Dict.get? c text with
  | some v => ⟨.ok v, c, .nothing⟩
  | none =>
    match inner.embed text with
    | .ok v => ⟨.ok v, Dict.insert c text v, .one text⟩
    | .error e => ⟨.error e, c, .one text⟩

/-- Puts new vectors into the gaps, from the left. -/
def fill : List (Option Embedding) → List Embedding → List Embedding
  | [], _ => []
  | some v :: rest, new => v :: fill rest new
  | none :: rest, v :: new => v :: fill rest new
  | none :: rest, [] => fill rest []

/-- The texts without a vector, each as often as it comes. -/
def missing (c : Cache) (texts : List String) : List String :=
  texts.filter fun t => !Dict.contains c t

def embedAll (inner : Embedder) (c : Cache) (texts : List String) : Answer (List Embedding) :=
  let known := texts.map (Dict.get? c)
  match missing c texts with
  | [] => ⟨.ok (fill known []), c, .nothing⟩
  | absent =>
    match inner.embedAll absent with
    | .error e => ⟨.error e, c, .several absent⟩
    | .ok vectors =>
      if vectors.length = absent.length then
        ⟨.ok (fill known vectors), Dict.update c (absent.zip vectors), .several absent⟩
      else
        ⟨.error (Embedder.miscounted inner.provider absent.length vectors.length), c, .several absent⟩

end Cache

end GoalCompiler
