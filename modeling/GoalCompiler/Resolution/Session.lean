import GoalCompiler.Embedding.Embedder
import GoalCompiler.Failure
import GoalCompiler.Memory.Store
import GoalCompiler.Resolution.Question

/-! What a resolution works with: an embedder, a memory, and perhaps somebody to ask. A session is the state
that it leaves behind: the memory and what has been asked. -/
namespace GoalCompiler

inductive Reply where
  | value (v : Json)
  | declined
  | failed (e : ServiceError)
  | timedOut
deriving DecidableEq, Repr

/-- One time that a question is put. -/
structure Inquiry where
  workflow : String
  question : Question
  attempt : Nat
deriving DecidableEq, Repr

/-- Who is asked replies to the last inquiry, knowing those before it. -/
abbrev Handler := List Inquiry → Reply

/-- The handler that gives the replies in their order and then declines. -/
def Handler.scripted (replies : List Reply) : Handler := fun asked =>
  (replies[asked.length - 1]?).getD .declined

structure Services (σ : Type) where
  embedder : Embedder
  memory : Memory σ
  handler : Option Handler
  /-- The mark of the `n`th mapping that is made. -/
  stamp : Nat → Stamp

structure Session (σ : Type) where
  memory : σ
  asked : List Inquiry := []
  /-- How many mappings have been made. -/
  made : Nat := 0
deriving Repr

variable {σ : Type}

/-- Puts a question to the handler. -/
def Session.ask (s : Session σ) (handler : Handler) (i : Inquiry) : Reply × Session σ :=
  let asked := s.asked ++ [i]
  (handler asked, { s with asked })

namespace Services

/-- Stores one value, marked as new. -/
def store (env : Services σ) (s : Session σ) (workflow context : String) (v : Embedding)
    (entry : String × Json) : Except ServiceError Mapping × Session σ :=
  let stamp := env.stamp s.made
  let (result, memory) := env.memory.upsert s.memory
    { id := stamp.id, workflow, parameter := entry.1, value := entry.2, context, embedding := v,
      created := stamp.moment }
  (result, { s with memory, made := s.made + 1 })

/-- Stores the values one after another, up to the first failure. -/
def storeAll (env : Services σ) (s : Session σ) (workflow context : String) (v : Embedding) :
    List (String × Json) → Option ServiceError × Session σ
  | [] => (none, s)
  | entry :: rest =>
    match env.store s workflow context v entry with
    | (.ok _, s) => storeAll env s workflow context v rest
    | (.error e, s) => (some e, s)

/-- Remembers the values that an answer gave to parameters in a context. -/
def remember (env : Services σ) (s : Session σ) (workflow context : String)
    (values : List (String × Json)) : Option ServiceError × Session σ :=
  match env.embedder.embed context with
  | .error e => (some e, s)
  | .ok v => env.storeAll s workflow context v values

end Services

end GoalCompiler
