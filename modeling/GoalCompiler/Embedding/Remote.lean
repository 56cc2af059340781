import GoalCompiler.Embedding.Embedder
import GoalCompiler.Json.Shape

/-! Vectors from a server: what is sent to it and how its reply is read. -/
namespace GoalCompiler

/-- A document sent to a server. -/
structure Message where
  url : String
  headers : List (String × String)
  body : Json
deriving DecidableEq, Repr

structure RemoteModel where
  baseUrl : String := "https://api.openai.com"
  key : String
  model : String := "text-embedding-3-small"
  /-- The length that vectors are shortened to. -/
  dimensions : Option Nat := none
deriving DecidableEq, Repr

namespace RemoteModel

def provider : String := "openai"

/-- The address without slashes at its end. -/
def address (r : RemoteModel) : String :=
  String.ofList (r.baseUrl.toList.reverse.dropWhile (· == '/')).reverse

def message (r : RemoteModel) (input : Json) : Message where
  url := r.address ++ "/v1/embeddings"
  headers := [("Authorization", "Bearer " ++ r.key), ("Content-Type", "application/json")]
  body := Json.ofMembers
    ([("model", .str r.model), ("input", input)] ++ Json.present "dimensions" Json.ofNat r.dimensions)

/-- A vector of a reply with the number of its text. -/
structure Item where
  index : Nat
  embedding : Embedding

open Decoder in
def Item.decode : Decoder Item := fun j => do
  let ms ← record ["index", "embedding"] j
  let index ← required ms "index" (natural 64)
  let embedding ← required ms "embedding" (list single)
  return ⟨index, embedding⟩

open Decoder in
def items : Decoder (List Item) := fun j => do
  required (← record ["data"] j) "data" (list Item.decode)

/-- The vectors of a reply, in the order of their numbers. -/
def read (expected : Nat) (reply : Json) : Except ServiceError (List Embedding) :=
  match items reply with
  | .error _ => .error (.provider provider "Failed to parse embedding response")
  | .ok found =>
    if found.length = expected then
      .ok ((found.mergeSort fun a b => a.index ≤ b.index).map Item.embedding)
    else .error (Embedder.miscounted provider expected found.length)

def askOne (r : RemoteModel) (text : String) : Message := r.message (.str text)

def askAll (r : RemoteModel) (texts : List String) : Message := r.message (Json.strings texts)

def readOne (reply : Json) : Except ServiceError Embedding := do
  match (← read 1 reply).getLast? with
  | some v => return v
  | none => throw (.provider provider "Empty embedding response")

/-- The embedder that sends its messages through `post`. Nothing is sent for no texts. -/
def embedder (r : RemoteModel) (post : Message → Except ServiceError Json) : Embedder where
  provider := provider
  model := r.model
  embed text := (post (r.askOne text)).bind readOne
  embedAll texts :=
    if texts.isEmpty then .ok [] else (post (r.askAll texts)).bind (read texts.length)

end RemoteModel

end GoalCompiler
