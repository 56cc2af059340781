import GoalCompiler.Embedding.Similarity
import GoalCompiler.Json.Shape
import GoalCompiler.Memory.Stamp

/-! Remembered answers. A mapping keeps the value that a parameter had in a context, with the vector of the
context; a search ranks mappings by how near their contexts are. -/
namespace GoalCompiler

structure Mapping where
  id : Identifier
  workflow : String
  parameter : String
  value : Json
  context : String
  embedding : Embedding
  /-- The uses, counted in 64 bits. -/
  counter : UInt64 := 0
  created : Moment
  lastUsed : Option Moment := none
deriving DecidableEq, Repr

namespace Mapping

def sameKey (a b : Mapping) : Bool :=
  a.workflow == b.workflow && a.parameter == b.parameter && a.context == b.context

/-- How often the mapping was used, so far as 64 bits hold it. -/
def usage (m : Mapping) : Nat := m.counter.toNat

/-- Takes a newer answer; the mark and the usage stay. -/
def absorb (m newer : Mapping) : Mapping :=
  { m with value := newer.value, embedding := newer.embedding }

/-- Counts one more use. After the greatest number the counter goes back to zero. -/
def use (m : Mapping) (now : Moment) : Mapping :=
  { m with counter := m.counter + 1, lastUsed := some now }

@[simp] theorem usage_use (m : Mapping) (now : Moment) : (m.use now).usage = (m.usage + 1) % UInt64.size :=
  UInt64.toNat_add m.counter 1

open Decoder

def identifier : Decoder Identifier := fun j => do
  match Identifier.read? (← text j) with
  | some i => return i
  | none => throw .shape

def moment : Decoder Moment := fun j => do
  match Moment.read? (← text j) with
  | some m => return m
  | none => throw .shape

def fieldNames : List String :=
  ["id", "workflow_name", "parameter", "value", "context_text", "embedding", "usage_count",
   "created_at", "last_used_at"]

def decode : Decoder Mapping := fun j => do
  let ms ← record fieldNames j
  return {
    id := ← required ms "id" identifier
    workflow := ← required ms "workflow_name" text
    parameter := ← required ms "parameter" text
    value := ← required ms "value" any
    context := ← required ms "context_text" text
    embedding := ← required ms "embedding" (list single)
    counter := .ofNat (← required ms "usage_count" (natural 64))
    created := ← required ms "created_at" moment
    lastUsed := ← possible ms "last_used_at" moment }

def fields (m : Mapping) : List (String × Json) :=
  [("id", .str m.id.write), ("workflow_name", .str m.workflow), ("parameter", .str m.parameter),
    ("value", m.value), ("context_text", .str m.context),
    ("embedding", .arr (m.embedding.map fun x => .float (Number.ofShortest x))),
    ("usage_count", Json.ofNat m.usage), ("created_at", .str m.created.text)] ++
    Json.present "last_used_at" (fun t => .str t.text) m.lastUsed

end Mapping

/-- What is looked for among the mappings of a parameter. -/
structure Query where
  workflow : String
  parameter : String
  embedding : Embedding
  /-- The least similarity that counts. -/
  least : Float32 := 0.85
  limit : Nat := 1
deriving Repr

structure Match where
  mapping : Mapping
  similarity : Float32
deriving DecidableEq, Repr

namespace Match

/-- A whole number that orders singles, a negative zero before the positive. -/
def rank (x : Float32) : Int :=
  let bits := x.toBits.toNat
  if bits < 0x80000000 then bits else -(bits - 0x80000000 : Int) - 1

/-- Nearer mappings come first, and of equally near ones those used more often. -/
def before (a b : Match) : Bool :=
  let (x, y) := (rank a.similarity, rank b.similarity)
  y < x || (x == y && b.mapping.usage ≤ a.mapping.usage)

end Match

namespace Query

def speaksOf (q : Query) (m : Mapping) : Bool :=
  m.workflow == q.workflow && m.parameter == q.parameter

def match? (q : Query) (m : Mapping) : Option Match :=
  let s := Embedding.similarity m.embedding q.embedding
  if q.speaksOf m && q.least ≤ s then some ⟨m, s⟩ else none

/-- The matches in their order, no more than asked for. Equal ones stay in the order of the mappings. -/
def run (q : Query) (mappings : List Mapping) : List Match :=
  ((mappings.filterMap q.match?).mergeSort Match.before).take q.limit

end Query

end GoalCompiler
