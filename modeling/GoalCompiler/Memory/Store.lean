import GoalCompiler.Memory.Mapping
import GoalCompiler.ServiceError

/-! Stores of mappings. A `Memory` says what can be done with a store, whatever it is; `Records` is the
plain store, which is a list of mappings. -/
namespace GoalCompiler

/-- Operations on a store. A failed operation may have changed it. -/
structure Memory (σ : Type) where
  search : σ → Query → Except ServiceError (List Match)
  upsert : σ → Mapping → Except ServiceError Mapping × σ
  /-- Counts one more use; gives the new count. -/
  recordUsage : σ → Identifier → Moment → Except ServiceError Nat × σ

abbrev Records := List Mapping

namespace Records

/-- Gives the newer answer to the mapping with the same key, or adds one at the end. -/
def upsert : Records → Mapping → Mapping × Records
  | [], m => (m, [m])
  | r :: rest, m =>
    if r.sameKey m then (r.absorb m, r.absorb m :: rest)
    else
      let (stored, rest) := upsert rest m
      (stored, r :: rest)

def use? : Records → Identifier → Moment → Option (Nat × Records)
  | [], _, _ => none
  | r :: rest, id, now =>
    if r.id = id then some ((r.use now).usage, r.use now :: rest)
    else (use? rest id now).map fun (n, rest) => (n, r :: rest)

def get? (rs : Records) (id : Identifier) : Option Mapping := rs.find? (·.id == id)

def unknown (id : Identifier) : ServiceError := .notFound ("Mapping '" ++ id.write ++ "' not found")

/-- The store that is its mappings, in the order in which they came. -/
def memory : Memory Records where
  search rs q := .ok (q.run rs)
  upsert rs m :=
    let (stored, rs) := upsert rs m
    (.ok stored, rs)
  recordUsage rs id now :=
    match use? rs id now with
    | some (n, rs) => (.ok n, rs)
    | none => (.error (unknown id), rs)

end Records

end GoalCompiler
