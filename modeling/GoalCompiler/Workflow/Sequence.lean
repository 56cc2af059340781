import GoalCompiler.Failure
import GoalCompiler.Graph

/-! The order of steps. A step follows the steps whose ids it depends on. Alternatives may share an id until
conditions have chosen among them. -/
namespace GoalCompiler

/-- What the order of a step hangs on. -/
structure Dependent where
  id : Option String
  dependsOn : List String
deriving DecidableEq, Repr

namespace Dependent

/-- The name of a step in a path. -/
def label (d : Dependent) : String := d.id.getD "<anonymous>"

/-- The positions of the steps with the id. -/
def positions (ds : List Dependent) (id : String) : List Nat :=
  ds.zipIdx.filterMap fun (d, i) => if d.id == some id then some i else none

/-- Dependencies among the steps; an id that no step has needs nothing. -/
def needs (ds : List Dependent) : Graph.Needs :=
  ds.map fun d => d.dependsOn.flatMap (positions ds)

/-- A closed path of dependencies, by the ids on it. -/
def cycle? (ds : List Dependent) : Option (List String) :=
  (Graph.cycle? (needs ds)).map fun path => path.filterMap fun i => ds[i]?.map label

/-- The first id that comes again, in the order in which it comes again. -/
def repeatedId? (seen : List String) : List Dependent → Option String
  | [] => none
  | d :: rest =>
    match d.id with
    | none => repeatedId? seen rest
    | some id => if seen.contains id then some id else repeatedId? (id :: seen) rest

/-- The first dependency on an id that is neither a step's nor `dropped`. -/
def missing? (ds : List Dependent) (dropped : List String) : Option (Dependent × String) :=
  let known (id : String) : Bool := ds.any (·.id == some id) || dropped.contains id
  ds.findSome? fun d => (d.dependsOn.find? fun id => !known id).map fun id => (d, id)

/-- Every dependency is on a step, and there is no way around in a circle. -/
def check (ds : List Dependent) : Except Failure Unit :=
  match missing? ds [] with
  | some (d, id) => .error (.unknownDependency d.label id)
  | none =>
    match cycle? ds with
    | some path => .error (.cycle .steps path)
    | none => .ok ()

/-- The positions of the steps in the order in which they run: each after those it depends on, and of two
that could come next the one that is declared first. Ids are distinct; dropped ids are depended on in vain. -/
def sequence (ds : List Dependent) (dropped : List String) : Except Failure (List Nat) :=
  match repeatedId? [] ds with
  | some id => .error (.duplicateId id)
  | none =>
    match missing? ds dropped with
    | some (d, id) => .error (.unknownDependency d.label id)
    | none =>
      match Graph.arrange (needs ds) with
      | some order => .ok order
      | none => .error (.cycle .steps ((cycle? ds).getD []))

end Dependent

def Step.dependent (s : Step) : Dependent := ⟨s.id, s.dependsOn⟩

end GoalCompiler
