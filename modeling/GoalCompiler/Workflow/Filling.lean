import GoalCompiler.Failure

/-! Replacing the placeholders of a step from a scope. Along with each result come the names that it was
made from. -/
namespace GoalCompiler

open Expression (Scope)

/-- A result with the names of the variables in it. -/
structure Traced (α : Type) where
  value : α
  names : NameSet

namespace Traced

def map (f : α → β) (t : Traced α) : Traced β := ⟨f t.value, t.names⟩

def pair (a : Traced α) (b : Traced β) : Traced (α × β) :=
  ⟨(a.value, b.value), NameSet.union a.names b.names⟩

end Traced

namespace Filling

def text (scope : Scope) (s : String) : Except Failure (Traced String) :=
  match Template.fill scope s with
  | .ok filled => .ok ⟨filled.text, filled.referenced⟩
  | .error e => .error (.template e)

def optional (scope : Scope) : Option String → Except Failure (Traced (Option String))
  | none => .ok ⟨none, []⟩
  | some s => (text scope s).map (·.map some)

def texts (scope : Scope) : List String → Except Failure (Traced (List String))
  | [] => .ok ⟨[], []⟩
  | s :: rest => do
    let a ← text scope s
    let b ← texts scope rest
    return (a.pair b).map fun (s, rest) => s :: rest

mutual

/-- The texts inside a value, at every depth. -/
def value (scope : Scope) : Json → Except Failure (Traced Json)
  | .str s => (text scope s).map (·.map .str)
  | .arr items => (values scope items).map (·.map .arr)
  | .obj members => (dict scope members).map (·.map .obj)
  | .null => .ok ⟨.null, []⟩
  | .bool b => .ok ⟨.bool b, []⟩
  | .int n => .ok ⟨.int n, []⟩
  | .float x => .ok ⟨.float x, []⟩

def values (scope : Scope) : List Json → Except Failure (Traced (List Json))
  | [] => .ok ⟨[], []⟩
  | j :: rest => do
    let a ← value scope j
    let b ← values scope rest
    return (a.pair b).map fun (j, rest) => j :: rest

def dict (scope : Scope) : List (String × Json) → Except Failure (Traced (List (String × Json)))
  | [] => .ok ⟨[], []⟩
  | (k, j) :: rest => do
    let a ← value scope j
    let b ← dict scope rest
    return (a.pair b).map fun (j, rest) => (k, j) :: rest

end

/-- A step with its texts filled in and without its loop. -/
def step (scope : Scope) (s : Step) : Except Failure (Traced Step) := do
  let id ← optional scope s.id
  let description ← optional scope s.description
  let condition ← optional scope s.condition
  let dependsOn ← texts scope s.dependsOn
  let params ← dict scope s.params
  let names := [description.names, condition.names, dependsOn.names, params.names].foldl
    NameSet.union id.names
  return ⟨{ s with
    id := id.value
    description := description.value
    condition := condition.value
    dependsOn := dependsOn.value
    params := params.value
    loop := none }, names⟩

end Filling

end GoalCompiler
