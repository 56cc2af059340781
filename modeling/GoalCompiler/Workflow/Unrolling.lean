import GoalCompiler.Workflow.Filling

/-! Unrolling loops. A step is repeated once for each combination of its loop variables, the first variable
changing slowest, and each copy has its placeholders replaced. Neighbours of one group take turns. Every
step goes this way, so that one without a loop has its placeholders replaced too. -/
namespace GoalCompiler

open Expression (Scope Scalar)

/-- A step that comes out of a template. -/
structure Unrolled where
  step : Step
  /-- The loop variables of this copy. -/
  bindings : Dict Json := []
  /-- The variables that stand in its text. -/
  referenced : NameSet := []
  /-- The position of the template. -/
  origin : Nat
deriving DecidableEq, Repr

/-- The values of one loop variable. -/
inductive Axis where
  | range (first : Int) (size : Nat)
  | values (items : List Json)

/-- The greatest number of iterations that is told apart. -/
def maxCount : Nat := 0xFFFFFFFFFFFFFFFF

namespace Axis

def size : Axis → Nat
  | .range _ n => n
  | .values items => items.length

def get (a : Axis) (k : Nat) : Json :=
  match a with
  | .range first _ => .int (first + k)
  | .values items => items.getD k .null

/-- From `first` to `last`, both included; nothing if `last` is before `first`. -/
def between (first last : Int) : Axis :=
  .range first (if last < first then 0 else min maxCount ((last - first).toNat + 1))

end Axis

/-- The loop variables of a step with their values. -/
structure Plan where
  names : List String
  axes : List Axis

namespace Plan

/-- A step without a loop comes once. -/
def once : Plan := ⟨[], []⟩

/-- The number of combinations of the sizes, or `maxCount` if a product on the way is past it. -/
def product (sizes : List Nat) : Nat :=
  let step (acc : Option Nat) (n : Nat) : Option Nat :=
    acc.bind fun a => if a * n ≤ maxCount then some (a * n) else none
  (sizes.foldl step (some 1)).getD maxCount

def count (p : Plan) : Nat := product (p.axes.map Axis.size)

/-- The values of combination `k`, and `k` divided by the number of combinations. -/
def pick : List Axis → Nat → List Json × Nat
  | [], k => ([], k)
  | a :: rest, k =>
    let (values, k) := pick rest k
    let size := max 1 a.size
    (a.get (k % size) :: values, k / size)

def bindings (p : Plan) (k : Nat) : Dict Json :=
  Dict.ofList (p.names.zip (pick p.axes k).1)

end Plan

namespace Unrolling

/-- The whole number that a bound stands for. -/
def bound (scope : Scope) (label : String) : Bound → Except Failure Int
  | .literal n => .ok n.toInt
  | .expression source => do
    let text ← Filling.text scope source
    match Expression.evaluate text.value scope with
    | .error e => .error (.expression e)
    | .ok (.int n) => .ok n.toInt
    | .ok (.float x) =>
      match wholeNumber? x with
      | some n => .ok n
      | none => .error (.invalidLoop label (.notWhole source (.float x)))
    | .ok s => .error (.invalidLoop label (.notWhole source s))

def axis (scope : Scope) (label : String) (r : Range) : Except Failure Axis := do
  let first ← bound scope label r.first
  let last ← bound scope label r.last
  return .between first last

def planLoop (scope : Scope) (label : String) : Iteration → Except Failure Plan
  | .range name r => do return ⟨[name], [← axis scope label r]⟩
  | .values name items => .ok ⟨[name], [.values items]⟩
  | .product names ranges =>
    if names.isEmpty || names.length != ranges.length then
      .error (.invalidLoop label (.unequal names.length ranges.length))
    else do return ⟨names, ← ranges.mapM (axis scope label)⟩

/-- How often a step comes and with which loop variables. -/
def plan (scope : Scope) (s : Step) : Except Failure Plan :=
  match s.loop with
  | none => .ok .once
  | some l => (planLoop scope s.label l.iteration).mapError (·.inside s.label)

/-- A template with the position it has among all. -/
structure Template where
  step : Step
  origin : Nat

def group? (s : Step) : Option String := s.loop.bind Loop.group

/-- The steps cut into runs: neighbours of one group stay together, any other step is alone. -/
def runs : List Template → List (List Template)
  | [] => []
  | t :: rest =>
    match runs rest with
    | (u :: run) :: others =>
      if (group? t.step).isSome && group? t.step == group? u.step then (t :: u :: run) :: others
      else [t] :: (u :: run) :: others
    | others => [t] :: others

/-- All steps of a group come equally often. -/
def checkGroup (group : String) (expected : Nat) : List (Template × Plan) → Except Failure Unit
  | [] => .ok ()
  | (t, p) :: rest =>
    if p.count = expected then checkGroup group expected rest
    else .error (.unequalGroup group t.step.label expected p.count)

/-- One copy of a template. Its loop variables hide those of the scope. -/
def instantiate (scope : Scope) (t : Template) (bindings : Dict Json) : Except Failure Unrolled :=
  match Filling.step (Scope.over (Scope.ofDict bindings) scope) t.step with
  | .ok filled => .ok ⟨filled.value, bindings, filled.names, t.origin⟩
  | .error e => .error (e.inside t.step.label)

/-- The copies of a run: the first of each template, then the second of each, and so on. -/
def copies (scope : Scope) (run : List (Template × Plan)) (count : Nat) :
    Except Failure (List Unrolled) :=
  ((List.range count).flatMap fun k => run.map fun (t, p) => (t, p.bindings k)).mapM
    fun (t, b) => instantiate scope t b

/-- Unrolls a run after `emitted` steps came out before. -/
def unrollRun (scope : Scope) (limit emitted : Nat) (run : List Template) :
    Except Failure (List Unrolled) := do
  let planned ← run.mapM fun t => do return (t, ← plan scope t.step)
  let counts := planned.map fun (_, p) => p.count
  let count := counts.headD 0
  match run.head?.bind fun t => group? t.step with
  | some group => checkGroup group count planned
  | none => pure ()
  let attempted := counts.foldl (fun n c => min maxCount (n + c)) emitted
  if limit < attempted then throw (.stepLimit limit attempted)
  copies scope planned count

def unrollRuns (scope : Scope) (limit : Nat) (done : List Unrolled) :
    List (List Template) → Except Failure (List Unrolled)
  | [] => .ok done
  | run :: rest => do
    let more ← unrollRun scope limit done.length run
    unrollRuns scope limit (done ++ more) rest

end Unrolling

/-- The steps that come of the templates, at most `limit` of them. -/
def unroll (scope : Scope) (limit : Nat) (steps : List Step) : Except Failure (List Unrolled) :=
  Unrolling.unrollRuns scope limit [] (Unrolling.runs (steps.zipIdx.map fun (s, i) => ⟨s, i⟩))

/-- The number of steps that may come out unless the settings say otherwise. -/
def defaultStepLimit : Nat := 2000

end GoalCompiler
