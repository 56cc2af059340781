import GoalCompiler.Compilation.HostState
import GoalCompiler.Compilation.Instruction
import GoalCompiler.Workflow.Sequence
import GoalCompiler.Workflow.Unrolling

/-! From unrolled steps to instructions: values of parameters are substituted, conditions choose among the
steps, and what is left is put in order and emitted. -/
namespace GoalCompiler

open Expression (Scope)

/-- A step whose parameters have their values. -/
structure Settled where
  step : Step
  bindings : Dict Json := []
  /-- All variables that the step was made from. -/
  referenced : NameSet := []
deriving DecidableEq, Repr

namespace Substitution

/-- A text that asks for a value is replaced by it; any other text stays. -/
def text (scope : Scope) (s : String) : Except Expression.Error (Traced Json) :=
  match Request.ofText s with
  | .calculate body => do
    let e ← Expression.Compiled.read body
    let v ← e.value scope
    return ⟨v.toJson, e.identifiers⟩
  | .reference name =>
    match scope name with
    | some j => .ok ⟨j, [name]⟩
    | none => .error ⟨.unknownSymbol name, s⟩
  | .none => .ok ⟨.str s, []⟩

mutual

def value (scope : Scope) : Json → Except Expression.Error (Traced Json)
  | .str s => text scope s
  | .arr items => (values scope items).map (·.map .arr)
  | .obj members => (dict scope members).map (·.map .obj)
  | .null => .ok ⟨.null, []⟩
  | .bool b => .ok ⟨.bool b, []⟩
  | .int n => .ok ⟨.int n, []⟩
  | .float x => .ok ⟨.float x, []⟩

def values (scope : Scope) : List Json → Except Expression.Error (Traced (List Json))
  | [] => .ok ⟨[], []⟩
  | j :: rest => do
    let a ← value scope j
    let b ← values scope rest
    return (a.pair b).map fun (j, rest) => j :: rest

def dict (scope : Scope) : List (String × Json) → Except Expression.Error (Traced (Dict Json))
  | [] => .ok ⟨[], []⟩
  | (k, j) :: rest => do
    let a ← value scope j
    let b ← dict scope rest
    return (a.pair b).map fun (j, rest) => (k, j) :: rest

end

end Substitution

/-- The parameters of a step with their values. Its loop variables hide those of the request. -/
def Unrolled.settle (u : Unrolled) (b : Bindings) : Except Failure Settled :=
  match Substitution.dict (Scope.over (Scope.ofDict u.bindings) b.scope) u.step.params with
  | .ok params =>
    let own := NameSet.union u.referenced (Dict.keys u.bindings)
    .ok ⟨{ u.step with params := params.value }, u.bindings, NameSet.union own params.names⟩
  | .error e => .error ((Failure.expression e).inside u.step.label)

namespace Settled

def dependents (steps : List Settled) : List Dependent := steps.map (·.step.dependent)

/-- The steps refer to each other and not in a circle, before any is left out. -/
def checkGraph (steps : List Settled) : Except Failure Unit := Dependent.check (dependents steps)

/-- The names that a condition sees: loop variables, then simulated state, then the request. -/
def conditionScope (s : Settled) (b : Bindings) (state : HostState) : Scope :=
  Scope.over (Scope.ofDict s.bindings) (Scope.over (Scope.ofDict state) b.scope)

/-- What a condition says about its step. -/
inductive Verdict where
  | keep (referenced : NameSet)
  | leave
  | fail (e : Expression.Error)

/-- A condition that cannot be decided leaves an optional step out and fails any other. Names of simulated
state are not counted as read. -/
def judge (s : Settled) (b : Bindings) (state : HostState) : Verdict :=
  match s.step.condition with
  | none => .keep s.referenced
  | some source =>
    let decided : Except Expression.Error (Bool × NameSet) := do
      let e ← Expression.Compiled.read source
      let holds ← e.holds (s.conditionScope b state)
      return (holds, e.identifiers)
    match decided with
    | .ok (true, names) =>
      .keep (NameSet.union s.referenced (names.filter fun n => !Dict.contains state n))
    | .ok (false, _) => .leave
    | .error e => if s.step.optional then .leave else .fail e

/-- The steps that are kept and the ids of those left out. -/
structure Chosen where
  accepted : List Settled := []
  dropped : NameSet := []
deriving DecidableEq, Repr

/-- Goes through the steps in order. The state moves on with each step that is kept. -/
def chooseFrom (b : Bindings) (simulator : Option Simulator) (state : HostState) (chosen : Chosen) :
    List Settled → Except Failure Chosen
  | [] => .ok chosen
  | s :: rest =>
    match s.judge b state with
    | .keep referenced =>
      let state := match simulator with
        | some simulator => simulator.apply state s.step
        | none => state
      chooseFrom b simulator state
        { chosen with accepted := chosen.accepted ++ [{ s with referenced }] } rest
    | .leave =>
      let dropped := match s.step.id with
        | some id => NameSet.insert chosen.dropped id
        | none => chosen.dropped
      chooseFrom b simulator state { chosen with dropped } rest
    | .fail e => .error (.condition s.step.label e)

/-- Lets the conditions choose among the steps. -/
def choose (steps : List Settled) (b : Bindings) (simulator : Option Simulator) :
    Except Failure Chosen :=
  chooseFrom b simulator ((simulator.map Simulator.start).getD []) {} steps

/-- The steps in the order in which they run. -/
def inOrder (steps : List Settled) (dropped : List String) : Except Failure (List Settled) :=
  (Dependent.sequence (dependents steps) dropped).map fun order => order.filterMap fun i => steps[i]?

/-- The source of a variable of the step: a loop variable hides one of the request. -/
def source? (s : Settled) (b : Bindings) (name : String) : Option Source :=
  if Dict.contains s.bindings name then some .loop else b.source? name

def emit (s : Settled) (b : Bindings) : Instruction :=
  .ofStep s.step (s.referenced.filterMap fun name => (s.source? b name).map fun src => (name, src))

end Settled

namespace Workflow

/-- The defaults of the parameters, then those of the workflow. -/
def defaultBindings (w : Workflow) : Bindings :=
  let declared := (w.parameters.filter fun p => !p.isComputed).foldl
    (fun b p => Bindings.bind b p.name p.default .default) []
  w.defaults.foldl (fun b (name, value) => Bindings.bind b name value .default) declared

/-- Binds what the caller gives. A name is a parameter, which has to take the value, or has a default. -/
def bindExplicit (w : Workflow) (b : Bindings) : List (String × Json) → Except Failure Bindings
  | [] => .ok b
  | (name, value) :: rest =>
    match w.parameter? name with
    | some p =>
      match p.accept value with
      | .ok v => bindExplicit w (Bindings.bind b name v .explicit) rest
      | .error e => .error (.value e)
    | none =>
      if Dict.contains w.defaults name then
        bindExplicit w (Bindings.bind b name value .explicit) rest
      else .error (.unknownParameter name w.name)

/-- What a request starts from: the defaults and over them what the caller gives. -/
def initialBindings (w : Workflow) (explicit : Dict Json) : Except Failure Bindings :=
  w.bindExplicit w.defaultBindings explicit

end Workflow

end GoalCompiler
