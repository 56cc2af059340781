import GoalCompiler.Compilation.Exchange
import GoalCompiler.Compilation.Stages
import GoalCompiler.Goal.Selection
import GoalCompiler.Resolution.Resolver
import GoalCompiler.Workflow.Computed

/-! The compiler: from a goal to instructions, or to the questions that have to be answered first. -/
namespace GoalCompiler

structure Compiler (σ : Type) where
  registry : Registry
  resolver : Resolver σ
  stepLimit : Nat := defaultStepLimit
  simulator : Option Simulator := none

namespace Compiler
variable {σ : Type}

/-- The workflow that is asked for by name, or by the goal; none if the goal asks for none. -/
def choose (c : Compiler σ) (goal : Goal) : Option String → Except Failure (Option Workflow)
  | some name =>
    match c.registry.get? name with
    | some w => .ok (some w)
    | none => .error (.unknownWorkflow name)
  | none =>
    match c.registry.select goal c.resolver.services.embedder c.resolver.settings.workflowMatch with
    | .ok chosen => .ok (chosen.map Prod.fst)
    | .error e => .error (.service e)

/-- The bindings with all that was resolved; a default is in them already. -/
def merge (b : Bindings) (r : Resolution) : Bindings :=
  (r.bindings.filter fun e => e.2.source != .default).foldl
    (fun b (name, x) => b.bind name x.value x.source) b

/-- The bindings once the computed parameters are worked out. -/
def computed (b : Bindings) (order : List ComputedParameter) : Except Failure Bindings :=
  match b.compute order with
  | ⟨b, none⟩ => .ok b
  | ⟨_, some e⟩ => .error e

/-- From bindings to instructions. -/
def build (limit : Nat) (simulator : Option Simulator) (b : Bindings) (steps : List Step) :
    Except Failure (List Instruction) := do
  let unrolled ← unroll b.scope limit steps
  let settled ← unrolled.mapM fun u => u.settle b
  Settled.checkGraph settled
  let chosen ← Settled.choose settled b simulator
  let ordered ← Settled.inOrder chosen.accepted chosen.dropped
  return ordered.map fun s => s.emit b

/-- What a request starts from, and the order of the computed parameters. -/
def prepare (w : Workflow) (r : CompileRequest) : Except Failure (Bindings × List ComputedParameter) := do
  let b ← w.initialBindings r.explicit
  let order ← ComputedParameter.inOrder w
  return (← computed b order, order)

/-- What is left once the parameters are resolved. -/
def finish (c : Compiler σ) (w : Workflow) (r : CompileRequest) (b : Bindings)
    (order : List ComputedParameter) (resolution : Resolution) : Except Failure CompileResponse := do
  if resolution.isComplete then
    let b ← computed (merge b resolution) order
    return .ready w.name (← build c.stepLimit c.simulator b (r.steps.getD w.steps))
  else return .needsInput w.name (w.questions resolution.unresolved)

/-- Compiles the steps of a workflow for a goal. -/
def compileWith (c : Compiler σ) (w : Workflow) (goal : Goal) (r : CompileRequest) (s : Session σ) :
    Except Failure CompileResponse × Session σ :=
  match prepare w r with
  | .error e => (.error e, s)
  | .ok (b, order) =>
    match c.resolver.resolve w goal b s with
    | (.error e, s) => (.error e, s)
    | (.ok resolution, s) => (c.finish w r b order resolution, s)

def compile (c : Compiler σ) (r : CompileRequest) (s : Session σ) :
    Except Failure CompileResponse × Session σ :=
  match Goal.analyse c.resolver.services.embedder r.goal with
  | .error e => (.error (.service e), s)
  | .ok goal =>
    match c.choose goal r.workflow with
    | .error e => (.error e, s)
    | .ok none => (.ok .noMatch, s)
    | .ok (some w) => c.compileWith w goal r s

/-- Remembers an answer of the caller for all that it is meant for, or says why it is refused. -/
def clarify (c : Compiler σ) (workflow : String) (answer : Clarification) (s : Session σ) :
    Except Failure ClarificationOutcome × Session σ :=
  match c.registry.get? workflow with
  | none => (.error (.unknownWorkflow workflow), s)
  | some w =>
    match w.parameter? answer.parameter with
    | none => (.error (.unknownParameter answer.parameter workflow), s)
    | some p =>
      match p.accept answer.value with
      | .error e =>
        (.ok (.rejected { Question.ofParameter p answer.context with rejected := some e.message }), s)
      | .ok v =>
        let values := w.targetValues p.name answer.context v
        match c.resolver.services.remember s w.name answer.context values with
        | (none, s) => (.ok (.accepted (values.map Prod.fst)), s)
        | (some e, s) => (.error (.service e), s)

end Compiler

end GoalCompiler
