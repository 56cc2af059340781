import GoalCompiler.Failure
import GoalCompiler.Graph
import GoalCompiler.Workflow.Bindings

/-! Parameters that are computed from others. Each follows the computed parameters that it names, in its
declaration or in its expression; then all are worked out in that order. -/
namespace GoalCompiler

structure ComputedParameter where
  parameter : Parameter
  expression : Expression.Compiled

namespace ComputedParameter

/-- The computed parameters of a workflow, as declared. -/
def ofWorkflow (w : Workflow) : Except Failure (List ComputedParameter) :=
  (w.parameters.filterMap fun p => p.computed.map fun source => (p, source)).mapM fun (p, source) =>
    match Expression.Compiled.read source with
    | .ok e => .ok ⟨p, e⟩
    | .error e => .error (.expression e)

/-- The names that have to be known before the parameter is worked out. -/
def prerequisites (c : ComputedParameter) : NameSet :=
  NameSet.ofList (c.parameter.dependsOn ++ c.expression.identifiers)

/-- The last position of a name. -/
def position? (cs : List ComputedParameter) (name : String) : Option Nat :=
  (cs.zipIdx.reverse.find? fun (c, _) => c.parameter.name == name).map Prod.snd

/-- What each computed parameter needs among the computed parameters. -/
def needs (cs : List ComputedParameter) : Graph.Needs :=
  cs.map fun c => c.prerequisites.filterMap (position? cs)

/-- The computed parameters in an order in which each can be worked out. -/
def inOrder (w : Workflow) : Except Failure (List ComputedParameter) := do
  let cs ← ofWorkflow w
  match Graph.arrange (needs cs) with
  | some order => return order.filterMap fun i => cs[i]?
  | none =>
    let path := (Graph.cycle? (needs cs)).getD []
    throw (.cycle .parameters (path.filterMap fun i => cs[i]?.map (·.parameter.name)))

/-- The value of a computed parameter, if its schema takes it. -/
def evaluate (c : ComputedParameter) (b : Bindings) : Except Failure Json :=
  match c.expression.value b.scope with
  | .error e => .error (.expression e)
  | .ok s => (c.parameter.accept s.toJson).mapError .value

end ComputedParameter

/-- Bindings after some work on them, and the failure that cut it short. -/
structure Progress where
  bindings : Bindings
  failure : Option Failure

/-- Works out the parameters one after another, on what was bound before. One that the caller gave is left
as it is; a failure leaves the bindings made so far. -/
def Bindings.compute (b : Bindings) : List ComputedParameter → Progress
  | [] => ⟨b, none⟩
  | c :: rest =>
    if b.isExplicit c.parameter.name then compute b rest
    else
      match c.evaluate b with
      | .error e => ⟨b, some e⟩
      | .ok v => compute (b.bind c.parameter.name v .computed) rest

end GoalCompiler
