import GoalCompiler.Workflow.Loop

/-! Steps of a workflow: a tool with its parameters, and how, when and after what it runs. Fields that the
library does not know are `extensions` and stay with the step. -/
namespace GoalCompiler

inductive FailurePolicy where
  | stop | skip | goOn
deriving DecidableEq, Repr, Inhabited

def FailurePolicy.name : FailurePolicy → String
  | .stop => "stop"
  | .skip => "skip"
  | .goOn => "continue"

structure Step where
  id : Option String := none
  tool : String
  params : Dict Json := []
  description : Option String := none
  condition : Option String := none
  /-- A step whose condition cannot be decided is left out if it is optional. -/
  optional : Bool := false
  loop : Option Loop := none
  dependsOn : List String := []
  timeout : Option Float := none
  maxRetries : Option Nat := none
  retryDelay : Option Float := none
  onFailure : FailurePolicy := .stop
  priority : Option Int := none
  extensions : Dict Json := []
deriving DecidableEq, Repr

/-- The name of a step in messages. -/
def Step.label (s : Step) : String := s.id.getD s.tool

end GoalCompiler
