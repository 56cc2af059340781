import GoalCompiler.Workflow.Parameter
import GoalCompiler.Workflow.Step

/-! Workflows: named templates with parameters, modifiers and steps. -/
namespace GoalCompiler

/-- A phrase that sets parameters when a goal contains its words. -/
structure Modifier where
  phrase : String
  values : Dict Json := []
  /-- Words that rule the modifier out when a goal contains them. -/
  negativeSignals : List String := []
deriving DecidableEq, Repr

structure Workflow where
  name : String
  description : String := ""
  /-- Phrases that select the workflow when a goal contains one. -/
  triggers : List String := []
  parameters : List Parameter := []
  modifiers : List Modifier := []
  defaults : Dict Json := []
  steps : List Step := []
deriving DecidableEq, Repr

namespace Workflow

def parameter? (w : Workflow) (name : String) : Option Parameter :=
  w.parameters.find? (·.name == name)

/-- The parameters of a group, as declared. -/
def members (w : Workflow) (group : String) : List Parameter :=
  w.parameters.filter (·.group == some group)

end Workflow

end GoalCompiler
