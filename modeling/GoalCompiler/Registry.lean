import GoalCompiler.Text.LetterCase
import GoalCompiler.Text.Phrases
import GoalCompiler.Workflow.Validation

/-! Registries: workflows that have been checked, with distinct names. -/
namespace GoalCompiler

structure Registry where
  workflows : List Workflow := []
deriving DecidableEq, Repr

namespace Registry

/-- The workflows in their order, if each is valid and no two have one name. -/
def load (before : List Workflow) : List Workflow → Except Failure Registry
  | [] => .ok ⟨before⟩
  | w :: rest => do
    w.validate
    if before.any (·.name == w.name) then throw (.invalidWorkflow w.name .repeatedName)
    load (before ++ [w]) rest

def ofList (workflows : List Workflow) : Except Failure Registry := load [] workflows

def names (r : Registry) : List String := r.workflows.map Workflow.name

def get? (r : Registry) (name : String) : Option Workflow := r.workflows.find? (·.name == name)

/-- Letters, numbers and low lines make up the words of a trigger. -/
def isTriggerChar (c : Char) : Bool := Text.isLetter c || Text.isNumeric c || c == '_'

/-- The words of a text, one being read. -/
def splitWords (word : List Char) : List Char → List (List Char)
  | [] => if word.isEmpty then [] else [word.reverse]
  | c :: rest =>
    if isTriggerChar c then splitWords (c :: word) rest
    else if word.isEmpty then splitWords [] rest
    else word.reverse :: splitWords [] rest

def triggerWords (text : String) : List String :=
  (splitWords [] text.toList).map fun cs => Text.lowerText (String.ofList cs)

/-- Whether the goal has one of the triggers, word by word and in any case. -/
def triggers (w : Workflow) (goal : String) : Bool :=
  let words := triggerWords goal
  w.triggers.any fun t => Text.hasRun words (triggerWords t)

/-- The first workflow with a trigger in the goal. -/
def triggered? (r : Registry) (goal : String) : Option Workflow :=
  r.workflows.find? fun w => triggers w goal

end Registry

end GoalCompiler
