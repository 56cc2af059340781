import GoalCompiler.Text.Phrases
import GoalCompiler.Text.Reading
import GoalCompiler.Workflow.Basic

/-! Which parameters a value is meant for. A value for one member of a group is meant for all of them,
unless the text that it comes from speaks of one side. -/
namespace GoalCompiler

namespace Text

/-- Words that single out members of a group. -/
def sides : List String :=
  ["left", "right", "front", "back", "rear", "top", "bottom", "inner", "outer", "upper", "lower"]

/-- The sides that a text speaks of. -/
def sidesIn (text : String) : List String := (tokens text).filter sides.contains

end Text

/-- The parts of the name between low lines. -/
def Parameter.nameParts (p : Parameter) : List String :=
  (Text.split '_' p.name.toList).map String.ofList

/-- Whether one of the sides is a part of the parameter's name. -/
def Parameter.isOnSide (p : Parameter) (sides : List String) : Bool :=
  p.nameParts.any sides.contains

namespace Workflow

/-- The members of a group that a value for `p` is meant for when it comes from this text. -/
def groupTargets (w : Workflow) (p : Parameter) (group context : String) : List Parameter :=
  let sides := Text.sidesIn context
  if sides.isEmpty then w.members group
  else match (w.members group).filter (·.isOnSide sides) with
    | [] => [p]
    | qualified => qualified

/-- The parameters that a value for the named one is meant for when it comes from this text. -/
def targets (w : Workflow) (parameter context : String) : List Parameter :=
  match w.parameter? parameter with
  | none => []
  | some p =>
    match p.group with
    | none => [p]
    | some group => w.groupTargets p group context

/-- The targets that take the value, each with the form in which it takes it. -/
def targetValues (w : Workflow) (parameter context : String) (value : Json) : List (String × Json) :=
  (w.targets parameter context).filterMap fun p =>
    match p.accept value with
    | .ok v => some (p.name, v)
    | .error _ => none

end Workflow

end GoalCompiler
