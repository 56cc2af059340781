import GoalCompiler.Text.Pattern.Reader
import GoalCompiler.Workflow.Step

/-! What the host's state would be after the steps accepted so far, told from the names of their tools.
Nothing is run. Every rule whose pattern is in a tool's name takes effect, in order. -/
namespace GoalCompiler

abbrev HostState := Dict Json

inductive Effect where
  | set (value : Json)
  /-- The value of a parameter of the step; none if the step has no such parameter. -/
  | copy (parameter : String)
deriving Repr

structure HostRule where
  pattern : Text.Pattern
  effects : List (String × Effect) := []
deriving Repr

namespace HostRule

def matchesTool (r : HostRule) (tool : String) : Bool := r.pattern.isIn tool

def applyEffect (params : Dict Json) (state : HostState) (key : String) : Effect → HostState
  | .set value => Dict.insert state key value
  | .copy parameter =>
    match Dict.get? params parameter with
    | some value => Dict.insert state key value
    | none => state

/-- The state after a step that the rule speaks of. -/
def apply (r : HostRule) (params : Dict Json) (state : HostState) : HostState :=
  r.effects.foldl (fun state (key, effect) => applyEffect params state key effect) state

/-- The pattern of the characters of a text, one after another. -/
def literal (s : String) : Text.Pattern :=
  s.toList.foldr (fun c p => .seq (.one (.single c)) p) .empty

def oneOf (ps : List Text.Pattern) : Text.Pattern :=
  match ps with
  | [] => .one .none
  | p :: rest => rest.foldl .alt p

/-- What the known tools do to mode and selection. -/
def standard : List HostRule :=
  [{ pattern := .seq (.anchor .textStart) (.seq (literal "system_set_mode") (.anchor .textEnd))
     effects := [("current_mode", .copy "mode")] },
   { pattern := oneOf [literal "_create_", literal "_duplicate", literal "_add_"]
     effects := [("current_mode", .set (.str "OBJECT")), ("has_selection", .set (.bool true)),
       ("selected_count", .set (.int 1))] },
   { pattern := oneOf [.seq (literal "_select_all") (.anchor .textEnd), literal "_select_by_"]
     effects := [("has_selection", .set (.bool true))] },
   { pattern := oneOf [literal "_deselect", literal "_delete"]
     effects := [("has_selection", .set (.bool false)), ("selected_count", .set (.int 0))] }]

end HostRule

structure Simulator where
  start : HostState
  rules : List HostRule
deriving Repr

namespace Simulator

def defaultStart : HostState :=
  [("current_mode", .str "OBJECT"), ("has_selection", .bool false), ("selected_count", .int 0)]

/-- The standard rules and then more of them, from a start whose keys come before the usual ones. -/
def new (start : HostState) (more : List HostRule) : Simulator :=
  ⟨Dict.update defaultStart start, HostRule.standard ++ more⟩

def apply (s : Simulator) (state : HostState) (step : Step) : HostState :=
  (s.rules.filter (·.matchesTool step.tool)).foldl (fun state r => r.apply step.params state) state

/-- The states that the steps go through, from a state on. -/
def statesFrom (s : Simulator) (state : HostState) : List Step → List HostState
  | [] => [state]
  | step :: rest => state :: statesFrom s (s.apply state step) rest

/-- The states that the steps go through. -/
def states (s : Simulator) (steps : List Step) : List HostState :=
  s.statesFrom s.start steps

end Simulator

end GoalCompiler
