import GoalCompiler.Json.Reader
import GoalCompiler.Text.Character

/-! Values on the command line. -/
namespace GoalCompiler.CommandLine

/-- A document where the text is one, and otherwise the text itself. -/
def readValue (text : String) : Json := (Json.parse? text).getD (.str text)

inductive AssignmentFlaw where
  | noSign (text : String)
  | noName (text : String)
deriving DecidableEq, Repr

def AssignmentFlaw.message : AssignmentFlaw → String
  | .noSign text => "expected name=value, got '" ++ text ++ "'"
  | .noName text => "missing parameter name in '" ++ text ++ "'"

/-- A name and, after the first equals sign, its value. -/
def readAssignment (text : String) : Except AssignmentFlaw (String × Json) :=
  let cs := text.toList
  match cs.dropWhile (· != '=') with
  | [] => .error (.noSign text)
  | _ :: value =>
    match Text.trimChars (cs.takeWhile (· != '=')) with
    | [] => .error (.noName text)
    | name => .ok (String.ofList name, readValue (Text.trim (String.ofList value)))

end GoalCompiler.CommandLine
