import GoalCompiler.CommandLine.Value
import GoalCompiler.Json.Writer
import GoalCompiler.Resolution.Session

/-! Asking in a terminal: each question is written out, and the next line of the input answers it. An empty
line, or no line, declines. -/
namespace GoalCompiler.CommandLine

/-- A question as it is put to a reader. -/
def writeQuestion (workflow : String) (q : Question) : String :=
  let description := if q.description.isEmpty then "" else ": " ++ q.description
  let range := match q.range with
    | some (least, greatest) => ", " ++ writeBound least ++ " to " ++ writeBound greatest
    | none => ""
  let allowed := match q.allowed with
    | some values => ", one of " ++ " | ".intercalate (values.map Json.write)
    | none => ""
  let members :=
    if 1 < q.members.length then "  applies to: " ++ ", ".intercalate q.members ++ "\n" else ""
  let rejected := match q.rejected with
    | some reason => "  previous answer rejected: " ++ reason ++ "\n"
    | none => ""
  "[" ++ workflow ++ "] " ++ q.parameter ++ description ++ " (" ++ q.type.name ++ range ++ allowed ++
    ", default " ++ q.default.write ++ ")\n" ++ members ++ "  context: \"" ++ q.context ++ "\"\n" ++
    rejected ++ "> "

/-- The text after the first end of a line. -/
def afterLine : List Char → List Char
  | [] => []
  | '\n' :: rest => rest
  | _ :: rest => afterLine rest

/-- What is left of the input after `n` lines. -/
def unread (input : List Char) : Nat → List Char
  | 0 => input
  | n + 1 => unread (afterLine input) n

/-- What a line says. -/
def readAnswer (line : List Char) : Reply :=
  match Text.trimChars line with
  | [] => .declined
  | answer => .value (readValue (String.ofList answer))

/-- The handler that takes its answers from the lines of the input, one for each question. -/
def answers (input : String) : Handler := fun asked =>
  readAnswer ((unread input.toList (asked.length - 1)).takeWhile (· != '\n'))

/-- All that was written for the questions. -/
def transcript (asked : List Inquiry) : String :=
  String.join (asked.map fun i => writeQuestion i.workflow i.question)

end GoalCompiler.CommandLine
