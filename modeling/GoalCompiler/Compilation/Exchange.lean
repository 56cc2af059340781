import GoalCompiler.Compilation.Instruction
import GoalCompiler.Resolution.Question

/-! What passes between the caller and the compiler. -/
namespace GoalCompiler

open Decoder

structure CompileRequest where
  goal : String
  /-- Values that come before all others. -/
  explicit : Dict Json := []
  /-- The workflow, where the goal is not to choose it. -/
  workflow : Option String := none
  /-- Steps in the place of the workflow's own. -/
  steps : Option (List Step) := none
deriving DecidableEq, Repr

def CompileRequest.decode : Decoder CompileRequest := fun j => do
  let ms ← record ["goal", "explicit_params", "workflow_name", "steps_override"] j
  return {
    goal := ← required ms "goal" text
    explicit := ← defaulted ms "explicit_params" (dict any) []
    workflow := ← possible ms "workflow_name" text
    steps := ← possible ms "steps_override" (list Step.decode) }

/-- The word under `tag` says which form a record has; the rest of an array is the record. -/
def Decoder.tagged (tag : String) (form : String → Option (Decoder α)) : Decoder α := fun j => do
  let (word, rest) ← match j with
    | .obj ms => pure (j.member tag, Json.obj (Dict.erase ms tag))
    | .arr (word :: rest) => pure (word, .arr rest)
    | _ => throw .shape
  match form (← text word) with
  | some d => d rest
  | none => throw .shape

inductive CompileResponse where
  | ready (workflow : String) (instructions : List Instruction)
  | needsInput (workflow : String) (questions : List Question)
  | noMatch
deriving DecidableEq, Repr

namespace CompileResponse

def status : CompileResponse → String
  | .ready _ _ => "ready"
  | .needsInput _ _ => "needs_parameter_input"
  | .noMatch => "no_match"

def instructions? : CompileResponse → Option (List Instruction)
  | .ready _ is => some is
  | _ => none

def questions? : CompileResponse → Option (List Question)
  | .needsInput _ qs => some qs
  | _ => none

def decode : Decoder CompileResponse := tagged "status" fun
  | "ready" => some fun j => do
    let ms ← record ["workflow", "instructions"] j
    return .ready (← required ms "workflow" text)
      (← required ms "instructions" (list Instruction.decode))
  | "needs_parameter_input" => some fun j => do
    let ms ← record ["workflow", "questions"] j
    return .needsInput (← required ms "workflow" text)
      (← required ms "questions" (list Question.decode))
  | "no_match" => some fun _ => return .noMatch
  | _ => none

def fields (r : CompileResponse) : List (String × Json) :=
  ("status", .str r.status) :: match r with
    | .ready w is => [("workflow", .str w), ("instructions", .arr (is.map fun i => .obj i.fields))]
    | .needsInput w qs => [("workflow", .str w), ("questions", .arr (qs.map fun q => .obj q.fields))]
    | .noMatch => []

end CompileResponse

/-- A value that the caller gives in reply to a question. -/
structure Clarification where
  parameter : String
  value : Json
  /-- The part of the goal that the question was about. -/
  context : String := ""
deriving DecidableEq, Repr

def Clarification.decode : Decoder Clarification := fun j => do
  let ms ← record ["parameter_name", "value", "context"] j
  return {
    parameter := ← required ms "parameter_name" text
    value := ← required ms "value" any
    context := ← defaulted ms "context" text "" }

inductive ClarificationOutcome where
  /-- The value is remembered for these parameters. -/
  | accepted (stored : List String)
  /-- The parameter does not take the value. -/
  | rejected (q : Question)
deriving DecidableEq, Repr

namespace ClarificationOutcome

def decode : Decoder ClarificationOutcome := tagged "status" fun
  | "accepted" => some fun j => do
    return .accepted (← required (← record ["stored"] j) "stored" (list text))
  | "rejected" => some fun j => do
    return .rejected (← required (← record ["question"] j) "question" Question.decode)
  | _ => none

def fields : ClarificationOutcome → List (String × Json)
  | .accepted stored => [("status", .str "accepted"), ("stored", Json.strings stored)]
  | .rejected q => [("status", .str "rejected"), ("question", .obj q.fields)]

end ClarificationOutcome

end GoalCompiler
