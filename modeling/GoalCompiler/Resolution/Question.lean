import GoalCompiler.Goal.Targets
import GoalCompiler.Workflow.Document

/-! Questions about parameters that a goal speaks of but does not settle. -/
namespace GoalCompiler

structure Question where
  parameter : String
  /-- The part of the goal that speaks of the parameter. -/
  context : String
  description : String
  range : Option (Float × Float) := none
  allowed : Option (List Json) := none
  default : Json
  type : ValueType
  group : Option String := none
  /-- All the parameters that an answer is for, when a group is asked for. -/
  members : List String := []
  /-- Why the last answer was refused. -/
  rejected : Option String := none
deriving DecidableEq, Repr

namespace Question

def ofParameter (p : Parameter) (context : String) : Question where
  parameter := p.name
  context := context
  description := p.description
  range := p.range
  allowed := p.allowed
  default := p.default
  type := p.type

open Decoder

def fieldNames : List String :=
  ["parameter", "context", "description", "range", "enum", "default", "type", "group", "members",
   "rejected"]

def decode : Decoder Question := fun j => do
  let ms ← record fieldNames j
  return {
    parameter := ← required ms "parameter" text
    context := ← required ms "context" text
    description := ← required ms "description" text
    range := ← possible ms "range" (pair real real)
    allowed := ← possible ms "enum" (list any)
    default := ← required ms "default" any
    type := ← required ms "type" (oneOf ValueType.words)
    group := ← possible ms "group" text
    members := ← defaulted ms "members" (list text) []
    rejected := ← possible ms "rejected" text }

def fields (q : Question) : List (String × Json) :=
  [("parameter", .str q.parameter), ("context", .str q.context), ("description", .str q.description)] ++
    Json.present "range" (fun r => .arr [.float r.1, .float r.2]) q.range ++
    Json.present "enum" .arr q.allowed ++
    [("default", q.default), ("type", .str q.type.name)] ++
    Json.present "group" .str q.group ++
    Json.nonempty "members" .str q.members ++
    Json.present "rejected" .str q.rejected

end Question

/-- A parameter that a goal speaks of and that nothing has settled. -/
structure Unresolved where
  name : String
  context : String
  /-- How much the goal speaks of it. -/
  relevance : Float32
deriving DecidableEq, Repr

open Decoder in
def Unresolved.decode : Decoder Unresolved := fun j => do
  let ms ← record ["name", "context_text", "relevance"] j
  return {
    name := ← required ms "name" text
    context := ← required ms "context_text" text
    relevance := ← required ms "relevance" single }

namespace Workflow

/-- The question about a parameter. A text without sides asks for the whole group. -/
def question (w : Workflow) (p : Parameter) (context : String) : Question :=
  let q := Question.ofParameter p context
  match p.group with
  | none => q
  | some group =>
    if (Text.sidesIn context).isEmpty then
      { q with group := some group, members := (w.members group).map Parameter.name }
    else { q with group := some group }

/-- The group that the question would ask for as a whole. -/
def wholeGroup? (p : Parameter) (context : String) : Option String :=
  p.group.filter fun _ => (Text.sidesIn context).isEmpty

/-- A question for each, but one question for a group; `asked` groups have theirs. -/
def questionsAfter (w : Workflow) (asked : List String) : List Unresolved → List Question
  | [] => []
  | u :: rest =>
    match w.parameter? u.name with
    | none => questionsAfter w asked rest
    | some p =>
      match wholeGroup? p u.context with
      | none => w.question p u.context :: questionsAfter w asked rest
      | some group =>
        if asked.contains group then questionsAfter w asked rest
        else w.question p u.context :: questionsAfter w (group :: asked) rest

def questions (w : Workflow) (unresolved : List Unresolved) : List Question :=
  w.questionsAfter [] unresolved

end Workflow

end GoalCompiler
