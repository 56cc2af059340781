import GoalCompiler.Json.Shape
import GoalCompiler.Workflow.Basic

/-! The document form of workflows. `fields` lists the members of a record in the order in which they are
written; `toJson` puts them in the order of their names, and of two with one name the later counts. -/
namespace GoalCompiler

open Decoder

def ValueType.words : List (String × ValueType) :=
  [("float", .float), ("int", .int), ("bool", .bool), ("string", .string)]

namespace Parameter

def fieldNames : List String :=
  ["name", "type", "range", "enum", "default", "description", "semantic_hints", "group", "computed",
   "depends_on"]

def decode : Decoder Parameter := fun j => do
  let ms ← record fieldNames j
  return {
    name := ← required ms "name" text
    type := ← defaulted ms "type" (oneOf ValueType.words) .float
    range := ← possible ms "range" (pair real real)
    allowed := ← possible ms "enum" (list any)
    default := ← defaulted ms "default" any .null
    description := ← defaulted ms "description" text ""
    hints := ← defaulted ms "semantic_hints" (list text) []
    group := ← possible ms "group" text
    computed := ← possible ms "computed" text
    dependsOn := ← defaulted ms "depends_on" (list text) [] }

def fields (p : Parameter) : List (String × Json) :=
  [("name", .str p.name), ("type", .str p.type.name)] ++
    Json.present "range" (fun r => .arr [.float r.1, .float r.2]) p.range ++
    Json.present "enum" .arr p.allowed ++
    [("default", p.default), ("description", .str p.description)] ++
    Json.nonempty "semantic_hints" .str p.hints ++
    Json.present "group" .str p.group ++
    Json.present "computed" .str p.computed ++
    Json.nonempty "depends_on" .str p.dependsOn

def toJson (p : Parameter) : Json := Json.ofMembers p.fields

end Parameter

namespace Modifier

def decode : Decoder Modifier := fun j => do
  let ms ← record ["phrase", "values", "negative_signals"] j
  return {
    phrase := ← required ms "phrase" text
    values := ← defaulted ms "values" (dict any) []
    negativeSignals := ← defaulted ms "negative_signals" (list text) [] }

def fields (m : Modifier) : List (String × Json) :=
  [("phrase", .str m.phrase), ("values", .obj m.values)] ++
    Json.nonempty "negative_signals" .str m.negativeSignals

def toJson (m : Modifier) : Json := Json.ofMembers m.fields

end Modifier

/-- A message in words for a text that is no range. -/
def toldOf (r : Except RangeError α) : Except Misfit α := r.mapError fun e => .told e.message

namespace Bound

def decode : Decoder (Except RangeError Bound)
  | .int n => if Number.fitsWord n then .ok (.ok (.literal (Int64.ofInt n))) else .error .shape
  | .str s => .ok (Bound.read s s.toList)
  | _ => .error .shape

end Bound

namespace Range

/-- A range is a text, or a pair of bounds that are whole numbers or texts. -/
def decode : Decoder Range
  | .str s => toldOf (Range.read s)
  | j => do
    let (first, last) ← pair Bound.decode Bound.decode j
    return { first := ← toldOf first, last := ← toldOf last }

def toJson (r : Range) : Json := .str r.write

end Range

namespace Loop

def fieldNames : List String := ["variable", "range", "values", "variables", "ranges", "group"]

def formMessage : String :=
  "loop needs either 'variable' with 'range' or 'values', or 'variables' with 'ranges'"

def decode : Decoder Loop := fun j => do
  let ms ← record fieldNames j
  let group ← possible ms "group" text
  let range ← possible ms "range" Range.decode
  let ranges ← possible ms "ranges" (list Range.decode)
  let values ← possible ms "values" (list any)
  let name ← possible ms "variable" text
  let names ← possible ms "variables" (list text)
  match name, range, values, names, ranges with
  | some name, some range, none, none, none => return ⟨.range name range, group⟩
  | some name, none, some values, none, none => return ⟨.values name values, group⟩
  | none, none, none, some names, some ranges =>
    if names.isEmpty || names.length != ranges.length then
      throw (.told s!"loop declares {names.length} variables but {ranges.length} ranges")
    else return ⟨.product names ranges, group⟩
  | _, _, _, _, _ => throw (.told formMessage)

def fields (l : Loop) : List (String × Json) :=
  (match l.iteration with
    | .range name range => [("variable", .str name), ("range", range.toJson)]
    | .values name values => [("variable", .str name), ("values", .arr values)]
    | .product names ranges =>
      [("variables", Json.strings names), ("ranges", .arr (ranges.map Range.toJson))]) ++
    Json.present "group" .str l.group

def toJson (l : Loop) : Json := Json.ofMembers l.fields

end Loop

def FailurePolicy.words : List (String × FailurePolicy) :=
  [("stop", .stop), ("skip", .skip), ("continue", .goOn)]

namespace Step

def fieldNames : List String :=
  ["id", "tool", "params", "description", "condition", "optional", "loop", "depends_on", "timeout",
   "max_retries", "retry_delay", "on_failure", "priority"]

/-- The members that are no fields. -/
def unknown (known : List String) (members : Dict Json) : Dict Json :=
  members.filter fun e => !known.contains e.1

def decode : Decoder Step
  | .obj ms => do
    return {
      id := ← possible ms "id" text
      tool := ← required ms "tool" text
      params := ← defaulted ms "params" (dict any) []
      description := ← possible ms "description" text
      condition := ← possible ms "condition" text
      optional := ← defaulted ms "optional" flag false
      loop := ← possible ms "loop" Loop.decode
      dependsOn := ← defaulted ms "depends_on" (list text) []
      timeout := ← possible ms "timeout" real
      maxRetries := ← possible ms "max_retries" (natural 32)
      retryDelay := ← possible ms "retry_delay" real
      onFailure := ← defaulted ms "on_failure" (oneOf FailurePolicy.words) .stop
      priority := ← possible ms "priority" (integer Int32.minValue.toInt Int32.maxValue.toInt)
      extensions := ← dict any (.obj (unknown fieldNames ms)) }
  | _ => .error .shape

def fields (s : Step) : List (String × Json) :=
  Json.present "id" .str s.id ++ [("tool", .str s.tool), ("params", .obj s.params)] ++
    Json.present "description" .str s.description ++
    Json.present "condition" .str s.condition ++
    [("optional", .bool s.optional)] ++
    Json.present "loop" Loop.toJson s.loop ++
    Json.nonempty "depends_on" .str s.dependsOn ++
    Json.present "timeout" .float s.timeout ++
    Json.present "max_retries" Json.ofNat s.maxRetries ++
    Json.present "retry_delay" .float s.retryDelay ++
    [("on_failure", .str s.onFailure.name)] ++
    Json.present "priority" .int s.priority ++ s.extensions

def toJson (s : Step) : Json := Json.ofMembers s.fields

end Step

namespace Workflow

def fieldNames : List String :=
  ["name", "description", "trigger_keywords", "parameters", "modifiers", "defaults", "steps"]

def decode : Decoder Workflow := fun j => do
  let ms ← record fieldNames j
  return {
    name := ← required ms "name" text
    description := ← defaulted ms "description" text ""
    triggers := ← defaulted ms "trigger_keywords" (list text) []
    parameters := ← defaulted ms "parameters" (list Parameter.decode) []
    modifiers := ← defaulted ms "modifiers" (list Modifier.decode) []
    defaults := ← defaulted ms "defaults" (dict any) []
    steps := ← defaulted ms "steps" (list Step.decode) [] }

def fields (w : Workflow) : List (String × Json) :=
  [("name", .str w.name), ("description", .str w.description)] ++
    Json.nonempty "trigger_keywords" .str w.triggers ++
    [("parameters", .arr (w.parameters.map Parameter.toJson))] ++
    Json.nonempty "modifiers" Modifier.toJson w.modifiers ++
    (if w.defaults.isEmpty then [] else [("defaults", .obj w.defaults)]) ++
    [("steps", .arr (w.steps.map Step.toJson))]

def toJson (w : Workflow) : Json := Json.ofMembers w.fields

end Workflow

end GoalCompiler
