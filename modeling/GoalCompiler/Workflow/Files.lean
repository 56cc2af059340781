import GoalCompiler.FileTree
import GoalCompiler.Json.Fault
import GoalCompiler.Registry
import GoalCompiler.Toml.Reader
import GoalCompiler.Workflow.Document

/-! Workflows in the files of a directory. A file of tables holds one workflow, a document one or a list of
them. Files are read in the order of their names, and other files are passed over. -/
namespace GoalCompiler.WorkflowFiles

inductive Format where
  | json | toml
deriving DecidableEq, Repr

/-- The format that the ending of a name tells, in any case. -/
def Format.of? (name : String) : Option Format :=
  match (Path.splitName name).2.map String.toLower with
  | some "json" => some .json
  | some "toml" => some .toml
  | _ => none

/-- Dates have no form of their own in a document and are marked. -/
def dialect : Toml.Dialect where
  edition := .second
  moment text := .obj [("$__toml_private_datetime", .str text)]

/-- Why a file holds no workflows. -/
inductive ContentFault where
  | notDocument (fault : Json.Fault)
  | notTables
  | notWorkflows
deriving DecidableEq, Repr

def ContentFault.message : ContentFault → String
  | .notDocument fault => fault.message
  | .notTables => "not a file of tables"
  | .notWorkflows => "data did not match any variant of untagged enum JsonDocument"

/-- A list of workflows, or else one workflow. -/
def decode (j : Json) : Except Misfit (List Workflow) :=
  match Decoder.list Workflow.decode j with
  | .ok ws => .ok ws
  | .error _ => (Workflow.decode j).map fun w => [w]

/-- Why a text is no document. -/
def notDocument (content : String) : ContentFault :=
  ((Json.fault? content).map .notDocument).getD .notWorkflows

/-- The workflows of a document. That it holds some is seen before what follows it is looked at. -/
def parseDocument (content : String) : Except ContentFault (List Workflow) :=
  match Json.leading? content with
  | none => .error (notDocument content)
  | some (j, isWhole) =>
    match decode j with
    | .error _ => .error .notWorkflows
    | .ok ws => if isWhole then .ok ws else .error (notDocument content)

def parse (format : Format) (content : String) : Except ContentFault (List Workflow) :=
  match format with
  | .json => parseDocument content
  | .toml =>
    match Toml.parse? dialect content with
    | none => .error .notTables
    | some j =>
      match Workflow.decode j with
      | .ok w => .ok [w]
      | .error _ => .error .notWorkflows

/-- The files of workflows in a directory, in the order of their names. -/
def names (files : FileTree) (directory : String) : Except ServiceError (List (String × Format)) :=
  match files.list directory with
  | .error e =>
    .error (.configuration ("Cannot read workflows directory " ++ directory ++ ": " ++ e.message))
  | .ok entries =>
    let found := entries.filterMap fun (name, isFile) =>
      if isFile then (Format.of? name).map fun format => (name, format) else none
    .ok (found.mergeSort fun a b => a.1 ≤ b.1)

def readFile (files : FileTree) (path : String) (format : Format) : Except ServiceError (List Workflow) :=
  match files.read path with
  | .error e => .error (.storage ("Failed to read " ++ path ++ ": " ++ e.message))
  | .ok content => (parse format content).mapError fun e =>
    .configuration ("Invalid workflow file " ++ path ++ ": " ++ e.message)

/-- All workflows of a directory. -/
def load (files : FileTree) (directory : String) : Except ServiceError (List Workflow) := do
  let found ← names files directory
  let lists ← found.mapM fun (name, format) => readFile files (Path.join directory name) format
  return lists.flatten

/-- The registry of the workflows of a directory. -/
def registry (files : FileTree) (directory : String) : Except Failure Registry :=
  match load files directory with
  | .ok ws => Registry.ofList ws
  | .error e => .error (.service e)

end GoalCompiler.WorkflowFiles
