import GoalCompiler.CommandLine.Arguments
import GoalCompiler.CommandLine.EnvironmentFile
import GoalCompiler.CommandLine.Prompt
import GoalCompiler.Compilation.Compiler
import GoalCompiler.Embedding.Configured
import GoalCompiler.Memory.FileStore
import GoalCompiler.Memory.HeldStore
import GoalCompiler.Settings.Sources
import GoalCompiler.Workflow.Files

/-! One run of the program, from what it finds to what it leaves behind. -/
namespace GoalCompiler.CommandLine

/-- What the program finds. -/
structure World where
  files : FileTree := []
  environment : Dict String := []
  input : String := ""
  /-- The mark of the `n`th mapping that is made. -/
  stamp : Nat → Stamp
  /-- How messages reach a server. -/
  post : Message → Except ServiceError Json := fun _ => .error (.provider "http" "no connection")

/-- What a run leaves behind. -/
structure Outcome where
  exit : Nat := 0
  output : String := ""
  files : FileTree
  asked : List Inquiry := []
deriving Repr

/-- A document on lines of its own. -/
def print (pretty : Bool) (j : Json) : String :=
  (if pretty then j.writeIndented 0 else j.write) ++ "\n"

def errorDocument (e : Failure) : Json :=
  .obj [("code", .str e.code), ("message", .str e.message), ("status", .str "error")]

/-- The exit status after a failure; an excerpt without a window breaks the program off. -/
def errorStatus (e : Failure) : Nat :=
  match e.root with
  | .noWindow => 101
  | _ => 1

/-- The end of a run with a failure that is told. -/
def tell (pretty : Bool) (e : Failure) (files : FileTree) : Outcome :=
  let output := if e.root = .noWindow then "" else print pretty (errorDocument e)
  { exit := errorStatus e, output, files }

/-- The end of a run with a result or a failure. -/
def finish (pretty : Bool) (r : Except Failure Json) (files : FileTree) : Outcome :=
  match r with
  | .ok j => { output := print pretty j, files }
  | .error e => tell pretty e files

def summary (w : Workflow) : Json :=
  .obj [("name", .str w.name), ("description", .str w.description),
    ("trigger_keywords", Json.strings w.triggers),
    ("parameters", Json.strings (w.parameters.map Parameter.name)),
    ("steps", Json.ofNat w.steps.length)]

def listing (r : Registry) : Json := .arr (r.workflows.map summary)

def validity (r : Registry) : Json :=
  .obj [("status", .str "valid"), ("workflows", Json.strings r.names)]

/-- The steps in a file. -/
def readSteps? (files : FileTree) (path : String) : Option (List Step) := do
  let j ← Json.parse? (← (files.read path).toOption)
  (Decoder.list Step.decode j).toOption

/-- The request of the options, if its steps can be read. -/
def request? (files : FileTree) (o : CompileOptions) : Option CompileRequest := do
  let explicit := Dict.ofList o.explicit
  match o.steps with
  | none => return { goal := o.goal, explicit, workflow := o.workflow }
  | some path =>
    return { goal := o.goal, explicit, workflow := o.workflow, steps := some (← readSteps? files path) }

/-- What a run works with: a compiler and the store that it remembers in. -/
structure Setup (σ : Type) where
  compiler : Compiler σ
  store : σ
  /-- The files, with what the store has written. -/
  files : σ → FileTree

variable {σ : Type}

/-- The setup with a store, if the settings make sense. -/
def setUp? (w : World) (s : Settings) (registry : Registry) (handler : Option Handler) (memory : Memory σ)
    (store : σ) (files : σ → FileTree) : Option (Setup σ) := do
  let embedder ← (s.embedding.embedder w.environment w.post).toOption
  let simulator ← s.compiler.simulator.toOption
  let services : Services σ := { embedder, memory, handler, stamp := w.stamp }
  let compiler : Compiler σ := {
    registry
    resolver := { services, settings := s.resolver }
    stepLimit := s.compiler.maxSteps
    simulator }
  return { compiler, store, files }

/-- A run that has a setup. -/
def Setup.perform (u : Setup σ) (job : Job) (pretty : Bool) (found : FileTree) : Outcome :=
  let session : Session σ := { memory := u.store }
  let done (r : Except Failure Json) (s : Session σ) : Outcome :=
    { finish pretty r (u.files s.memory) with asked := s.asked }
  match job with
  | .compile o =>
    match request? found o with
    | none => { exit := 1, files := found }
    | some r =>
      let (result, s) := u.compiler.compile r session
      done (result.map fun r => .obj r.fields) s
  | .clarify o =>
    let (result, s) := u.compiler.clarify o.workflow ⟨o.parameter, o.value, o.context⟩ session
    done (result.map fun r => .obj r.fields) s

/-- Who answers the questions of a job. -/
def Job.handler? (job : Job) (input : String) : Option Handler :=
  match job with
  | .compile o => if o.interactive then some (answers input) else none
  | .clarify _ => none

/-- A run that needs a compiler. What fails before the compiler starts is not told. -/
def work (w : World) (s : Settings) (job : Job) (pretty : Bool) : Outcome :=
  let handler := job.handler? w.input
  let failed : Outcome := { exit := 1, files := w.files }
  match WorkflowFiles.registry w.files s.workflows with
  | .error _ => failed
  | .ok registry =>
    match s.memory with
    | none =>
      match setUp? w s registry handler (HeldStore.memory id) .empty fun _ => w.files with
      | some u => u.perform job pretty w.files
      | none => failed
    | some path =>
      match FileStore.open w.files path with
      | .error _ => failed
      | .ok store =>
        match setUp? w s registry handler FileStore.memory store FileStore.files with
        | some u => u.perform job pretty w.files
        | none => failed

/-- A run that shows something of the workflows in a directory. -/
def inspect (w : World) (directory : String) (pretty : Bool) (view : Registry → Json) : Outcome :=
  finish pretty ((WorkflowFiles.registry w.files directory).map view) w.files

/-- A run of a command. -/
def perform (w : World) (s : Settings) (c : Command) : Outcome :=
  match c.action with
  | .list directory => inspect w (directory.getD s.workflows) c.pretty listing
  | .validate directory => inspect w (directory.getD s.workflows) c.pretty validity
  | .work job => work w s job c.pretty

/-- What the program finds, with the variables of the file `.env`. -/
def World.withFile (w : World) : World :=
  match w.files.read ".env" with
  | .ok content => { w with environment := EnvironmentFile.read w.environment content }
  | .error _ => w

/-- The files that tell the settings. -/
def settingsFiles : List String :=
  [".env", "config/default", "config/default.toml", "config/default.json", "config/local",
   "config/local.toml", "config/local.json"]

/-- The paths that a run looks at once the settings are known. -/
def placesOf (w : World) (args : List String) : List String :=
  match readArguments args, SettingsSources.load w.files w.withFile.environment with
  | .ok c, some s =>
    match c.action with
    | .list directory | .validate directory => [directory.getD s.workflows]
    | .work (.compile o) => s.workflows :: s.memory.toList ++ o.steps.toList
    | .work (.clarify _) => s.workflows :: s.memory.toList
  | _, _ => []

/-- A run of the program with its arguments. -/
def run (w : World) (args : List String) : Outcome :=
  match readArguments args with
  | .error .wrong => { exit := 2, files := w.files }
  | .error _ => { files := w.files }
  | .ok c =>
    let w := w.withFile
    match SettingsSources.load w.files w.environment with
    | none => { exit := 1, files := w.files }
    | some s => perform w s c

end GoalCompiler.CommandLine
