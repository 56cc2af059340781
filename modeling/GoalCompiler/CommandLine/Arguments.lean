import GoalCompiler.CommandLine.Value
import GoalCompiler.Dict

/-! What the program is asked to do. A command comes first and its options after it, each with a value of
its own or, after an equals sign, in the same argument. -/
namespace GoalCompiler.CommandLine

structure CompileOptions where
  goal : String
  workflow : Option String := none
  explicit : List (String × Json) := []
  /-- A file with steps in the place of the workflow's own. -/
  steps : Option String := none
  interactive : Bool := false
deriving DecidableEq, Repr

structure ClarifyOptions where
  workflow : String
  parameter : String
  value : Json
  context : String := ""
deriving DecidableEq, Repr

/-- What needs a compiler. -/
inductive Job where
  | compile (o : CompileOptions)
  | clarify (o : ClarifyOptions)
deriving DecidableEq, Repr

inductive Action where
  | list (directory : Option String)
  | validate (directory : Option String)
  | work (job : Job)
deriving DecidableEq, Repr

structure Command where
  action : Action
  /-- Whether answers go over several lines. -/
  pretty : Bool
deriving DecidableEq, Repr

/-- Why there is nothing to do. -/
inductive Usage where
  | help | version | wrong
deriving DecidableEq, Repr

/-- What an option takes. -/
inductive Kind where
  | flag
  | value
  /-- A path, which is not empty. -/
  | path
  /-- A name with a value; the option may come again. -/
  | assignment
deriving DecidableEq, Repr

def Kind.accepts (k : Kind) (text : String) : Bool :=
  match k with
  | .path => !text.isEmpty
  | .assignment => (readAssignment text).toBool
  | _ => true

/-- The options that have been given, each with its values in order. -/
abbrev Given := Dict (List String)

namespace Given

def add (g : Given) (name text : String) : Given :=
  Dict.insert g name ((Dict.get? g name).getD [] ++ [text])

def value? (g : Given) (name : String) : Option String := (Dict.get? g name).bind List.head?

def flag (g : Given) (name : String) : Bool := Dict.contains g name

def need (g : Given) (name : String) : Except Usage String :=
  match value? g name with
  | some v => .ok v
  | none => .error .wrong

end Given

/-- Whether an argument is taken for an option. -/
def looksLikeOption (arg : String) : Bool :=
  match arg.toList with
  | '-' :: _ :: _ => true
  | _ => false

/-- Adds the value of an option that may have one. -/
def take (kind : Kind) (g : Given) (name text : String) : Except Usage Given :=
  if !kind.accepts text || (kind != .assignment && g.flag name) then .error .wrong
  else .ok (g.add name text)

/-- The name of an option and the value in the same argument. -/
def splitOption (cs : List Char) : String × Option String :=
  match cs.dropWhile (· != '=') with
  | [] => (String.ofList cs, none)
  | _ :: value => (String.ofList (cs.takeWhile (· != '=')), some (String.ofList value))

/-- Goes through the arguments of a command. The first that is wrong, or asks for help, settles the
matter. -/
def scan (kinds : List (String × Kind)) (g : Given) : List String → Except Usage Given
  | [] => .ok g
  | arg :: rest =>
    match arg.toList with
    | ['-', '-'] => if rest.isEmpty then .ok g else .error .wrong
    | '-' :: '-' :: cs =>
      match splitOption cs with
      | ("help", none) => .error .help
      | (name, attached) =>
        match List.lookup name kinds, attached, rest with
        | none, _, _ | some .flag, some _, _ => .error .wrong
        | some .flag, none, rest => do scan kinds (← take .flag g name "") rest
        | some kind, some text, rest => do scan kinds (← take kind g name text) rest
        | some kind, none, text :: rest =>
          if looksLikeOption text then .error .wrong
          else do scan kinds (← take kind g name text) rest
        | some _, none, [] => .error .wrong
    | '-' :: 'h' :: _ => .error .help
    | _ => .error .wrong

def commandNames : List String := ["list", "validate", "compile", "clarify"]

def directoryOptions : List (String × Kind) := [("dir", .path), ("pretty", .flag)]

def compileOptions : List (String × Kind) :=
  [("goal", .value), ("workflow", .value), ("param", .assignment), ("steps", .path),
   ("interactive", .flag), ("pretty", .flag)]

def clarifyOptions : List (String × Kind) :=
  [("workflow", .value), ("parameter", .value), ("value", .value), ("context", .value), ("pretty", .flag)]

def readCompile (g : Given) : Except Usage CompileOptions := do
  return {
    goal := ← g.need "goal"
    workflow := g.value? "workflow"
    explicit := ((Dict.get? g "param").getD []).filterMap fun t => (readAssignment t).toOption
    steps := g.value? "steps"
    interactive := g.flag "interactive" }

def readClarify (g : Given) : Except Usage ClarifyOptions := do
  return {
    workflow := ← g.need "workflow"
    parameter := ← g.need "parameter"
    value := readValue (← g.need "value")
    context := (g.value? "context").getD "" }

/-- The command of the arguments of the program. -/
def readArguments : List String → Except Usage Command
  | "list" :: args => do
    let g ← scan directoryOptions [] args
    return ⟨.list (g.value? "dir"), g.flag "pretty"⟩
  | "validate" :: args => do
    let g ← scan directoryOptions [] args
    return ⟨.validate (g.value? "dir"), g.flag "pretty"⟩
  | "compile" :: args => do
    let g ← scan compileOptions [] args
    return ⟨.work (.compile (← readCompile g)), g.flag "pretty"⟩
  | "clarify" :: args => do
    let g ← scan clarifyOptions [] args
    return ⟨.work (.clarify (← readClarify g)), g.flag "pretty"⟩
  | ["help"] | ["help", "help"] | "--help" :: _ => .error .help
  | ["help", name] => .error (if commandNames.contains name then .help else .wrong)
  | "--version" :: _ => .error .version
  | arg :: _ =>
    match arg.toList with
    | '-' :: 'h' :: _ => .error .help
    | '-' :: 'V' :: _ => .error .version
    | _ => .error .wrong
  | [] => .error .wrong

end GoalCompiler.CommandLine
