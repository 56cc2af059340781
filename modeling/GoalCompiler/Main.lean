import GoalCompiler.CommandLine.Program

/-! The program: it reads the files that a run looks at, runs, and writes the files that have changed. -/
namespace GoalCompiler.Main

open CommandLine

/-- The node at a path, if there is one. -/
def nodeAt (path : String) : IO (Option FileNode) := do
  let place := (← IO.currentDir) / path
  if ← place.isDir then return some .directory
  if !(← place.pathExists) then return none
  try
    return some (.file (← IO.FS.readFile place))
  catch _ => return some .binary

def addNode (files : FileTree) (path : String) : IO FileTree := do
  match ← nodeAt path with
  | some node => return files.addFile path node
  | none => return files

/-- Adds what is on the way to a path, what is there, and what is in it if it is a directory. -/
def addPlace (files : FileTree) (path : String) : IO FileTree := do
  let parts := Path.parts path
  let mut files := files
  for n in [1:parts.length + 1] do
    files ← addNode files (Path.ofParts (parts.take n))
  let place := (← IO.currentDir) / path
  if ← place.isDir then
    for entry in ← place.readDir do
      files ← addNode files (Path.join path entry.fileName)
  return files

/-- Writes what is new. -/
def writeBack (before after : FileTree) : IO Unit := do
  for (parts, node) in after.reverse do
    if List.lookup parts before != some node then
      let place := (← IO.currentDir) / Path.ofParts parts
      match node with
      | .directory => IO.FS.createDirAll place
      | .file content => IO.FS.writeFile place content
      | .binary => pure ()

/-- The variables of the environment. -/
def environment : IO (Dict String) := do
  try
    let entries := Text.split (Char.ofNat 0) (← IO.FS.readFile "/proc/self/environ").toList
    let pairs := entries.filterMap fun e =>
      match e.dropWhile (· != '=') with
      | _ :: value => some (String.ofList (e.takeWhile (· != '=')), String.ofList value)
      | [] => none
    return Dict.ofList pairs
  catch _ => return []

/-- The number of seconds since the start of 1970, from the time when the machine was started. -/
def now : IO Nat := do
  try
    let number (text : String) : Nat := Number.ofDigits (text.toList.takeWhile Number.isDigit)
    let lines := (← IO.FS.readFile "/proc/stat").splitOn "\n"
    let start := (lines.filterMap fun l => match l.splitOn " " with
      | ["btime", n] => some (number n)
      | _ => none).headD 0
    return start + number (← IO.FS.readFile "/proc/uptime")
  catch _ => return 0

/-- Runs again with one line of input more as long as there are questions without an answer. -/
partial def converse (w : World) (args : List String) (lines : Nat) : IO Outcome := do
  let outcome := run w args
  let open_ := outcome.asked.drop lines
  if open_.isEmpty then return outcome
  IO.eprint (transcript (open_.take 1))
  let line ← (← IO.getStdin).getLine
  if line.isEmpty then
    IO.eprint (transcript (open_.drop 1))
    return outcome
  converse { w with input := w.input ++ line } args (lines + 1)

/-- What is said of a run without a command. -/
def usage : String :=
  "Usage: list [--dir DIR] [--pretty]\n" ++
  "       validate [--dir DIR] [--pretty]\n" ++
  "       compile --goal TEXT [--workflow NAME] [--param NAME=VALUE]... [--steps FILE] [--interactive] [--pretty]\n" ++
  "       clarify --workflow NAME --parameter NAME --value VALUE [--context TEXT] [--pretty]\n"

def start (args : List String) : IO UInt32 := do
  match readArguments args with
  | .error .help => IO.print usage
  | .error .version => IO.println "0.1.0"
  | .error .wrong => IO.eprint usage
  | .ok _ => pure ()
  let first ← IO.rand 0 (Nat.pow 2 128 - 1)
  let moment : Moment := ⟨Calendar.timeAfter (← now)⟩
  let stamp (n : Nat) : Stamp := ⟨⟨(first + n) % Nat.pow 2 128⟩, moment⟩
  let settings ← settingsFiles.foldlM addPlace []
  let w : World := { files := settings, environment := ← environment, stamp }
  let w := { w with files := ← (placesOf w args).foldlM addPlace w.files }
  let outcome ← converse w args 0
  writeBack w.files outcome.files
  IO.print outcome.output
  return UInt32.ofNat outcome.exit

end GoalCompiler.Main

def main (args : List String) : IO UInt32 := GoalCompiler.Main.start args
