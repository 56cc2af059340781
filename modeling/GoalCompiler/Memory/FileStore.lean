import GoalCompiler.FileTree
import GoalCompiler.Json.Reader
import GoalCompiler.Json.Writer
import GoalCompiler.Memory.Store

/-! A store in a file. The file holds all mappings and is written anew after each change, first under another
name. A change whose writing fails stays in the store. -/
namespace GoalCompiler

structure FileStore where
  path : String
  records : Records := []
  files : FileTree
deriving DecidableEq, Repr

namespace FileStore

def encode (rs : Records) : String :=
  (Json.arr (rs.map fun m => .obj m.fields)).writeIndented 0

def decode? (content : String) : Option Records :=
  (Json.parse? content).bind fun j =>
    match Decoder.list Mapping.decode j with
    | .ok rs => some rs
    | .error _ => none

def failed (action path : String) (e : FileFault) : ServiceError :=
  .storage (action ++ " " ++ path ++ ": " ++ e.message)

/-- The mappings in the file; none if there is no file or nothing in it. -/
def load (files : FileTree) (path : String) : Except ServiceError Records :=
  match files.read path with
  | .ok content =>
    if (Text.trim content).isEmpty then .ok []
    else match decode? content with
      | some rs => .ok rs
      | none => .error (.storage ("Corrupt memory file " ++ path ++ ": not a list of mappings"))
  | .error .missing => .ok []
  | .error e => .error (failed "Failed to read" path e)

def «open» (files : FileTree) (path : String) : Except ServiceError FileStore :=
  (load files path).map fun records => { path, records, files }

/-- Makes the directory of the file, if it is in one. -/
def makeDirectory (s : FileStore) : Except ServiceError FileTree :=
  let directory := Path.parent s.path
  if directory.isEmpty then .ok s.files
  else (s.files.createDirectories directory).mapError (failed "Failed to create" directory)

/-- Writes the mappings beside the file. -/
def writeBeside (s : FileStore) : Except ServiceError FileTree :=
  let beside := Path.withExtension s.path "json.tmp"
  (s.files.write beside (encode s.records)).mapError (failed "Failed to write" beside)

/-- Puts what was written in the place of the file. -/
def replace (s : FileStore) : Except ServiceError FileTree :=
  (s.files.rename (Path.withExtension s.path "json.tmp") s.path).mapError
    (failed "Failed to replace" s.path)

/-- The steps of writing, one after another. What was done before a failure stays done. -/
def perform (s : FileStore) : List (FileStore → Except ServiceError FileTree) →
    Option ServiceError × FileStore
  | [] => (none, s)
  | step :: rest =>
    match step s with
    | .ok files => perform { s with files } rest
    | .error e => (some e, s)

/-- The steps of writing. -/
def writing : List (FileStore → Except ServiceError FileTree) := [makeDirectory, writeBeside, replace]

/-- The result of a change, once it is written. -/
def settle (steps : List (FileStore → Except ServiceError FileTree)) (s : FileStore) (result : α) :
    Except ServiceError α × FileStore :=
  match s.perform steps with
  | (none, s) => (.ok result, s)
  | (some e, s) => (.error e, s)

/-- The store that writes by these steps. -/
def memoryBy (steps : List (FileStore → Except ServiceError FileTree)) : Memory FileStore where
  search s q := .ok (q.run s.records)
  upsert s m :=
    let (stored, records) := Records.upsert s.records m
    settle steps { s with records } stored
  recordUsage s id now :=
    match Records.use? s.records id now with
    | some (n, records) => settle steps { s with records } n
    | none => (.error (Records.unknown id), s)

def memory : Memory FileStore := memoryBy writing

end FileStore

end GoalCompiler
