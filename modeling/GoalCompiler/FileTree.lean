import GoalCompiler.Text.Reading

/-! Trees of directories and text files, by their paths. Every operation tells what stands in its way, in
the order in which the parts of the path are met. -/
namespace GoalCompiler

inductive FileFault where
  | missing | exists | notDirectory | isDirectory | notText
deriving DecidableEq, Repr

def FileFault.message : FileFault → String
  | .missing => "No such file or directory (os error 2)"
  | .exists => "File exists (os error 17)"
  | .notDirectory => "Not a directory (os error 20)"
  | .isDirectory => "Is a directory (os error 21)"
  | .notText => "stream did not contain valid UTF-8"

inductive FileNode where
  | directory
  | file (content : String)
  /-- A file whose bytes are no text. -/
  | binary
deriving DecidableEq, Repr

namespace Path

/-- The first part of a path that does not depend on where one is. -/
def top : String := "/"

def isAbsolute (path : String) : Bool := path.toList.head? == some '/'

/-- The names along a path. -/
def parts (path : String) : List String :=
  let walk (done : List String) (part : String) : List String :=
    if part == "" || part == "." then done
    else if part == ".." then if done == [top] then done else done.drop 1
    else part :: done
  let start := if isAbsolute path then [top] else []
  (((Text.split '/' path.toList).map String.ofList).foldl walk start).reverse

/-- The path of the names. -/
def ofParts (parts : List String) : String :=
  match parts with
  | "/" :: rest => top ++ "/".intercalate rest
  | parts => "/".intercalate parts

def join (directory name : String) : String :=
  if directory.isEmpty || directory.toList.getLast? == some '/' then directory ++ name
  else directory ++ "/" ++ name

/-- The directory that a path is in; empty for a lone name. -/
def parent (path : String) : String :=
  match path.toList.reverse.dropWhile (· != '/') with
  | [] => ""
  | ['/'] => "/"
  | _ :: rest => String.ofList rest.reverse

/-- The last name of a path. -/
def name (path : String) : String :=
  String.ofList (path.toList.reverse.takeWhile (· != '/')).reverse

/-- The name before and after its last dot; a dot at the front is part of the name. -/
def splitName (name : String) : String × Option String :=
  let cs := name.toList.reverse
  match cs.dropWhile (· != '.') with
  | _ :: c :: before =>
    (String.ofList (c :: before).reverse, some (String.ofList (cs.takeWhile (· != '.')).reverse))
  | _ => (name, none)

/-- The path with another ending. -/
def withExtension (path extension : String) : String :=
  join (parent path) ((splitName (name path)).1 ++ "." ++ extension)

end Path

/-- The nodes below the root, each with the names that lead to it. -/
abbrev FileTree := List (List String × FileNode)

namespace FileTree

def node? (t : FileTree) (parts : List String) : Option FileNode :=
  if parts.isEmpty || parts == [Path.top] then some .directory else List.lookup parts t

/-- The first part of a path that is a file, looked for among the directories that it goes through. -/
def blocked (t : FileTree) (parts : List String) : Bool :=
  (List.range parts.length).any fun n =>
    match node? t (parts.take n) with
    | some .directory | none => false
    | some _ => true

def find (t : FileTree) (path : String) : Except FileFault FileNode :=
  if path.isEmpty then .error .missing
  else
    let parts := Path.parts path
    if blocked t parts then .error .notDirectory
    else match node? t parts with
      | some n => .ok n
      | none => .error .missing

def put (t : FileTree) (parts : List String) (n : FileNode) : FileTree :=
  (parts, n) :: t.filter (·.1 != parts)

/-- The node and everything below it is gone. -/
def erase (t : FileTree) (parts : List String) : FileTree :=
  t.filter fun e => !parts.isPrefixOf e.1

def read (t : FileTree) (path : String) : Except FileFault String :=
  match t.find path with
  | .ok (.file content) => .ok content
  | .ok .directory => .error .isDirectory
  | .ok .binary => .error .notText
  | .error e => .error e

/-- Writes a file into a directory that there is. -/
def write (t : FileTree) (path content : String) : Except FileFault FileTree :=
  let parts := Path.parts path
  match t.find path with
  | .ok .directory => .error .isDirectory
  | .error .notDirectory => .error .notDirectory
  | _ =>
    if path.isEmpty then .error .missing
    else match node? t parts.dropLast with
      | some .directory => .ok (t.put parts (.file content))
      | _ => .error .missing

/-- Makes the directory and those that it is in. -/
def createDirectories (t : FileTree) (path : String) : Except FileFault FileTree :=
  let parts := Path.parts path
  match t.find path with
  | .ok .directory => .ok t
  | .ok _ => .error .exists
  | .error .missing =>
    .ok ((List.range parts.length).foldl (fun t n =>
      let directory := parts.take (n + 1)
      if (node? t directory).isSome then t else t.put directory .directory) t)
  | .error e => .error e

/-- Moves a file to a path where no directory is. -/
def rename (t : FileTree) (source target : String) : Except FileFault FileTree := do
  let content ← t.read source
  let moved ← t.write target content
  return moved.erase (Path.parts source)

/-- The names in a directory, each with whether it is a file. -/
def list (t : FileTree) (path : String) : Except FileFault (List (String × Bool)) := do
  let .directory ← t.find path | throw .notDirectory
  let parts := Path.parts path
  return t.filterMap fun (p, n) =>
    match p.getLast? with
    | some last => if p.dropLast = parts then some (last, n != .directory) else none
    | none => none

/-- A file together with the directories that it is in. -/
def addFile (t : FileTree) (path : String) (n : FileNode) : FileTree :=
  let parts := Path.parts path
  let t := (List.range (parts.length - 1)).foldl (fun t n =>
    let directory := parts.take (n + 1)
    if (node? t directory).isSome then t else t.put directory .directory) t
  t.put parts n

end FileTree

end GoalCompiler
