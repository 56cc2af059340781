import GoalCompiler.FileTree
import GoalCompiler.Json.Reader
import GoalCompiler.Settings
import GoalCompiler.Toml.Reader

/-! Where settings come from: two files and the variables of the environment. What comes later is laid over
what came before, table by table. -/
namespace GoalCompiler.SettingsSources

mutual

/-- The document with a value under a key. The members of a table are laid over those that are there. -/
def overlay (base : Json) (key : String) (value : Json) : Json :=
  let members := match base with
    | .obj ms => ms
    | _ => []
  match value with
  | .obj incoming =>
    let target := (Dict.get? members key).getD (.obj [])
    .obj (Dict.insert members key (overlayAll target incoming))
  | .null => .obj (Dict.insert members key .null)
  | .bool b => .obj (Dict.insert members key (.bool b))
  | .int n => .obj (Dict.insert members key (.int n))
  | .float x => .obj (Dict.insert members key (.float x))
  | .str s => .obj (Dict.insert members key (.str s))
  | .arr items => .obj (Dict.insert members key (.arr items))

def overlayAll (base : Json) : List (String × Json) → Json
  | [] => base
  | (key, value) :: rest => overlayAll (overlay base key value) rest

end

/-- The document with a value at the end of a path. -/
def overlayAt (base : Json) (value : Json) : List String → Json
  | [] => base
  | [key] => overlay base key value
  | key :: rest =>
    let members := match base with
      | .obj ms => ms
      | _ => []
    .obj (Dict.insert members key (overlayAt (base.member key) value rest))

def isPathChar (c : Char) : Bool := c.isAlphanum || c == ' ' || c == '_' || c == '-'

/-- The parts of a key between dots; a key with other characters is one part. -/
def path (key : String) : List String :=
  let parts := Text.split '.' key.toList
  if parts.all fun p => !p.isEmpty && p.all isPathChar then parts.map String.ofList else [key]

/-- Lays the members of a source over the document. -/
def merge (base : Json) (source : List (String × Json)) : Json :=
  source.foldl (fun base (key, value) => overlayAt base value (path key)) base

/-! ### Files -/

mutual

/-- Whole numbers of more than 63 bits are doubles in the files of settings. -/
def narrow : Json → Json
  | .int n => if Number.fitsWord n then .int n else .float (Float.ofInt n)
  | .arr items => .arr (narrowItems items)
  | .obj members => .obj (narrowMembers members)
  | .null => .null
  | .bool b => .bool b
  | .float x => .float x
  | .str s => .str s

def narrowItems : List Json → List Json
  | [] => []
  | j :: rest => narrow j :: narrowItems rest

def narrowMembers : List (String × Json) → List (String × Json)
  | [] => []
  | (k, j) :: rest => (k, narrow j) :: narrowMembers rest

end

/-- Dates are texts in settings. -/
def dialect : Toml.Dialect := ⟨.first, .str⟩

/-- What the file of a name holds; nothing if there is none. The name is tried with each ending. -/
def readFile (files : FileTree) (name : String) : Option (List (String × Json)) :=
  let content? (path : String) : Option String := (files.read path).toOption
  let members? : Option Json → Option (List (String × Json))
    | some (.obj ms) => some ms
    | _ => none
  match content? name, content? (name ++ ".toml"), content? (name ++ ".json") with
  | some _, _, _ | none, none, none => some []
  | none, some text, _ => members? (Toml.parse? dialect text)
  | none, none, some text => members? ((Json.parse? text).map narrow)

/-! ### The environment -/

/-- The start of the variables that are settings. -/
def marker : String := "app__"

/-- The text with dots in the place of doubled low lines. -/
def dotted : List Char → List Char
  | '_' :: '_' :: rest => '.' :: dotted rest
  | c :: rest => c :: dotted rest
  | [] => []

/-- The setting that a variable stands for. -/
def keyOf? (variableName : String) : Option String :=
  let name := (Text.lowerText variableName).toList
  if marker.toList.isPrefixOf name then
    some (String.ofList (dotted (name.drop marker.length)))
  else none

/-- A truth value or a number where the text is one. -/
def valueOf (text : String) : Json :=
  match Text.lowerText text with
  | "true" => .bool true
  | "false" => .bool false
  | _ =>
    match Number.word? text, Number.ofReal? text with
    | some n, _ => .int n.toInt
    | none, some x => .float x
    | none, none => .str text

def ofEnvironment (environment : Dict String) : List (String × Json) :=
  environment.filterMap fun (name, text) => (keyOf? name).map fun key => (key, valueOf text)

/-- The settings of the program, if its files and variables make sense. -/
def load (files : FileTree) (environment : Dict String) : Option Settings := do
  let default ← readFile files "config/default"
  let here ← readFile files "config/local"
  let merged := [default, here, ofEnvironment environment].foldl merge (.obj [])
  (Settings.decode .generous merged).toOption

end GoalCompiler.SettingsSources
