import GoalCompiler.Json.Value
import GoalCompiler.Number.Layout

/-! Documents as text, on one line or indented by two blanks a level. A double that is no number is
written as `null`. -/
namespace GoalCompiler.Json

/-- A control character is written as its code in four hexadecimal digits. -/
def escapeCode (n : Nat) : List Char :=
  let digits := Nat.toDigits 16 n
  '\\' :: 'u' :: List.replicate (4 - digits.length) '0' ++ digits

def escapeChar (c : Char) : List Char :=
  match c with
  | '"' => ['\\', '"']
  | '\\' => ['\\', '\\']
  | '\n' => ['\\', 'n']
  | '\r' => ['\\', 'r']
  | '\t' => ['\\', 't']
  | c =>
    if c.toNat = 8 then ['\\', 'b']
    else if c.toNat = 12 then ['\\', 'f']
    else if c.toNat < 32 then escapeCode c.toNat
    else [c]

def quote (s : String) : String :=
  String.ofList ('"' :: (s.toList.flatMap escapeChar ++ ['"']))

def writeFloat (x : Float) : String :=
  if x.isFinite then Number.Layout.document.write x else "null"

mutual

/-- A document on one line without blanks. -/
def write : Json → String
  | .null => "null"
  | .bool b => if b then "true" else "false"
  | .int n => toString n
  | .float x => writeFloat x
  | .str s => quote s
  | .arr items => "[" ++ ",".intercalate (writeItems items) ++ "]"
  | .obj members => "\x7b" ++ ",".intercalate (writeMembers members) ++ "\x7d"

def writeItems : List Json → List String
  | [] => []
  | j :: rest => write j :: writeItems rest

def writeMembers : List (String × Json) → List String
  | [] => []
  | (k, j) :: rest => (quote k ++ ":" ++ write j) :: writeMembers rest

end

def indentation (level : Nat) : String := String.ofList (List.replicate (2 * level) ' ')

/-- Items on lines of their own, one level in. -/
def block (opening closing : String) (level : Nat) : List String → String
  | [] => opening ++ closing
  | items =>
    let line := "\n" ++ indentation (level + 1)
    opening ++ line ++ ("," ++ line).intercalate items ++ "\n" ++ indentation level ++ closing

mutual

/-- A document with an item a line. -/
def writeIndented (level : Nat) : Json → String
  | .arr items => block "[" "]" level (writeIndentedItems (level + 1) items)
  | .obj members => block "\x7b" "\x7d" level (writeIndentedMembers (level + 1) members)
  | .null => "null"
  | .bool b => if b then "true" else "false"
  | .int n => toString n
  | .float x => writeFloat x
  | .str s => quote s

def writeIndentedItems (level : Nat) : List Json → List String
  | [] => []
  | j :: rest => writeIndented level j :: writeIndentedItems level rest

def writeIndentedMembers (level : Nat) : List (String × Json) → List String
  | [] => []
  | (k, j) :: rest => (quote k ++ ": " ++ writeIndented level j) :: writeIndentedMembers level rest

end

end GoalCompiler.Json
