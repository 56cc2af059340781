import GoalCompiler.Json.Shape
import GoalCompiler.Number.Layout
import GoalCompiler.Text.LetterCase

/-! Two ways of reading simple settings. A document says what it means; files and the environment are read
with good will: a number may stand in a text, and a text may say yes or no. -/
namespace GoalCompiler

/-- How simple values are read. -/
structure Reading where
  text : Decoder String
  flag : Decoder Bool
  /-- A natural number of so many bits. -/
  natural : Nat → Decoder Nat
  single : Decoder Float32
  /-- The name of one of several things. -/
  word : Decoder String

namespace Reading

def exact : Reading where
  text := Decoder.text
  flag := Decoder.flag
  natural := Decoder.natural
  single := Decoder.single
  word
    | .str s => .ok s
    | .obj [(s, .null)] => .ok s
    | _ => .error .shape

def yes : List String := ["true", "on", "yes"]

def no : List String := ["false", "off", "no"]

/-- What a text says that says yes or no. -/
def answer? (s : String) : Option Bool :=
  let s := Text.lowerText s
  if yes.contains s then some true else if no.contains s then some false else none

def orShape (o : Option α) : Except Misfit α :=
  match o with
  | some a => .ok a
  | none => .error .shape

def readFlag : Decoder Bool
  | .bool b => .ok b
  | .int n => .ok (n != 0)
  | .float x => .ok (x != 0.0)
  | .str "1" => .ok true
  | .str "0" => .ok false
  | .str s => orShape (answer? s)
  | _ => .error .shape

def readText : Decoder String
  | .str s => .ok s
  | .bool b => .ok (if b then "true" else "false")
  | .int n => .ok (toString n)
  | .float x => .ok (Number.Layout.message.write x)
  | _ => .error .shape

/-- The whole number nearest to a quotient; of two as near, the one farther from zero. -/
def halfAway : Number.Rounding := fun n d =>
  if 0 ≤ n then (2 * n + d).fdiv (2 * d) else -(2 * -n + d).fdiv (2 * d)

/-- The greatest number of 64 bits. -/
def most : Nat := 0xFFFFFFFFFFFFFFFF

/-- The natural number nearest to a double, within 64 bits. -/
def nearestNatural (x : Float) : Nat :=
  match Number.whole? halfAway x with
  | some n => min most n.toNat
  | none => if x > 0.0 then most else 0

/-- A natural number without a minus sign. -/
def naturalOf? (s : String) : Option Nat :=
  match s.toList with
  | '-' :: _ => none
  | _ => (Number.ofSigned? s).bind fun n => if n ≤ most then some n.toNat else none

def readNatural : Decoder Nat
  | .int n => if 0 ≤ n ∧ n ≤ most then .ok n.toNat else .error .shape
  | .bool b => .ok b.toNat
  | .float x => .ok (nearestNatural x)
  | .str s => orShape (((answer? s).map Bool.toNat).or (naturalOf? s))
  | _ => .error .shape

def readReal : Decoder Float
  | .int n => .ok (Float.ofInt n)
  | .float x => .ok x
  | .bool b => .ok (if b then 1.0 else 0.0)
  | .str s => orShape (((answer? s).map fun b => if b then 1.0 else 0.0).or (Number.ofReal? s))
  | _ => .error .shape

/-- The reading of files and of the environment. Of a number with too many bits the low ones count. -/
def generous : Reading where
  text := readText
  flag := readFlag
  natural bits := fun j => (readNatural j).map (· % Nat.pow 2 bits)
  single := fun j => (readReal j).map Number.toSingle
  word
    | .str s => .ok s
    | .obj [(s, _)] => .ok s
    | _ => .error .shape

/-- A thing by its name. -/
def choice (r : Reading) (values : List (String × α)) : Decoder α := fun j => do
  orShape (Dict.get? values (← r.word j))

end Reading

end GoalCompiler
