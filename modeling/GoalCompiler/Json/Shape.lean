import GoalCompiler.Json.Value
import GoalCompiler.Number.Single

/-! Reading records from documents. A record is an object, whose unknown members are passed over, or an
array of its fields in order. -/
namespace GoalCompiler

/-- Why a document is not of the wanted form; some forms say it in words. -/
inductive Misfit where
  | shape
  | told (message : String)
deriving DecidableEq, Repr

namespace Json

mutual

/-- The document with `null` in the place of each double that is no number. -/
def finite : Json → Json
  | .float x => if x.isFinite then .float x else .null
  | .arr items => .arr (finiteItems items)
  | .obj members => .obj (finiteMembers members)
  | .null => .null
  | .bool b => .bool b
  | .int n => .int n
  | .str s => .str s

def finiteItems : List Json → List Json
  | [] => []
  | j :: rest => finite j :: finiteItems rest

def finiteMembers : List (String × Json) → List (String × Json)
  | [] => []
  | (k, j) :: rest => (k, finite j) :: finiteMembers rest

end

end Json

abbrev Decoder (α : Type) := Json → Except Misfit α

namespace Decoder

/-- Any document; there are finite numbers in it only. -/
def any : Decoder Json := fun j => .ok j.finite

def text : Decoder String
  | .str s => .ok s
  | _ => .error .shape

def flag : Decoder Bool
  | .bool b => .ok b
  | _ => .error .shape

/-- A number, as a double. -/
def real : Decoder Float
  | .int n => .ok (Float.ofInt n)
  | .float x => .ok x
  | _ => .error .shape

/-- A number, in single precision. -/
def single : Decoder Float32
  | .int n => .ok (Number.singleOfInt n)
  | .float x => .ok (Number.toSingle x)
  | _ => .error .shape

/-- A whole number from `least` to `greatest`. -/
def integer (least greatest : Int) : Decoder Int
  | .int n => if least ≤ n ∧ n ≤ greatest then .ok n else .error .shape
  | _ => .error .shape

/-- A natural number of so many bits. -/
def natural (bits : Nat) : Decoder Nat := fun j =>
  (integer 0 (Nat.pow 2 bits - 1 : Nat) j).map Int.toNat

def list (item : Decoder α) : Decoder (List α)
  | .arr items => items.mapM item
  | _ => .error .shape

def dict (item : Decoder α) : Decoder (Dict α)
  | .obj members => members.mapM fun e => (item e.2).map fun a => (e.1, a)
  | _ => .error .shape

/-- `null` stands for nothing. -/
def optional (item : Decoder α) : Decoder (Option α)
  | .null => .ok none
  | j => (item j).map some

def pair (first : Decoder α) (second : Decoder β) : Decoder (α × β)
  | .arr [a, b] => do return (← first a, ← second b)
  | _ => .error .shape

/-- A word of a list; the word may also be the only member of an object, with the value `null`. -/
def oneOf (values : List (String × α)) : Decoder α := fun j =>
  let word? := match j with
    | .str s => some s
    | .obj [(s, .null)] => some s
    | _ => none
  match word?.bind (Dict.get? values) with
  | some a => .ok a
  | none => .error .shape

/-- The members of a record with these fields. -/
def record (fields : List String) : Decoder (Dict Json)
  | .obj members => .ok members
  | .arr items => if items.length ≤ fields.length then .ok (fields.zip items) else .error .shape
  | _ => .error .shape

/-- A field that must be there. -/
def required (members : Dict Json) (field : String) (d : Decoder α) : Except Misfit α :=
  match Dict.get? members field with
  | some j => d j
  | none => .error .shape

/-- A field that takes a value of its own where it is not there. -/
def defaulted (members : Dict Json) (field : String) (d : Decoder α) (default : α) :
    Except Misfit α :=
  match Dict.get? members field with
  | some j => d j
  | none => .ok default

/-- A field that may be absent or `null`. -/
def possible (members : Dict Json) (field : String) (d : Decoder α) : Except Misfit (Option α) :=
  defaulted members field (optional d) none

end Decoder

namespace Json

/-- A member that is written only if there is something to write. -/
def present (field : String) (f : α → Json) : Option α → List (String × Json)
  | some a => [(field, f a)]
  | none => []

/-- A list that is written only if it has members. -/
def nonempty (field : String) (f : α → Json) : List α → List (String × Json)
  | [] => []
  | items => [(field, .arr (items.map f))]

end Json

end GoalCompiler
