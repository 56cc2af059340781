import GoalCompiler.Json.Writer

/-! Parameters of a workflow. A parameter declares which values it takes; `accept` puts a value into the
declared form or says why it is refused. -/
namespace GoalCompiler

inductive ValueType where
  | float | int | bool | string
deriving DecidableEq, Repr, Inhabited

def ValueType.name : ValueType → String
  | .float => "float"
  | .int => "int"
  | .bool => "bool"
  | .string => "string"

structure Parameter where
  name : String
  type : ValueType := .float
  /-- The least and the greatest value, both included. -/
  range : Option (Float × Float) := none
  allowed : Option (List Json) := none
  default : Json := .null
  description : String := ""
  hints : List String := []
  /-- Parameters of a group share answers. -/
  group : Option String := none
  /-- The expression that gives the value, for a parameter that is computed from others. -/
  computed : Option String := none
  dependsOn : List String := []
deriving DecidableEq, Repr, Inhabited

/-- Why a parameter refuses a value. -/
inductive Refused where
  | outOfRange (value : Json) (least greatest : Float)
  | notAllowed (value : Json) (allowed : List Json)
  | wrongType (expected : ValueType) (found : Json)
deriving DecidableEq, Repr

/-- A refusal together with the parameter's name. -/
structure ValueError where
  parameter : String
  cause : Refused
deriving DecidableEq, Repr

/-- The kind of a value as messages name it. -/
def Json.kindName : Json → String
  | .null => "null"
  | .bool _ => "bool"
  | .int _ => "int"
  | .float _ => "float"
  | .str _ => "string"
  | .arr _ => "array"
  | .obj _ => "object"

/-- The double nearest to a number. -/
def Json.toFloat? : Json → Option Float
  | .int n => some (Float.ofInt n)
  | .float x => some x
  | _ => none

/-- A bound as messages write it. -/
def writeBound (x : Float) : String := Number.Layout.message.write x

def ValueError.message (e : ValueError) : String :=
  "Parameter '" ++ e.parameter ++ "' " ++ match e.cause with
    | .outOfRange value least greatest =>
      "value " ++ value.write ++ " is outside range [" ++ writeBound least ++ ", " ++
        writeBound greatest ++ "]"
    | .notAllowed value allowed =>
      "value " ++ value.write ++ " is not one of [" ++ ", ".intercalate (allowed.map Json.write) ++ "]"
    | .wrongType expected found => "expects " ++ expected.name ++ ", got " ++ found.kindName

def ValueError.code (e : ValueError) : String :=
  match e.cause with
  | .outOfRange _ _ _ => "parameter_out_of_range"
  | .notAllowed _ _ => "parameter_enum_violation"
  | .wrongType _ _ => "parameter_type"

/-- The bound below which a double with no fraction is taken as a whole number. -/
def wholeLimit : Float := 9.0e15

/-- The whole number that a double holds, below the limit. -/
def wholeNumber? (x : Float) : Option Int :=
  if x.abs < wholeLimit && Number.roundTo .towardZero x == x then Number.whole? .towardZero x else none

/-- The value in the form of the type; a double without fraction is a whole number too. -/
def ValueType.coerce? : ValueType → Json → Option Json
  | .float, .int n => some (.int n)
  | .float, .float x => some (.float x)
  | .int, .int n => some (.int n)
  | .int, .float x => (wholeNumber? x).map .int
  | .bool, .bool b => some (.bool b)
  | .string, .str s => some (.str s)
  | _, _ => none

/-- Numbers are the same if their doubles are. -/
def sameValue (a b : Json) : Bool :=
  match a.toFloat?, b.toFloat? with
  | some x, some y => x == y
  | _, _ => a == b

namespace Parameter

def isComputed (p : Parameter) : Bool := p.computed.isSome

def inRange (p : Parameter) (v : Json) : Bool :=
  match p.range, v.toFloat? with
  | some (least, greatest), some x => !(x < least || greatest < x)
  | _, _ => true

def isAllowed (p : Parameter) (v : Json) : Bool :=
  match p.allowed with
  | some values => values.any (sameValue · v)
  | none => true

/-- The value in the form of the parameter's type, if it is in range and allowed. -/
def accept (p : Parameter) (value : Json) : Except ValueError Json :=
  match p.type.coerce? value with
  | none => .error ⟨p.name, .wrongType p.type value⟩
  | some v =>
    if !p.inRange v then
      let (least, greatest) := p.range.getD (0.0, 0.0)
      .error ⟨p.name, .outOfRange v least greatest⟩
    else if !p.isAllowed v then .error ⟨p.name, .notAllowed v (p.allowed.getD [])⟩
    else .ok v

def accepts (p : Parameter) (value : Json) : Bool := (p.accept value).toBool

end Parameter

end GoalCompiler
