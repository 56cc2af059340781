import GoalCompiler.Json.Value
import GoalCompiler.Number.Layout
import GoalCompiler.Number.Numeral

/-! The values of expressions. Whole numbers have 64 bits and stay apart from doubles. -/
namespace GoalCompiler.Expression

inductive Scalar where
  | int (n : Int64)
  | float (x : Float)
  | bool (b : Bool)
  | str (s : String)
deriving DecidableEq, Repr

inductive Kind where
  | int | float | bool | string
deriving DecidableEq, Repr

def Kind.name : Kind → String
  | .int => "int"
  | .float => "float"
  | .bool => "bool"
  | .string => "string"

namespace Scalar

def kind : Scalar → Kind
  | .int _ => .int
  | .float _ => .float
  | .bool _ => .bool
  | .str _ => .string

/-- A scalar in a document, where `null` stands for a double that is no finite number. -/
def toJson : Scalar → Json
  | .int n => .int n.toInt
  | .float x => if x.isFinite then .float x else .null
  | .bool b => .bool b
  | .str s => .str s

/-- The double that a number is compared and calculated as; truth values are no numbers. -/
def toFloat? : Scalar → Option Float
  | .int n => some (Float.ofInt n.toInt)
  | .float x => some x
  | _ => none

/-- Zero and the empty text are false. -/
def truthy : Scalar → Bool
  | .int n => n != 0
  | .float x => x != 0.0
  | .bool b => b
  | .str s => !s.isEmpty

/-- A scalar as messages show it. -/
def describe : Scalar → String
  | .int n => toString n.toInt
  | .float x => Number.Layout.message.write x
  | .bool b => if b then "true" else "false"
  | .str s => s

/-- The scalar that a document value is, if it is one: a whole number past 64 signed bits is a double. -/
def ofJson? : Json → Option Scalar
  | .int n => some (if Number.fitsWord n then .int (Int64.ofInt n) else .float (Float.ofInt n))
  | .float x => some (.float x)
  | .bool b => some (.bool b)
  | .str s => some (.str s)
  | .null | .arr _ | .obj _ => none

end Scalar

end GoalCompiler.Expression
