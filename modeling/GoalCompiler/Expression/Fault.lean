import GoalCompiler.Expression.Scalar
import GoalCompiler.Expression.Token
import GoalCompiler.Expression.Tree

/-! What can go wrong with an expression. -/
namespace GoalCompiler.Expression

/-- Why a function has no value for numbers. -/
inductive CallFault where
  | overflow
  | notFinite
  | negativeRoot
  | zeroToNegative
  | outsideUnit
  | notPositive
  | badBase
deriving DecidableEq, Repr

def CallFault.message : CallFault → String
  | .overflow => "integer overflow"
  | .notFinite => "result is not a finite number"
  | .negativeRoot => "argument must be non-negative"
  | .zeroToNegative => "zero cannot be raised to a negative power"
  | .outsideUnit => "argument must be within [-1, 1]"
  | .notPositive => "argument must be positive"
  | .badBase => "base must be positive and not 1"

inductive ArithmeticFault where
  | overflow
  | divisionByZero
  | moduloByZero
  | zeroToNegative
  | notFinite (op : Operator)
  | inCall (function : String) (cause : CallFault)
deriving DecidableEq, Repr

def ArithmeticFault.message : ArithmeticFault → String
  | .overflow => "integer overflow"
  | .divisionByZero => "division by zero"
  | .moduloByZero => "modulo by zero"
  | .zeroToNegative => "zero cannot be raised to a negative power"
  | .notFinite op => "'" ++ op.symbol ++ "' produced a non-finite result"
  | .inCall function cause => function ++ "(): " ++ cause.message

inductive TypeFault where
  | null (name : String)
  | notScalar (name : String)
  | cannotNegate (kind : Kind)
  | operands (op : Operator) (left right : Kind)
  | notComparable (op : Comparison) (left right : Kind)
  | notNumber (function : String) (kind : Kind)
  | notInteger (function : String) (kind : Kind)
  | notCondition (kind : Kind)
deriving DecidableEq, Repr

def TypeFault.message : TypeFault → String
  | .null name => "'" ++ name ++ "' is null"
  | .notScalar name => "'" ++ name ++ "' is not a scalar value"
  | .cannotNegate kind => "cannot negate " ++ kind.name
  | .operands op left right =>
    "unsupported operand types for " ++ op.symbol ++ ": " ++ left.name ++ " and " ++ right.name
  | .notComparable op left right =>
    "cannot compare " ++ left.name ++ " " ++ op.symbol ++ " " ++ right.name
  | .notNumber function kind => function ++ "() expects a number, got " ++ kind.name
  | .notInteger function kind => function ++ "() expects an integer, got " ++ kind.name
  | .notCondition kind => "condition must be boolean, got " ++ kind.name

/-- How many arguments a function takes. -/
inductive Arity where
  | exactly (n : Nat)
  | between (least most : Nat)
  | atLeastOne
deriving DecidableEq, Repr

def Arity.describe : Arity → String
  | .exactly n => toString n
  | .between least most => s!"{least}-{most}"
  | .atLeastOne => "at least 1"

def Arity.admits : Arity → Nat → Bool
  | .exactly n, found => found == n
  | .between least most, found => least ≤ found && found ≤ most
  | .atLeastOne, found => 1 ≤ found

inductive Fault where
  | syntaxError (position : Nat) (cause : Misreading)
  | unknownSymbol (name : String)
  | unknownFunction (name : String)
  | arithmetic (cause : ArithmeticFault)
  | type (cause : TypeFault)
  | arity (function : String) (expected : Arity) (found : Nat)
deriving DecidableEq, Repr

def Fault.code : Fault → String
  | .syntaxError _ _ | .arity _ _ _ => "syntax_error"
  | .unknownSymbol _ => "unknown_symbol"
  | .unknownFunction _ => "unknown_function"
  | .arithmetic _ => "arithmetic_error"
  | .type _ => "type_error"

/-- A fault together with the text of the expression that has it. -/
structure Error where
  fault : Fault
  source : String
deriving DecidableEq, Repr

def Error.code (e : Error) : String := e.fault.code

def Error.message (e : Error) : String :=
  match e.fault with
  | .syntaxError position cause =>
    s!"Syntax error at position {position} in '" ++ e.source ++ "': " ++ cause.message
  | .unknownSymbol name => "Unknown symbol '" ++ name ++ "' in '" ++ e.source ++ "'"
  | .unknownFunction name => "Unknown function '" ++ name ++ "' in '" ++ e.source ++ "'"
  | .arithmetic cause => "Arithmetic error in '" ++ e.source ++ "': " ++ cause.message
  | .type cause => "Type error in '" ++ e.source ++ "': " ++ cause.message
  | .arity function expected found =>
    "Function '" ++ function ++ "' expects " ++ expected.describe ++ s!" argument(s), got {found}"

end GoalCompiler.Expression
