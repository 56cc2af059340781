import GoalCompiler.Expression.Scalar
import GoalCompiler.Expression.Tree
import GoalCompiler.Json.Value

/-! Expressions as documents: an array of what the expression is and its parts. -/
namespace GoalCompiler.Expression

/-- A double, by name where it is no number. -/
def floatDocument (x : Float) : Json :=
  if x.isFinite then .float x
  else .str (if x.isNaN then "nan" else if x < 0.0 then "-inf" else "inf")

/-- The value of a scalar, no double lost. -/
def Scalar.document : Scalar → Json
  | .float x => floatDocument x
  | s => s.toJson

namespace Expr

mutual

def document : Expr → Json
  | .int n => .arr [.str "int", .int n.toInt]
  | .float x => .arr [.str "float", floatDocument x]
  | .str s => .arr [.str "str", .str s]
  | .bool b => .arr [.str "bool", .bool b]
  | .ident name => .arr [.str "ident", .str name]
  | .neg e => .arr [.str "neg", document e]
  | .not e => .arr [.str "not", document e]
  | .binary op l r => .arr [.str "bin", .str op.symbol, document l, document r]
  | .compare first rest => .arr [.str "cmp", document first, .arr (chainDocument rest)]
  | .and l r => .arr [.str "and", document l, document r]
  | .or l r => .arr [.str "or", document l, document r]
  | .ifElse c t e => .arr [.str "if", document c, document t, document e]
  | .call f args => .arr [.str "call", .str f, .arr (argDocument args)]

def chainDocument : List (Comparison × Expr) → List Json
  | [] => []
  | (op, e) :: rest => .arr [.str op.symbol, document e] :: chainDocument rest

def argDocument : List Expr → List Json
  | [] => []
  | e :: rest => document e :: argDocument rest

end

end Expr

end GoalCompiler.Expression
