import GoalCompiler.Dict

/-! Expressions as trees. Parentheses leave no trace in a tree, and neither does a unary plus. -/
namespace GoalCompiler.Expression

inductive Operator where
  | add | sub | mul | div | mod | pow
deriving DecidableEq, Repr

def Operator.symbol : Operator → String
  | .add => "+"
  | .sub => "-"
  | .mul => "*"
  | .div => "/"
  | .mod => "%"
  | .pow => "**"

inductive Comparison where
  | lt | le | gt | ge | eq | ne
deriving DecidableEq, Repr

def Comparison.symbol : Comparison → String
  | .lt => "<"
  | .le => "<="
  | .gt => ">"
  | .ge => ">="
  | .eq => "=="
  | .ne => "!="

inductive Expr where
  | int (n : Int64)
  | float (x : Float)
  | str (s : String)
  | bool (b : Bool)
  | ident (name : String)
  | neg (operand : Expr)
  | not (operand : Expr)
  | binary (op : Operator) (left right : Expr)
  /-- A chain `a < b <= c`; each operand stands in it once. -/
  | compare (first : Expr) (rest : List (Comparison × Expr))
  | and (left right : Expr)
  | or (left right : Expr)
  | ifElse (condition whenTrue whenFalse : Expr)
  | call (function : String) (args : List Expr)
deriving Repr, BEq, Inhabited

namespace Expr

mutual

/-- The names of variables that an expression reads. -/
def identifiers : Expr → NameSet
  | .int _ | .float _ | .str _ | .bool _ => []
  | .ident name => [name]
  | .neg e | .not e => identifiers e
  | .binary _ l r | .and l r | .or l r => NameSet.union (identifiers l) (identifiers r)
  | .compare first rest => NameSet.union (identifiers first) (chainIdentifiers rest)
  | .ifElse c t e =>
    NameSet.union (NameSet.union (identifiers c) (identifiers t)) (identifiers e)
  | .call _ args => argIdentifiers args

def chainIdentifiers : List (Comparison × Expr) → NameSet
  | [] => []
  | (_, e) :: rest => NameSet.union (identifiers e) (chainIdentifiers rest)

def argIdentifiers : List Expr → NameSet
  | [] => []
  | e :: rest => NameSet.union (identifiers e) (argIdentifiers rest)

end

mutual

/-- The number of operators on the longest path from the root to a leaf. -/
def depth : Expr → Nat
  | .int _ | .float _ | .str _ | .bool _ | .ident _ => 0
  | .neg e | .not e => depth e + 1
  | .binary _ l r | .and l r | .or l r => max (depth l) (depth r) + 1
  | .compare first rest => max (depth first) (chainDepth rest) + 1
  | .ifElse c t e => max (depth c) (max (depth t) (depth e)) + 1
  | .call _ args => argDepth args + 1

def chainDepth : List (Comparison × Expr) → Nat
  | [] => 0
  | (_, e) :: rest => max (depth e) (chainDepth rest)

def argDepth : List Expr → Nat
  | [] => 0
  | e :: rest => max (depth e) (argDepth rest)

end

end Expr

end GoalCompiler.Expression
