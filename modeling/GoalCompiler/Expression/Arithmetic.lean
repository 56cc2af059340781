import GoalCompiler.Expression.Fault

/-! Operators on scalars. Whole numbers give whole numbers or an overflow, division apart; a result in
doubles is finite or a fault. -/
namespace GoalCompiler.Expression

def word (n : Int) : Except Fault Scalar :=
  if Number.fitsWord n then .ok (.int (Int64.ofInt n)) else .error (.arithmetic .overflow)

def negate : Scalar → Except Fault Scalar
  | .int n => word (-n.toInt)
  | .float x => .ok (.float (-x))
  | s => .error (.type (.cannotNegate s.kind))

/-- Bases whose powers never leave 64 bits. -/
def staysSmall (n : Int) : Bool := n == 0 || n == 1 || n == -1

/-- A power of whole numbers. An exponent of more than 32 bits is refused for every base; past 64 only the
small bases stay in range, so the power is not worked out. -/
def wordPower (base : Int) (exponent : Nat) : Except Fault Scalar :=
  if 0x100000000 ≤ exponent then .error (.arithmetic .overflow)
  else if staysSmall base then word (if base = -1 && exponent % 2 = 0 then 1 else if exponent = 0 then 1 else base)
  else if 64 ≤ exponent then .error (.arithmetic .overflow)
  else word (Int.pow base exponent)

/-- The operator on whole numbers; `none` where doubles take over. The remainder has the sign of the
divisor. -/
def onWords (op : Operator) (a b : Int) : Option (Except Fault Scalar) :=
  match op with
  | .add => some (word (a + b))
  | .sub => some (word (a - b))
  | .mul => some (word (a * b))
  | .div => none
  | .mod =>
    if b = 0 then some (.error (.arithmetic .moduloByZero))
    else if a = Number.leastWord ∧ b = -1 then some (.error (.arithmetic .overflow))
    else some (word (a.fmod b))
  | .pow => if b < 0 then none else some (wordPower a b.toNat)

def onFloats (op : Operator) (a b : Float) : Except Fault Float :=
  match op with
  | .add => .ok (a + b)
  | .sub => .ok (a - b)
  | .mul => .ok (a * b)
  | .div => if b == 0.0 then .error (.arithmetic .divisionByZero) else .ok (a / b)
  | .mod =>
    if b == 0.0 then .error (.arithmetic .moduloByZero)
    else .ok (a - b * Number.roundTo .down (a / b))
  | .pow =>
    if a == 0.0 && b < 0.0 then .error (.arithmetic .zeroToNegative) else .ok (Float.pow a b)

def finite (op : Operator) (x : Float) : Except Fault Scalar :=
  if x.isFinite then .ok (.float x) else .error (.arithmetic (.notFinite op))

def calculate (op : Operator) (left right : Scalar) : Except Fault Scalar :=
  match op, left, right with
  | .add, .str a, .str b => .ok (.str (a ++ b))
  | op, left, right =>
    match left.toFloat?, right.toFloat? with
    | some a, some b =>
      let inFloats := (onFloats op a b).bind (finite op)
      match left, right with
      | .int m, .int n => (onWords op m.toInt n.toInt).getD inFloats
      | _, _ => inFloats
    | _, _ => .error (.type (.operands op left.kind right.kind))

/-- The order of two doubles; none if one is no number. -/
def floatOrder? (a b : Float) : Option Ordering :=
  if a < b then some .lt else if a == b then some .eq else if b < a then some .gt else none

/-- Texts go by code point, false goes before true, numbers go as doubles; other pairs have no order. -/
def order? : Scalar → Scalar → Option Ordering
  | .str a, .str b => some (compareOfLessAndEq a b)
  | .bool a, .bool b => some (compare a b)
  | a, b =>
    match a.toFloat?, b.toFloat? with
    | some x, some y => floatOrder? x y
    | _, _ => none

def Comparison.holds : Comparison → Ordering → Bool
  | .lt, o => o == .lt
  | .le, o => o != .gt
  | .gt, o => o == .gt
  | .ge, o => o != .lt
  | .eq, o => o == .eq
  | .ne, o => o != .eq

/-- Equality is decided for all pairs; the other comparisons need an order. -/
def compareBy (op : Comparison) (left right : Scalar) : Except Fault Bool :=
  match op, order? left right with
  | .eq, o => .ok (o == some .eq)
  | .ne, o => .ok (o != some .eq)
  | op, some o => .ok (op.holds o)
  | op, none => .error (.type (.notComparable op left.kind right.kind))

end GoalCompiler.Expression
