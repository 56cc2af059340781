import GoalCompiler.Expression.Fault

/-! The functions that an expression may call. They calculate in doubles; a result is finite or a fault. -/
namespace GoalCompiler.Expression

inductive Function where
  | abs | min | max | round | floor | ceil | trunc | sqrt | pow | hypot
  | sin | cos | tan | asin | acos | atan | atan2 | degrees | radians | log | log10 | exp
deriving DecidableEq, Repr

namespace Function

def name : Function → String
  | .abs => "abs"
  | .min => "min"
  | .max => "max"
  | .round => "round"
  | .floor => "floor"
  | .ceil => "ceil"
  | .trunc => "trunc"
  | .sqrt => "sqrt"
  | .pow => "pow"
  | .hypot => "hypot"
  | .sin => "sin"
  | .cos => "cos"
  | .tan => "tan"
  | .asin => "asin"
  | .acos => "acos"
  | .atan => "atan"
  | .atan2 => "atan2"
  | .degrees => "degrees"
  | .radians => "radians"
  | .log => "log"
  | .log10 => "log10"
  | .exp => "exp"

def all : List Function :=
  [.abs, .min, .max, .round, .floor, .ceil, .trunc, .sqrt, .pow, .hypot, .sin, .cos, .tan, .asin, .acos,
   .atan, .atan2, .degrees, .radians, .log, .log10, .exp]

def ofName? (s : String) : Option Function := all.find? (·.name == s)

def arity : Function → Arity
  | .min | .max | .hypot => .atLeastOne
  | .round | .log => .between 1 2
  | .pow | .atan2 => .exactly 2
  | _ => .exactly 1

def fails (f : Function) (cause : CallFault) : Except Fault α :=
  .error (.arithmetic (.inCall f.name cause))

def number (f : Function) (s : Scalar) : Except Fault Float :=
  match s.toFloat? with
  | some x => .ok x
  | none => .error (.type (.notNumber f.name s.kind))

def integer (f : Function) : Scalar → Except Fault Int
  | .int n => .ok n.toInt
  | s => .error (.type (.notInteger f.name s.kind))

def finite (f : Function) (x : Float) : Except Fault Scalar :=
  if x.isFinite then .ok (.float x) else f.fails .notFinite

/-- The bound below which a double is taken as a whole number. -/
def wholeBound : Float := 9.2e18

/-- A double that holds a whole number, as that number. -/
def whole (f : Function) (x : Float) : Except Fault Scalar :=
  if x.isFinite && x.abs < wholeBound then
    .ok (.int (Int64.ofInt ((Number.whole? .towardZero x).getD 0)))
  else f.fails .overflow

/-- The argument that no later one betters; its kind is kept. -/
def best (f : Function) (better : Float → Float → Bool) (chosen : Scalar) (value : Float) :
    List Scalar → Except Fault Scalar
  | [] => .ok chosen
  | s :: rest => do
    let x ← f.number s
    if better x value then best f better s x rest else best f better chosen value rest

def extreme (f : Function) (better : Float → Float → Bool) : List Scalar → Except Fault Scalar
  | [] => .error (.arity f.name .atLeastOne 0)
  | s :: rest => do
    let x ← f.number s
    best f better s x rest

def sumOfSquares (f : Function) (sum : Float) : List Scalar → Except Fault Float
  | [] => .ok sum
  | s :: rest => do
    let x ← f.number s
    sumOfSquares f (sum + x * x) rest

/-- Rounds to a count of decimal places, by way of a power of ten. -/
def roundPlaces (x : Float) (places : Int) : Float :=
  let factor := Number.tenTo (if places < -308 then -308 else if 308 < places then 308 else places)
  Number.roundTo .nearest (x * factor) / factor

def pi : Float := 3.14159265358979323846

def onOne (f : Function) (x : Float) : Except Fault Scalar :=
  match f with
  | .abs => .ok (.float x.abs)
  | .round => f.whole (Number.roundTo .nearest x)
  | .floor => f.whole (Number.roundTo .down x)
  | .ceil => f.whole (Number.roundTo .up x)
  | .trunc => f.whole (Number.roundTo .towardZero x)
  | .sqrt => if x < 0.0 then f.fails .negativeRoot else f.finite x.sqrt
  | .sin => f.finite x.sin
  | .cos => f.finite x.cos
  | .tan => f.finite x.tan
  | .asin => if -1.0 ≤ x && x ≤ 1.0 then f.finite x.asin else f.fails .outsideUnit
  | .acos => if -1.0 ≤ x && x ≤ 1.0 then f.finite x.acos else f.fails .outsideUnit
  | .atan => f.finite x.atan
  | .degrees => f.finite (x * (180.0 / pi))
  | .radians => f.finite (x * (pi / 180.0))
  | .log => if x ≤ 0.0 then f.fails .notPositive else f.finite x.log
  | .log10 => if x ≤ 0.0 then f.fails .notPositive else f.finite x.log10
  | .exp => f.finite x.exp
  | _ => .error (.arity f.name f.arity 1)

def onTwo (f : Function) (a b : Scalar) : Except Fault Scalar := do
  let x ← f.number a
  match f with
  | .round => f.finite (roundPlaces x (← f.integer b))
  | .pow =>
    let y ← f.number b
    if x == 0.0 && y < 0.0 then f.fails .zeroToNegative else f.finite (Float.pow x y)
  | .atan2 => f.finite (Float.atan2 x (← f.number b))
  | .log =>
    if x ≤ 0.0 then f.fails .notPositive
    else
      let base ← f.number b
      if base ≤ 0.0 || base == 1.0 then f.fails .badBase else f.finite (x.log / base.log)
  | _ => .error (.arity f.name f.arity 2)

def apply (f : Function) (args : List Scalar) : Except Fault Scalar :=
  if !f.arity.admits args.length then .error (.arity f.name f.arity args.length)
  else
    match f, args with
    | .min, args => extreme .min (fun x best => x < best) args
    | .max, args => extreme .max (fun x best => best < x) args
    | .hypot, args => (sumOfSquares .hypot 0.0 args).bind fun sum => finite .hypot sum.sqrt
    | .abs, [.int n] =>
      if n.toInt = Number.leastWord then fails .abs .overflow else .ok (.int (Int64.ofInt n.toInt.natAbs))
    | f, [a] => (f.number a).bind f.onOne
    | f, [a, b] => f.onTwo a b
    | f, args => .error (.arity f.name f.arity args.length)

end Function

/-- Calls the function of that name, if there is one. -/
def call (name : String) (args : List Scalar) : Except Fault Scalar :=
  match Function.ofName? name with
  | some f => f.apply args
  | none => .error (.unknownFunction name)

end GoalCompiler.Expression
