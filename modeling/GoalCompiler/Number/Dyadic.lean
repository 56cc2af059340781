/-! The exact value of a double: a sign and a natural number times a power of two. Rounding to whole
numbers is decided on that value, so it says what happens at every size and keeps the sign of a zero. -/
namespace GoalCompiler.Number

inductive Exact where
  | finite (negative : Bool) (mantissa : Nat) (exponent : Int)
  | infinite (negative : Bool)
  | nan
deriving DecidableEq, Repr

/-- The value that the 64 bits of a double stand for. -/
def exact (x : Float) : Exact :=
  let bits := x.toBits.toNat
  let negative := bits / Nat.pow 2 63 == 1
  let scale : Nat := bits / Nat.pow 2 52 % Nat.pow 2 11
  let fraction : Nat := bits % Nat.pow 2 52
  if scale = 2047 then
    if fraction = 0 then .infinite negative else .nan
  else if scale = 0 then .finite negative fraction (-1074)
  else .finite negative (Nat.pow 2 52 + fraction) (Int.ofNat scale - 1075)

/-- A whole number chosen for the fraction `n / d`. -/
abbrev Rounding := Int → Nat → Int

def Rounding.down : Rounding := fun n d => n.fdiv d

def Rounding.up : Rounding := fun n d => -(-n).fdiv d

def Rounding.towardZero : Rounding := fun n d => n.tdiv d

/-- The nearer whole number; halfway between two, the even one. -/
def Rounding.nearest : Rounding := fun n d =>
  let q := n.fdiv d
  let twice := 2 * (n - q * d)
  if twice < d then q
  else if d < twice then q + 1
  else if q % 2 = 0 then q else q + 1

/-- The whole number that the rounding gives a finite double. -/
def whole? (r : Rounding) (x : Float) : Option Int :=
  match exact x with
  | .finite negative m e =>
    let n : Int := if negative then -m else m
    some (if e < 0 then r n (Nat.pow 2 e.natAbs) else n * Nat.pow 2 e.natAbs)
  | _ => none

/-- Rounding within the doubles: infinities and nan stay, and a zero has the sign of the number. -/
def roundTo (r : Rounding) (x : Float) : Float :=
  match exact x, whole? r x with
  | .finite negative _ _, some 0 => if negative then -0.0 else 0.0
  | _, some n => Float.ofInt n
  | _, none => x

/-- Powers by repeated squaring, from the lowest binary digit of the exponent up. -/
def squaring (base result : Float) (n : Nat) : Float :=
  if h : n = 0 then result
  else squaring (base * base) (if n % 2 = 1 then result * base else result) (n / 2)
termination_by n
decreasing_by omega

/-- Ten to a whole power; a negative one is the inverse of the positive. -/
def tenTo (n : Int) : Float :=
  let p := squaring 10.0 1.0 n.natAbs
  if n < 0 then 1.0 / p else p

end GoalCompiler.Number
