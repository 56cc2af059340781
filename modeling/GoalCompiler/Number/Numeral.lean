import GoalCompiler.Number.Dyadic

/-! Reading numbers. `ofDecimal` is the double nearest to a decimal number; `scaled` is the quick reading
that documents use, one product or quotient of two doubles. -/
namespace GoalCompiler.Number

def isDigit (c : Char) : Bool := '0' ≤ c && c ≤ '9'

def digitValue (c : Char) : Nat := c.toNat - '0'.toNat

/-- The number that a text of digits stands for. -/
def ofDigits (cs : List Char) : Nat :=
  cs.foldl (fun n c => 10 * n + digitValue c) 0

def infinity : Float := 1.0 / 0.0

/-- The double nearest to `digits` times ten to the `exponent`. Far outside the range of doubles it is
infinity or zero. -/
def ofDecimal (digits : Nat) (exponent : Int) : Float :=
  if digits = 0 then 0.0
  else
    let size : Int := (Nat.toDigits 10 digits).length + exponent
    if 400 < size then infinity
    else if size < -400 then 0.0
    else Float.ofScientific digits (exponent < 0) exponent.natAbs

/-- The quotient of a double by ten to `n`, taken 308 powers at a time. -/
def shrink (x : Float) (n : Nat) : Float :=
  if h : n ≤ 308 then x / ofDecimal 1 n
  else if x == 0.0 then x
  else shrink (x / ofDecimal 1 308) (n - 308)
termination_by n

/-- The reading of documents: the double of `digits`, multiplied or divided by the double of a power of
ten; `none` when that is past the largest double. -/
def scaled (digits : Nat) (exponent : Int) : Option Float :=
  let x := ofDecimal digits 0
  if exponent < 0 then some (shrink x exponent.natAbs)
  else if 308 < exponent then if x == 0.0 then some x else none
  else
    let y := x * ofDecimal 1 exponent
    if y.isFinite then some y else none

/-- A whole number with an optional sign, in a text of nothing else. -/
def ofSigned? (s : String) : Option Int :=
  let natural? (cs : List Char) : Option Nat :=
    if cs.isEmpty || !cs.all isDigit then none else some (ofDigits cs)
  match s.toList with
  | '-' :: cs => (natural? cs).map fun n => -(n : Int)
  | '+' :: cs => (natural? cs).map fun n => (n : Int)
  | cs => (natural? cs).map fun n => (n : Int)

/-- A number with an optional fraction and exponent, or the name of what is no number, in any case, in a
text of nothing else. -/
def ofReal? (s : String) : Option Float :=
  let digits (cs : List Char) : List Char × List Char := (cs.takeWhile isDigit, cs.dropWhile isDigit)
  let power? (cs : List Char) : Option Int :=
    match cs with
    | [] => some 0
    | c :: cs => if c == 'e' || c == 'E' then ofSigned? (String.ofList cs) else none
  let unsigned? (cs : List Char) : Option Float :=
    match (String.ofList cs).toLower with
    | "inf" | "infinity" => some infinity
    | "nan" => some (0.0 / 0.0)
    | _ =>
      let (whole, rest) := digits cs
      let (fraction, rest) := match rest with
        | '.' :: rest => digits rest
        | rest => ([], rest)
      if whole.isEmpty && fraction.isEmpty then none
      else (power? rest).map fun p => ofDecimal (ofDigits (whole ++ fraction)) (p - fraction.length)
  match s.toList with
  | '-' :: cs => (unsigned? cs).map (-·)
  | '+' :: cs => unsigned? cs
  | cs => unsigned? cs

/-- The least signed number of 64 bits. -/
def leastWord : Int := -0x8000000000000000

/-- Whether 64 bits hold a signed number. -/
def fitsWord (n : Int) : Bool := leastWord ≤ n && n < -leastWord

/-- A signed 64-bit number in a text of nothing else. -/
def word? (s : String) : Option Int64 :=
  (ofSigned? s).bind fun n => if fitsWord n then some (Int64.ofInt n) else none

end GoalCompiler.Number
