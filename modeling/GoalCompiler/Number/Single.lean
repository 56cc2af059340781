import GoalCompiler.Number.Numeral
import GoalCompiler.Number.Shortest

/-! Numbers of single precision: rounding to them, and the double of the same value. -/
namespace GoalCompiler.Number

/-- The bits of the single nearest to `m · 2^e`, of two as near the one with even bits. -/
def singleBits (m : Nat) (e : Int) : Nat :=
  if m = 0 then 0
  else
    let size : Int := m.log2 + 1
    let q := max (size + e - 24) (-149)
    let r : Nat :=
      if e < q then (Rounding.nearest m (Nat.pow 2 (q - e).toNat)).toNat else m * Nat.pow 2 (e - q).toNat
    let (r, q) := if r = Nat.pow 2 24 then (Nat.pow 2 23, q + 1) else (r, q)
    if r < Nat.pow 2 23 then r
    else if 104 < q then 255 * Nat.pow 2 23
    else (q + 150).toNat * Nat.pow 2 23 + (r - Nat.pow 2 23)

def signedBits (negative : Bool) (bits : Nat) : Float32 :=
  Float32.ofBits (UInt32.ofNat (if negative then Nat.pow 2 31 + bits else bits))

def singleNaN : Float32 := Float32.ofBits 0x7FC00000

/-- The single nearest to a double. -/
def toSingle (x : Float) : Float32 :=
  match exact x with
  | .finite negative m e => signedBits negative (singleBits m e)
  | .infinite negative => signedBits negative (255 * Nat.pow 2 23)
  | .nan => singleNaN

/-- The single nearest to a whole number. -/
def singleOfInt (n : Int) : Float32 := signedBits (n < 0) (singleBits n.natAbs 0)

/-- The double with the value of a single. -/
def toDouble (x : Float32) : Float :=
  let bits := x.toBits.toNat
  let negative : Nat := bits / Nat.pow 2 31
  let scale : Nat := bits / Nat.pow 2 23 % Nat.pow 2 8
  let fraction : Nat := bits % Nat.pow 2 23
  let rest : Nat :=
    if scale = 255 then 2047 * Nat.pow 2 52 + fraction * Nat.pow 2 29
    else if scale = 0 then
      if fraction = 0 then 0
      else (fraction.log2 + 874) * Nat.pow 2 52 + (fraction - Nat.pow 2 fraction.log2) * Nat.pow 2 (52 - fraction.log2)
    else (scale + 896) * Nat.pow 2 52 + fraction * Nat.pow 2 29
  Float.ofBits (UInt64.ofNat (negative * Nat.pow 2 63 + rest))

/-- The double with the fewest decimal digits that read back as the single. -/
def ofShortest (x : Float32) : Float :=
  let bits := x.toBits.toNat
  let scale : Nat := bits / Nat.pow 2 23 % Nat.pow 2 8
  let fraction : Nat := bits % Nat.pow 2 23
  if scale = 255 then toDouble x
  else
    let d := if scale = 0 then shortest .single fraction (-149)
      else shortest .single (Nat.pow 2 23 + fraction) (Int.ofNat scale - 150)
    let y := ofDecimal d.digits d.exponent
    if Nat.pow 2 31 ≤ bits then -y else y

end GoalCompiler.Number
