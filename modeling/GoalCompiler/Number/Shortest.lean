import GoalCompiler.Number.Dyadic

/-! The fewest decimal digits that read back as a number of some precision. The numbers that read back as `m · 2^q` form an
interval around it, which includes its ends when `m` is even. Grids of tens, ones, tenths, … are tried
from the widest down; on each the two neighbours of the value are the only candidates. -/
namespace GoalCompiler.Number

/-- A decimal number: `digits` times ten to the `exponent`. -/
structure Decimal where
  digits : Nat
  exponent : Int
deriving DecidableEq, Repr

/-- How many binary digits numbers have, and the least power of two that the last one stands for. -/
structure Precision where
  bits : Nat
  least : Int
deriving DecidableEq, Repr

def Precision.double : Precision := ⟨53, -1074⟩

def Precision.single : Precision := ⟨24, -149⟩

/-- Below `m · 2^q` the numbers lie twice as close as above. -/
def Precision.isEdge (p : Precision) (m : Nat) (q : Int) : Bool :=
  m == Nat.pow 2 (p.bits - 1) && p.least < q

/-- The neighbour of `m · 2^q` on the grid of multiples of ten to the `e` that reads back, the nearer of
two and the even one of two as near. -/
def neighbour? (p : Precision) (m : Nat) (q e : Int) : Option Nat :=
  let unit := Nat.pow 2 (q - 2).toNat * Nat.pow 10 (-e).toNat
  let cell := Nat.pow 2 (2 - q).toNat * Nat.pow 10 e.toNat
  let value := 4 * m * unit
  let low := (4 * m - (if p.isEdge m q then 1 else 2)) * unit
  let high := (4 * m + 2) * unit
  let within (c : Nat) : Bool :=
    if m % 2 = 0 then low ≤ c * cell && c * cell ≤ high else low < c * cell && c * cell < high
  let below := value / cell
  let above := below + 1
  let distance := value - below * cell
  match within below, within above with
  | true, false => some below
  | false, true => some above
  | false, false => none
  | true, true =>
    if 2 * distance < cell then some below
    else if cell < 2 * distance then some above
    else some (if below % 2 = 0 then below else above)

/-- The first hit on the grids from ten to the `e` downwards. -/
def shortestFrom (p : Precision) (m : Nat) (q : Int) : Nat → Int → Decimal
  | 0, e => ⟨0, e⟩
  | fuel + 1, e =>
    match neighbour? p m q e with
    | some c => ⟨c, e⟩
    | none => shortestFrom p m q fuel (e - 1)

/-- The fewest digits for `m · 2^q`. A grid wider than the value comes first; 17 digits always do. -/
def shortest (p : Precision) (m : Nat) (q : Int) : Decimal :=
  if m = 0 then ⟨0, 0⟩
  else
    let bits : Int := m.log2 + 1 + q
    shortestFrom p m q 22 (bits * 30103 / 100000 + 1)

end GoalCompiler.Number
