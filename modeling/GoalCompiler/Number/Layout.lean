import GoalCompiler.Number.Shortest

/-! How a number is written. The digits are the fewest that read back; a `Layout` says where the point
stands and when an exponent is used. -/
namespace GoalCompiler.Number

structure Layout where
  /-- Whether a number whose point stands `n` places after its first digit is written in full. -/
  inFull : Int → Bool
  /-- Whether a whole number keeps a point and a zero. -/
  keepsPoint : Bool
  infinity : String
  nan : String

/-- Documents: in full from a hundred-thousandth up to sixteen places before the point, with a point in
every double. -/
def Layout.document : Layout :=
  { inFull := fun n => -5 < n && n ≤ 16, keepsPoint := true, infinity := "null", nan := "null" }

/-- Messages: always in full, and a whole number has no point. -/
def Layout.message : Layout :=
  { inFull := fun _ => true, keepsPoint := false, infinity := "inf", nan := "NaN" }

def zeros (n : Nat) : List Char := List.replicate n '0'

def Layout.writeDecimal (l : Layout) (d : Decimal) : List Char :=
  let digits := Nat.toDigits 10 d.digits
  let point : Int := if d.digits = 0 then 1 else digits.length + d.exponent
  if l.inFull point then
    if 0 ≤ d.exponent then
      digits ++ zeros d.exponent.toNat ++ (if l.keepsPoint then ['.', '0'] else [])
    else if 0 < point then
      digits.take point.toNat ++ '.' :: digits.drop point.toNat
    else '0' :: '.' :: zeros (-point).toNat ++ digits
  else
    let power := point - 1
    let fraction := match digits.drop 1 with
      | [] => []
      | ds => '.' :: ds
    digits.take 1 ++ fraction ++ 'e' :: (if power < 0 then '-' else '+') :: Nat.toDigits 10 power.natAbs

def Layout.write (l : Layout) (x : Float) : String :=
  let signed (negative : Bool) (cs : List Char) : String :=
    String.ofList (if negative then '-' :: cs else cs)
  match exact x with
  | .nan => l.nan
  | .infinite negative => signed negative l.infinity.toList
  | .finite negative m q => signed negative (l.writeDecimal (shortest .double m q))

end GoalCompiler.Number
