import GoalCompiler.Calendar
import GoalCompiler.Text.Character

/-! What marks a remembered answer: an identifier of 128 bits, and the times at which it was made and last
used. -/
namespace GoalCompiler

structure Identifier where
  value : Nat
deriving DecidableEq, Repr, Inhabited

namespace Identifier

def hexDigit? (c : Char) : Option Nat :=
  if Number.isDigit c then some (Number.digitValue c)
  else if 'a' ≤ c ∧ c ≤ 'f' then some (c.toNat - 'a'.toNat + 10)
  else if 'A' ≤ c ∧ c ≤ 'F' then some (c.toNat - 'A'.toNat + 10)
  else none

/-- The number of 32 hexadecimal digits. -/
def ofHex? (cs : List Char) : Option Identifier :=
  if cs.length != 32 then none
  else (cs.mapM hexDigit?).map fun digits => ⟨digits.foldl (fun n d => 16 * n + d) 0⟩

/-- The places of the dashes among 36 characters. -/
def dashes : List Nat := [8, 13, 18, 23]

def ofDashed? (cs : List Char) : Option Identifier :=
  if cs.length = 36 ∧ dashes.all (fun i => cs[i]? == some '-') then
    ofHex? ((cs.zipIdx.filter fun (_, i) => !dashes.contains i).map Prod.fst)
  else none

/-- Digits alone, digits with dashes, and these in braces or as a name of a resource. -/
def read? (s : String) : Option Identifier :=
  match s.toList with
  | '{' :: rest => if rest.getLast? = some '}' then ofDashed? rest.dropLast else none
  | 'u' :: 'r' :: 'n' :: ':' :: 'u' :: 'u' :: 'i' :: 'd' :: ':' :: rest => ofDashed? rest
  | cs => (ofDashed? cs).or (ofHex? cs)

/-- The last `n` hexadecimal digits of a number. -/
def hex (n value : Nat) : String :=
  let digits := Nat.toDigits 16 (value % Nat.pow 16 n)
  String.ofList (List.replicate (n - digits.length) '0' ++ digits)

def write (i : Identifier) : String :=
  "-".intercalate [hex 8 (i.value / Nat.pow 16 24), hex 4 (i.value / Nat.pow 16 20), hex 4 (i.value / Nat.pow 16 16),
    hex 4 (i.value / Nat.pow 16 12), hex 12 i.value]

end Identifier

/-- A point in time, as it is written. -/
structure Moment where
  text : String
deriving DecidableEq, Repr, Inhabited

namespace Moment

open Calendar (digits? isDate)

/-- What follows the date at the front. -/
def afterDate? (cs : List Char) : Option (List Char) := do
  let (year, cs) ← digits? 4 cs
  let '-' :: cs := cs | none
  let (month, cs) ← digits? 2 cs
  let '-' :: cs := cs | none
  let (day, cs) ← digits? 2 cs
  if isDate year month day then some cs else none

/-- What follows the time of day at the front. The last second of an hour may be the sixtieth. -/
def afterClock? (cs : List Char) : Option (List Char) := do
  let (hour, cs) ← digits? 2 cs
  let ':' :: cs := cs | none
  let (minute, cs) ← digits? 2 cs
  let ':' :: cs := cs | none
  let (second, cs) ← digits? 2 cs
  if hour < 24 ∧ minute < 60 ∧ second ≤ 60 then
    match cs with
    | '.' :: c :: rest => if Number.isDigit c then some (rest.dropWhile Number.isDigit) else none
    | cs => some cs
  else none

def isOffset (cs : List Char) : Bool :=
  match cs with
  | ['Z'] | ['z'] | ['U', 'T', 'C'] => true
  | sign :: rest =>
    (sign == '+' || sign == '-') &&
      match digits? 2 rest with
      | some (_, ':' :: cs) | some (_, cs) =>
        match digits? 2 cs with
        | some (minutes, []) => minutes < 60
        | _ => false
      | none => false
  | [] => false

/-- A date, a time of day, and the distance from the time at the zero meridian. -/
def read? (s : String) : Option Moment := do
  let c :: cs ← afterDate? s.toList | none
  if c == 'T' || c == 't' || c == ' ' then
    if isOffset (← afterClock? cs) then some ⟨s⟩ else none
  else none

end Moment

/-- What a new mapping is marked with. -/
structure Stamp where
  id : Identifier
  moment : Moment
deriving DecidableEq, Repr, Inhabited

end GoalCompiler
