import GoalCompiler.Calendar
import GoalCompiler.Json.Value
import GoalCompiler.Text.Reading

/-! Values of one word: truth values, numbers, dates and times. -/
namespace GoalCompiler.Toml

inductive Edition where
  | first
  /-- Braces may go over several lines, seconds may be left out, and there are two escapes more. -/
  | second
deriving DecidableEq, Repr

/-- What readers of files may differ in. -/
structure Dialect where
  edition : Edition
  /-- The document of a date or a time. -/
  moment : String → Json

/-- Digits with single low lines between them, without the low lines. -/
def plainDigits? (isDigit : Char → Bool) (cs : List Char) : Option (List Char) :=
  let groups := Text.split '_' cs
  if groups.all fun g => !g.isEmpty && g.all isDigit then some groups.flatten else none

def digitOf (c : Char) : Nat :=
  if Number.isDigit c then Number.digitValue c
  else if 'a' ≤ c then c.toNat - 'a'.toNat + 10
  else c.toNat - 'A'.toNat + 10

/-- The characters that are digits to the base. -/
def isDigitTo (base : Nat) (c : Char) : Bool :=
  (Number.isDigit c || ('a' ≤ c && c ≤ 'f') || ('A' ≤ c && c ≤ 'F')) && digitOf c < base

def natural? (base : Nat) (cs : List Char) : Option Nat :=
  (plainDigits? (isDigitTo base) cs).map fun ds => ds.foldl (fun n c => base * n + digitOf c) 0

/-- A number to the base ten has no zero in front of other digits. -/
def decimal? (cs : List Char) : Option (List Char) :=
  match plainDigits? Number.isDigit cs with
  | some ('0' :: _ :: _) | none => none
  | ds => ds

/-- The sign in front, and what follows it. -/
def signed : List Char → Bool × List Char
  | '-' :: cs => (true, cs)
  | '+' :: cs => (false, cs)
  | cs => (false, cs)

def integer? (cs : List Char) : Option Int :=
  match cs with
  | '0' :: 'x' :: ds => (natural? 16 ds).map Int.ofNat
  | '0' :: 'o' :: ds => (natural? 8 ds).map Int.ofNat
  | '0' :: 'b' :: ds => (natural? 2 ds).map Int.ofNat
  | cs =>
    let (negative, cs) := signed cs
    (decimal? cs).map fun ds => if negative then -Number.ofDigits ds else Number.ofDigits ds

/-- The part after a mark, if there is one. -/
def splitAt (isMark : Char → Bool) (cs : List Char) : List Char × Option (List Char) :=
  match cs.dropWhile (!isMark ·) with
  | [] => (cs, none)
  | _ :: rest => (cs.takeWhile (!isMark ·), some rest)

/-- The double nearest to a decimal number with a fraction or an exponent, if that is not infinite. -/
def real? (cs : List Char) : Option Float := do
  let (mantissa, exponent) := splitAt (fun c => c == 'e' || c == 'E') cs
  let (whole, fraction) := splitAt (· == '.') mantissa
  if fraction.isNone && exponent.isNone then none
  let whole ← decimal? whole
  let fraction ← (fraction.map (plainDigits? Number.isDigit)).getD (some [])
  let (down, power) := signed (exponent.getD ['0'])
  let power := Number.ofDigits (← plainDigits? Number.isDigit power)
  let scale : Int := (if down then -power else power : Int) - fraction.length
  let x := Number.ofDecimal (Number.ofDigits (whole ++ fraction)) scale
  if x.isFinite then some x else none

def float? (cs : List Char) : Option Float :=
  let (negative, cs) := signed cs
  let x? := match cs with
    | ['i', 'n', 'f'] => some Number.infinity
    | ['n', 'a', 'n'] => some (0.0 / 0.0)
    | cs => real? cs
  x?.map fun x => if negative then -x else x

/-! ### Dates and times -/

open Calendar (digits? isDate)

/-- The date at the front. -/
def date? (cs : List Char) : Option (List Char × List Char) := do
  let (year, rest) ← digits? 4 cs
  let '-' :: rest := rest | none
  let (month, rest) ← digits? 2 rest
  let '-' :: rest := rest | none
  let (day, rest) ← digits? 2 rest
  if isDate year month day then some (cs.take 10, rest) else none

/-- The fraction of a second at the front, as it is written: nine digits count, and zeros at the end do
not. -/
def fraction? (cs : List Char) : Option (List Char × List Char) :=
  match cs with
  | '.' :: cs =>
    match cs.takeWhile Number.isDigit with
    | [] => none
    | ds =>
      let kept := ((ds.take 9).reverse.dropWhile (· == '0')).reverse
      some (if kept.isEmpty then [] else '.' :: kept, cs.dropWhile Number.isDigit)
  | cs => some ([], cs)

/-- The time of day at the front. -/
def clock? (edition : Edition) (cs : List Char) : Option (List Char × List Char) := do
  let (hour, rest) ← digits? 2 cs
  let ':' :: rest := rest | none
  let (minute, rest) ← digits? 2 rest
  if 23 < hour || 59 < minute then none
  match rest with
  | ':' :: rest =>
    let (second, rest) ← digits? 2 rest
    let (fraction, rest) ← fraction? rest
    if 60 < second then none else some (cs.take 8 ++ fraction, rest)
  | rest => if edition = .second then some (cs.take 5, rest) else none

/-- The distance from the time at the zero meridian, if there is nothing after it. -/
def offset? (cs : List Char) : Option (List Char) :=
  match cs with
  | ['Z'] | ['z'] => some ['Z']
  | sign :: rest => do
    if sign != '+' && sign != '-' then none
    let (hour, rest) ← digits? 2 rest
    let ':' :: rest := rest | none
    let (minute, []) ← digits? 2 rest | none
    if hour ≤ 23 && minute ≤ 59 then some cs else none
  | [] => some []

/-- A date, a time, or a date with a time and perhaps its distance, in one way of writing. -/
def moment? (edition : Edition) (cs : List Char) : Option String :=
  match date? cs with
  | some (date, []) => some (String.ofList date)
  | some (date, mark :: rest) => do
    if mark != 'T' && mark != 't' && mark != ' ' then none
    let (clock, rest) ← clock? edition rest
    return String.ofList (date ++ 'T' :: clock ++ (← offset? rest))
  | none =>
    match clock? edition cs with
    | some (clock, []) => some (String.ofList clock)
    | _ => none

/-- Whole numbers have 64 bits, with a sign or, in the second edition, without. -/
def fits (edition : Edition) (n : Int) : Bool :=
  Number.fitsWord n || (edition == .second && 0 ≤ n && n < 0x10000000000000000)

/-- The value that a word stands for. -/
def word? (d : Dialect) (cs : List Char) : Option Json :=
  match cs with
  | ['t', 'r', 'u', 'e'] => some (.bool true)
  | ['f', 'a', 'l', 's', 'e'] => some (.bool false)
  | cs =>
    match integer? cs with
    | some n => if fits d.edition n then some (.int n) else none
    | none => ((float? cs).map .float).or ((moment? d.edition cs).map d.moment)

end GoalCompiler.Toml
