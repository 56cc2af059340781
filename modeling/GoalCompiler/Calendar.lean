import GoalCompiler.Number.Numeral

/-! Days of the calendar, and the fixed numbers of digits that dates and times are written with. -/
namespace GoalCompiler.Calendar

/-- The number of `n` digits at the front, and what follows. -/
def digits? (n : Nat) (cs : List Char) : Option (Nat × List Char) :=
  if (cs.take n).length = n ∧ (cs.take n).all Number.isDigit then
    some (Number.ofDigits (cs.take n), cs.drop n)
  else none

def daysIn (year month : Nat) : Nat :=
  if month = 2 then
    if year % 4 = 0 ∧ (year % 100 ≠ 0 ∨ year % 400 = 0) then 29 else 28
  else if [4, 6, 9, 11].contains month then 30 else 31

def isDate (year month day : Nat) : Bool :=
  1 ≤ month && month ≤ 12 && 1 ≤ day && day ≤ daysIn year month

/-- A number with zeros in front, to so many digits. -/
def padded (n value : Nat) : String :=
  let digits := Nat.toDigits 10 value
  String.ofList (List.replicate (n - digits.length) '0' ++ digits)

/-- The year, month and day so many days after the first of January 1970. Years are counted from March, so
that the day that is sometimes there comes last. -/
def dateAfter (days : Nat) : Nat × Nat × Nat :=
  let z := days + 719468
  let era := z / 146097
  let dayOfEra := z % 146097
  let yearOfEra := (dayOfEra - dayOfEra / 1460 + dayOfEra / 36524 - dayOfEra / 146096) / 365
  let dayOfYear := dayOfEra - (365 * yearOfEra + yearOfEra / 4 - yearOfEra / 100)
  let month := (5 * dayOfYear + 2) / 153
  let day := dayOfYear - (153 * month + 2) / 5 + 1
  if month < 10 then (400 * era + yearOfEra, month + 3, day) else (400 * era + yearOfEra + 1, month - 9, day)

/-- The time so many seconds after the start of 1970, as it is written. -/
def timeAfter (seconds : Nat) : String :=
  let (year, month, day) := dateAfter (seconds / 86400)
  let clock := seconds % 86400
  "-".intercalate [padded 4 year, padded 2 month, padded 2 day] ++ "T" ++
    ":".intercalate [padded 2 (clock / 3600), padded 2 (clock / 60 % 60), padded 2 (clock % 60)] ++ "Z"

end GoalCompiler.Calendar
