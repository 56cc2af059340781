import GoalCompiler.Json.Value
import GoalCompiler.Number.Numeral
import GoalCompiler.Text.Reading

/-! Reading a document. Each reader takes a value off the front of the text and says that what is left is
shorter; values inside values are read to a fixed depth. -/
namespace GoalCompiler.Json

open Text (Reader progress)

def isGap (c : Char) : Bool := c == ' ' || c == '\n' || c == '\t' || c == '\r'

def skipGap (cs : List Char) : List Char := cs.dropWhile isGap

theorem length_skipGap_le (cs : List Char) : (skipGap cs).length ≤ cs.length :=
  (List.dropWhile_sublist _).length_le

def hexValue? (c : Char) : Option Nat :=
  if '0' ≤ c && c ≤ '9' then some (c.toNat - '0'.toNat)
  else if 'a' ≤ c && c ≤ 'f' then some (c.toNat - 'a'.toNat + 10)
  else if 'A' ≤ c && c ≤ 'F' then some (c.toNat - 'A'.toNat + 10)
  else none

def hex4? (a b c d : Char) : Option Nat := do
  let a ← hexValue? a
  let b ← hexValue? b
  let c ← hexValue? c
  let d ← hexValue? d
  return ((a * 16 + b) * 16 + c) * 16 + d

/-- The character of a pair of surrogates. -/
def ofSurrogates (high low : Nat) : Char :=
  Char.ofNat (0x10000 + (high - 0xD800) * 0x400 + (low - 0xDC00))

/-- The rest of a quoted text: characters in reverse order up to the quote, and what follows it. Half a
surrogate pair is refused, and so is a bare control character. -/
def quoted (acc : List Char) : List Char → Option (List Char × List Char)
  | [] => none
  | '"' :: rest => some (acc, rest)
  | '\\' :: 'u' :: a :: b :: c :: d :: '\\' :: 'u' :: e :: f :: g :: h :: rest =>
    match hex4? a b c d, hex4? e f g h with
    | some high, some low =>
      if 0xD800 ≤ high && high < 0xDC00 then
        if 0xDC00 ≤ low && low < 0xE000 then quoted (ofSurrogates high low :: acc) rest else none
      else if 0xDC00 ≤ high && high < 0xE000 then none
      else quoted (Char.ofNat high :: acc) ('\\' :: 'u' :: e :: f :: g :: h :: rest)
    | some n, none =>
      if 0xD800 ≤ n && n < 0xE000 then none
      else quoted (Char.ofNat n :: acc) ('\\' :: 'u' :: e :: f :: g :: h :: rest)
    | none, _ => none
  | '\\' :: 'u' :: a :: b :: c :: d :: rest =>
    match hex4? a b c d with
    | some n =>
      if 0xD800 ≤ n && n < 0xE000 then none else quoted (Char.ofNat n :: acc) rest
    | none => none
  | '\\' :: c :: rest =>
    match c with
    | '"' => quoted ('"' :: acc) rest
    | '\\' => quoted ('\\' :: acc) rest
    | '/' => quoted ('/' :: acc) rest
    | 'b' => quoted (Char.ofNat 8 :: acc) rest
    | 'f' => quoted (Char.ofNat 12 :: acc) rest
    | 'n' => quoted ('\n' :: acc) rest
    | 'r' => quoted ('\r' :: acc) rest
    | 't' => quoted ('\t' :: acc) rest
    | _ => none
  | c :: rest => if c.toNat < 32 then none else quoted (c :: acc) rest
termination_by cs => cs.length

/-- Digits taken into `n` while it stays below two to the 64th, and the digits left over. -/
def absorb (n : Nat) : List Char → Nat × List Char
  | [] => (n, [])
  | c :: rest =>
    let n' := 10 * n + Number.digitValue c
    if n' < 0x10000000000000000 then absorb n' rest else (n, c :: rest)

/-- The value of a numeral from its parts. Without fraction and exponent it is a whole number if it fits
64 bits, and -0 does not; any other is a double made of its leading digits. -/
def numeral (negative : Bool) (whole : List Char) (fraction : Option (List Char))
    (power : Option Int) : Option Json :=
  let n := Number.ofDigits whole
  let isWhole := fraction.isNone && power.isNone &&
    (if negative then 0 < n && Number.fitsWord (-n) else n < 0x10000000000000000)
  if isWhole then some (.int (if negative then -n else n))
  else
    let (lead, dropped) := absorb 0 whole
    let tail := fraction.getD []
    let (digits, unused) := absorb lead tail
    let exponent : Int := dropped.length - (tail.length - unused.length : Nat) + power.getD 0
    (Number.scaled digits exponent).map fun x => .float (if negative then -x else x)

/-- The exponent of a numeral, if the text goes on with one. -/
def readPower (cs : List Char) : Option (Option Int × List Char) :=
  let digits (negative : Bool) (cs : List Char) : Option (Option Int × List Char) :=
    match cs.takeWhile Number.isDigit with
    | [] => none
    | ds =>
      let n : Int := Number.ofDigits ds
      some (some (if negative then -n else n), cs.dropWhile Number.isDigit)
  let signed (cs : List Char) : Option (Option Int × List Char) :=
    match cs with
    | '+' :: cs => digits false cs
    | '-' :: cs => digits true cs
    | cs => digits false cs
  match cs with
  | 'e' :: cs => signed cs
  | 'E' :: cs => signed cs
  | cs => some (none, cs)

def readNumber (cs : List Char) : Option (Json × List Char) := do
  let (negative, cs) := match cs with
    | '-' :: cs => (true, cs)
    | cs => (false, cs)
  let whole := cs.takeWhile Number.isDigit
  let cs := cs.dropWhile Number.isDigit
  if whole.isEmpty || (whole.length > 1 && whole.head? == some '0') then none
  let (fraction, cs) ← match cs with
    | '.' :: cs =>
      match cs.takeWhile Number.isDigit with
      | [] => none
      | ds => some (some ds, cs.dropWhile Number.isDigit)
    | cs => some (none, cs)
  let (power, cs) ← readPower cs
  let j ← numeral negative whole fraction power
  return (j, cs)

def readText : Reader String := fun cs =>
  match cs with
  | '"' :: r => (quoted [] r).bind fun (acc, rest) =>
    progress ('"' :: r) (String.ofList acc.reverse, rest)
  | _ => none

/-- Items up to the closing bracket, the first of them read already if there is one. -/
def readItems (item : Reader Json) (acc : List Json) (cs : List Char) :
    Option (List Json × List Char) :=
  match item (skipGap cs) with
  | none => none
  | some r =>
    have : r.rest.length < cs.length := Nat.lt_of_lt_of_le r.shorter (length_skipGap_le cs)
    match h : skipGap r.rest with
    | ',' :: rest =>
      have : rest.length < cs.length := by
        have := length_skipGap_le r.rest
        rw [h] at this
        simp only [List.length_cons] at this
        omega
      readItems item (r.value :: acc) rest
    | ']' :: rest => some ((r.value :: acc).reverse, rest)
    | _ => none
termination_by cs.length

/-- Members up to the closing brace. Of two with one key the later counts. -/
def readMembers (item : Reader Json) (acc : Dict Json) (cs : List Char) :
    Option (Dict Json × List Char) :=
  match readText (skipGap cs) with
  | none => none
  | some k =>
    have hk : k.rest.length < cs.length := Nat.lt_of_lt_of_le k.shorter (length_skipGap_le cs)
    match hc : skipGap k.rest with
    | ':' :: afterColon =>
      match item (skipGap afterColon) with
      | none => none
      | some r =>
        have hr : r.rest.length < cs.length := by
          have h1 := r.shorter
          have h2 := length_skipGap_le afterColon
          have h3 := length_skipGap_le k.rest
          rw [hc] at h3
          simp only [List.length_cons] at h3
          omega
        match h : skipGap r.rest with
        | ',' :: rest =>
          have : rest.length < cs.length := by
            have := length_skipGap_le r.rest
            rw [h] at this
            simp only [List.length_cons] at this
            omega
          readMembers item (Dict.insert acc k.value r.value) rest
        | '}' :: rest => some (Dict.insert acc k.value r.value, rest)
        | _ => none
    | _ => none
termination_by cs.length

/-- A value at the front of the text, with `depth` levels of brackets in it at most. -/
def readValue (depth : Nat) : Reader Json := fun cs =>
  let node : Option (Json × List Char) :=
    match cs with
    | 'n' :: 'u' :: 'l' :: 'l' :: rest => some (.null, rest)
    | 't' :: 'r' :: 'u' :: 'e' :: rest => some (.bool true, rest)
    | 'f' :: 'a' :: 'l' :: 's' :: 'e' :: rest => some (.bool false, rest)
    | '"' :: rest => (quoted [] rest).map fun (acc, rest) => (.str (String.ofList acc.reverse), rest)
    | '[' :: rest =>
      match depth with
      | 0 => none
      | d + 1 =>
        match skipGap rest with
        | ']' :: rest => some (.arr [], rest)
        | _ => (readItems (readValue d) [] rest).map fun (items, rest) => (.arr items, rest)
    | '{' :: rest =>
      match depth with
      | 0 => none
      | d + 1 =>
        match skipGap rest with
        | '}' :: rest => some (.obj [], rest)
        | _ => (readMembers (readValue d) [] rest).map fun (ms, rest) => (.obj ms, rest)
    | _ => readNumber cs
  node.bind (progress cs)

/-- The levels of brackets that a document may have. -/
def maxDepth : Nat := 127

/-- The document at the front of a text, and whether nothing but blanks follows it. -/
def leading? (s : String) : Option (Json × Bool) :=
  (readValue maxDepth (skipGap s.toList)).map fun r => (r.value, (skipGap r.rest).isEmpty)

/-- The document that a text holds, with nothing but blanks around it. -/
def parse? (s : String) : Option Json :=
  (leading? s).bind fun (j, isWhole) => if isWhole then some j else none

end GoalCompiler.Json
