import GoalCompiler.Json.Reader

/-! Why a text is no document: the first flaw in it and the place of the flaw. The text is scanned character
by character; all that is kept is what may come next and which brackets are open. -/
namespace GoalCompiler.Json

inductive Flaw where
  | endInList | endInObject | endInText | endInValue
  | noColon | noItemEnd | noMemberEnd | noValue
  | badWord | badEscape | badNumber | outOfRange
  | control | keyNotText | loneSurrogate | brokenPair | trailingComma | trailing | tooDeep
deriving DecidableEq, Repr

def Flaw.message : Flaw → String
  | .endInList => "EOF while parsing a list"
  | .endInObject => "EOF while parsing an object"
  | .endInText => "EOF while parsing a string"
  | .endInValue => "EOF while parsing a value"
  | .noColon => "expected `:`"
  | .noItemEnd => "expected `,` or `]`"
  | .noMemberEnd => "expected `,` or `\x7d`"
  | .noValue => "expected value"
  | .badWord => "expected ident"
  | .badEscape => "invalid escape"
  | .badNumber => "invalid number"
  | .outOfRange => "number out of range"
  | .control => "control character (\\u0000-\\u001F) found while parsing a string"
  | .keyNotText => "key must be a string"
  | .loneSurrogate => "lone leading surrogate in hex escape"
  | .brokenPair => "unexpected end of hex escape"
  | .trailingComma => "trailing comma"
  | .trailing => "trailing characters"
  | .tooDeep => "recursion limit exceeded"

/-- A flaw in a line, after so many bytes of it. -/
structure Fault where
  flaw : Flaw
  line : Nat
  column : Nat
deriving DecidableEq, Repr

def Fault.message (f : Fault) : String := s!"{f.flaw.message} at line {f.line} column {f.column}"

namespace Scan

/-- What comes next between the parts of a document. -/
inductive Slot where
  | value | firstItem | nextItem | itemEnd | firstMember | nextMember | colon | memberEnd | done
deriving DecidableEq, Repr

inductive Bracket where
  | list | object
deriving DecidableEq, Repr

/-- Where one is in a text in quotes. -/
inductive TextPlace where
  | plain
  | escape
  /-- In the digits of a code, after the first half of a pair perhaps. -/
  | code (left value : Nat) (high : Option Nat)
  /-- In four bytes that are no code. -/
  | noCode (left : Nat)
  /-- Before the backslash of the second half of a pair. -/
  | pair (high : Nat)
  /-- After that backslash. -/
  | pairCode (high : Nat)
deriving DecidableEq, Repr

/-- Where one is in a numeral. -/
inductive NumberPlace where
  | minus | zero | whole | point | fraction | power | powerSign | powerDigits
deriving DecidableEq, Repr

inductive Mode where
  | slot (s : Slot)
  /-- In a word, before so many of its letters. -/
  | word (left : List Char)
  | text (isKey : Bool) (place : TextPlace)
  /-- In a numeral, with what has been read of it in reverse order. -/
  | number (place : NumberPlace) (digits : List Char)
deriving DecidableEq, Repr

structure State where
  mode : Mode := .slot .value
  /-- The open brackets, the innermost first. -/
  brackets : List Bracket := []
deriving DecidableEq, Repr

/-- A step finds a flaw so many bytes after the start of its character, or goes on. -/
abbrev Step := Except (Flaw × Nat) State

def flawed (f : Flaw) : Step := .error (f, 1)

/-- What comes after a value within the brackets. -/
def afterValue : List Bracket → Slot
  | [] => .done
  | .list :: _ => .itemEnd
  | .object :: _ => .memberEnd

def close (brackets : List Bracket) : State :=
  ⟨.slot (afterValue (brackets.drop 1)), brackets.drop 1⟩

def enter (b : Bracket) (first : Slot) (brackets : List Bracket) : Step :=
  if brackets.length < maxDepth then .ok ⟨.slot first, b :: brackets⟩ else flawed .tooDeep

def startValue (brackets : List Bracket) (c : Char) : Step :=
  let inside (m : Mode) : Step := .ok ⟨m, brackets⟩
  match c with
  | 'n' => inside (.word ['u', 'l', 'l'])
  | 't' => inside (.word ['r', 'u', 'e'])
  | 'f' => inside (.word ['a', 'l', 's', 'e'])
  | '"' => inside (.text false .plain)
  | '-' => inside (.number .minus ['-'])
  | '0' => inside (.number .zero ['0'])
  | '[' => enter .list .firstItem brackets
  | '{' => enter .object .firstMember brackets
  | c => if Number.isDigit c then inside (.number .whole [c]) else flawed .noValue

/-- The step between the parts of a document. -/
def stepSlot (brackets : List Bracket) (s : Slot) (c : Char) : Step :=
  let next (s : Slot) : Step := .ok ⟨.slot s, brackets⟩
  if isGap c then next s
  else
    match s, c with
    | .value, c => startValue brackets c
    | .firstItem, ']' | .itemEnd, ']' | .firstMember, '}' | .memberEnd, '}' => .ok (close brackets)
    | .nextItem, ']' | .nextMember, '}' => flawed .trailingComma
    | .firstItem, c | .nextItem, c => startValue brackets c
    | .itemEnd, ',' => next .nextItem
    | .itemEnd, _ => flawed .noItemEnd
    | .firstMember, '"' | .nextMember, '"' => .ok ⟨.text true .plain, brackets⟩
    | .firstMember, _ | .nextMember, _ => flawed .keyNotText
    | .colon, ':' => next .value
    | .colon, _ => flawed .noColon
    | .memberEnd, ',' => next .nextMember
    | .memberEnd, _ => flawed .noMemberEnd
    | .done, _ => flawed .trailing

def stepWord (brackets : List Bracket) (left : List Char) (c : Char) : Step :=
  match left with
  | [] => stepSlot brackets (afterValue brackets) c
  | d :: left =>
    if c != d then flawed .badWord
    else if left.isEmpty then .ok ⟨.slot (afterValue brackets), brackets⟩
    else .ok ⟨.word left, brackets⟩

/-- The place after a code of four digits. -/
def afterCode (high : Option Nat) (n : Nat) : Except (Flaw × Nat) TextPlace :=
  let isLow : Bool := 0xDC00 ≤ n && n < 0xE000
  match high with
  | some _ => if isLow then .ok .plain else .error (.loneSurrogate, 1)
  | none =>
    if isLow then .error (.loneSurrogate, 1)
    else if 0xD800 ≤ n && n < 0xDC00 then .ok (.pair n)
    else .ok .plain

/-- The place in a text after a character that does not end it. -/
def stepText (place : TextPlace) (c : Char) : Except (Flaw × Nat) TextPlace :=
  let skip (left : Nat) : Except (Flaw × Nat) TextPlace :=
    if left ≤ c.utf8Size then .error (.badEscape, left) else .ok (.noCode (left - c.utf8Size))
  match place with
  | .plain => if c == '\\' then .ok .escape else if c.toNat < 32 then .error (.control, 1) else .ok .plain
  | .escape =>
    if c == 'u' then .ok (.code 4 0 none)
    else if ['"', '\\', '/', 'b', 'f', 'n', 'r', 't'].contains c then .ok .plain
    else .error (.badEscape, 1)
  | .code left value high =>
    match hexValue? c with
    | some d =>
      if left ≤ 1 then afterCode high (16 * value + d) else .ok (.code (left - 1) (16 * value + d) high)
    | none => skip left
  | .noCode left => skip left
  | .pair high => if c == '\\' then .ok (.pairCode high) else .error (.brokenPair, 1)
  | .pairCode high => if c == 'u' then .ok (.code 4 0 (some high)) else .error (.brokenPair, 1)

/-- The place in a numeral after a character, if it belongs to the numeral. -/
def stepNumber (place : NumberPlace) (c : Char) : Except Flaw (Option NumberPlace) :=
  let isPower : Bool := c == 'e' || c == 'E'
  if Number.isDigit c then
    match place with
    | .minus => .ok (some (if c == '0' then .zero else .whole))
    | .zero => .error .badNumber
    | .whole => .ok (some .whole)
    | .point | .fraction => .ok (some .fraction)
    | .power | .powerSign | .powerDigits => .ok (some .powerDigits)
  else
    match place with
    | .minus | .point | .powerSign => .error .badNumber
    | .power => if c == '+' || c == '-' then .ok (some .powerSign) else .error .badNumber
    | .zero | .whole => .ok (if c == '.' then some .point else if isPower then some .power else none)
    | .fraction => .ok (if isPower then some .power else none)
    | .powerDigits => .ok none

/-- Whether a numeral, read in reverse order, has a value. -/
def inRange (digits : List Char) : Bool := (readNumber digits.reverse).isSome

def step (s : State) (c : Char) : Step :=
  match s.mode with
  | .slot slot => stepSlot s.brackets slot c
  | .word left => stepWord s.brackets left c
  | .text isKey place =>
    if place = .plain && c == '"' then
      .ok { s with mode := .slot (if isKey then .colon else afterValue s.brackets) }
    else (stepText place c).map fun place => { s with mode := .text isKey place }
  | .number place digits =>
    match stepNumber place c with
    | .error f => flawed f
    | .ok (some place) => .ok { s with mode := .number place (c :: digits) }
    | .ok none =>
      if inRange digits then stepSlot s.brackets (afterValue s.brackets) c else .error (.outOfRange, 0)

/-- What is missing at the end of a text. -/
def Slot.flaw? : Slot → Option Flaw
  | .value | .nextItem | .nextMember => some .endInValue
  | .firstItem | .itemEnd => some .endInList
  | .firstMember | .colon | .memberEnd => some .endInObject
  | .done => none

/-- The flaw of a text that ends. -/
def State.flaw? (s : State) : Option Flaw :=
  match s.mode with
  | .slot slot => slot.flaw?
  | .word _ => some .endInValue
  | .text _ _ => some .endInText
  | .number place digits =>
    match place with
    | .minus | .point | .power | .powerSign => some .endInValue
    | _ => if inRange digits then (afterValue s.brackets).flaw? else some .outOfRange

/-- The first flaw in what is left of a text, which starts `column` bytes into a line. -/
def find (s : State) (line column : Nat) : List Char → Option Fault
  | [] => s.flaw?.map fun f => ⟨f, line, column⟩
  | c :: rest =>
    let after : Nat × Nat := if c == '\n' then (line + 1, 0) else (line, column + c.utf8Size)
    match step s c with
    | .ok s => find s after.1 after.2 rest
    | .error (f, offset) =>
      if c == '\n' && 0 < offset then some ⟨f, after.1, after.2⟩ else some ⟨f, line, column + offset⟩

end Scan

/-- The first flaw that keeps a text from being a document. -/
def fault? (s : String) : Option Fault := Scan.find {} 1 0 s.toList

end GoalCompiler.Json
