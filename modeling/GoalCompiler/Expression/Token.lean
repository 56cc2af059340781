import GoalCompiler.Number.Layout
import GoalCompiler.Number.Numeral
import GoalCompiler.Text.Character

/-! The words and signs of the expression language. A text is cut into tokens from the left; blanks part
them, and each token knows where in the text it starts. -/
namespace GoalCompiler.Expression

inductive Token where
  | int (n : Int64)
  | float (x : Float)
  | str (s : String)
  | ident (name : String)
  | yes | no
  | and | or | not | ifWord | elseWord
  | plus | minus | star | slash | percent | power
  | less | atMost | greater | atLeast | equal | unequal
  | opening | closing | comma
deriving DecidableEq, Repr

/-- A token as messages show it. -/
def Token.describe : Token → String
  | .int n => toString n.toInt
  | .float x => Number.Layout.message.write x
  | .str s => "'" ++ s ++ "'"
  | .ident name => name
  | .yes => "True"
  | .no => "False"
  | .and => "and"
  | .or => "or"
  | .not => "not"
  | .ifWord => "if"
  | .elseWord => "else"
  | .plus => "+"
  | .minus => "-"
  | .star => "*"
  | .slash => "/"
  | .percent => "%"
  | .power => "**"
  | .less => "<"
  | .atMost => "<="
  | .greater => ">"
  | .atLeast => ">="
  | .equal => "=="
  | .unequal => "!="
  | .opening => "("
  | .closing => ")"
  | .comma => ","

structure Placed where
  token : Token
  /-- The number of characters before the token. -/
  position : Nat
deriving DecidableEq, Repr

/-- Why a text is no expression. -/
inductive Misreading where
  | empty
  | strayCharacter (c : Char)
  | openText
  | unexpected (t : Token)
  | expected (wanted : Token) (found : Option Token)
  | unexpectedEnd
  | tooDeep
deriving DecidableEq, Repr

/-- The levels of nesting that an expression may have. -/
def maxNesting : Nat := 64

def Misreading.message : Misreading → String
  | .empty => "empty expression"
  | .strayCharacter c => "unexpected character '" ++ c.toString ++ "'"
  | .openText => "unterminated string literal"
  | .unexpected t => "unexpected token '" ++ t.describe ++ "'"
  | .expected wanted none => "expected '" ++ wanted.describe ++ "', found end of expression"
  | .expected wanted (some t) =>
    "expected '" ++ wanted.describe ++ "', found '" ++ t.describe ++ "'"
  | .unexpectedEnd => "unexpected end of expression"
  | .tooDeep => s!"expression nested too deeply (limit {maxNesting})"

namespace Token

/-- A word is a keyword or a name. -/
def ofWord (w : String) : Token :=
  match w with
  | "and" => .and
  | "or" => .or
  | "not" => .not
  | "if" => .ifWord
  | "else" => .elseWord
  | "True" => .yes
  | "true" => .yes
  | "False" => .no
  | "false" => .no
  | w => .ident w

/-- The digits after a point; a point before another point belongs to no number. -/
def fraction : List Char → Option (List Char) × List Char
  | '.' :: '.' :: rest => (none, '.' :: '.' :: rest)
  | '.' :: rest => (some (rest.takeWhile Number.isDigit), rest.dropWhile Number.isDigit)
  | cs => (none, cs)

/-- A power of ten after the letter E. Without a digit the letter belongs to no number. -/
def powerOfTen (cs : List Char) : Option Int × List Char :=
  match cs with
  | e :: rest =>
    if e == 'e' || e == 'E' then
      let (negative, digits) := match rest with
        | '+' :: r => (false, r)
        | '-' :: r => (true, r)
        | r => (false, r)
      match digits.takeWhile Number.isDigit with
      | [] => (none, cs)
      | ds =>
        let n : Int := Number.ofDigits ds
        (some (if negative then -n else n), digits.dropWhile Number.isDigit)
    else (none, cs)
  | [] => (none, [])

/-- A number without point and power is an integer, or a double if 64 bits do not hold it. -/
def number (cs : List Char) : Token × List Char :=
  let whole := cs.takeWhile Number.isDigit
  let (fractional, cs) := fraction (cs.dropWhile Number.isDigit)
  let (tens, cs) := powerOfTen cs
  if fractional.isNone && tens.isNone then
    let n := Number.ofDigits whole
    (if Number.fitsWord n then .int (Int64.ofInt n) else .float (Number.ofDecimal n 0), cs)
  else
    let digits := fractional.getD []
    (.float (Number.ofDecimal (Number.ofDigits (whole ++ digits)) (tens.getD 0 - digits.length)), cs)

/-- The inside of a quoted text and what follows the closing quote. A backslash stands for the character
after it. -/
def literal (quote : Char) : List Char → Option (List Char × List Char)
  | [] => none
  | '\\' :: c :: rest => (literal quote rest).map fun (s, r) => (c :: s, r)
  | c :: rest =>
    if c = quote then some ([], rest)
    else (literal quote rest).map fun (s, r) => (c :: s, r)

/-- The sign at the front of a text; a sign of two characters goes before one of a single character. -/
def sign : List Char → Option (Token × List Char)
  | '*' :: '*' :: rest => some (.power, rest)
  | '<' :: '=' :: rest => some (.atMost, rest)
  | '>' :: '=' :: rest => some (.atLeast, rest)
  | '=' :: '=' :: rest => some (.equal, rest)
  | '!' :: '=' :: rest => some (.unequal, rest)
  | '+' :: rest => some (.plus, rest)
  | '-' :: rest => some (.minus, rest)
  | '*' :: rest => some (.star, rest)
  | '/' :: rest => some (.slash, rest)
  | '%' :: rest => some (.percent, rest)
  | '<' :: rest => some (.less, rest)
  | '>' :: rest => some (.greater, rest)
  | '(' :: rest => some (.opening, rest)
  | ')' :: rest => some (.closing, rest)
  | ',' :: rest => some (.comma, rest)
  | _ => none

def startsNumber : List Char → Bool
  | '.' :: c :: _ => Number.isDigit c
  | c :: _ => Number.isDigit c
  | [] => false

/-- The token at the front of a text that starts with no blank, and what follows it. -/
def next (cs : List Char) : Except Misreading (Token × List Char) :=
  match cs with
  | [] => .error .unexpectedEnd
  | c :: rest =>
    if startsNumber cs then .ok (number cs)
    else if Text.startsName c then
      .ok (ofWord (String.ofList (cs.takeWhile Text.continuesName)), cs.dropWhile Text.continuesName)
    else if c == '\'' || c == '"' then
      match literal c rest with
      | some (s, rest) => .ok (.str (String.ofList s), rest)
      | none => .error .openText
    else
      match sign cs with
      | some t => .ok t
      | none => .error (.strayCharacter c)

theorem length_fraction_le (cs : List Char) : (fraction cs).2.length ≤ cs.length := by
  unfold fraction
  split
  · simp
  · have := (List.dropWhile_sublist (l := ‹List Char›) Number.isDigit).length_le
    simp only [List.length_cons]
    omega
  · simp

theorem length_powerOfTen_le (cs : List Char) : (powerOfTen cs).2.length ≤ cs.length := by
  unfold powerOfTen
  split
  · rename_i e rest
    split
    · dsimp only
      split
      · simp
      · have := (List.dropWhile_sublist (l := (match rest with
            | '+' :: r => (false, r)
            | '-' :: r => (true, r)
            | r => (false, r)).2) Number.isDigit).length_le
        have : (match rest with
            | '+' :: r => (false, r)
            | '-' :: r => (true, r)
            | r => (false, r)).2.length ≤ rest.length := by split <;> simp
        simp only [List.length_cons]
        omega
    · simp
  · simp

theorem length_dropWhile_lt {p : Char → Bool} {c : Char} (h : p c) (rest : List Char) :
    ((c :: rest).dropWhile p).length < (c :: rest).length := by
  have := (List.dropWhile_sublist (l := rest) p).length_le
  rw [List.dropWhile_cons_of_pos h, List.length_cons]
  omega

theorem length_number_lt {cs : List Char} (h : startsNumber cs) :
    (number cs).2.length < cs.length := by
  have h1 := length_powerOfTen_le (fraction (cs.dropWhile Number.isDigit)).2
  have h2 : (fraction (cs.dropWhile Number.isDigit)).2.length < cs.length := by
    unfold startsNumber at h
    split at h
    · rename_i c rest
      have point : ('.' :: c :: rest).dropWhile Number.isDigit = '.' :: c :: rest := by
        simp [show Number.isDigit '.' = false by decide]
      rw [point]
      have ne : c ≠ '.' := by rintro rfl; exact absurd h (by decide)
      have := length_dropWhile_lt h rest
      simp only [fraction, List.length_cons] at this ⊢
      split
      · simp_all
      · rename_i heq
        cases heq
        simp only
        omega
      · simp_all
    · rename_i c rest _
      exact Nat.lt_of_le_of_lt (length_fraction_le _) (length_dropWhile_lt h rest)
    · simp at h
  have h3 : (number cs).2 = (powerOfTen (fraction (cs.dropWhile Number.isDigit)).2).2 := by
    unfold number
    dsimp only
    split <;> rfl
  rw [h3]
  omega

theorem length_literal_lt {quote : Char} {cs s r : List Char} (h : literal quote cs = some (s, r)) :
    r.length < cs.length := by
  fun_induction literal quote cs generalizing s r with
  | case1 => simp at h
  | case2 c rest ih =>
    obtain ⟨⟨s', r'⟩, hs, e⟩ := Option.map_eq_some_iff.1 h
    cases e
    have := ih hs
    simp only [List.length_cons]
    omega
  | case3 rest => simp at h; simp [h]
  | case4 c rest _ _ ih =>
    obtain ⟨⟨s', r'⟩, hs, e⟩ := Option.map_eq_some_iff.1 h
    cases e
    have := ih hs
    simp only [List.length_cons]
    omega

theorem length_sign_lt {cs r : List Char} {t : Token} (h : sign cs = some (t, r)) :
    r.length < cs.length := by
  unfold sign at h
  split at h <;> simp at h <;> simp only [← h.2, List.length_cons] <;> omega

theorem continuesName_of_startsName {c : Char} (h : Text.startsName c) : Text.continuesName c := by
  simp only [Text.continuesName, Text.isAlphanumeric, Text.startsName, Bool.or_eq_true] at h ⊢
  exact h.elim (fun a => .inl (.inl a)) .inr

/-- Every token takes at least one character. -/
theorem length_next_lt {cs r : List Char} {t : Token} (h : next cs = .ok (t, r)) :
    r.length < cs.length := by
  unfold next at h
  split at h
  · simp at h
  · split at h
    · rename_i hn
      injection h with h
      have := length_number_lt hn
      rw [h] at this
      exact this
    · split at h
      · rename_i hc
        injection h with h
        have := length_dropWhile_lt (continuesName_of_startsName hc) ‹List Char›
        rw [(Prod.mk.inj h).2] at this
        exact this
      · split at h
        · split at h
          · injection h with h
            rename_i hl
            have := length_literal_lt hl
            rw [(Prod.mk.inj h).2] at this
            simp only [List.length_cons]
            omega
          · simp at h
        · split at h
          · injection h with h
            rename_i hs
            exact length_sign_lt (h ▸ hs)
          · simp at h

/-- The tokens of a text that starts `position` characters into the whole. -/
def scan (position : Nat) (cs : List Char) : Except (Nat × Misreading) (List Placed) :=
  match cs with
  | [] => .ok []
  | c :: rest =>
    if Text.isBlank c then scan (position + 1) rest
    else
      match h : next (c :: rest) with
      | .error e => .error (position, e)
      | .ok (t, after) =>
        (scan (position + (rest.length + 1 - after.length)) after).map (⟨t, position⟩ :: ·)
termination_by cs.length
decreasing_by
  · exact Nat.lt_succ_self rest.length
  · exact length_next_lt h

def tokens (s : String) : Except (Nat × Misreading) (List Placed) := scan 0 s.toList

end Token

end GoalCompiler.Expression
