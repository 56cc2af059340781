import GoalCompiler.Toml.Scalar
import GoalCompiler.Toml.Table

/-! Reading a file of tables: lines with headers and with keys and values. -/
namespace GoalCompiler.Toml

open Text (Read Reader progress)

/-! ### Lines -/

/-- The text with one character for each end of a line, if no other control characters than tabs are in
it. -/
def clean? : List Char → Option (List Char)
  | [] => some []
  | '\r' :: '\n' :: rest => (clean? rest).map ('\n' :: ·)
  | c :: rest =>
    if (c.toNat < 32 && c != '\t' && c != '\n') || c.toNat = 127 then none
    else (clean? rest).map (c :: ·)

def isBlank (c : Char) : Bool := c == ' ' || c == '\t'

def skipBlanks (cs : List Char) : List Char := cs.dropWhile isBlank

theorem length_skipBlanks_le (cs : List Char) : (skipBlanks cs).length ≤ cs.length :=
  (List.dropWhile_sublist _).length_le

/-- The text after a comment, if it starts with one. -/
def skipComment : List Char → List Char
  | '#' :: rest => rest.dropWhile (· != '\n')
  | cs => cs

/-- The text after blanks, comments and ends of lines. -/
def skipLines : List Char → List Char
  | [] => []
  | '#' :: rest =>
    have : (rest.dropWhile (· != '\n')).length ≤ rest.length := (List.dropWhile_sublist _).length_le
    skipLines (rest.dropWhile (· != '\n'))
  | c :: rest => if isBlank c || c == '\n' then skipLines rest else c :: rest
termination_by cs => cs.length

theorem length_skipLines_le (cs : List Char) : (skipLines cs).length ≤ cs.length := by
  fun_induction skipLines cs with
  | case1 => simp
  | case2 rest h ih => exact Nat.le_succ_of_le (Nat.le_trans ih h)
  | case3 c rest _ _ ih => exact Nat.le_succ_of_le ih
  | case4 => simp

/-! ### Texts in quotes -/

/-- The character of a code written in hexadecimal digits. -/
def coded? (digits : List Char) : Option Char :=
  if digits.all (isDigitTo 16) then
    let n := digits.foldl (fun n c => 16 * n + digitOf c) 0
    if n.isValidChar then some (Char.ofNat n) else none
  else none

/-- The character that an escape stands for, and what follows the escape. -/
def escape? (edition : Edition) : List Char → Option (Char × List Char)
  | '"' :: rest => some ('"', rest)
  | '\\' :: rest => some ('\\', rest)
  | 'b' :: rest => some (Char.ofNat 8, rest)
  | 't' :: rest => some ('\t', rest)
  | 'n' :: rest => some ('\n', rest)
  | 'f' :: rest => some (Char.ofNat 12, rest)
  | 'r' :: rest => some ('\r', rest)
  | 'u' :: rest => if rest.length < 4 then none else (coded? (rest.take 4)).map fun c => (c, rest.drop 4)
  | 'U' :: rest => if rest.length < 8 then none else (coded? (rest.take 8)).map fun c => (c, rest.drop 8)
  | 'e' :: rest => if edition = .second then some (Char.ofNat 27, rest) else none
  | 'x' :: rest =>
    if edition = .second && 2 ≤ rest.length then (coded? (rest.take 2)).map fun c => (c, rest.drop 2)
    else none
  | _ => none

/-- A text up to a quote on the same line, with escapes. -/
def escaped (edition : Edition) (cs : List Char) : Option (List Char × List Char) :=
  match cs with
  | [] | '\n' :: _ => none
  | '"' :: rest => some ([], rest)
  | '\\' :: rest =>
    match escape? edition rest with
    | none => none
    | some (c, after) =>
      if _h : after.length < rest.length + 1 then (escaped edition after).map fun (t, r) => (c :: t, r)
      else none
  | c :: rest => (escaped edition rest).map fun (t, r) => (c :: t, r)
termination_by cs.length

/-- A text up to a quote on the same line, as it stands. -/
def literal (quote : Char) : List Char → Option (List Char × List Char)
  | [] | '\n' :: _ => none
  | c :: rest => if c = quote then some ([], rest) else (literal quote rest).map fun (t, r) => (c :: t, r)

/-- The quotes at the front, when they end a text of several lines: up to two of them belong to it. -/
def closing? (quote : Char) (cs : List Char) : Option (List Char × List Char) :=
  let n := (cs.takeWhile (· == quote)).length
  if n < 3 then none
  else some (List.replicate (min n 5 - 3) quote, cs.drop (min n 5))

/-- A line that is broken by a backslash goes on after all blanks and ends of lines. -/
def continued? (cs : List Char) : Option (List Char) :=
  match skipBlanks cs with
  | '\n' :: rest => some (rest.dropWhile fun c => isBlank c || c == '\n')
  | _ => none

/-- A text of several lines with escapes. -/
def escapedLines (edition : Edition) (cs : List Char) : Option (List Char × List Char) :=
  match closing? '"' cs with
  | some found => some found
  | none =>
    match cs with
    | [] => none
    | '\\' :: rest =>
      match continued? rest with
      | some after =>
        if _h : after.length < rest.length + 1 then escapedLines edition after else none
      | none =>
        match escape? edition rest with
        | none => none
        | some (c, after) =>
          if _h : after.length < rest.length + 1 then
            (escapedLines edition after).map fun (t, r) => (c :: t, r)
          else none
    | c :: rest => (escapedLines edition rest).map fun (t, r) => (c :: t, r)
termination_by cs.length

/-- A text of several lines as it stands. -/
def literalLines : List Char → Option (List Char × List Char)
  | [] => none
  | c :: rest =>
    match closing? '\'' (c :: rest) with
    | some found => some found
    | none => (literalLines rest).map fun (t, r) => (c :: t, r)

/-- An end of line right after the opening quotes is no part of the text. -/
def dropFirstLine : List Char → List Char
  | '\n' :: rest => rest
  | cs => cs

def quoted (edition : Edition) (cs : List Char) : Option (List Char × List Char) :=
  match cs with
  | '"' :: '"' :: '"' :: rest => escapedLines edition (dropFirstLine rest)
  | '\'' :: '\'' :: '\'' :: rest => literalLines (dropFirstLine rest)
  | '"' :: rest => escaped edition rest
  | '\'' :: rest => literal '\'' rest
  | _ => none

/-! ### Keys -/

def isKeyChar (c : Char) : Bool := c.isAlphanum || c == '_' || c == '-'

/-- One part of a key: bare, or in quotes on one line. -/
def readName (edition : Edition) : Reader String := fun cs =>
  let part : Option (List Char × List Char) := match cs with
    | '"' :: rest => escaped edition rest
    | '\'' :: rest => literal '\'' rest
    | cs =>
      match cs.takeWhile isKeyChar with
      | [] => none
      | name => some (name, cs.dropWhile isKeyChar)
  part.bind fun (name, rest) => progress cs (String.ofList name, rest)

/-- The parts of a key, with dots between them. What is left starts after the blanks. -/
def readKey (edition : Edition) (cs : List Char) : Option (Read (List String) cs) :=
  match readName edition cs with
  | none => none
  | some k =>
    have hk := Nat.lt_of_le_of_lt (length_skipBlanks_le k.rest) k.shorter
    match h : skipBlanks k.rest with
    | '.' :: rest =>
      have hr : (skipBlanks rest).length < cs.length := by
        have := length_skipBlanks_le rest
        rw [h] at hk
        simp only [List.length_cons] at hk
        omega
      (readKey edition (skipBlanks rest)).map fun more =>
        ⟨k.value :: more.value, more.rest, Nat.lt_trans more.shorter hr⟩
    | rest => some ⟨[k.value], rest, by rwa [h] at hk⟩
termination_by cs.length

/-! ### Values -/

/-- The characters that end a word. -/
def endsWord (c : Char) : Bool := isBlank c || ['\n', '#', ',', '[', ']', '{', '}', '='].contains c

/-- A word; a date goes on with a time after a blank. -/
def readWord (d : Dialect) (cs : List Char) : Option (Json × List Char) :=
  let word := cs.takeWhile (!endsWord ·)
  let rest := cs.dropWhile (!endsWord ·)
  match date? word, rest with
  | some (_, []), ' ' :: c :: more =>
    if Number.isDigit c then
      (word? d (word ++ ' ' :: (c :: more).takeWhile (!endsWord ·))).map fun j =>
        (j, (c :: more).dropWhile (!endsWord ·))
    else (word? d word).map fun j => (j, rest)
  | _, _ => (word? d word).map fun j => (j, rest)

/-- The items of a list up to its closing bracket; a comma may stand behind the last. -/
def readItems (item : Reader Json) (acc : List Json) (cs : List Char) : Option (List Json × List Char) :=
  match hc : skipLines cs with
  | ']' :: rest => some (acc.reverse, rest)
  | here =>
    match item here with
    | none => none
    | some r =>
      match h : skipLines r.rest with
      | ',' :: rest =>
        have : rest.length < cs.length := by
          have h1 := length_skipLines_le r.rest
          have h2 := r.shorter
          have h3 := length_skipLines_le cs
          rw [h] at h1
          rw [hc] at h3
          simp only [List.length_cons] at h1
          omega
        readItems item (r.value :: acc) rest
      | ']' :: rest => some ((r.value :: acc).reverse, rest)
      | _ => none
termination_by cs.length

/-- The gap between the parts of a table in braces. -/
def skipGap (edition : Edition) (cs : List Char) : List Char :=
  if edition = .second then skipLines cs else skipBlanks cs

theorem length_skipGap_le (edition : Edition) (cs : List Char) :
    (skipGap edition cs).length ≤ cs.length := by
  unfold skipGap
  split
  · exact length_skipLines_le cs
  · exact length_skipBlanks_le cs

/-- A key with its value. -/
def readPair (edition : Edition) (item : Reader Json) : Reader (List String × Json) := fun cs =>
  match readKey edition cs with
  | none => none
  | some k =>
    match k.rest with
    | '=' :: rest =>
      (item (skipBlanks rest)).bind fun r => progress cs ((k.value, r.value), r.rest)
    | _ => none

/-- The members of a table in braces up to the closing one. -/
def readMembers (edition : Edition) (item : Reader Json) (acc : Members) (cs : List Char) :
    Option (Members × List Char) :=
  match readPair edition item (skipGap edition cs) with
  | none => none
  | some r =>
    have hr := Nat.lt_of_lt_of_le r.shorter (length_skipGap_le edition cs)
    match acc.set? r.value.1 r.value.2 with
    | none => none
    | some acc =>
      match h : skipGap edition r.rest with
      | ',' :: rest =>
        have : rest.length < cs.length := by
          have h1 := length_skipGap_le edition r.rest
          rw [h] at h1
          simp only [List.length_cons] at h1
          omega
        match edition, skipGap edition rest with
        | .second, '}' :: rest => some (acc, rest)
        | _, _ => readMembers edition item acc rest
      | '}' :: rest => some (acc, rest)
      | _ => none
termination_by cs.length

/-- A value at the front of the text, with `depth` levels of brackets in it at most. -/
def readValue (d : Dialect) (depth : Nat) : Reader Json := fun cs =>
  let found : Option (Json × List Char) :=
    match cs, depth with
    | '[' :: rest, n + 1 =>
      (readItems (readValue d n) [] rest).map fun (items, rest) => (.arr items, rest)
    | '{' :: rest, n + 1 =>
      match skipGap d.edition rest with
      | '}' :: rest => some (.obj [], rest)
      | _ => (readMembers d.edition (readValue d n) [] rest).map fun (ms, rest) => (ms.document, rest)
    | '[' :: _, 0 | '{' :: _, 0 => none
    | '"' :: _, _ | '\'' :: _, _ =>
      (quoted d.edition cs).map fun (t, rest) => (.str (String.ofList t), rest)
    | cs, _ => readWord d cs
  found.bind (progress cs)

/-- The levels of brackets that a value may have. -/
def maxDepth : Nat := 80

/-! ### The file -/

/-- What has been read and the header that the next keys are below. -/
structure State where
  members : Members := []
  header : List String := []

/-- What follows the end of a line, with nothing before it but blanks and a comment. -/
def endLine? (cs : List Char) : Option (List Char) :=
  match skipComment (skipBlanks cs) with
  | [] => some []
  | '\n' :: rest => some rest
  | _ => none

/-- The key of a header between its brackets, and the rest of its line. -/
def headerKey (edition : Edition) (cs : List Char) : Option (List String × List Char) :=
  (readKey edition (skipBlanks cs)).map fun k => (k.value, k.rest)

/-- One line with something in it, and what follows the line. -/
def line? (d : Dialect) (s : State) (cs : List Char) : Option (State × List Char) :=
  match cs with
  | '[' :: '[' :: rest => do
    let (path, ']' :: ']' :: rest) ← headerKey d.edition rest | none
    return (⟨← s.members.append? path, path⟩, ← endLine? rest)
  | '[' :: rest => do
    let (path, ']' :: rest) ← headerKey d.edition rest | none
    return (⟨← s.members.declare? path, path⟩, ← endLine? rest)
  | cs => do
    let r ← readPair d.edition (readValue d maxDepth) cs
    return ({ s with members := ← s.members.setIn? s.header r.value.1 r.value.2 }, ← endLine? r.rest)

/-- The lines of a file, one after another. -/
def lines (d : Dialect) (s : State) (cs : List Char) : Option State :=
  match skipLines cs with
  | [] => some s
  | c :: rest =>
    match line? d s (c :: rest) with
    | none => none
    | some (s, after) =>
      if _h : after.length < cs.length then lines d s after else none
termination_by cs.length

/-- The document in a file, if it is one. A mark of the encoding at the front is passed over. -/
def parse? (d : Dialect) (text : String) : Option Json := do
  let cs := match text.toList with
    | c :: rest => if c.toNat = 0xFEFF then rest else c :: rest
    | [] => []
  return (← lines d {} (← clean? cs)).members.document

end GoalCompiler.Toml
