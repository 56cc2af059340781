import GoalCompiler.Number.Numeral
import GoalCompiler.Text.Pattern.Basic

/-! Reading patterns. Alternatives are parted by `|`, repetitions follow what they repeat, and flags in
brackets hold up to the end of the group they stand in. Look-around and back-references are no patterns. -/
namespace GoalCompiler.Text.Pattern

structure Flags where
  ignoreCase : Bool := false
  multiLine : Bool := false
  dotAll : Bool := false
  returns : Bool := false
  unicode : Bool := true
  spaced : Bool := false

namespace Flags

/-- The setting of one letter. -/
def set (f : Flags) (c : Char) (on : Bool) : Option Flags :=
  match c with
  | 'i' => some { f with ignoreCase := on }
  | 'm' => some { f with multiLine := on }
  | 's' => some { f with dotAll := on }
  | 'R' => some { f with returns := on }
  | 'u' => some { f with unicode := on }
  | 'x' => some { f with spaced := on }
  | 'U' => some f
  | _ => none

/-- Letters up to a colon or a closing bracket, each at most once, and at least one after a minus. -/
def read (f : Flags) (seen : List Char) (on fresh : Bool) : List Char → Option (Flags × Char × List Char)
  | [] => none
  | '-' :: rest => if on then read f seen false true rest else none
  | c :: rest =>
    if c == ':' || c == ')' then if !on && fresh then none else some (f, c, rest)
    else if seen.contains c then none
    else
      match f.set c on with
      | some f => read f (c :: seen) on false rest
      | none => none

def wordSet (f : Flags) : CharSet := if f.unicode then CharSet.word else CharSet.asciiWord

def digitSet (f : Flags) : CharSet := if f.unicode then CharSet.digit else CharSet.asciiDigit

def blankSet (f : Flags) : CharSet := if f.unicode then .blank else CharSet.asciiBlank

def caseSet (f : Flags) (s : CharSet) : CharSet :=
  if !f.ignoreCase then s
  else if f.unicode then .anyCase s
  else .union s (.inter CharSet.asciiLetter (.anyCase (.inter s .ascii)))

def dot (f : Flags) : CharSet :=
  if f.dotAll then CharSet.all
  else if f.returns then .complement (.union (CharSet.single '\r') (CharSet.single '\n'))
  else .complement (CharSet.single '\n')

end Flags

/-- Several names of one set. -/
def named (names : List String) (s : CharSet) : List (String × CharSet) := names.map fun n => (n, s)

/-- The names of categories, in lower case and without blanks, low lines and dashes. -/
def categoryNames : List (String × CharSet) :=
  let letters : List Category :=
    [.upperLetter, .lowerLetter, .titleLetter, .modifierLetter, .otherLetter]
  let cased : List Category := [.upperLetter, .lowerLetter, .titleLetter]
  let numbers : List Category := [.decimalDigit, .letterNumber, .otherNumber]
  let punctuation : List Category :=
    [.connector, .dash, .openBracket, .closeBracket, .openQuote, .closeQuote, .otherPunctuation]
  let symbols : List Category := [.mathSymbol, .currencySymbol, .modifierSymbol, .otherSymbol]
  let separators : List Category := [.space, .lineSeparator, .paragraphSeparator]
  let others : List Category := [.control, .format, .privateUse, .unassigned]
  [named ["l", "letter"] (CharSet.categories letters),
   named ["lc", "casedletter"] (CharSet.categories cased),
   named ["lu", "uppercaseletter"] (.category .upperLetter),
   named ["ll", "lowercaseletter"] (.category .lowerLetter),
   named ["lt", "titlecaseletter"] (.category .titleLetter),
   named ["lm", "modifierletter"] (.category .modifierLetter),
   named ["lo", "otherletter"] (.category .otherLetter),
   named ["m", "mark", "combiningmark"] CharSet.marks,
   named ["mn", "nonspacingmark"] (.category .nonspacingMark),
   named ["mc", "spacingmark"] (.category .spacingMark),
   named ["me", "enclosingmark"] (.category .enclosingMark),
   named ["n", "number"] (CharSet.categories numbers),
   named ["nd", "decimalnumber", "digit"] (.category .decimalDigit),
   named ["nl", "letternumber"] (.category .letterNumber),
   named ["no", "othernumber"] (.category .otherNumber),
   named ["p", "punctuation", "punct"] (CharSet.categories punctuation),
   named ["pc", "connectorpunctuation"] (.category .connector),
   named ["pd", "dashpunctuation"] (.category .dash),
   named ["ps", "openpunctuation"] (.category .openBracket),
   named ["pe", "closepunctuation"] (.category .closeBracket),
   named ["pi", "initialpunctuation"] (.category .openQuote),
   named ["pf", "finalpunctuation"] (.category .closeQuote),
   named ["po", "otherpunctuation"] (.category .otherPunctuation),
   named ["s", "symbol"] (CharSet.categories symbols),
   named ["sm", "mathsymbol"] (.category .mathSymbol),
   named ["sc", "currencysymbol"] (.category .currencySymbol),
   named ["sk", "modifiersymbol"] (.category .modifierSymbol),
   named ["so", "othersymbol"] (.category .otherSymbol),
   named ["z", "separator"] (CharSet.categories separators),
   named ["zs", "spaceseparator"] (.category .space),
   named ["zl", "lineseparator"] (.category .lineSeparator),
   named ["zp", "paragraphseparator"] (.category .paragraphSeparator),
   named ["c", "other"] (CharSet.categories others),
   named ["cc", "control", "cntrl"] (.category .control),
   named ["cf", "format"] (.category .format),
   named ["co", "privateuse"] (.category .privateUse),
   named ["cn", "unassigned"] (.category .unassigned),
   named ["any"] CharSet.all,
   named ["ascii"] .ascii,
   named ["assigned"] (.complement (.category .unassigned))].flatten

/-- The names of other properties. -/
def propertyNames : List (String × CharSet) :=
  [named ["alphabetic", "alpha"] .alphabetic,
   named ["lowercase", "lower"] .lower,
   named ["uppercase", "upper"] .upper,
   named ["whitespace", "wspace", "space"] .blank,
   named ["joincontrol", "joinc"] .joiner,
   named ["asciihexdigit", "ahex"] (CharSet.unions [CharSet.asciiDigit, .span 'a' 'f', .span 'A' 'F'])].flatten

/-- A name as names are compared, without an `is` before it. -/
def looseName (name : List Char) : String :=
  let stem := match name with
    | i :: s :: rest => if i.toLower == 'i' && s.toLower == 's' then rest else name
    | name => name
  String.ofList ((stem.filter fun c => c.toNat < 128 && !(c == ' ' || c == '_' || c == '-')).map Char.toLower)

/-- What stands before and after the first appearance of a sign. -/
def cut? (sign : List Char) : List Char → Option (List Char × List Char)
  | [] => none
  | c :: rest =>
    if sign.isPrefixOf (c :: rest) then some ([], (c :: rest).drop sign.length)
    else (cut? sign rest).map fun (before, after) => (c :: before, after)

/-- The category that is the value of a property. -/
def category? (property value : List Char) : Option CharSet :=
  if ["gc", "generalcategory"].contains (looseName property) then categoryNames.lookup (looseName value)
  else none

/-- The characters with a property: a category, another property, or a category as a value. -/
def property? (name : List Char) : Option CharSet :=
  match cut? ['!', '='] name, (cut? [':'] name).or (cut? ['='] name) with
  | some (property, value), _ => (category? property value).map .complement
  | none, some (property, value) => category? property value
  | none, none => (propertyNames.lookup (looseName name)).or (categoryNames.lookup (looseName name))

/-- The classes of ASCII characters by name. -/
def asciiClass? (name : String) : Option CharSet :=
  let punct := CharSet.unions [.span '!' '/', .span ':' '@', .span '[' '\x60', .span '\x7b' '~']
  match name with
  | "alnum" => some (.union CharSet.asciiLetter CharSet.asciiDigit)
  | "alpha" => some CharSet.asciiLetter
  | "ascii" => some .ascii
  | "blank" => some (.union (CharSet.single ' ') (CharSet.single '\t'))
  | "cntrl" => some (.union (.span (Char.ofNat 0) (Char.ofNat 31)) (CharSet.single (Char.ofNat 127)))
  | "digit" => some CharSet.asciiDigit
  | "graph" => some (.span '!' '~')
  | "lower" => some (.span 'a' 'z')
  | "print" => some (.span ' ' '~')
  | "punct" => some punct
  | "space" => some CharSet.asciiBlank
  | "upper" => some (.span 'A' 'Z')
  | "word" => some CharSet.asciiWord
  | "xdigit" => some (CharSet.unions [CharSet.asciiDigit, .span 'a' 'f', .span 'A' 'F'])
  | _ => none

def hexDigit? (c : Char) : Option Nat :=
  if '0' ≤ c && c ≤ '9' then some (c.toNat - 48)
  else if 'a' ≤ c && c ≤ 'f' then some (c.toNat - 87)
  else if 'A' ≤ c && c ≤ 'F' then some (c.toNat - 55)
  else none

def scalar? (n : Nat) : Option Char := if n.isValidChar then some (Char.ofNat n) else none

/-- A character by its code: so many hexadecimal digits, or any number of them in braces. -/
def readCode (width : Nat) : List Char → Option (Char × List Char)
  | '{' :: rest => do
    let digits := rest.takeWhile (· != '}')
    let after ← (rest.dropWhile (· != '}')).tail?
    let ns ← digits.mapM hexDigit?
    if ns.isEmpty || 8 < ns.length then none
    else return (← scalar? (ns.foldl (fun n d => 16 * n + d) 0), after)
  | cs => do
    if cs.length < width then none
    else
      let ns ← (cs.take width).mapM hexDigit?
      return (← scalar? (ns.foldl (fun n d => 16 * n + d) 0), cs.drop width)

/-- ASCII characters other than letters, digits and angle brackets stand for themselves after a
backslash. -/
def isEscapable (c : Char) : Bool :=
  c.toNat < 128 && !(c.isAlphanum || c == '<' || c == '>')

/-- What a backslash and the characters after it stand for. -/
inductive Escape where
  | literal (c : Char)
  | set (s : CharSet)
  | anchor (a : Anchor)

def readProperty (f : Flags) (negated : Bool) (cs : List Char) : Option (CharSet × List Char) := do
  if !f.unicode then none
  let (name, rest) ← match cs with
    | '{' :: rest => do
      let after ← (rest.dropWhile (· != '}')).tail?
      some (rest.takeWhile (· != '}'), after)
    | c :: rest => some ([c], rest)
    | [] => none
  let s ← property? name
  return (f.caseSet (if negated then .complement s else s), rest)

/-- A character by the two digits of its byte. Where characters are bytes, only ASCII is text. -/
def readByte (f : Flags) (cs : List Char) : Option (Char × List Char) := do
  let (c, rest) ← readCode 2 cs
  if f.unicode || c.toNat < 128 || cs.head? == some '{' then return (c, rest) else none

def readEscape (f : Flags) : List Char → Option (Escape × List Char)
  | 'd' :: r => some (.set f.digitSet, r)
  | 'D' :: r => if f.unicode then some (.set (.complement f.digitSet), r) else none
  | 's' :: r => some (.set f.blankSet, r)
  | 'S' :: r => if f.unicode then some (.set (.complement f.blankSet), r) else none
  | 'w' :: r => some (.set f.wordSet, r)
  | 'W' :: r => if f.unicode then some (.set (.complement f.wordSet), r) else none
  | 'p' :: r => (readProperty f false r).map fun (s, r) => (.set s, r)
  | 'P' :: r => (readProperty f true r).map fun (s, r) => (.set s, r)
  | 'A' :: r => some (.anchor .textStart, r)
  | 'z' :: r => some (.anchor .textEnd, r)
  | 'b' :: '{' :: r =>
    let name := String.ofList (r.takeWhile (· != '}'))
    match name, (r.dropWhile (· != '}')).tail? with
    | "start", some r => some (.anchor (.wordStart f.wordSet), r)
    | "end", some r => some (.anchor (.wordEnd f.wordSet), r)
    | "start-half", some r => some (.anchor (.beforeWord f.wordSet), r)
    | "end-half", some r => some (.anchor (.afterWord f.wordSet), r)
    | _, _ => none
  | 'b' :: r => some (.anchor (.wordBoundary f.wordSet), r)
  | 'B' :: r => some (.anchor (.noWordBoundary f.wordSet), r)
  | '<' :: r => some (.anchor (.wordStart f.wordSet), r)
  | '>' :: r => some (.anchor (.wordEnd f.wordSet), r)
  | 'n' :: r => some (.literal '\n', r)
  | 't' :: r => some (.literal '\t', r)
  | 'r' :: r => some (.literal '\r', r)
  | 'a' :: r => some (.literal (Char.ofNat 7), r)
  | 'f' :: r => some (.literal (Char.ofNat 12), r)
  | 'v' :: r => some (.literal (Char.ofNat 11), r)
  | 'x' :: r => (readByte f r).map fun (c, r) => (.literal c, r)
  | 'u' :: r => (readCode 4 r).map fun (c, r) => (.literal c, r)
  | 'U' :: r => (readCode 8 r).map fun (c, r) => (.literal c, r)
  | c :: r => if isEscapable c then some (.literal c, r) else none
  | [] => none

/-- Blanks and comments, which are passed over where the flag says so. -/
def skipSpace (f : Flags) (cs : List Char) : List Char :=
  if f.spaced then go false cs else cs
where
  go (comment : Bool) : List Char → List Char
    | [] => []
    | c :: rest =>
      if comment then go (c != '\n') rest
      else if c == '#' then go true rest
      else if isBlank c then go false rest
      else c :: rest

/-- One member of a class: a character, or a set with no single character. -/
inductive ClassItem where
  | char (c : Char)
  | set (s : CharSet)

def ClassItem.toSet (f : Flags) : ClassItem → CharSet
  | .char c => f.caseSet (CharSet.single c)
  | .set s => s

/-- A named class such as `[:alpha:]`, after its first bracket and colon. -/
def readAsciiClass (f : Flags) (cs : List Char) : Option (CharSet × List Char) := do
  let (negated, cs) := match cs with
    | '^' :: cs => (true, cs)
    | cs => (false, cs)
  match cs.dropWhile (· != ':') with
  | ':' :: ']' :: rest =>
    let s ← asciiClass? (String.ofList (cs.takeWhile (· != ':')))
    let s := f.caseSet s
    return (if negated then .complement s else s, rest)
  | _ => none

/-- The members of a class that are no class in brackets themselves. Where characters are bytes, a class
holds ASCII characters. -/
def readMember (f : Flags) (cs : List Char) : Option (ClassItem × List Char) :=
  let char (c : Char) (rest : List Char) : Option (ClassItem × List Char) :=
    if f.unicode || c.toNat < 128 then some (.char c, rest) else none
  match cs with
  | '\\' :: rest =>
    match readEscape f rest with
    | some (.literal c, rest) => char c rest
    | some (.set s, rest) => some (.set s, rest)
    | _ => none
  | c :: rest => char c rest
  | [] => none

/-- The rest of a class after its first bracket: operands joined by `&&`, `--` and `~~`, each a union of
members. `fuel` bounds the number of readings. -/
def readClass (f : Flags) : Nat → List Char → Option (CharSet × List Char)
  | 0, _ => none
  | fuel + 1, cs =>
    let (negated, cs) := match skipSpace f cs with
      | '^' :: cs => (true, cs)
      | cs => (false, cs)
    let (first, cs) := leading none (skipSpace f cs) cs.length
    (members fuel none first cs cs.length).bind fun (s, rest) =>
      if !negated then some (s, rest) else if f.unicode then some (.complement s, rest) else none
where
  /-- Dashes at the start stand for themselves, and so does a bracket if there is no dash. -/
  leading (s : Option CharSet) (cs : List Char) : Nat → Option CharSet × List Char
    | 0 => (s, cs)
    | n + 1 =>
      match cs with
      | '-' :: rest => leading (add s (CharSet.single '-')) (skipSpace f rest) n
      | ']' :: rest =>
        match s with
        | none => (some (CharSet.single ']'), rest)
        | some s => (some s, ']' :: rest)
      | cs => (s, cs)
  add (s : Option CharSet) (t : CharSet) : Option CharSet :=
    some (match s with
      | none => t
      | some s => .union s t)
  combine (left : Option (CharSet × (CharSet → CharSet → CharSet))) (right : Option CharSet) : CharSet :=
    let right := right.getD CharSet.none
    match left with
    | none => right
    | some (s, op) => op s right
  members (fuel : Nat) (left : Option (CharSet × (CharSet → CharSet → CharSet))) (acc : Option CharSet)
      (cs : List Char) : Nat → Option (CharSet × List Char)
    | 0 => none
    | n + 1 =>
      match skipSpace f cs with
      | [] => none
      | ']' :: rest => some (combine left acc, rest)
      | '&' :: '&' :: rest => members fuel (some (combine left acc, .inter)) none rest n
      | '-' :: '-' :: rest => members fuel (some (combine left acc, CharSet.diff)) none rest n
      | '~' :: '~' :: rest => members fuel (some (combine left acc, CharSet.symmDiff)) none rest n
      | '[' :: rest =>
        let named := match rest with
          | ':' :: more => readAsciiClass f more
          | _ => none
        match named with
        | some (s, rest) => members fuel left (add acc s) rest n
        | none =>
          match readClass f fuel rest with
          | some (s, rest) => members fuel left (add acc s) rest n
          | none => none
      | cs =>
        match readMember f cs with
        | none => none
        | some (item, rest) =>
          match skipSpace f rest with
          | '-' :: ']' :: more => members fuel left (add acc (item.toSet f)) ('-' :: ']' :: more) n
          | '-' :: '-' :: more => members fuel left (add acc (item.toSet f)) ('-' :: '-' :: more) n
          | '-' :: more =>
            match item, readMember f (skipSpace f more) with
            | .char first, some (.char last, rest) =>
              if first ≤ last then
                members fuel left (add acc (f.caseSet (.span first last))) rest n
              else none
            | _, _ => none
          | rest => members fuel left (add acc (item.toSet f)) rest n

/-- A count of repetitions, with blanks around it. -/
def readCount (cs : List Char) : Option (Nat × List Char) :=
  let cs := cs.dropWhile isBlank
  match cs.takeWhile Number.isDigit with
  | [] => none
  | ds =>
    let n := Number.ofDigits ds
    if n < 0x100000000 then some (n, (cs.dropWhile Number.isDigit).dropWhile isBlank) else none

/-- The inside of the braces of a repetition. -/
def readCounts (cs : List Char) : Option ((Nat × Option Nat) × List Char) :=
  match readCount cs with
  | some (least, '}' :: rest) => some ((least, some least), rest)
  | some (least, ',' :: rest) =>
    match rest.dropWhile isBlank with
    | '}' :: rest => some ((least, none), rest)
    | rest =>
      match readCount rest with
      | some (most, '}' :: rest) => if least ≤ most then some ((least, some most), rest) else none
      | _ => none
  | _ => none

/-- A sign that asks for few repetitions changes nothing about whether there is a match. -/
def skipLazy : List Char → List Char
  | '?' :: rest => rest
  | cs => cs

/-- The repetition at the front of a text. -/
def readRepetition : List Char → Option (Option (Nat × Option Nat) × List Char)
  | '*' :: rest => some (some (0, none), skipLazy rest)
  | '+' :: rest => some (some (1, none), skipLazy rest)
  | '?' :: rest => some (some (0, some 1), skipLazy rest)
  | '{' :: rest => (readCounts rest).map fun (counts, rest) => (some counts, skipLazy rest)
  | cs => some (none, cs)

def startsGroupName (c : Char) : Bool := isAlphabetic c || c == '_'

def continuesGroupName (c : Char) : Bool :=
  isAlphanumeric c || c == '_' || c == '.' || c == '[' || c == ']'

/-- The name of a group up to its closing angle bracket. -/
def readGroupName (cs : List Char) : Option (String × List Char) :=
  let name := cs.takeWhile (· != '>')
  match name, (cs.dropWhile (· != '>')).tail? with
  | c :: more, some rest =>
    if startsGroupName c && more.all continuesGroupName then some (String.ofList name, rest) else none
  | _, _ => none

/-- How a bracket opens: a group with its flags, or flags for what follows. -/
inductive Opening where
  | group (f : Flags) (name : Option String)
  | flags (f : Flags)

def readOpening (f : Flags) : List Char → Option (Opening × List Char)
  | '?' :: 'P' :: '<' :: rest => (readGroupName rest).map fun (n, rest) => (.group f (some n), rest)
  | '?' :: '<' :: '=' :: _ => none
  | '?' :: '<' :: '!' :: _ => none
  | '?' :: '<' :: rest => (readGroupName rest).map fun (n, rest) => (.group f (some n), rest)
  | '?' :: ')' :: _ => none
  | '?' :: rest =>
    match f.read [] true false rest with
    | some (g, ':', rest) => some (.group g none, rest)
    | some (g, _, rest) => some (.flags g, rest)
    | none => none
  | rest => some (.group f none, rest)

def ofEscape (f : Flags) : Escape → Pattern
  | .literal c => .one (f.caseSet (CharSet.single c))
  | .set s => .one s
  | .anchor a => .anchor a

/-- What is read so far of a sequence. Flags leave a place that cannot be repeated. -/
abbrev Parts := List (Option Pattern)

def Parts.join (parts : Parts) : Pattern :=
  parts.foldl (fun p part => match part with
    | some q => .seq q p
    | none => p) .empty

/-- The part that is not a group at the front of a text. -/
def readPart (f : Flags) (fuel : Nat) : List Char → Option (Pattern × List Char)
  | '[' :: rest => (readClass f fuel rest).map fun (s, rest) => (.one s, rest)
  | '.' :: rest => if f.unicode then some (.one f.dot, rest) else none
  | '^' :: rest => some (.anchor (if f.multiLine then .lineStart f.returns else .textStart), rest)
  | '$' :: rest => some (.anchor (if f.multiLine then .lineEnd f.returns else .textEnd), rest)
  | '\\' :: rest => (readEscape f rest).map fun (e, rest) => (ofEscape f e, rest)
  | c :: rest => some (.one (f.caseSet (CharSet.single c)), rest)
  | [] => none

/-- Alternatives up to a closing bracket or the end, with the names of the groups read so far. `depth`
bounds the brackets inside each other and `fuel` the number of readings. -/
def readAlternatives (depth : Nat) (f : Flags) (names : List String) (done : Option Pattern)
    (parts : Parts) (cs : List Char) : Nat → Option (Pattern × List String × List Char)
  | 0 => none
  | fuel + 1 =>
    let finish : Pattern := match done with
      | some p => .alt p parts.join
      | none => parts.join
    match skipSpace f cs with
    | [] => some (finish, names, [])
    | ')' :: rest => some (finish, names, ')' :: rest)
    | '|' :: rest => readAlternatives depth f names (some finish) [] rest fuel
    | '(' :: rest =>
      match depth, readOpening f rest with
      | _, none => none
      | _, some (.flags g, rest) => readAlternatives depth g names done (none :: parts) rest fuel
      | 0, _ => none
      | d + 1, some (.group g name, rest) =>
        let fresh := match name with
          | some n => if names.contains n then none else some (n :: names)
          | none => some names
        match fresh with
        | none => none
        | some names =>
          match readAlternatives d g names none [] rest fuel with
          | some (p, names, ')' :: rest) =>
            readAlternatives (d + 1) f names done (some p :: parts) rest fuel
          | _ => none
    | c :: rest =>
      if c == '*' || c == '+' || c == '?' || c == '{' then
        match parts, readRepetition (c :: rest) with
        | some p :: parts, some (some (least, most), rest) =>
          readAlternatives depth f names done (some (.times p least most) :: parts) rest fuel
        | _, _ => none
      else
        match readPart f (rest.length + 1) (c :: rest) with
        | some (p, rest) => readAlternatives depth f names done (some p :: parts) rest fuel
        | none => none

/-- The brackets that a pattern may have inside each other. -/
def maxDepth : Nat := 250

/-- The parts that a pattern may have. -/
def maxSize : Nat := 350000

/-- The pattern that a text stands for. -/
def read? (s : String) : Option Pattern :=
  let cs := s.toList
  match readAlternatives maxDepth {} [] none [] cs (2 * cs.length + 2) with
  | some (p, _, []) => if p.size ≤ maxSize then some p else none
  | _ => none

end GoalCompiler.Text.Pattern
