import GoalCompiler.Text.Character

/-! Sentences of a text, cut where the Unicode rules for sentence boundaries cut. A sentence ends after a
stop with the brackets and blanks behind it, unless what follows goes on with it. -/
namespace GoalCompiler.Text

/-- How a character takes part in sentences. -/
inductive SentenceClass where
  | carriageReturn | lineFeed | separator | extend | format | space | lower | upper | letter | numeric
  | fullStop | goesOn | stop | close | other
deriving DecidableEq, Repr

/-- Signs that end a sentence for certain. -/
def stopSpans : List Span :=
  [(0x21, 0x21), (0x3F, 0x3F), (0x589, 0x589), (0x61D, 0x61F), (0x6D4, 0x6D4), (0x700, 0x702),
   (0x7F9, 0x7F9), (0x837, 0x837), (0x839, 0x839), (0x83D, 0x83E), (0x964, 0x965), (0x104A, 0x104B),
   (0x1362, 0x1362), (0x1367, 0x1368), (0x166E, 0x166E), (0x1735, 0x1736), (0x1803, 0x1803),
   (0x1809, 0x1809), (0x1944, 0x1945), (0x1AA8, 0x1AAB), (0x1B5A, 0x1B5B), (0x1B5E, 0x1B5F),
   (0x1B7D, 0x1B7E), (0x1C3B, 0x1C3C), (0x1C7E, 0x1C7F), (0x203C, 0x203D), (0x2047, 0x2049),
   (0x2E2E, 0x2E2E), (0x2E3C, 0x2E3C), (0x2E53, 0x2E54), (0x3002, 0x3002), (0xA4FF, 0xA4FF),
   (0xA60E, 0xA60F), (0xA6F3, 0xA6F3), (0xA6F7, 0xA6F7), (0xA876, 0xA877), (0xA8CE, 0xA8CF),
   (0xA92F, 0xA92F), (0xA9C8, 0xA9C9), (0xAA5D, 0xAA5F), (0xAAF0, 0xAAF1), (0xABEB, 0xABEB),
   (0xFE56, 0xFE57), (0xFF01, 0xFF01), (0xFF1F, 0xFF1F), (0xFF61, 0xFF61), (0x10A56, 0x10A57),
   (0x10F55, 0x10F59), (0x10F86, 0x10F89), (0x11047, 0x11048), (0x110BE, 0x110C1),
   (0x11141, 0x11143), (0x111C5, 0x111C6), (0x111CD, 0x111CD), (0x111DE, 0x111DF),
   (0x11238, 0x11239), (0x1123B, 0x1123C), (0x112A9, 0x112A9), (0x1144B, 0x1144C),
   (0x115C2, 0x115C3), (0x115C9, 0x115D7), (0x11641, 0x11642), (0x1173C, 0x1173E),
   (0x11944, 0x11944), (0x11946, 0x11946), (0x11A42, 0x11A43), (0x11A9B, 0x11A9C),
   (0x11C41, 0x11C42), (0x11EF7, 0x11EF8), (0x11F43, 0x11F44), (0x16A6E, 0x16A6F),
   (0x16AF5, 0x16AF5), (0x16B37, 0x16B38), (0x16B44, 0x16B44), (0x16E98, 0x16E98),
   (0x1BC9F, 0x1BC9F), (0x1DA88, 0x1DA88)]

/-- Signs after which a sentence goes on. -/
def goesOnSpans : List Span :=
  [(0x2C, 0x2D), (0x3A, 0x3A), (0x55D, 0x55D), (0x60C, 0x60D), (0x7F8, 0x7F8), (0x1802, 0x1802),
   (0x1808, 0x1808), (0x2013, 0x2014), (0x3001, 0x3001), (0xFE10, 0xFE11), (0xFE13, 0xFE13),
   (0xFE31, 0xFE32), (0xFE50, 0xFE51), (0xFE55, 0xFE55), (0xFE58, 0xFE58), (0xFE63, 0xFE63),
   (0xFF0C, 0xFF0D), (0xFF1A, 0xFF1A), (0xFF64, 0xFF64)]

/-- Quotation marks that are no brackets by category. -/
def quoteSpans : List Span :=
  [(0x22, 0x22), (0x27, 0x27), (0x275B, 0x2760), (0x2E00, 0x2E01), (0x2E06, 0x2E08),
   (0x2E0B, 0x2E0B), (0x1F676, 0x1F678)]

def sentenceSpaces : List Span :=
  [(0x9, 0x9), (0xB, 0xC), (0x20, 0x20), (0xA0, 0xA0), (0x1680, 0x1680), (0x2000, 0x200A),
   (0x202F, 0x202F), (0x205F, 0x205F), (0x3000, 0x3000)]

/-- Georgian letters, which do not tell sentences apart by case. -/
def caselessSpans : List Span :=
  [(0x10D0, 0x10FA), (0x10FD, 0x10FF), (0x1C90, 0x1CBA), (0x1CBD, 0x1CBF)]

def sentenceClass (c : Char) : SentenceClass :=
  let n := c.toNat
  let g := category c
  let attached := n = 0x200C || n = 0x200D || (0xE0020 ≤ n && n ≤ 0xE007F)
  if n = 0x0D then .carriageReturn
  else if n = 0x0A then .lineFeed
  else if [0x85, 0x2028, 0x2029].contains n then .separator
  else if g.isMark || attached || n = 0xFF9E || n = 0xFF9F then .extend
  else if g == .format then .format
  else if covers sentenceSpaces n then .space
  else if isLower c && !covers caselessSpans n then .lower
  else if (isUpper c && !covers caselessSpans n) || g == .titleLetter then .upper
  else if isAlphabetic c || n = 0x5F3 then .letter
  else if g == .decimalDigit || n = 0x66B || n = 0x66C then .numeric
  else if [0x2E, 0x2024, 0xFE52, 0xFF0E].contains n then .fullStop
  else if covers goesOnSpans n then .goesOn
  else if covers stopSpans n then .stop
  else if g == .openBracket || g == .closeBracket || g == .openQuote || g == .closeQuote ||
    covers quoteSpans n then .close
  else .other

/-- How far the end of a sentence has been reached. -/
inductive SentenceEnd where
  | none | stopped | closed | spaced
deriving DecidableEq, Repr

/-- What is known at a place in a text. -/
structure SentencePlace where
  /-- The last character that is no mark. -/
  last : SentenceClass
  ending : SentenceEnd := .none
  /-- Whether the stop was a full stop, and whether a cased letter was before it. -/
  fullStop : Bool := false
  afterCased : Bool := false

namespace SentencePlace

def isLineEnd : SentenceClass → Bool
  | .carriageReturn | .lineFeed | .separator => true
  | _ => false

/-- Whether the first letter or stop of the rest is a lower-case letter. -/
def lowerAhead : List Char → Bool
  | [] => false
  | c :: rest =>
    match sentenceClass c with
    | .lower => true
    | .letter | .upper | .separator | .carriageReturn | .lineFeed | .stop | .fullStop => false
    | _ => lowerAhead rest

/-- Whether the sentence goes on with a character of class `k`, which the text `cs` begins with. -/
def continues (p : SentencePlace) (k : SentenceClass) (cs : List Char) : Bool :=
  if p.last == .carriageReturn && k == .lineFeed then true
  else if isLineEnd p.last then false
  else if k == .extend || k == .format then true
  else if p.ending == .none then true
  else if k == .numeric && p.last == .fullStop then true
  else if k == .upper && p.last == .fullStop && p.afterCased then true
  else if p.fullStop && lowerAhead cs then true
  else if k == .goesOn || k == .stop || k == .fullStop then true
  else if p.ending != .spaced && (k == .close || k == .space || isLineEnd k) then true
  else k == .space || isLineEnd k

def move (p : SentencePlace) (k : SentenceClass) : SentencePlace :=
  match k with
  | .extend | .format => if isLineEnd p.last then { last := k } else p
  | .fullStop =>
    { last := k, ending := .stopped, fullStop := true, afterCased := p.last == .lower || p.last == .upper }
  | .stop => { last := k, ending := .stopped }
  | .close =>
    if p.ending == .stopped || p.ending == .closed then { p with last := k, ending := .closed }
    else { last := k }
  | .space => if p.ending == .none then { last := k } else { p with last := k, ending := .spaced }
  | k => { last := k }

end SentencePlace

def sentencePieces (p : SentencePlace) (piece : List Char) : List Char → List (List Char)
  | [] => [piece.reverse]
  | c :: rest =>
    let k := sentenceClass c
    if p.continues k (c :: rest) then sentencePieces (p.move k) (c :: piece) rest
    else piece.reverse :: sentencePieces (p.move k) [c] rest

/-- The sentences of a text; together they are the text. -/
def sentences (cs : List Char) : List (List Char) :=
  match cs with
  | [] => []
  | c :: rest => sentencePieces (SentencePlace.move { last := .other } (sentenceClass c)) [c] rest

theorem flatten_sentencePieces (p : SentencePlace) (piece cs : List Char) :
    (sentencePieces p piece cs).flatten = piece.reverse ++ cs := by
  induction cs generalizing p piece with
  | nil => simp [sentencePieces]
  | cons c rest ih =>
    unfold sentencePieces
    dsimp only
    split <;> simp [ih]

theorem flatten_sentences (cs : List Char) : (sentences cs).flatten = cs := by
  cases cs with
  | nil => rfl
  | cons c rest => simp [sentences, flatten_sentencePieces]

end GoalCompiler.Text
