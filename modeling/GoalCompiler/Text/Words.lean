import GoalCompiler.Text.LetterCase

/-! Words of a text, cut where the Unicode rules for word boundaries cut. Marks, format characters and
joiners stay with the character before them. -/
namespace GoalCompiler.Text

/-- How a character takes part in words. -/
inductive WordClass where
  | carriageReturn | lineFeed | newline | extend | joiner | format | katakana | hebrew | letter
  | singleQuote | doubleQuote | midNumLet | midLetter | midNum | numeric | connector | regional | space
  | pictograph | other
deriving DecidableEq, Repr

/-- Letters of scripts that put no blanks between words. -/
def blanklessSpans : List Span :=
  [(0xE01, 0xE30), (0xE32, 0xE33), (0xE40, 0xE46), (0xE81, 0xE82), (0xE84, 0xE84), (0xE86, 0xE8A),
   (0xE8C, 0xEA3), (0xEA5, 0xEA5), (0xEA7, 0xEB0), (0xEB2, 0xEB3), (0xEBD, 0xEBD), (0xEC0, 0xEC4),
   (0xEC6, 0xEC6), (0xEDC, 0xEDF), (0x1000, 0x102A), (0x103F, 0x103F), (0x1050, 0x1055),
   (0x105A, 0x105D), (0x1061, 0x1061), (0x1065, 0x1066), (0x106E, 0x1070), (0x1075, 0x1081),
   (0x108E, 0x108E), (0x1780, 0x17B3), (0x17D7, 0x17D7), (0x17DC, 0x17DC), (0x1950, 0x196D),
   (0x1970, 0x1974), (0x1980, 0x19AB), (0x19B0, 0x19C9), (0x1A20, 0x1A54), (0x1AA7, 0x1AA7),
   (0x3006, 0x3007), (0x3021, 0x3029), (0x3038, 0x303A), (0x3041, 0x3096), (0x309D, 0x309F),
   (0x3400, 0x4DBF), (0x4E00, 0x9FFF), (0xA9E0, 0xA9E4), (0xA9E6, 0xA9EF), (0xA9FA, 0xA9FE),
   (0xAA60, 0xAA76), (0xAA7A, 0xAA7A), (0xAA7E, 0xAAAF), (0xAAB1, 0xAAB1), (0xAAB5, 0xAAB6),
   (0xAAB9, 0xAABD), (0xAAC0, 0xAAC0), (0xAAC2, 0xAAC2), (0xAADB, 0xAADD), (0xF900, 0xFA6D),
   (0xFA70, 0xFAD9), (0x11700, 0x1171A), (0x11740, 0x11746), (0x17000, 0x187F7), (0x18800, 0x18CD5),
   (0x18D00, 0x18D08), (0x1B001, 0x1B11F), (0x1B132, 0x1B132), (0x1B150, 0x1B152),
   (0x1B170, 0x1B2FB), (0x20000, 0x2A6DF), (0x2A700, 0x2B739), (0x2B740, 0x2B81D),
   (0x2B820, 0x2CEA1), (0x2CEB0, 0x2EBE0), (0x2EBF0, 0x2EE5D), (0x2F800, 0x2FA1D),
   (0x30000, 0x3134A), (0x31350, 0x323AF)]

/-- Signs that stand in words as letters do. -/
def wordSignSpans : List Span :=
  [(0x2C2, 0x2C5), (0x2D2, 0x2D7), (0x2DE, 0x2DF), (0x2E5, 0x2EB), (0x2ED, 0x2ED), (0x2EF, 0x2FF),
   (0x55A, 0x55C), (0x55E, 0x55E), (0x58A, 0x58A), (0x5F3, 0x5F3), (0xA708, 0xA716),
   (0xA720, 0xA721), (0xA789, 0xA78A), (0xAB5B, 0xAB5B)]

def katakanaSpans : List Span :=
  [(0x3031, 0x3035), (0x309B, 0x309C), (0x30A0, 0x30FA), (0x30FC, 0x30FF), (0x31F0, 0x31FF),
   (0x32D0, 0x32FE), (0x3300, 0x3357), (0xFF66, 0xFF9D), (0x1AFF0, 0x1AFF3), (0x1AFF5, 0x1AFFB),
   (0x1AFFD, 0x1AFFE), (0x1B000, 0x1B000), (0x1B120, 0x1B122), (0x1B155, 0x1B155),
   (0x1B164, 0x1B167)]

def hebrewSpans : List Span :=
  [(0x5D0, 0x5EA), (0x5EF, 0x5F2), (0xFB1D, 0xFB1D), (0xFB1F, 0xFB28), (0xFB2A, 0xFB36),
   (0xFB38, 0xFB3C), (0xFB3E, 0xFB3E), (0xFB40, 0xFB41), (0xFB43, 0xFB44), (0xFB46, 0xFB4F)]

def pictographSpans : List Span :=
  [(0xA9, 0xA9), (0xAE, 0xAE), (0x203C, 0x203C), (0x2049, 0x2049), (0x2122, 0x2122),
   (0x2139, 0x2139), (0x2194, 0x2199), (0x21A9, 0x21AA), (0x231A, 0x231B), (0x2328, 0x2328),
   (0x2388, 0x2388), (0x23CF, 0x23CF), (0x23E9, 0x23F3), (0x23F8, 0x23FA), (0x24C2, 0x24C2),
   (0x25AA, 0x25AB), (0x25B6, 0x25B6), (0x25C0, 0x25C0), (0x25FB, 0x25FE), (0x2600, 0x2605),
   (0x2607, 0x2612), (0x2614, 0x2685), (0x2690, 0x2705), (0x2708, 0x2712), (0x2714, 0x2714),
   (0x2716, 0x2716), (0x271D, 0x271D), (0x2721, 0x2721), (0x2728, 0x2728), (0x2733, 0x2734),
   (0x2744, 0x2744), (0x2747, 0x2747), (0x274C, 0x274C), (0x274E, 0x274E), (0x2753, 0x2755),
   (0x2757, 0x2757), (0x2763, 0x2767), (0x2795, 0x2797), (0x27A1, 0x27A1), (0x27B0, 0x27B0),
   (0x27BF, 0x27BF), (0x2934, 0x2935), (0x2B05, 0x2B07), (0x2B1B, 0x2B1C), (0x2B50, 0x2B50),
   (0x2B55, 0x2B55), (0x3030, 0x3030), (0x303D, 0x303D), (0x3297, 0x3297), (0x3299, 0x3299),
   (0x1F000, 0x1F0FF), (0x1F10D, 0x1F10F), (0x1F12F, 0x1F12F), (0x1F16C, 0x1F171),
   (0x1F17E, 0x1F17F), (0x1F18E, 0x1F18E), (0x1F191, 0x1F19A), (0x1F1AD, 0x1F1E5),
   (0x1F201, 0x1F20F), (0x1F21A, 0x1F21A), (0x1F22F, 0x1F22F), (0x1F232, 0x1F23A),
   (0x1F23C, 0x1F23F), (0x1F249, 0x1F3FA), (0x1F400, 0x1F53D), (0x1F546, 0x1F64F),
   (0x1F680, 0x1F6FF), (0x1F774, 0x1F77F), (0x1F7D5, 0x1F7FF), (0x1F80C, 0x1F80F),
   (0x1F848, 0x1F84F), (0x1F85A, 0x1F85F), (0x1F888, 0x1F88F), (0x1F8AE, 0x1F8FF),
   (0x1F90C, 0x1F93A), (0x1F93C, 0x1F945), (0x1F947, 0x1FAFF), (0x1FC00, 0x1FFFD)]

/-- Characters besides the marks that stay with the one before. -/
def attachedSpans : List Span :=
  [(0x200C, 0x200C), (0xFF9E, 0xFF9F), (0x1F3FB, 0x1F3FF), (0xE0020, 0xE007F)]

def midLetters : List Nat := [0x3A, 0xB7, 0x387, 0x55F, 0x5F4, 0x2027, 0xFE13, 0xFE55, 0xFF1A]

def midNumbers : List Nat :=
  [0x2C, 0x3B, 0x37E, 0x589, 0x60C, 0x60D, 0x66C, 0x7F8, 0x2044, 0xFE10, 0xFE14, 0xFE50, 0xFE54, 0xFF0C, 0xFF1B]

def midBoth : List Nat := [0x2E, 0x2018, 0x2019, 0x2024, 0xFE52, 0xFF07, 0xFF0E]

def wordSpaces : List Span :=
  [(0x20, 0x20), (0x1680, 0x1680), (0x2000, 0x2006), (0x2008, 0x200A), (0x205F, 0x205F),
   (0x3000, 0x3000)]

def wordClass (c : Char) : WordClass :=
  let n := c.toNat
  let g := category c
  if n = 0x0D then .carriageReturn
  else if n = 0x0A then .lineFeed
  else if [0x0B, 0x0C, 0x85, 0x2028, 0x2029].contains n then .newline
  else if n = 0x200D then .joiner
  else if g.isMark || covers attachedSpans n then .extend
  else if g == .format && n != 0x200B then .format
  else if c == '\'' then .singleQuote
  else if c == '"' then .doubleQuote
  else if midBoth.contains n then .midNumLet
  else if midLetters.contains n then .midLetter
  else if midNumbers.contains n then .midNum
  else if g == .decimalDigit || n = 0x66B then .numeric
  else if g == .connector || n = 0x202F then .connector
  else if covers katakanaSpans n then .katakana
  else if covers hebrewSpans n then .hebrew
  else if (isAlphabetic c && !covers blanklessSpans n) || covers wordSignSpans n then .letter
  else if 0x1F1E6 ≤ n && n ≤ 0x1F1FF then .regional
  else if covers wordSpaces n then .space
  else if covers pictographSpans n then .pictograph
  else .other

namespace WordClass

def isAttached : WordClass → Bool
  | .extend | .format | .joiner => true
  | _ => false

def isLineEnd : WordClass → Bool
  | .carriageReturn | .lineFeed | .newline => true
  | _ => false

def isLetter : WordClass → Bool
  | .letter | .hebrew => true
  | _ => false

def isMidLetter : WordClass → Bool
  | .midLetter | .midNumLet | .singleQuote => true
  | _ => false

def isMidNumber : WordClass → Bool
  | .midNum | .midNumLet | .singleQuote => true
  | _ => false

def isWordPart : WordClass → Bool
  | .letter | .hebrew | .numeric | .katakana => true
  | _ => false

end WordClass

/-- What is known at a place in a text: the character before it, the last two that marks are not counted
among, and whether an odd number of regional signs ends there. -/
structure WordPlace where
  previous : WordClass
  last : WordClass
  beforeLast : Option WordClass
  oddRegional : Bool

/-- Whether the last character goes on with `c`, which `ahead` follows, marks not counted. -/
def WordPlace.continues (p : WordPlace) (c : WordClass) (ahead : Option WordClass) : Bool :=
  let next (q : WordClass → Bool) : Bool := (ahead.map q).getD false
  let before (q : WordClass → Bool) : Bool := (p.beforeLast.map q).getD false
  if p.previous == .carriageReturn && c == .lineFeed then true
  else if p.previous.isLineEnd || c.isLineEnd then false
  else if p.previous == .joiner && c == .pictograph then true
  else if p.previous == .space && c == .space then true
  else if c.isAttached then true
  else
    (p.last.isLetter && c.isLetter) ||
    (p.last.isLetter && c.isMidLetter && next WordClass.isLetter) ||
    (before WordClass.isLetter && p.last.isMidLetter && c.isLetter) ||
    (p.last == .hebrew && c == .singleQuote) ||
    (p.last == .hebrew && c == .doubleQuote && next (· == .hebrew)) ||
    (before (· == .hebrew) && p.last == .doubleQuote && c == .hebrew) ||
    (p.last == .numeric && c == .numeric) ||
    (p.last.isLetter && c == .numeric) ||
    (p.last == .numeric && c.isLetter) ||
    (before (· == .numeric) && p.last.isMidNumber && c == .numeric) ||
    (p.last == .numeric && c.isMidNumber && next (· == .numeric)) ||
    (p.last == .katakana && c == .katakana) ||
    ((p.last.isWordPart || p.last == .connector) && c == .connector) ||
    (p.last == .connector && c.isWordPart) ||
    (p.oddRegional && c == .regional)

/-- The place after a character. -/
def WordPlace.move (p : WordPlace) (c : WordClass) : WordPlace :=
  if c.isAttached && !p.previous.isLineEnd then { p with previous := c }
  else
    { previous := c, last := c, beforeLast := some p.last
      oddRegional := c == .regional && !(p.last == .regional && p.oddRegional) }

/-- The class of the next character, marks not counted. -/
def aheadClass (cs : List Char) : Option WordClass :=
  (cs.find? fun c => !(wordClass c).isAttached).map wordClass

/-- Cuts the rest of a text whose current piece is `piece`, read backwards. -/
def wordPieces (p : WordPlace) (piece : List Char) : List Char → List String
  | [] => [String.ofList piece.reverse]
  | c :: rest =>
    let k := wordClass c
    if p.continues k (aheadClass rest) then wordPieces (p.move k) (c :: piece) rest
    else String.ofList piece.reverse :: wordPieces (p.move k) [c] rest

/-- The pieces between word boundaries; together they are the text. -/
def wordBounds (s : String) : List String :=
  match s.toList with
  | [] => []
  | c :: rest =>
    let k := wordClass c
    wordPieces ⟨k, k, none, k == .regional⟩ [c] rest

/-- The pieces that hold a letter or a number. -/
def words (s : String) : List String :=
  (wordBounds s).filter fun w => w.toList.any isAlphanumeric

end GoalCompiler.Text
