import GoalCompiler.Text.LetterCase

/-! Sets of characters as patterns name them: spans, properties, and combinations of sets. -/
namespace GoalCompiler.Text

/-- All characters that differ from this one in case alone. -/
def variants (c : Char) : List Char :=
  let k := caseClass c
  let images := lowerSpans.filterMap fun (first, last, step, image) =>
    if image ≤ k && k ≤ image + (last - first) && (k - image) % step == 0 then
      some (Char.ofNat (first + (k - image)))
    else none
  let others := caseVariants.filterMap fun (a, b) => if b == k then some (Char.ofNat a) else none
  (c :: Char.ofNat k :: images ++ others).filter fun d => caseClass d == k

inductive CharSet where
  | span (first last : Char)
  | category (g : Category)
  | alphabetic | lower | upper | blank | ascii
  | joiner
  | complement (s : CharSet)
  | union (s t : CharSet)
  | inter (s t : CharSet)
  /-- The characters that differ from a member in case alone. -/
  | anyCase (s : CharSet)
deriving Repr

namespace CharSet

def holds : CharSet → Char → Bool
  | .span first last, c => first ≤ c && c ≤ last
  | .category g, c => Text.category c == g
  | .alphabetic, c => isAlphabetic c
  | .lower, c => isLower c
  | .upper, c => isUpper c
  | .blank, c => isBlank c
  | .ascii, c => c.toNat < 128
  | .joiner, c => c.toNat == 0x200C || c.toNat == 0x200D
  | .complement s, c => !s.holds c
  | .union s t, c => s.holds c || t.holds c
  | .inter s t, c => s.holds c && t.holds c
  | .anyCase s, c => (variants c).any s.holds

def none : CharSet := .span 'b' 'a'

def all : CharSet := .complement none

def single (c : Char) : CharSet := .span c c

def diff (s t : CharSet) : CharSet := .inter s (.complement t)

def symmDiff (s t : CharSet) : CharSet := .union (diff s t) (diff t s)

def unions (sets : List CharSet) : CharSet := sets.foldr .union none

def categories (gs : List Category) : CharSet := unions (gs.map .category)

def marks : CharSet := categories [.nonspacingMark, .spacingMark, .enclosingMark]

/-- The characters of words: letters, marks, digits, connectors and joiners. -/
def word : CharSet :=
  unions [.alphabetic, marks, .category .decimalDigit, .category .connector, .joiner]

def digit : CharSet := .category .decimalDigit

def asciiDigit : CharSet := .span '0' '9'

def asciiLetter : CharSet := .union (.span 'a' 'z') (.span 'A' 'Z')

def asciiWord : CharSet := unions [asciiLetter, asciiDigit, single '_']

def asciiBlank : CharSet := .union (.span '\t' '\r') (single ' ')

end CharSet

end GoalCompiler.Text
