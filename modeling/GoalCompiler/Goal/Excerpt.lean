import GoalCompiler.Text.LetterCase
import GoalCompiler.Text.Sentences

/-! The part of a goal that speaks of a term: the whole goal if it is short, else the sentence with the
term, else so many characters around the term. -/
namespace GoalCompiler.Excerpt

/-- The number of characters whose lower case is exactly `term`, from the front. -/
def matchLength? (term : List Char) : List Char → Option Nat
  | [] => none
  | c :: rest =>
    let lower := Text.lowerChar c
    if lower.isPrefixOf term then
      match term.drop lower.length with
      | [] => some 1
      | more => (matchLength? more rest).map (· + 1)
    else none

/-- Where the term is found first, and over how many characters. -/
def find? (term : List Char) : List Char → Option (Nat × Nat)
  | [] => none
  | c :: rest =>
    match matchLength? term (c :: rest) with
    | some n => some (0, n)
    | none => (find? term rest).map fun (start, n) => (start + 1, n)

/-- The place of a term, whatever the case of its letters; an empty term has none. -/
def locate? (goal : List Char) (term : String) : Option (Nat × Nat) :=
  match term.toList.flatMap Text.lowerChar with
  | [] => none
  | term => find? term goal

/-- The piece that holds the character at `position`. -/
def pieceAt (position : Nat) : List (List Char) → List Char
  | [] => []
  | piece :: rest => if position < piece.length then piece else pieceAt (position - piece.length) rest

/-- The characters from `window` before `start` to `window` after `stop`. There is no such part for a
window of no width after the start. -/
def around? (goal : List Char) (start stop window : Nat) : Option (List Char) :=
  if window = 0 ∧ 0 < start then none
  else some (Text.trimChars ((goal.take (stop + window)).drop (start - window)))

/-- The excerpt, where `split` cuts a text into sentences. -/
def ofChars? (split : List Char → List (List Char)) (goal : List Char) (term : Option String)
    (maxChars window : Nat) : Option (List Char) :=
  let goal := Text.trimChars goal
  if goal.length ≤ maxChars then some goal
  else
    match term.bind (locate? goal) with
    | none => around? goal 0 0 window
    | some (start, n) =>
      let sentence := Text.trimChars (pieceAt start (split goal))
      if sentence.length ≤ maxChars then some sentence else around? goal start (start + n) window

/-- The excerpt, unless the window is empty. -/
def of? (goal : String) (term : Option String) (maxChars window : Nat) : Option String :=
  (ofChars? Text.sentences goal.toList term maxChars window).map String.ofList

end GoalCompiler.Excerpt
