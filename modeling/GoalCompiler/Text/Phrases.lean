import GoalCompiler.Text.LetterCase
import GoalCompiler.Text.Words

/-! Words and runs of words. Texts are compared by their words in lower case. -/
namespace GoalCompiler.Text

def tokens (text : String) : List String := (words text).map lowerText

/-- The runs of `n` neighbours, for a positive `n`. -/
def windows (n : Nat) : List α → List (List α)
  | [] => []
  | x :: rest => if n ≤ rest.length + 1 then (x :: rest).take n :: windows n rest else []

/-- The greatest number of words in a phrase. -/
def maxPhrase : Nat := 3

/-- The phrases of one word, of two words, and so on. -/
def phrases (words : List String) : List String :=
  (List.range maxPhrase).flatMap fun k => (windows (k + 1) words).map " ".intercalate

/-- Whether the words of `run` stand one after another in `words`. An empty run does not. -/
def hasRun (words run : List String) : Bool :=
  !run.isEmpty && (windows run.length words).contains run

theorem length_of_mem_windows {n : Nat} {xs run : List α} (h : run ∈ windows n xs) :
    run.length = n := by
  induction xs with
  | nil => simp [windows] at h
  | cons x rest ih =>
    unfold windows at h
    split at h
    · rcases List.mem_cons.1 h with rfl | h
      · simpa using by omega
      · exact ih h
    · simp at h

theorem infix_of_mem_windows {n : Nat} {xs run : List α} (h : run ∈ windows n xs) :
    run <:+: xs := by
  induction xs with
  | nil => simp [windows] at h
  | cons x rest ih =>
    unfold windows at h
    split at h
    · rcases List.mem_cons.1 h with rfl | h
      · exact (List.take_prefix _ _).isInfix
      · exact (ih h).trans (List.suffix_cons x rest).isInfix
    · simp at h

end GoalCompiler.Text
