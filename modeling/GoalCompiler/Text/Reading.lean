/-! Reading from the front of a text. A reading says that what is left is shorter, so that readings can be
repeated to the end. -/
namespace GoalCompiler.Text

/-- A value read off the front of a text. -/
structure Read (α : Type) (cs : List Char) where
  value : α
  rest : List Char
  shorter : rest.length < cs.length

abbrev Reader (α : Type) := (cs : List Char) → Option (Read α cs)

/-- Keeps a reading that took something. -/
def progress (cs : List Char) : α × List Char → Option (Read α cs)
  | (a, rest) => if h : rest.length < cs.length then some ⟨a, rest, h⟩ else none

/-- The parts of a text between the separators. -/
def split (separator : Char) : List Char → List (List Char)
  | [] => [[]]
  | c :: rest =>
    if c = separator then [] :: split separator rest
    else match split separator rest with
      | part :: parts => (c :: part) :: parts
      | [] => [[c]]

end GoalCompiler.Text
