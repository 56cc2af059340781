/-! Vectors of texts and how near they are to each other, in single precision. -/
namespace GoalCompiler

abbrev Embedding := List Float32

namespace Embedding

/-- The sum of the numbers, from the left. -/
def sum (xs : List Float32) : Float32 := xs.foldl (· + ·) (-0.0)

def dot (a b : Embedding) : Float32 := sum (List.zipWith (· * ·) a b)

def norm (a : Embedding) : Float32 := (dot a a).sqrt

/-- The cosine of the angle between two vectors; zero where there is no angle. -/
def similarity (a b : Embedding) : Float32 :=
  if a.length != b.length || a.isEmpty then 0.0
  else if a.norm == 0.0 || b.norm == 0.0 then 0.0
  else dot a b / (a.norm * b.norm)

/-- The candidate that is nearest to the vector, and how near. The first of equals is taken. -/
def nearest? (query : Embedding) (candidates : List (α × Embedding)) : Option (α × Float32) :=
  let step (best : Option (α × Float32)) (c : α × Embedding) : Option (α × Float32) :=
    let s := similarity query c.2
    match best with
    | none => some (c.1, s)
    | some (a, most) => if s > most then some (c.1, s) else some (a, most)
  candidates.foldl step none

end Embedding

end GoalCompiler
