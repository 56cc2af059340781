import GoalCompiler.Json.Value
import GoalCompiler.Number.Numeral
import GoalCompiler.Text.Character

/-! Loops of a step: over a range of whole numbers, over listed values, or over the combinations of several
ranges. A range is written `start..end`; a bound that is no whole number is an expression. -/
namespace GoalCompiler

inductive Bound where
  | literal (n : Int64)
  | expression (source : String)
deriving DecidableEq, Repr

def Bound.write : Bound → String
  | .literal n => toString n.toInt
  | .expression source => source

structure Range where
  first : Bound
  last : Bound
deriving DecidableEq, Repr

/-- Why a text is no range. -/
inductive RangeError where
  | noDots (text : String)
  | emptyBound (text : String)
deriving DecidableEq, Repr

def RangeError.message : RangeError → String
  | .noDots text => "range '" ++ text ++ "' must look like 'start..end'"
  | .emptyBound text => "range '" ++ text ++ "' has an empty bound"

/-- The bound that a part of the text `whole` stands for. -/
def Bound.read (whole : String) (cs : List Char) : Except RangeError Bound :=
  let text := String.ofList (Text.trimChars cs)
  if text.isEmpty then .error (.emptyBound whole)
  else
    match Number.word? text with
    | some n => .ok (.literal n)
    | none => .ok (.expression text)

namespace Range

def write (r : Range) : String := r.first.write ++ ".." ++ r.last.write

/-- The characters before and after the first two dots in a row. -/
def splitDots : List Char → Option (List Char × List Char)
  | '.' :: '.' :: rest => some ([], rest)
  | c :: rest => (splitDots rest).map fun (before, after) => (c :: before, after)
  | [] => none

def read (text : String) : Except RangeError Range :=
  match splitDots text.toList with
  | none => .error (.noDots text)
  | some (before, after) =>
    (Bound.read text before).bind fun first =>
      (Bound.read text after).map fun last => ⟨first, last⟩

end Range

inductive Iteration where
  | range (name : String) (range : Range)
  | values (name : String) (values : List Json)
  /-- All combinations; the first variable changes slowest. -/
  | product (names : List String) (ranges : List Range)
deriving DecidableEq, Repr

/-- The variables that change from one iteration to the next. -/
def Iteration.names : Iteration → List String
  | .range v _ => [v]
  | .values v _ => [v]
  | .product vs _ => vs

structure Loop where
  iteration : Iteration
  /-- Neighbouring steps of one group take turns, iteration by iteration. -/
  group : Option String := none
deriving DecidableEq, Repr

def Loop.names (l : Loop) : List String := l.iteration.names

end GoalCompiler
