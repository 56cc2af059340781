import GoalCompiler.Goal.Analysis
import GoalCompiler.Goal.Targets

/-! Modifiers in a goal. A modifier is found when enough words of its phrase align with the goal and none of
its negative signals stands there; what is found assigns values to parameters. -/
namespace GoalCompiler

/-- A modifier found in a goal. -/
structure ModifierMatch where
  /-- The position of the modifier in the workflow. -/
  index : Nat
  /-- How many words of the phrase align with the goal. -/
  aligned : Nat
  words : Nat
deriving DecidableEq, Repr

/-- What a goal says about a modifier. -/
inductive ModifierOutcome where
  | found (m : ModifierMatch)
  | ruledOut (signal : String)
  | tooFew (aligned required : Nat)
deriving DecidableEq, Repr

namespace Modifier

/-- A word aligns with a goal that has it, or has a phrase near enough to it. -/
def aligns (goal : Goal) (embedder : Embedder) (threshold : Float32) (word : String) :
    Except ServiceError Bool :=
  if goal.hasWord word then .ok true
  else (embedder.embed word).map fun v =>
    match goal.nearestPhrase? v with
    | some (_, s) => threshold ≤ s
    | none => false

/-- What has been found out about words. -/
abbrev Aligned := Dict Bool

/-- How many of the words align. What is known about a word is used again. -/
def countAligned (test : String → Except ServiceError Bool) (known : Aligned) (n : Nat) :
    List String → Except ServiceError (Nat × Aligned)
  | [] => .ok (n, known)
  | word :: rest =>
    match Dict.get? known word with
    | some b => countAligned test known (n + b.toNat) rest
    | none =>
      match test word with
      | .ok b => countAligned test (Dict.insert known word b) (n + b.toNat) rest
      | .error e => .error e

def signal? (m : Modifier) (goal : Goal) : Option String :=
  m.negativeSignals.find? fun s => goal.hasRun (Text.tokens s)

/-- One word has to align, or two where the phrase has more. -/
def requiredWords (words : List String) : Nat := min words.length 2

def judge (index : Nat) (words : List String) (aligned : Nat) : ModifierOutcome :=
  if words.isEmpty || aligned < requiredWords words then .tooFew aligned (requiredWords words)
  else .found ⟨index, aligned, words.length⟩

/-- What a goal says about each of the modifiers. -/
def outcomes (goal : Goal) (test : String → Except ServiceError Bool) (known : Aligned) :
    List (Modifier × Nat) → Except ServiceError (List ModifierOutcome)
  | [] => .ok []
  | (m, index) :: rest => do
    match m.signal? goal with
    | some signal => return .ruledOut signal :: (← outcomes goal test known rest)
    | none =>
      let words := Text.tokens m.phrase
      let (aligned, known) ← countAligned test known 0 words
      return judge index words aligned :: (← outcomes goal test known rest)

end Modifier

def Workflow.modifierOutcomes (w : Workflow) (goal : Goal) (embedder : Embedder) (threshold : Float32) :
    Except ServiceError (List ModifierOutcome) :=
  Modifier.outcomes goal (Modifier.aligns goal embedder threshold) [] w.modifiers.zipIdx

def ModifierOutcome.match? : ModifierOutcome → Option ModifierMatch
  | .found m => some m
  | _ => none

/-- A value that a modifier assigns to a parameter. -/
structure Assignment where
  value : Json
  phrase : String
  aligned : Nat
  /-- Whether the modifier names the parameter, and not only another one of its group. -/
  direct : Bool
deriving DecidableEq, Repr

namespace Assignment

/-- The stronger one has more aligned words; of equals the direct one is stronger. -/
def beats (a b : Assignment) : Bool :=
  b.aligned < a.aligned || (a.aligned == b.aligned && a.direct && !b.direct)

/-- Takes a candidate unless there is one for the parameter that it does not beat. -/
def offer (assigned : Dict Assignment) (parameter : String) (a : Assignment) : Dict Assignment :=
  match Dict.get? assigned parameter with
  | some b => if a.beats b then Dict.insert assigned parameter a else assigned
  | none => Dict.insert assigned parameter a

end Assignment

namespace Workflow

/-- What one modifier offers to the parameters, in order. -/
def offers (w : Workflow) (m : Modifier) (aligned : Nat) : List (String × Assignment) :=
  m.values.flatMap fun (name, value) =>
    (w.targets name m.phrase).filterMap fun p =>
      match p.accept value with
      | .ok v => some (p.name, ⟨v, m.phrase, aligned, p.name == name⟩)
      | .error _ => none

/-- The values that the modifiers found assign to the parameters. The strongest counts, and of equals the
one that is declared first. -/
def assignments (w : Workflow) (found : List ModifierMatch) : Dict Assignment :=
  let inOrder := found.mergeSort fun a b => a.index ≤ b.index
  let offered := inOrder.flatMap fun f =>
    match w.modifiers[f.index]? with
    | some m => w.offers m f.aligned
    | none => []
  offered.foldl (fun assigned (p, a) => Assignment.offer assigned p a) []

end Workflow

end GoalCompiler
