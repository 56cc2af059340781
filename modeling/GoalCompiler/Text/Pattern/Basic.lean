import GoalCompiler.Text.CharSet

/-! Patterns of text. A pattern leads from a position in a text to the positions where a match of it can
end; a text matches if some match starts anywhere in it. -/
namespace GoalCompiler.Text

/-- A condition on a position. -/
inductive Anchor where
  | textStart | textEnd
  /-- The start and the end of a line; with `returns` a carriage return ends lines too. -/
  | lineStart (returns : Bool) | lineEnd (returns : Bool)
  | wordBoundary (word : CharSet) | noWordBoundary (word : CharSet)
  | wordStart (word : CharSet) | wordEnd (word : CharSet)
  | beforeWord (word : CharSet) | afterWord (word : CharSet)
deriving Repr

inductive Pattern where
  | empty
  | one (set : CharSet)
  | anchor (a : Anchor)
  | seq (p q : Pattern)
  | alt (p q : Pattern)
  | times (p : Pattern) (least : Nat) (most : Option Nat)
deriving Repr, Inhabited

namespace Anchor

def holds (text : Array Char) (i : Nat) (a : Anchor) : Bool :=
  let before (s : CharSet) : Bool := 0 < i && (text[i - 1]?.map s.holds).getD false
  let after (s : CharSet) : Bool := (text[i]?.map s.holds).getD false
  let newline := CharSet.single '\n'
  let ret := CharSet.single '\r'
  match a with
  | .textStart => i == 0
  | .textEnd => i == text.size
  | .lineStart false => i == 0 || before newline
  | .lineEnd false => i == text.size || after newline
  | .lineStart true => i == 0 || before newline || (before ret && !after newline)
  | .lineEnd true => i == text.size || after ret || (after newline && !before ret)
  | .wordBoundary w => before w != after w
  | .noWordBoundary w => before w == after w
  | .wordStart w => !before w && after w
  | .wordEnd w => before w && !after w
  | .beforeWord w => !before w
  | .afterWord w => !after w

end Anchor

namespace Pattern

/-- The number of parts of a pattern, its repetitions written out. -/
def size : Pattern → Nat
  | .empty | .one _ | .anchor _ => 1
  | .seq p q => p.size + q.size
  | .alt p q => p.size + q.size + 1
  | .times p least most => p.size * max 1 (most.getD (least + 1))

/-- Positions in order, each once. -/
def merge (ps qs : List Nat) : List Nat := (ps ++ qs).mergeSort.eraseReps

/-- What `f` leads to in exactly `n` steps. -/
def exactly (f : List Nat → List Nat) : Nat → List Nat → List Nat
  | 0, ps => ps
  | n + 1, ps => exactly f n (f ps)

/-- What `f` leads to in `n` steps or less. Once a step leads nowhere new, no other does. -/
def atMost (f : List Nat → List Nat) : Nat → List Nat → List Nat
  | 0, ps => ps
  | n + 1, ps =>
    let qs := merge ps (f ps)
    if qs = ps then ps else atMost f n qs

/-- Where matches that start at one of the positions can end. More repetitions than the text has positions
lead nowhere new. -/
def ends (text : Array Char) : Pattern → List Nat → List Nat
  | .empty, ps => ps
  | .one s, ps => ps.filterMap fun i => if (text[i]?.map s.holds).getD false then some (i + 1) else none
  | .anchor a, ps => ps.filter fun i => a.holds text i
  | .seq p q, ps => q.ends text (p.ends text ps)
  | .alt p q, ps => merge (p.ends text ps) (q.ends text ps)
  | .times p least most, ps =>
    let enough := text.size + 1
    let more := match most with
      | some m => min (m - least) enough
      | none => enough
    atMost (p.ends text) more (exactly (p.ends text) (min least enough) ps)

/-- Whether the pattern matches somewhere in the text. -/
def isIn (p : Pattern) (text : String) : Bool :=
  let cs := text.toList.toArray
  !(p.ends cs (List.range (cs.size + 1))).isEmpty

end Pattern

end GoalCompiler.Text
