/-! Directed graphs on the numbers below `n`. A graph is given by what each node needs: the nodes that have
to come before it. `arrange` puts the nodes in order, always the smallest that is ready; `cycle?` finds a
closed path by going from nodes to those that need them. -/
namespace GoalCompiler.Graph

/-- For each node the nodes that come before it; one may be listed more than once. -/
abbrev Needs := List (List Nat)

/-- For each node the nodes to which a step leads, in the order in which they are tried; one may be listed
more than once. -/
abbrev Ways (n : Nat) := Vector (List (Fin n)) n

def Ways.next {n : Nat} (ways : Ways n) (v : Fin n) : List (Fin n) := ways[v]

/-- From each node to those that need it, in order, as often as they need it. -/
def onward (g : Needs) : Ways g.length :=
  Vector.ofFn fun v => (List.finRange g.length).flatMap fun w => (g[w].filter (· == v.val)).map fun _ => w

/-! ### Arrangements -/

/-- How many nodes each node needs, counted as often as it needs them. -/
def demands (g : Needs) : Vector Nat g.length := Vector.ofFn fun w => g[w].countP (· < g.length)

/-- An order under way: how many nodes each node still needs, the nodes that are ready because they need none, from
the smallest on, and the nodes that were taken. -/
structure Countdown (n : Nat) where
  counts : Vector Nat n
  ready : List (Fin n)
  taken : List (Fin n)
deriving DecidableEq, Repr

namespace Countdown

variable {n : Nat}

def count (s : Countdown n) (v : Fin n) : Nat := s.counts[v]

/-- Puts a node in its place among nodes that rise, if it is not one of them. -/
def insert (v : Fin n) : List (Fin n) → List (Fin n)
  | [] => [v]
  | w :: rest =>
    if v = w then w :: rest
    else if v < w then v :: w :: rest
    else w :: insert v rest

/-- One node less that `w` needs. A count of zero cannot be lowered. -/
def lower (s : Countdown n) (w : Fin n) : Option (Countdown n) :=
  match s.count w with
  | 0 => none
  | k + 1 =>
    some { s with counts := s.counts.set w k, ready := if k = 0 then insert w s.ready else s.ready }

/-- Takes the first of the ready nodes. All that need it need one node less, as often as they need it. -/
def take (ways : Ways n) (s : Countdown n) (v : Fin n) (ready : List (Fin n)) : Option (Countdown n) :=
  (ways.next v).foldlM lower { s with ready, taken := s.taken ++ [v] }

/-- Takes ready nodes until there are none. -/
def run (ways : Ways n) : Nat → Countdown n → Option (Countdown n)
  | 0, s => some s
  | rounds + 1, s =>
    match s.ready with
    | [] => some s
    | v :: ready => (s.take ways v ready).bind (run ways rounds)

def initial (g : Needs) : Countdown g.length where
  counts := demands g
  ready := (List.finRange g.length).filter fun v => (demands g)[v] = 0
  taken := []

end Countdown

/-- The countdown from the graph on. No node is taken twice, so there are no more rounds than nodes. -/
def countdown (g : Needs) : Option (Countdown g.length) := Countdown.run (onward g) g.length (.initial g)

/-- The nodes in an order in which each follows what it needs, if there is one. -/
def arrange (g : Needs) : Option (List Nat) :=
  (countdown g).bind fun s => if s.taken.length < g.length then none else some (s.taken.map Fin.val)

/-! ### Closed paths -/

/-- How far a search is with a node: not yet there, on its path, or past it. -/
inductive Mark where
  | new | active | done
deriving DecidableEq, Repr

/-- A search under way, with the path to the node at which it is. -/
structure Search (n : Nat) where
  marks : Vector Mark n
  path : List (Fin n)
deriving DecidableEq, Repr

section

variable {n : Nat}

namespace Search

def initial (n : Nat) : Search n := ⟨Vector.replicate n .new, []⟩

def mark (s : Search n) (v : Fin n) : Mark := s.marks[v]

def enter (s : Search n) (v : Fin n) : Search n := ⟨s.marks.set v .active, s.path ++ [v]⟩

def leave (s : Search n) (v : Fin n) : Search n := ⟨s.marks.set v .done, s.path.dropLast⟩

/-- The path from `w` on and back to `w`. A node that is not on the path counts as standing at `place`. -/
def close (s : Search n) (place : Nat) (w : Fin n) : List (Fin n) :=
  s.path.drop ((s.path.idxOf? w).getD place) ++ [w]

/-- A step to `w`. Back onto the path it closes a circuit; a new node is visited. -/
def step (visit : Search n → Fin n → Except (List (Fin n)) (Search n)) (place : Nat) (s : Search n)
    (w : Fin n) : Except (List (Fin n)) (Search n) :=
  match s.mark w with
  | .active => .error (s.close place w)
  | .new => visit s w
  | .done => .ok s

end Search

/-- Goes through all that can be reached from `v`, up to the first circuit. No path is longer than there are
nodes, so that many levels are enough. -/
def visit (ways : Ways n) (place : Nat) : Nat → Search n → Fin n → Except (List (Fin n)) (Search n)
  | 0, s, _ => .ok s
  | fuel + 1, s, v =>
    ((ways.next v).foldlM (Search.step (visit ways place fuel) place) (s.enter v)).map (·.leave v)

/-- Visits a node at which the search has not been yet. -/
def visitNew (ways : Ways n) (place : Nat) (s : Search n) (v : Fin n) : Except (List (Fin n)) (Search n) :=
  if s.mark v = .new then visit ways place n s v else .ok s

/-- Goes through all nodes, up to the first circuit. -/
def search (ways : Ways n) (place : Nat) : Option (List (Fin n)) :=
  match (List.finRange n).foldlM (visitNew ways place) (.initial n) with
  | .error path => some path
  | .ok _ => none

/-- A way from a node back to it. -/
def circuit? (ways : Ways n) : Option (List (Fin n)) := search ways 0

end

/-- A closed path of the graph. -/
def cycle? (g : Needs) : Option (List Nat) := (circuit? (onward g)).map (·.map Fin.val)

end GoalCompiler.Graph
