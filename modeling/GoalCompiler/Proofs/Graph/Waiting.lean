import GoalCompiler.Graph
import Mathlib.Logic.Relation
import Mathlib.Order.WellFounded

/-! Nodes that wait for each other. As long as one of them needs nothing that still waits, the first such node is
taken; all that are taken come behind what they need, and what is left in the end waits for what is left. -/
namespace GoalCompiler.Graph

variable {g : Needs}

/-- Node `i` has to come after node `j`. -/
def Follows (g : Needs) (i j : Nat) : Prop := ∃ needs, g[i]? = some needs ∧ j ∈ needs

/-- No node comes after itself, however long the way around. -/
def Acyclic (g : Needs) : Prop := ∀ i, ¬ Relation.TransGen (Follows g) i i

theorem Follows.lt {i j : Nat} (h : Follows g i j) : i < g.length := by
  obtain ⟨needs, hi, -⟩ := h
  exact (List.getElem?_eq_some_iff.mp hi).1

structure Vertex where
  index : Nat
  needs : List Nat
deriving DecidableEq, Repr

def vertices (g : Needs) : List Vertex :=
  g.zipIdx.map fun (needs, index) => ⟨index, needs⟩

/-- A vertex is ready when nothing that it needs is still waiting. -/
def Vertex.ready (waiting : List Vertex) (v : Vertex) : Bool :=
  v.needs.all fun j => !waiting.any (·.index == j)

/-- Takes the first ready vertex again and again. What is left waits for itself. -/
def drain (waiting : List Vertex) : List Nat × List Vertex :=
  match h : waiting.find? (Vertex.ready waiting) with
  | none => ([], waiting)
  | some v =>
    have : (waiting.erase v).length < waiting.length := by
      have := List.length_erase_of_mem (List.mem_of_find?_eq_some h)
      have := List.length_pos_of_mem (List.mem_of_find?_eq_some h)
      omega
    let (order, stuck) := drain (waiting.erase v)
    (v.index :: order, stuck)
termination_by waiting.length

theorem mem_vertices {v : Vertex} : v ∈ vertices g ↔ g[v.index]? = some v.needs := by
  obtain ⟨index, needs⟩ := v
  simp [vertices, List.mem_map, List.mem_zipIdx_iff_getElem?]

theorem map_snd_zipIdx {α : Type} (xs : List α) : xs.zipIdx.map Prod.snd = List.range xs.length := by
  simp [List.zipIdx_eq_zip_range', List.range_eq_range', List.map_snd_zip]

theorem index_vertices (g : Needs) : (vertices g).map Vertex.index = List.range g.length := by
  rw [← map_snd_zipIdx, vertices, List.map_map]
  rfl

theorem pairwise_vertices (g : Needs) : (vertices g).Pairwise fun u v => u.index < v.index := by
  rw [← List.pairwise_map (f := Vertex.index) (R := (· < ·)), index_vertices]
  exact List.pairwise_lt_range

theorem follows_iff {v : Vertex} (hv : v ∈ vertices g) {j : Nat} :
    Follows g v.index j ↔ j ∈ v.needs := by
  simp [Follows, mem_vertices.mp hv]

theorem ready_iff {waiting : List Vertex} {v : Vertex} :
    v.ready waiting = true ↔ ∀ j ∈ v.needs, j ∉ waiting.map Vertex.index := by
  simp only [Vertex.ready, List.all_eq_true, Bool.not_eq_true', List.any_eq_false, beq_iff_eq,
    List.mem_map, not_exists, not_and]

/-- In a list that rises the first element with a property is below all others that have it. -/
theorem find?_lt {waiting : List Vertex} {p : Vertex → Bool} {u v : Vertex}
    (hs : waiting.Pairwise fun u v => u.index < v.index) (hv : waiting.find? p = some v)
    (hu : u ∈ waiting) (hp : p u) (hne : u ≠ v) : v.index < u.index := by
  obtain ⟨-, before, after, rfl, hbefore⟩ := List.find?_eq_some_iff_append.mp hv
  rcases List.mem_append.mp hu with hu | hu
  · exact absurd hp (by simpa using hbefore u hu)
  · obtain hu := (List.mem_cons.mp hu).resolve_left hne
    exact (List.pairwise_cons.mp (List.pairwise_append.mp hs).2.1).1 u hu

/-- Nothing in the list needs itself or anything after it. -/
def Ordered (g : Needs) (order : List Nat) : Prop :=
  order.Pairwise (fun i j => ¬ Follows g i j) ∧ ∀ i ∈ order, ¬ Follows g i i

theorem drain_of_none {waiting : List Vertex} (h : waiting.find? (Vertex.ready waiting) = none) :
    drain waiting = ([], waiting) := by
  rw [drain]
  split
  · rfl
  · simp_all

theorem drain_of_some {waiting : List Vertex} {v : Vertex}
    (h : waiting.find? (Vertex.ready waiting) = some v) :
    drain waiting = (v.index :: (drain (waiting.erase v)).1, (drain (waiting.erase v)).2) := by
  rw [drain]
  split
  · simp_all
  · next w hw =>
    obtain rfl : v = w := by simpa [h] using hw
    rfl

theorem drain_perm (waiting : List Vertex) :
    ((drain waiting).1 ++ (drain waiting).2.map Vertex.index).Perm (waiting.map Vertex.index) := by
  induction waiting using drain.induct with
  | case1 waiting h => simp [drain_of_none h]
  | case2 waiting v h _ order stuck he ih =>
    rw [drain_of_some h]
    have hm : v ∈ waiting := List.mem_of_find?_eq_some h
    exact (ih.cons v.index).trans ((List.perm_cons_erase hm).map Vertex.index).symm

theorem drain_stuck_subset (waiting : List Vertex) : (drain waiting).2 ⊆ waiting := by
  induction waiting using drain.induct with
  | case1 waiting h => simp [drain_of_none h]
  | case2 waiting v h _ order stuck he ih =>
    rw [drain_of_some h]
    exact List.Subset.trans ih List.erase_subset

/-- What is left over waits for something that is left over. -/
theorem drain_stuck (waiting : List Vertex) :
    ∀ v ∈ (drain waiting).2, ∃ j ∈ v.needs, j ∈ (drain waiting).2.map Vertex.index := by
  induction waiting using drain.induct with
  | case1 waiting h =>
    rw [drain_of_none h]
    intro v hv
    have hn := List.find?_eq_none.mp h v hv
    rw [ready_iff] at hn
    push Not at hn
    exact hn
  | case2 waiting v h _ order stuck he ih =>
    rw [drain_of_some h]
    exact ih

theorem drain_ordered (waiting : List Vertex) (hg : waiting ⊆ vertices g) :
    Ordered g (drain waiting).1 := by
  induction waiting using drain.induct with
  | case1 waiting h =>
    rw [drain_of_none h]
    exact ⟨List.Pairwise.nil, by simp⟩
  | case2 waiting v h _ order stuck he ih =>
    rw [drain_of_some h]
    have hm : v ∈ waiting := List.mem_of_find?_eq_some h
    have hready := ready_iff.mp (List.find?_some h)
    -- a ready vertex needs nothing that is still waiting, itself and all later ones included
    have hfree : ∀ j ∈ waiting.map Vertex.index, ¬ Follows g v.index j := fun j hj hf =>
      hready j ((follows_iff (hg hm)).mp hf) hj
    obtain ⟨hp, hs⟩ := ih (fun u hu => hg (List.mem_of_mem_erase hu))
    refine ⟨List.pairwise_cons.mpr ⟨fun j hj => hfree j ?_, hp⟩, ?_⟩
    · have hj' := (drain_perm (waiting.erase v)).subset (List.mem_append_left _ hj)
      obtain ⟨u, hu, rfl⟩ := List.mem_map.mp hj'
      exact List.mem_map_of_mem (List.mem_of_mem_erase hu)
    · intro j hj
      rcases List.mem_cons.mp hj with rfl | hj
      · exact hfree _ (List.mem_map_of_mem hm)
      · exact hs j hj

end GoalCompiler.Graph
