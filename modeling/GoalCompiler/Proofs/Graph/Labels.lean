import GoalCompiler.Proofs.Graph.Cycles
import GoalCompiler.Proofs.Graph.Earliest
import Mathlib.Data.List.Lex
import Mathlib.Data.List.Pairwise

/-! Graphs whose nodes stand for the members of a list. Node by node, an arrangement of the graph is an order
of the members in which each comes after those that it needs, and the arrangement that is found is the first of
these orders. -/
namespace GoalCompiler.Graph

variable {α : Type} {g : Needs} {xs order : List α} {R : α → α → Prop}

/-! ### Lists without repetitions -/

/-- Of two elements of a list one stands before the other. -/
theorem sublist_or_sublist {x y : α} (hx : x ∈ xs) (hy : y ∈ xs) (hne : x ≠ y) :
    [x, y].Sublist xs ∨ [y, x].Sublist xs := by
  have hpair : xs.Pairwise fun x y => [x, y].Sublist xs ∨ [y, x].Sublist xs :=
    List.pairwise_of_forall_sublist Or.inl
  have : Std.Symm fun x y => [x, y].Sublist xs ∨ [y, x].Sublist xs := ⟨fun _ _ => Or.symm⟩
  exact hpair.forall hx hy hne

/-- What stands before another element is found before it. -/
theorem idxOf_lt_of_sublist [DecidableEq α] {x y : α} (hn : xs.Nodup) (h : [x, y].Sublist xs) :
    xs.idxOf x < xs.idxOf y := by
  have hpair : xs.Pairwise fun x y => xs.idxOf x < xs.idxOf y :=
    List.pairwise_iff_getElem.mpr fun i j hi hj hlt => by
      rwa [hn.idxOf_getElem, hn.idxOf_getElem]
  exact hpair.forall_sublist h

/-! ### Members in order -/

/-- All members of a list, each once and behind those that it needs. -/
structure Staged (R : α → α → Prop) (xs order : List α) : Prop where
  perm : order.Perm xs
  behind : ∀ x y, R x y → [y, x].Sublist order

/-- Members that can be put in order need themselves by no way around. -/
theorem Staged.acyclic [DecidableEq α] (h : Staged R xs order) (hn : xs.Nodup) (x : α) :
    ¬ Relation.TransGen R x x := by
  intro hx
  have hlt : ∀ x y, R x y → order.idxOf y < order.idxOf x := fun x y hxy =>
    idxOf_lt_of_sublist (h.perm.nodup_iff.mpr hn) (h.behind x y hxy)
  have hdown := hx.lift (p := (· > ·)) order.idxOf hlt
  rw [Relation.transGen_eq_self] at hdown
  exact hdown.false

/-- The nodes of a graph stand for the members of a list and follow each other as the members need each
other. -/
structure Labelled (g : Needs) (R : α → α → Prop) (xs : List α) : Prop where
  nodup : xs.Nodup
  length : g.length = xs.length
  follows : ∀ i j, Follows g i j ↔ ∃ x y, xs[i]? = some x ∧ xs[j]? = some y ∧ R x y
  mem : ∀ x y, R x y → x ∈ xs ∧ y ∈ xs

/-- An arrangement of the nodes puts the members in order. -/
theorem Labelled.staged (h : Labelled g R xs) {is : List Nat} (hi : Arranges g is) :
    Staged R xs (is.filterMap fun i => xs[i]?) := by
  obtain ⟨hperm, hordered⟩ := hi
  rw [h.length] at hperm
  have hmembers := rearranged_perm hperm
  obtain ⟨hpair, hself⟩ := rearranged_ordered (R := R) hordered fun i j x y hx hy hxy =>
    (h.follows i j).mpr ⟨x, y, hx, hy, hxy⟩
  refine ⟨hmembers, fun x y hxy => ?_⟩
  obtain ⟨hx, hy⟩ := h.mem x y hxy
  have hx := hmembers.symm.subset hx
  have hy := hmembers.symm.subset hy
  have hne : x ≠ y := by
    rintro rfl
    exact hself x hx hxy
  exact (sublist_or_sublist hx hy hne).resolve_left fun hsub => hpair.forall_sublist hsub hxy

theorem filterMap_getElem?_idxOf [DecidableEq α] {ys : List α} (hys : ys ⊆ xs) :
    (ys.map xs.idxOf).filterMap (fun i => xs[i]?) = ys := by
  rw [List.filterMap_map]
  calc ys.filterMap ((fun i => xs[i]?) ∘ xs.idxOf)
      = ys.filterMap some := List.filterMap_congr fun y hy => List.getElem?_idxOf (hys hy)
    _ = ys := List.filterMap_some

/-- Members in order give an arrangement of the nodes. -/
theorem Labelled.arranges [DecidableEq α] (h : Labelled g R xs) (ho : Staged R xs order) :
    Arranges g (order.map xs.idxOf) := by
  have hn : order.Nodup := ho.perm.nodup_iff.mpr h.nodup
  have hneeds : ∀ x ∈ order, ∀ y ∈ order, Follows g (xs.idxOf x) (xs.idxOf y) →
      order.idxOf y < order.idxOf x := by
    intro x hx y hy hf
    obtain ⟨x', y', hx', hy', hxy⟩ := (h.follows _ _).mp hf
    rw [List.getElem?_idxOf (ho.perm.subset hx), Option.some.injEq] at hx'
    rw [List.getElem?_idxOf (ho.perm.subset hy), Option.some.injEq] at hy'
    subst hx' hy'
    exact idxOf_lt_of_sublist hn (ho.behind x y hxy)
  have hrange : xs.map xs.idxOf = List.range xs.length := by
    refine List.ext_getElem (by simp) fun i hi hi' => ?_
    rw [List.getElem_map, List.getElem_range, h.nodup.idxOf_getElem]
  refine ⟨?_, ?_, ?_⟩
  · rw [h.length, ← hrange]
    exact ho.perm.map xs.idxOf
  · refine List.pairwise_map.mpr (List.pairwise_of_forall_sublist fun {x y} hsub hf => ?_)
    have hlt := hneeds x (hsub.subset (by simp)) y (hsub.subset (by simp)) hf
    exact hlt.not_gt (idxOf_lt_of_sublist hn hsub)
  · intro i hi hf
    obtain ⟨x, hx, rfl⟩ := List.mem_map.mp hi
    exact (hneeds x hx x hx hf).false

/-- Smaller nodes stand for members that come earlier. -/
theorem lex_filterMap_getElem? {is js : List Nat} (his : ∀ i ∈ is, i < xs.length)
    (hjs : ∀ j ∈ js, j < xs.length) (h : List.Lex (· < ·) is js) :
    List.Lex (fun x y => [x, y].Sublist xs) (is.filterMap fun i => xs[i]?) (js.filterMap fun j => xs[j]?) := by
  have hpair : xs.Pairwise fun x y => [x, y].Sublist xs := List.pairwise_of_forall_sublist id
  induction h with
  | nil =>
    rw [List.filterMap_cons_some (List.getElem?_eq_getElem (hjs _ List.mem_cons_self))]
    exact .nil
  | cons _ ih =>
    have hhead := List.getElem?_eq_getElem (his _ List.mem_cons_self)
    rw [List.filterMap_cons_some hhead, List.filterMap_cons_some hhead]
    exact .cons (ih (List.forall_mem_cons.mp his).2 (List.forall_mem_cons.mp hjs).2)
  | rel hlt =>
    have hi := his _ List.mem_cons_self
    have hj := hjs _ List.mem_cons_self
    rw [List.filterMap_cons_some (List.getElem?_eq_getElem hi),
      List.filterMap_cons_some (List.getElem?_eq_getElem hj)]
    exact .rel (List.pairwise_iff_getElem.mp hpair _ _ hi hj hlt)

/-- No order of the members comes before the one that is found. -/
theorem Labelled.least [DecidableEq α] (h : Labelled g R xs) {is : List Nat} (hi : arrange g = some is)
    (ho : Staged R xs order) :
    is.filterMap (fun i => xs[i]?) = order ∨
      List.Lex (fun x y => [x, y].Sublist xs) (is.filterMap fun i => xs[i]?) order := by
  have harranges := h.arranges ho
  have hback := filterMap_getElem?_idxOf ho.perm.subset
  have hlt : ∀ {js : List Nat}, Arranges g js → ∀ j ∈ js, j < xs.length := fun hjs j hj => by
    rw [← h.length]
    exact List.mem_range.mp (hjs.1.subset hj)
  rcases arrange_least hi harranges with rfl | hlex
  · exact .inl hback
  · have hlex := lex_filterMap_getElem? (hlt (arrange_spec hi)) (hlt harranges) hlex
    rw [hback] at hlex
    exact .inr hlex

/-- A way along the nodes is a way along the members. -/
theorem Labelled.transGen (h : Labelled g R xs) {i j : Nat} (hij : Relation.TransGen (Follows g) i j) :
    ∃ x y, xs[i]? = some x ∧ xs[j]? = some y ∧ Relation.TransGen R x y := by
  induction hij with
  | single hf =>
    obtain ⟨x, y, hx, hy, hxy⟩ := (h.follows _ _).mp hf
    exact ⟨x, y, hx, hy, .single hxy⟩
  | tail _ hf ih =>
    obtain ⟨x, y, hx, hy, hxy⟩ := ih
    obtain ⟨y', z, hy', hz, hyz⟩ := (h.follows _ _).mp hf
    obtain rfl : y = y' := Option.some.inj (hy.symm.trans hy')
    exact ⟨x, z, hx, hz, hxy.tail hyz⟩

/-- The graph goes around in a circle only where the members do. -/
theorem Labelled.acyclic (h : Labelled g R xs) (ha : ∀ x, ¬ Relation.TransGen R x x) : Acyclic g := by
  intro i hi
  obtain ⟨x, y, hx, hy, hxy⟩ := h.transGen hi
  obtain rfl : x = y := Option.some.inj (hx.symm.trans hy)
  exact ha x hxy

end GoalCompiler.Graph
