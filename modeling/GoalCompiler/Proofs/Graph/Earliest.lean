import GoalCompiler.Proofs.Graph.Arrangement

/-! Which of the arrangements is found. The smallest node that is ready is taken each time, so no other
arrangement comes before it in lexicographic order; nodes that already stand behind what they need keep their
places. And there is one only where no node comes after itself. -/
namespace GoalCompiler.Graph

variable {g : Needs}

/-- All nodes, each once and behind what it needs. -/
def Arranges (g : Needs) (order : List Nat) : Prop :=
  order.Perm (List.range g.length) ∧ Ordered g order

/-! ### The smallest first -/

/-- What comes first in an order of the waiting nodes needs none of them. -/
theorem ready_of_ordered {waiting : List Vertex} {u : Vertex} {rest : List Nat} (hu : u ∈ vertices g)
    (hp : (u.index :: rest).Perm (waiting.map Vertex.index)) (ho : Ordered g (u.index :: rest)) :
    u.ready waiting = true := by
  refine ready_iff.mpr fun j hj hmem => ?_
  have hf : Follows g u.index j := (follows_iff hu).mpr hj
  rcases List.mem_cons.mp (hp.symm.subset hmem) with rfl | hrest
  · exact ho.2 _ List.mem_cons_self hf
  · exact (List.pairwise_cons.mp ho.1).1 j hrest hf

theorem Ordered.tail {i : Nat} {rest : List Nat} (h : Ordered g (i :: rest)) : Ordered g rest :=
  ⟨(List.pairwise_cons.mp h.1).2, fun j hj => h.2 j (List.mem_cons_of_mem i hj)⟩

/-- All orders of the waiting nodes, each behind what it needs, come after the one in which they are taken. -/
theorem drain_least {waiting : List Vertex} (hg : waiting ⊆ vertices g)
    (hs : waiting.Pairwise fun u v => u.index < v.index) {other : List Nat}
    (hp : other.Perm (waiting.map Vertex.index)) (ho : Ordered g other) :
    (drain waiting).1 = other ∨ List.Lex (· < ·) (drain waiting).1 other := by
  induction waiting using drain.induct generalizing other with
  | case1 waiting h =>
    rw [drain_of_none h]
    cases other with
    | nil => exact .inl rfl
    | cons i rest => exact .inr .nil
  | case2 waiting v h _ order stuck he ih =>
    rw [drain_of_some h]
    have hv : v ∈ waiting := List.mem_of_find?_eq_some h
    cases other with
    | nil =>
      obtain rfl := List.map_eq_nil_iff.mp hp.symm.eq_nil
      cases hv
    | cons i rest =>
      obtain ⟨u, hu, rfl⟩ := List.mem_map.mp (hp.subset List.mem_cons_self)
      by_cases hne : u = v
      · subst hne
        have hrest : rest.Perm ((waiting.erase u).map Vertex.index) :=
          (hp.trans ((List.perm_cons_erase hu).map Vertex.index)).cons_inv
        rcases ih (fun w hw => hg (List.mem_of_mem_erase hw)) (hs.sublist List.erase_sublist) hrest ho.tail
          with heq | hlex
        · exact .inl (congrArg (u.index :: ·) heq)
        · exact .inr (.cons hlex)
      · exact .inr (.rel (find?_lt hs h hu (ready_of_ordered (hg hu) hp ho) hne))

theorem arrange_least {order other : List Nat} (h : arrange g = some order) (ho : Arranges g other) :
    order = other ∨ List.Lex (· < ·) order other := by
  have hleast :=
    drain_least (List.Subset.refl _) (pairwise_vertices g) (by rw [index_vertices]; exact ho.1) ho.2
  rwa [arrange_eq_some_iff.mp h] at hleast

/-! ### Orders that move nothing -/

/-- Where every node needs smaller ones only, the nodes are taken as they come. -/
theorem drain_of_sorted {waiting : List Vertex} (hs : waiting.Pairwise fun u v => u.index < v.index)
    (hn : ∀ v ∈ waiting, ∀ j ∈ v.needs, j < v.index) :
    drain waiting = (waiting.map Vertex.index, []) := by
  induction waiting with
  | nil => exact drain_of_none rfl
  | cons v rest ih =>
    obtain ⟨hv, hrest⟩ := List.pairwise_cons.mp hs
    have hready : v.ready (v :: rest) = true := by
      refine ready_iff.mpr fun j hj hmem => ?_
      have hlt := hn v List.mem_cons_self j hj
      obtain ⟨u, hu, rfl⟩ := List.mem_map.mp hmem
      rcases List.mem_cons.mp hu with rfl | hu
      · exact hlt.false
      · exact hlt.not_gt (hv u hu)
    have hfind : (v :: rest).find? (Vertex.ready (v :: rest)) = some v := by
      rw [List.find?_cons_of_pos hready]
    have hdrain := ih hrest fun u hu => hn u (List.mem_cons_of_mem v hu)
    rw [drain_of_some hfind, List.erase_cons_head, hdrain]
    rfl

theorem arrange_of_sorted (h : ∀ i j, Follows g i j → j < i) : arrange g = some (List.range g.length) := by
  rw [arrange_eq_some_iff, drain_of_sorted (pairwise_vertices g), index_vertices]
  exact fun v hv j hj => h _ _ ((follows_iff hv).mpr hj)

/-! ### Graphs that can be arranged -/

/-- In an arrangement what a node needs stands before it. -/
theorem Arranges.idxOf_lt {order : List Nat} (h : Arranges g order) {i j : Nat} (hf : Follows g i j)
    (hj : j < g.length) : order.idxOf j < order.idxOf i := by
  have hi : i ∈ order := h.1.symm.subset (List.mem_range.mpr hf.lt)
  have hj : j ∈ order := h.1.symm.subset (List.mem_range.mpr hj)
  by_contra hle
  rcases Nat.eq_or_lt_of_le (Nat.le_of_not_lt hle) with heq | hlt
  · obtain rfl := (List.idxOf_inj hi).mp heq
    exact h.2.2 i hi hf
  · have hpair := List.pairwise_iff_getElem.mp h.2.1 _ _ (List.idxOf_lt_length_of_mem hi)
      (List.idxOf_lt_length_of_mem hj) hlt
    rw [List.getElem_idxOf, List.getElem_idxOf] at hpair
    exact hpair hf

/-- Only a graph in which no node comes after itself has an arrangement. -/
theorem Arranges.acyclic {order : List Nat} (h : Arranges g order) : Acyclic g := by
  intro i hi
  -- around a circle the place in the order would go down without end
  induction hn : order.idxOf i using Nat.strong_induction_on generalizing i with
  | _ n ih =>
    obtain ⟨j, hf, hback⟩ := Relation.TransGen.head'_iff.mp hi
    have hj : Relation.TransGen (Follows g) j j := .tail' hback hf
    obtain ⟨k, hk, -⟩ := Relation.TransGen.head'_iff.mp hj
    exact ih _ (hn ▸ h.idxOf_lt hf hk.lt) j hj rfl

end GoalCompiler.Graph
