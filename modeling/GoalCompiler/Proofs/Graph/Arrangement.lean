import GoalCompiler.Proofs.Graph.Countdown
import Mathlib.Data.Fintype.Card
import Mathlib.Data.Fintype.EquivFin
import Mathlib.Data.Fintype.Sets

/-! Arrangements of graphs. An arrangement holds every node once, and each node after all that it needs. A
graph without closed paths has one: nodes that can never be taken wait for each other in a circle. -/
namespace GoalCompiler.Graph

variable {g : Needs}

/-- An arrangement holds each node once, behind all that it needs. -/
theorem arrange_spec {order : List Nat} (h : arrange g = some order) :
    order.Perm (List.range g.length) ∧ Ordered g order := by
  rw [arrange_eq_some_iff] at h
  have hp := drain_perm (vertices g)
  have ho := drain_ordered (vertices g) (List.Subset.refl _)
  rw [h] at hp ho
  exact ⟨by simpa [index_vertices] using hp, ho⟩

/-- Among finitely many nodes that each come after another one of them, some come after themselves. -/
theorem not_acyclic_of_closed {nodes : List Nat} (hne : nodes ≠ [])
    (hc : ∀ i ∈ nodes, ∃ j ∈ nodes, Follows g i j) : ¬ Acyclic g := by
  intro ha
  let r : {i // i ∈ nodes} → {i // i ∈ nodes} → Prop := fun j i => Relation.TransGen (Follows g) i j
  have : IsTrans _ r := ⟨fun _ _ _ hij hjk => hjk.trans hij⟩
  have : Std.Irrefl r := ⟨fun i => ha i⟩
  have hwf : WellFounded r := Finite.wellFounded_of_trans_of_irrefl r
  obtain ⟨k, hk⟩ := List.exists_mem_of_ne_nil nodes hne
  obtain ⟨m, -, hm⟩ := hwf.has_min Set.univ ⟨⟨k, hk⟩, Set.mem_univ _⟩
  obtain ⟨j, hj, hf⟩ := hc m m.2
  exact hm ⟨j, hj⟩ (Set.mem_univ _) (.single hf)

/-- A graph without closed paths has an arrangement. -/
theorem exists_arrange (h : Acyclic g) : ∃ order, arrange g = some order := by
  rcases hd : drain (vertices g) with ⟨order, stuck⟩
  cases stuck with
  | nil => exact ⟨order, arrange_eq_some_iff.mpr hd⟩
  | cons v stuck =>
    have hg := drain_stuck_subset (vertices g)
    have hs := drain_stuck (vertices g)
    rw [hd] at hg hs
    have hne : (v :: stuck).map Vertex.index ≠ [] := by simp
    refine absurd h (not_acyclic_of_closed hne ?_)
    intro i hi
    obtain ⟨u, hu, rfl⟩ := List.mem_map.mp hi
    obtain ⟨j, hj, hjs⟩ := hs u hu
    exact ⟨j, hjs, (follows_iff (hg hu)).mpr hj⟩

/-! ### Lists in the order of an arrangement -/

section Rearranged
variable {α : Type} {xs : List α} {order : List Nat}

theorem filterMap_getElem?_range (xs : List α) :
    (List.range xs.length).filterMap (fun i => xs[i]?) = xs := by
  rw [← map_snd_zipIdx, List.filterMap_map]
  calc xs.zipIdx.filterMap ((fun i => xs[i]?) ∘ Prod.snd)
      = xs.zipIdx.filterMap (some ∘ Prod.fst) :=
        List.filterMap_congr fun e he => List.mem_zipIdx_iff_getElem?.mp he
    _ = xs := by rw [List.filterMap_eq_map, List.zipIdx_map_fst]

theorem rearranged_perm (h : order.Perm (List.range xs.length)) :
    (order.filterMap fun i => xs[i]?).Perm xs := by
  have hp := h.filterMap fun i => xs[i]?
  rwa [filterMap_getElem?_range] at hp

/-- Each place of the rearranged list holds what stood at the place that the order names. -/
theorem getElem?_rearranged (h : order.Perm (List.range xs.length)) (i : Nat) :
    (order.filterMap fun i => xs[i]?)[i]? = order[i]?.bind fun j => xs[j]? := by
  have hlt : ∀ j ∈ order, j < xs.length := fun j hj => List.mem_range.mp (h.subset hj)
  clear h
  induction order generalizing i with
  | nil => simp
  | cons j order ih =>
    obtain ⟨x, hx⟩ : ∃ x, xs[j]? = some x := ⟨_, List.getElem?_eq_getElem (hlt j List.mem_cons_self)⟩
    rw [List.filterMap_cons_some hx]
    cases i with
    | zero => simp [hx]
    | succ i => simpa using ih i fun k hk => hlt k (List.mem_cons_of_mem j hk)

/-- Nothing in the rearranged list is related to itself or anything after it, if related elements follow
each other in the graph. -/
theorem rearranged_ordered {R : α → α → Prop} (h : Ordered g order)
    (hR : ∀ i j x y, xs[i]? = some x → xs[j]? = some y → R x y → Follows g i j) :
    (order.filterMap fun i => xs[i]?).Pairwise (fun x y => ¬ R x y) ∧
      ∀ x ∈ order.filterMap fun i => xs[i]?, ¬ R x x := by
  obtain ⟨hp, hs⟩ := h
  constructor
  · rw [List.pairwise_filterMap]
    exact hp.imp fun hij x hx y hy hr => hij (hR _ _ x y hx hy hr)
  · intro x hx hr
    obtain ⟨i, hi, hxi⟩ := List.mem_filterMap.mp hx
    exact hs i hi (hR i i x x hxi hxi hr)

end Rearranged

end GoalCompiler.Graph
