import Mathlib.Data.List.Chain
import Mathlib.Data.List.Nodup
import Mathlib.Logic.Relation

/-! Closed walks. A circuit goes from element to element along a relation, ends where it began and nowhere else
comes back. A step back onto a walk closes one, and where there is one, the relation leads around. -/
namespace GoalCompiler.Graph

variable {α β : Type} {R : α → α → Prop} {S : β → β → Prop} {path : List α}

/-- A walk that ends where it began and comes back to no other node. -/
structure Circuit (R : α → α → Prop) (path : List α) : Prop where
  two_le : 2 ≤ path.length
  ends : path.head? = path.getLast?
  steps : path.IsChain R
  simple : path.dropLast.Nodup

/-- A node of a circuit leads back to itself. -/
theorem Circuit.exists_transGen (h : Circuit R path) : ∃ v, Relation.TransGen R v v := by
  obtain ⟨htwo, hends, hsteps, -⟩ := h
  match path with
  | v :: w :: rest =>
    have hlast : (w :: rest).getLast (List.cons_ne_nil w rest) = v := by
      rw [List.head?_cons, List.getLast?_cons_cons, List.getLast?_eq_some_getLast (List.cons_ne_nil w rest)] at hends
      exact (Option.some.inj hends).symm
    obtain ⟨hfirst, hrest⟩ := List.isChain_cons_cons.mp hsteps
    exact ⟨v, .head' hfirst (List.relationReflTransGen_of_exists_isChain_cons rest hrest hlast)⟩

/-- An element from which every way down ends is not below itself. -/
theorem not_transGen_of_acc {v : α} (h : Acc (Relation.TransGen R) v) : ¬ Relation.TransGen R v v := by
  induction h with
  | intro v _ ih => exact fun hv => ih v hv hv

/-- From every element of a circuit a step leads to one of its elements. -/
theorem Circuit.exists_step (h : Circuit R path) : ∀ v ∈ path, ∃ w ∈ path, R v w := by
  have hsteps := List.isChain_iff_getElem.mp h.steps
  intro v hv
  obtain ⟨k, hk, rfl⟩ := List.getElem_of_mem hv
  have hlen := h.two_le
  rcases Nat.lt_or_ge (k + 1) path.length with hlt | hge
  · exact ⟨_, List.getElem_mem hlt, hsteps k hlt⟩
  · -- the last element is the first one, which is not the last
    have hends : path[0]? = path[path.length - 1]? := by
      rw [← List.head?_eq_getElem?, h.ends, List.getLast?_eq_getElem?]
    obtain rfl : k = path.length - 1 := by omega
    rw [List.getElem?_eq_getElem (by omega), List.getElem?_eq_getElem (by omega)] at hends
    exact ⟨_, List.getElem_mem (by omega), Option.some.inj hends ▸ hsteps 0 (by omega)⟩

theorem Circuit.map {f : α → β} (h : Circuit R path) (hf : Function.Injective f)
    (hstep : ∀ v w, R v w → S (f v) (f w)) : Circuit S (path.map f) where
  two_le := by simpa using h.two_le
  ends := by simp [h.ends]
  steps := (List.isChain_map f).mpr (h.steps.imp hstep)
  simple := by
    rw [← List.map_dropLast]
    exact h.simple.map hf

/-- Labels of the elements go around as well, where a step leads from label to label. -/
theorem Circuit.labels {label : α → Option β} (h : Circuit R path)
    (hR : ∀ v ∈ path, ∀ w ∈ path, R v w → ∃ x y, label v = some x ∧ label w = some y ∧ S x y) :
    2 ≤ (path.filterMap label).length ∧ (path.filterMap label).head? = (path.filterMap label).getLast? ∧
      (path.filterMap label).IsChain S := by
  have hlabel : ∀ v ∈ path, ∃ x, label v = some x := fun v hv => by
    obtain ⟨w, hw, hstep⟩ := h.exists_step v hv
    obtain ⟨x, -, hx, -⟩ := hR v hv w hw hstep
    exact ⟨x, hx⟩
  obtain ⟨v, hv⟩ : ∃ v, v ∈ path := List.exists_mem_of_length_pos (by have := h.two_le; omega)
  obtain ⟨x₀, -⟩ := hlabel v hv
  have hmap : path.filterMap label = path.map fun v => (label v).getD x₀ := by
    refine List.filterMap_eq_map_iff_forall_eq_some.mpr fun v hv => ?_
    obtain ⟨x, hx⟩ := hlabel v hv
    rw [hx, Option.getD_some]
  rw [hmap]
  refine ⟨by simpa using h.two_le, by simp [h.ends], (List.isChain_map _).mpr ?_⟩
  refine h.steps.imp_of_mem_imp fun v w hv hw hstep => ?_
  obtain ⟨x, y, hx, hy, hxy⟩ := hR v hv w hw hstep
  rwa [hx, hy]

/-- A step back onto a walk that comes to no node twice closes a circuit. -/
theorem circuit_of_back [BEq α] [LawfulBEq α] {v w : α} (hsteps : (path ++ [v]).IsChain R)
    (hnodup : (path ++ [v]).Nodup) (hw : w ∈ path ++ [v]) (hvw : R v w) :
    Circuit R ((path ++ [v]).drop ((path ++ [v]).idxOf w) ++ [w]) := by
  obtain ⟨before, after, hpath, hfirst⟩ := List.eq_append_cons_of_mem hw
  have hdrop : (path ++ [v]).drop ((path ++ [v]).idxOf w) = w :: after := by
    rw [hpath, List.idxOf_append_of_notMem hfirst, List.idxOf_cons_self]
    exact List.drop_left
  have hlast : (w :: after).getLast? = some v := by
    have h := congrArg List.getLast? hpath
    rwa [List.getLast?_concat, List.getLast?_append_of_ne_nil _ (List.cons_ne_nil w after), eq_comm] at h
  rw [hpath] at hsteps hnodup
  rw [hdrop]
  refine ⟨by simp, by rw [List.getLast?_concat]; rfl, ?_, ?_⟩
  · refine hsteps.right_of_append.append (List.isChain_singleton w) fun x hx y hy => ?_
    obtain rfl : v = x := by simpa [hlast] using hx
    obtain rfl : w = y := by simpa using hy
    exact hvw
  · rw [List.dropLast_concat]
    exact hnodup.of_append_right

end GoalCompiler.Graph
