import GoalCompiler.Proofs.Graph.Waiting
import Mathlib.Algebra.BigOperators.Fin

/-! The countdown takes the nodes in the order in which they are ready. At all times the count of a node is the
number of the waiting nodes that it needs, and between two lowerings as much more as is still to be lowered. So no
count that is lowered is zero, and the ready nodes are the waiting ones that need none of the waiting. -/
namespace GoalCompiler.Graph

variable {g : Needs} {v w : Fin g.length} {s : Countdown g.length}

/-- The way to a node is there as often as it needs the node from which it leads. -/
theorem count_onward : ((onward g).next v).count w = (g.get w).count v.val := by
  have hcount : ∀ u : Fin g.length, ((g[u].filter (· == v.val)).map fun _ => u).count w =
      if u = w then (g.get w).count v.val else 0 := by
    intro u
    rw [List.map_const', List.count_replicate, ← List.count_eq_length_filter]
    by_cases h : u = w
    · simp [h]
    · simp [h]
  rw [Ways.next, onward]
  simp only [Fin.getElem_fin, Vector.getElem_ofFn, List.count_flatMap]
  calc ((List.finRange g.length).map _).sum
      = ((List.finRange g.length).map fun u => if u = w then (g.get w).count v.val else 0).sum :=
        congrArg List.sum (List.map_congr_left fun u _ => hcount u)
    _ = ∑ u : Fin g.length, if u = w then (g.get w).count v.val else 0 := (Fin.sum_univ_def _).symm
    _ = (g.get w).count v.val := by rw [Finset.sum_ite_eq', if_pos (Finset.mem_univ w)]

/-- Of the nodes that are needed, those that still wait and the one that is taken now are all that waited. -/
theorem countP_mem_erase {needs waiting : List Nat} {j : Nat} (hnodup : waiting.Nodup) (hj : j ∈ waiting) :
    needs.countP (· ∈ waiting) = needs.countP (· ∈ waiting.erase j) + needs.count j := by
  induction needs with
  | nil => rfl
  | cons i rest ih =>
    rw [List.countP_cons, List.countP_cons, List.count_cons, ih]
    by_cases hi : i = j
    · simp [hi, hj, hnodup.mem_erase_iff]
      omega
    · simp [hi, hnodup.mem_erase_iff]
      omega

namespace Countdown

/-! ### Nodes in order -/

theorem mem_insert {vs : List (Fin g.length)} : w ∈ insert v vs ↔ w = v ∨ w ∈ vs := by
  induction vs with
  | nil => rw [insert, List.mem_singleton, or_iff_left List.not_mem_nil]
  | cons u rest ih =>
    rw [insert]
    split_ifs with heq hlt
    · rw [heq, List.mem_cons, or_self_left]
    · exact List.mem_cons
    · rw [List.mem_cons, ih, List.mem_cons]
      exact or_left_comm

theorem rising_insert {vs : List (Fin g.length)} (h : vs.Pairwise (· < ·)) : (insert v vs).Pairwise (· < ·) := by
  induction vs with
  | nil => exact List.pairwise_singleton _ _
  | cons u rest ih =>
    obtain ⟨hu, hrest⟩ := List.pairwise_cons.mp h
    rw [insert]
    split_ifs with heq hlt
    · exact h
    · refine List.pairwise_cons.mpr ⟨fun x hx => ?_, h⟩
      rcases List.mem_cons.mp hx with rfl | hx
      · exact hlt
      · exact hlt.trans (hu x hx)
    · refine List.pairwise_cons.mpr ⟨fun x hx => ?_, ih hrest⟩
      rcases mem_insert.mp hx with rfl | hx
      · exact lt_of_le_of_ne (not_lt.mp hlt) (Ne.symm heq)
      · exact hu x hx

/-! ### One round -/

/-- What the counts and the ready nodes have to do with the nodes that wait. The counts of the nodes in `owed` are
still to be lowered, as often as they are there. -/
structure Sound (s : Countdown g.length) (waiting : List Nat) (owed : List (Fin g.length)) : Prop where
  count_eq : ∀ v, s.count v = (g.get v).countP (· ∈ waiting) + owed.count v
  mem_ready : ∀ v, v ∈ s.ready ↔ v.val ∈ waiting ∧ s.count v = 0
  rising : s.ready.Pairwise (· < ·)
  settled : ∀ v, v.val ∉ waiting → s.count v = 0

variable {waiting : List Nat} {owed ready : List (Fin g.length)}

theorem lower_of_count {k : Nat} (h : s.count w = k + 1) : s.lower w =
    some { s with counts := s.counts.set w k w.isLt, ready := if k = 0 then insert w s.ready else s.ready } := by
  rw [lower, h]

theorem count_set {k : Nat} :
    count { s with counts := s.counts.set w k w.isLt, ready } v = if w = v then k else s.count v := by
  simp [count, Vector.getElem_set, Fin.ext_iff]

/-- Where one count becomes `k`, its node is ready if this is zero. -/
theorem mem_ready_set {k : Nat} (hne : s.count w ≠ 0) (hw : w.val ∈ waiting)
    (h : ∀ v, v ∈ s.ready ↔ v.val ∈ waiting ∧ s.count v = 0) :
    (v ∈ if k = 0 then insert w s.ready else s.ready) ↔
      v.val ∈ waiting ∧ (if w = v then k else s.count v) = 0 := by
  have hv := h v
  by_cases heq : w = v
  · subst heq
    by_cases hzero : k = 0
    · simp [hzero, mem_insert, hw]
    · simp [hzero, hv, hne]
  · by_cases hzero : k = 0
    · simp [hzero, mem_insert, heq, Ne.symm heq, hv]
    · simp [hzero, heq, hv]

/-- A count that is still to be lowered is not zero. -/
theorem Sound.lower (h : s.Sound waiting (w :: owed)) :
    ∃ t, s.lower w = some t ∧ t.taken = s.taken ∧ t.Sound waiting owed := by
  obtain ⟨k, hk⟩ : ∃ k, s.count w = k + 1 := by
    refine Nat.exists_eq_succ_of_ne_zero ?_
    rw [h.count_eq, List.count_cons_self]
    omega
  have hwaiting : w.val ∈ waiting := by
    by_contra hw
    cases hk.symm.trans (h.settled w hw)
  refine ⟨_, lower_of_count hk, rfl, fun v => ?_, fun v => ?_, ?_, fun v hv => ?_⟩
  · have hv := h.count_eq v
    rw [count_set]
    split_ifs with heq
    · subst heq
      rw [List.count_cons_self] at hv
      omega
    · rwa [List.count_cons_of_ne heq] at hv
  · rw [count_set]
    exact mem_ready_set (by omega) hwaiting h.mem_ready
  · change (if k = 0 then insert w s.ready else s.ready).Pairwise (· < ·)
    split_ifs
    · exact rising_insert h.rising
    · exact h.rising
  · have hne : w ≠ v := fun heq => hv (heq ▸ hwaiting)
    rw [count_set, if_neg hne]
    exact h.settled v hv

theorem Sound.lowerAll (h : s.Sound waiting owed) :
    ∃ t, owed.foldlM Countdown.lower s = some t ∧ t.taken = s.taken ∧ t.Sound waiting [] := by
  induction owed generalizing s with
  | nil => exact ⟨s, rfl, rfl, h⟩
  | cons w owed ih =>
    obtain ⟨t, ht, htaken, hsound⟩ := h.lower
    obtain ⟨u, hu, htaken', hsound'⟩ := ih hsound
    refine ⟨u, ?_, htaken'.trans htaken, hsound'⟩
    rw [List.foldlM_cons, ht]
    exact hu

/-- The first of the ready nodes is taken and waits no more. -/
theorem Sound.take (h : s.Sound waiting []) (hnodup : waiting.Nodup) (hready : s.ready = v :: ready) :
    ∃ t, s.take (onward g) v ready = some t ∧ t.taken = s.taken ++ [v] ∧ t.Sound (waiting.erase v) [] := by
  obtain ⟨hv, hzero⟩ := (h.mem_ready v).mp (hready ▸ List.mem_cons_self)
  have hrising := h.rising
  rw [hready, List.pairwise_cons] at hrising
  refine Sound.lowerAll (s := { s with ready, taken := s.taken ++ [v] }) ⟨fun w => ?_, fun w => ?_, hrising.2, ?_⟩
  · have hw := h.count_eq w
    rw [List.count_nil, countP_mem_erase hnodup hv] at hw
    rw [count_onward]
    exact hw
  · have hw := h.mem_ready w
    rw [hready, List.mem_cons] at hw
    rw [hnodup.mem_erase_iff, and_assoc, Fin.val_ne_iff]
    constructor
    · intro hmem
      exact ⟨(hrising.1 w hmem).ne', hw.mp (.inr hmem)⟩
    · rintro ⟨hne, hboth⟩
      exact (hw.mpr hboth).resolve_left hne
  · intro w hw
    by_cases heq : w = v
    · exact heq ▸ hzero
    · exact h.settled w fun hmem => hw (hnodup.mem_erase_iff.mpr ⟨Fin.val_ne_iff.mpr heq, hmem⟩)

/-! ### All rounds -/

section

variable {waiting : List Vertex} {u : Vertex}

/-- The nodes that are ready are those of the waiting vertices that need none of them. -/
theorem Sound.ready_iff (h : s.Sound (waiting.map Vertex.index) []) (hu : u ∈ waiting) (hg : u ∈ vertices g) :
    u.ready waiting = true ↔ ∃ v ∈ s.ready, v.val = u.index := by
  obtain ⟨hlt, hneeds⟩ : ∃ h : u.index < g.length, g.get ⟨u.index, h⟩ = u.needs :=
    List.getElem?_eq_some_iff.mp (mem_vertices.mp hg)
  have hcount := h.count_eq ⟨u.index, hlt⟩
  have hmem := h.mem_ready ⟨u.index, hlt⟩
  rw [List.count_nil, Nat.add_zero, hneeds] at hcount
  rw [hcount, List.countP_eq_zero, and_iff_right (List.mem_map_of_mem hu)] at hmem
  rw [Graph.ready_iff]
  simp only [decide_eq_true_eq] at hmem
  rw [← hmem]
  constructor
  · exact fun hv => ⟨_, hv, rfl⟩
  · rintro ⟨v, hv, hindex⟩
    obtain rfl : v = ⟨u.index, hlt⟩ := Fin.ext hindex
    exact hv

/-- The first vertex that is ready is the first of the ready nodes. -/
theorem Sound.find?_eq (h : s.Sound (waiting.map Vertex.index) []) (hw : waiting.Sublist (vertices g)) :
    (waiting.find? (Vertex.ready waiting)).map Vertex.index = s.ready.head?.map Fin.val := by
  have hready : ∀ u ∈ waiting, u.ready waiting = true ↔ ∃ v ∈ s.ready, v.val = u.index := fun u hu =>
    h.ready_iff hu (hw.subset hu)
  cases hs : s.ready with
  | nil =>
    have hnone : waiting.find? (Vertex.ready waiting) = none :=
      List.find?_eq_none.mpr fun u hu hr => by simpa [hs] using (hready u hu).mp hr
    rw [hnone]
    rfl
  | cons v ready =>
    have hv : v ∈ s.ready := hs ▸ List.mem_cons_self
    obtain ⟨u, hu, hindex⟩ := List.mem_map.mp ((h.mem_ready v).mp hv).1
    have hr : u.ready waiting = true := (hready u hu).mpr ⟨v, hv, hindex.symm⟩
    obtain ⟨x, hx⟩ := Option.isSome_iff_exists.mp (List.find?_isSome.mpr ⟨u, hu, hr⟩)
    suffices hsame : u = x by rw [hx, ← hsame, Option.map_some, hindex]; rfl
    by_contra hne
    -- a smaller one would stand before the first of the ready nodes
    have hlt := find?_lt ((pairwise_vertices g).sublist hw) hx hu hr hne
    obtain ⟨w, hmem, hw'⟩ := (hready x (List.mem_of_find?_eq_some hx)).mp (List.find?_some hx)
    have hrising := h.rising
    rw [hs, List.pairwise_cons] at hrising
    rcases List.mem_cons.mp (hs ▸ hmem) with rfl | hmem
    · omega
    · have := hrising.1 w hmem
      omega

theorem map_index_erase (hw : waiting.Pairwise fun u v => u.index < v.index) (hu : u ∈ waiting) :
    (waiting.erase u).map Vertex.index = (waiting.map Vertex.index).erase u.index := by
  induction waiting with
  | nil => cases hu
  | cons x rest ih =>
    obtain ⟨hx, hrest⟩ := List.pairwise_cons.mp hw
    by_cases heq : x = u
    · rw [heq, List.erase_cons_head, List.map_cons, List.erase_cons_head]
    · have hmem : u ∈ rest := (List.mem_cons.mp hu).resolve_left (Ne.symm heq)
      rw [List.erase_cons_tail (by simpa using heq), List.map_cons, List.map_cons,
        List.erase_cons_tail (by simpa using (hx u hmem).ne), ih hrest hmem]

/-- No round fails, and the nodes are taken in the order in which the vertices are. -/
theorem Sound.run {rounds : Nat} (h : s.Sound (waiting.map Vertex.index) []) (hw : waiting.Sublist (vertices g))
    (hrounds : waiting.length ≤ rounds) : ∃ t, run (onward g) rounds s = some t ∧ t.ready = [] ∧
      t.taken.map Fin.val = s.taken.map Fin.val ++ (drain waiting).1 := by
  have hfind := h.find?_eq hw
  induction waiting using drain.induct generalizing s rounds with
  | case1 waiting hnone =>
    have hs : s.ready = [] := by simpa [hnone] using hfind
    refine ⟨s, ?_, hs, by rw [drain_of_none hnone, List.append_nil]⟩
    cases rounds with
    | zero => rfl
    | succ rounds => rw [Countdown.run, hs]
  | case2 waiting x hx _ order stuck he ih =>
    have hmem : x ∈ waiting := List.mem_of_find?_eq_some hx
    have hrising := (pairwise_vertices g).sublist hw
    have hnodup : (waiting.map Vertex.index).Nodup := List.Pairwise.map _ (fun _ _ hlt => hlt.ne) hrising
    rw [hx, Option.map_some] at hfind
    obtain ⟨v, hhead, hv⟩ := Option.map_eq_some_iff.mp hfind.symm
    obtain ⟨ready, hready⟩ := List.head?_eq_some_iff.mp hhead
    obtain ⟨t, ht, htaken, hsound⟩ := h.take hnodup hready
    rw [hv, ← map_index_erase hrising hmem] at hsound
    have hlength := List.length_erase_add_one hmem
    obtain ⟨rounds, rfl⟩ : ∃ k, rounds = k + 1 := ⟨rounds - 1, by omega⟩
    have hrest : (waiting.erase x).Sublist (vertices g) := List.erase_sublist.trans hw
    have hleft : (waiting.erase x).length ≤ rounds := by omega
    obtain ⟨t', ht', hdone, horder⟩ := ih hsound hrest hleft (hsound.find?_eq hrest)
    refine ⟨t', ?_, hdone, ?_⟩
    · rw [Countdown.run, hready]
      simp only [ht, Option.bind_some]
      exact ht'
    · rw [horder, htaken, drain_of_some hx, List.map_append, List.map_singleton, hv, List.append_assoc]
      rfl

end

theorem sound_initial (g : Needs) : (initial g).Sound ((vertices g).map Vertex.index) [] where
  count_eq v := by
    simp [initial, count, demands, index_vertices]
  mem_ready v := by
    simp [initial, count, index_vertices]
  rising := (List.pairwise_lt_finRange g.length).filter _
  settled v hv := by
    simp [index_vertices] at hv

end Countdown

/-- No count is lowered below zero, and the nodes are taken in the order in which the vertices are drained. -/
theorem countdown_spec (g : Needs) : ∃ s, countdown g = some s ∧ s.ready = [] ∧
    s.taken.map Fin.val = (drain (vertices g)).1 := by
  have hlength : (vertices g).length ≤ g.length := by simp [vertices]
  exact (Countdown.sound_initial g).run (.refl _) hlength

theorem exists_countdown (g : Needs) : ∃ s, countdown g = some s ∧ s.ready = [] := by
  obtain ⟨s, hs, hready, -⟩ := countdown_spec g
  exact ⟨s, hs, hready⟩

theorem arrange_eq_some_iff {order : List Nat} : arrange g = some order ↔ drain (vertices g) = (order, []) := by
  obtain ⟨s, hs, -, htaken⟩ := countdown_spec g
  have hlength := (drain_perm (vertices g)).length_eq
  rw [List.length_append, ← htaken, index_vertices, List.length_map, List.length_map, List.length_range] at hlength
  have harrange : arrange g = if s.taken.length < g.length then none else some (drain (vertices g)).1 := by
    rw [arrange, hs, Option.bind_some, htaken]
  rw [harrange, Prod.ext_iff]
  split_ifs with hlt
  · have hstuck : (drain (vertices g)).2 ≠ [] := List.ne_nil_of_length_pos (by omega)
    simp [hstuck]
  · have hstuck : (drain (vertices g)).2 = [] := List.eq_nil_of_length_eq_zero (by omega)
    simp [hstuck]

end GoalCompiler.Graph
