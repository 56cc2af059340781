import GoalCompiler.Graph
import GoalCompiler.Proofs.Graph.Closed
import Mathlib.Data.Fintype.Card

/-! The search for circuits. At all times the path holds the active nodes, each once and in the order of a walk,
and from a node that is done every walk comes to an end. So a step to an active node closes a circuit, and a
search that gets past every node has shown that there is none. -/
namespace GoalCompiler.Graph

variable {n : Nat} {ways : Ways n} {v w : Fin n} {s t : Search n}

namespace Ways

def Leads (ways : Ways n) (v w : Fin n) : Prop := w ∈ ways.next v

/-- No node leads back to itself, however long the way around. -/
def Acyclic (ways : Ways n) : Prop := ∀ v, ¬ Relation.TransGen ways.Leads v v

/-- From a finished node every walk ends. -/
def Finished (ways : Ways n) (v : Fin n) : Prop := Acc (fun w u => ways.Leads u w) v

theorem acyclic_of_finished (h : ∀ v, ways.Finished v) : ways.Acyclic := fun v hv =>
  not_transGen_of_acc (h v).transGen (Relation.transGen_swap.mpr hv)

end Ways

namespace Search

@[simp] theorem path_enter : (s.enter v).path = s.path ++ [v] := rfl

@[simp] theorem path_leave : (s.leave v).path = s.path.dropLast := rfl

@[simp] theorem mark_enter : (s.enter v).mark w = if v = w then .active else s.mark w := by
  simp [mark, enter, Vector.getElem_set, Fin.ext_iff]

@[simp] theorem mark_leave : (s.leave v).mark w = if v = w then .done else s.mark w := by
  simp [mark, leave, Vector.getElem_set, Fin.ext_iff]

theorem close_of_mem (h : w ∈ s.path) (place : Nat) :
    s.close place w = s.path.drop (s.path.idxOf w) ++ [w] := by
  obtain ⟨i, hi⟩ := Option.isSome_iff_exists.mp (List.isSome_idxOf?.mpr h)
  rw [close, List.idxOf_eq_getD_idxOf?, hi, Option.getD_some, Option.getD_some]

/-- What the marks and the path have to do with the graph. -/
structure Sound (ways : Ways n) (s : Search n) : Prop where
  active_iff : ∀ v, s.mark v = .active ↔ v ∈ s.path
  nodup : s.path.Nodup
  steps : s.path.IsChain ways.Leads
  finished : ∀ v, s.mark v = .done → ways.Finished v

theorem sound_initial : (initial n).Sound ways where
  active_iff := by simp [initial, mark]
  nodup := List.nodup_nil
  steps := .nil
  finished := by simp [initial, mark]

theorem Sound.notMem (hs : s.Sound ways) (hv : s.mark v = .new) : v ∉ s.path := by
  rw [← hs.active_iff, hv]
  decide

theorem Sound.enter (hs : s.Sound ways) (hv : s.mark v = .new)
    (hlast : ∀ u ∈ s.path.getLast?, ways.Leads u v) : (s.enter v).Sound ways where
  active_iff w := by
    rw [mark_enter, path_enter, List.mem_append, List.mem_singleton, ← hs.active_iff]
    split_ifs with h
    · simp [h]
    · simp [Ne.symm h]
  nodup := by
    rw [path_enter, ← List.concat_eq_append]
    exact hs.nodup.concat (hs.notMem hv)
  steps := by
    refine hs.steps.append (List.isChain_singleton v) fun u hu w hw => ?_
    obtain rfl : v = w := by simpa using hw
    exact hlast u hu
  finished w hw := by
    rw [mark_enter] at hw
    split_ifs at hw
    exact hs.finished w hw

/-- The last node of the path is finished when all to which it leads are. -/
theorem Sound.leave (ht : t.Sound ways) {path : List (Fin n)} (hpath : t.path = path ++ [v])
    (hdone : ∀ w ∈ ways.next v, t.mark w = .done) : (t.leave v).Sound ways where
  active_iff w := by
    have hmem := ht.active_iff w
    have hv : v ∉ path := fun h => List.disjoint_of_nodup_append (hpath ▸ ht.nodup) h (List.mem_singleton_self v)
    rw [hpath, List.mem_append, List.mem_singleton] at hmem
    rw [mark_leave, path_leave, hpath, List.dropLast_concat]
    split_ifs with h
    · simpa [← h] using hv
    · simpa [Ne.symm h] using hmem
  nodup := ht.nodup.sublist (List.dropLast_sublist _)
  steps := ht.steps.dropLast
  finished w hw := by
    rw [mark_leave] at hw
    split_ifs at hw with h
    · exact h ▸ .intro v fun u hu => ht.finished u (hdone u hu)
    · exact ht.finished w hw

/-- The search has got past the nodes, and is back where it was. -/
structure Past (ways : Ways n) (s : Search n) (vs : List (Fin n)) (t : Search n) : Prop where
  sound : t.Sound ways
  path : t.path = s.path
  kept : ∀ v : Fin n, s.mark v = .done → t.mark v = .done
  done : ∀ v ∈ vs, t.mark v = .done

theorem Past.refl (hs : s.Sound ways) (hv : s.mark v = .done) : s.Past ways [v] s :=
  ⟨hs, rfl, fun _ => id, by simpa using hv⟩

theorem Past.cons {u : Search n} {vs : List (Fin n)} (hst : s.Past ways [v] t) (htu : t.Past ways vs u) :
    s.Past ways (v :: vs) u where
  sound := htu.sound
  path := htu.path.trans hst.path
  kept w hw := htu.kept w (hst.kept w hw)
  done := List.forall_mem_cons.mpr ⟨htu.kept v (hst.done v (List.mem_singleton_self v)), htu.done⟩

/-- Once the search is past all to which a node leads, it leaves the node. -/
theorem Past.leave (hv : s.mark v = .new) (h : (s.enter v).Past ways (ways.next v) t) : s.Past ways [v] (t.leave v) where
  sound := h.sound.leave h.path h.done
  path := by rw [path_leave, h.path, path_enter, List.dropLast_concat]
  kept w hw := by
    have hne : v ≠ w := by
      rintro rfl
      cases hv.symm.trans hw
    have hbefore : (s.enter v).mark w = .done := by rwa [mark_enter, if_neg hne]
    rw [mark_leave, if_neg hne, h.kept w hbefore]
  done := by simp

/-- A search either meets a circuit or gets past the nodes. -/
def ComesTo (ways : Ways n) (s : Search n) (vs : List (Fin n)) : Except (List (Fin n)) (Search n) → Prop
  | .error path => Circuit ways.Leads path
  | .ok t => s.Past ways vs t

/-- Two ways to go from node to node come to the same for a list of nodes if they do for each of them. -/
theorem foldlM_comesTo {f g : Search n → Fin n → Except (List (Fin n)) (Search n)} (vs : List (Fin n))
    (hs : s.Sound ways)
    (h : ∀ t, t.Sound ways → t.path = s.path → ∀ v ∈ vs, f t v = g t v ∧ t.ComesTo ways [v] (f t v)) :
    vs.foldlM f s = vs.foldlM g s ∧ s.ComesTo ways vs (vs.foldlM f s) := by
  induction vs generalizing s with
  | nil => exact ⟨rfl, hs, rfl, fun _ => id, by simp⟩
  | cons v vs ih =>
    obtain ⟨heq, hfirst⟩ := h s hs rfl v List.mem_cons_self
    rw [List.foldlM_cons, List.foldlM_cons, ← heq]
    cases hv : f s v with
    | error path =>
      rw [hv] at hfirst
      exact ⟨rfl, hfirst⟩
    | ok t =>
      rw [hv] at hfirst
      obtain ⟨heq', hrest⟩ := ih hfirst.sound fun u hu hpath w hw =>
        h u hu (hpath.trans hfirst.path) w (List.mem_cons_of_mem v hw)
      refine ⟨heq', ?_⟩
      change s.ComesTo ways (v :: vs) (vs.foldlM f t)
      cases hvs : vs.foldlM f t with
      | error path =>
        rw [hvs] at hrest
        exact hrest
      | ok u =>
        rw [hvs] at hrest
        exact hfirst.cons hrest

/-- A step from the last node of the path, where `f` and `g` come to the same for a new node. A node that is active
is on the path, so it does not matter where one that is not would stand. -/
theorem step_comesTo {f g : Search n → Fin n → Except (List (Fin n)) (Search n)} {path : List (Fin n)}
    (place : Nat) (hs : s.Sound ways) (hpath : s.path = path ++ [v]) (hvw : ways.Leads v w)
    (hnew : s.mark w = .new → f s w = g s w ∧ s.ComesTo ways [w] (f s w)) :
    s.step f place w = s.step g 0 w ∧ s.ComesTo ways [w] (s.step f place w) := by
  unfold step
  cases hmark : s.mark w with
  | new => exact hnew hmark
  | active =>
    have hmem := (hs.active_iff w).mp hmark
    have hsteps := hs.steps
    have hnodup := hs.nodup
    rw [close_of_mem hmem, close_of_mem hmem]
    rw [hpath] at hmem hsteps hnodup ⊢
    exact ⟨rfl, circuit_of_back hsteps hnodup hmem hvw⟩
  | done => exact ⟨rfl, .refl hs hmark⟩

/-- The path is no longer than there are nodes, so there is room for the next one. -/
theorem Sound.length_lt (hs : s.Sound ways) (hv : s.mark v = .new) : s.path.length < n := by
  have hnodup : (v :: s.path).Nodup := List.nodup_cons.mpr ⟨hs.notMem hv, hs.nodup⟩
  have hlength := hnodup.length_le_card
  rwa [List.length_cons, Fintype.card_fin] at hlength

end Search

/-- A visit meets a circuit or gets past its node. -/
theorem visit_comesTo {fuel : Nat} (place : Nat) (hs : s.Sound ways) (hv : s.mark v = .new)
    (hlast : ∀ u ∈ s.path.getLast?, ways.Leads u v) (hfuel : n ≤ s.path.length + fuel) :
    visit ways place fuel s v = visit ways 0 fuel s v ∧ s.ComesTo ways [v] (visit ways place fuel s v) := by
  induction fuel generalizing s v with
  | zero =>
    have := hs.length_lt hv
    omega
  | succ fuel ih =>
    have hstep : ∀ t : Search n, t.Sound ways → t.path = s.path ++ [v] → ∀ w ∈ ways.next v,
        t.step (visit ways place fuel) place w = t.step (visit ways 0 fuel) 0 w ∧
          t.ComesTo ways [w] (t.step (visit ways place fuel) place w) := by
      intro t ht hpath w hw
      refine Search.step_comesTo place ht hpath hw fun hnew => ih ht hnew ?_ ?_
      · rw [hpath, List.getLast?_concat]
        rintro u ⟨⟩
        exact hw
      · rw [hpath, List.length_append, List.length_singleton]
        omega
    obtain ⟨heq, hresult⟩ := Search.foldlM_comesTo (ways.next v) (hs.enter hv hlast) hstep
    rw [visit, visit, ← heq]
    refine ⟨rfl, ?_⟩
    cases hfold : (ways.next v).foldlM (Search.step (visit ways place fuel) place) (s.enter v) with
    | error path =>
      rw [hfold] at hresult
      exact hresult
    | ok t =>
      rw [hfold] at hresult
      exact .leave hv hresult

theorem visitNew_comesTo (place : Nat) (hs : s.Sound ways) (hempty : s.path = []) (v : Fin n) :
    visitNew ways place s v = visitNew ways 0 s v ∧ s.ComesTo ways [v] (visitNew ways place s v) := by
  unfold visitNew
  split_ifs with hv
  · exact visit_comesTo place hs hv (by simp [hempty]) (by simp)
  · have hinactive : s.mark v ≠ .active := by simp [hs.active_iff, hempty]
    cases hmark : s.mark v with
    | new => exact absurd hmark hv
    | active => exact absurd hmark hinactive
    | done => exact ⟨rfl, .refl hs hmark⟩

/-- The whole search meets a circuit or finishes every node. -/
theorem search_spec (ways : Ways n) (place : Nat) :
    search ways place = search ways 0 ∧ (∀ path, search ways place = some path → Circuit ways.Leads path) ∧
      (search ways place = none → ∀ v, ways.Finished v) := by
  obtain ⟨heq, hresult⟩ := Search.foldlM_comesTo (List.finRange n) Search.sound_initial
    fun s (hs : s.Sound ways) hpath v _ => visitNew_comesTo place hs hpath v
  unfold search
  rw [← heq]
  refine ⟨rfl, ?_⟩
  split
  · next path hfold =>
    rw [hfold] at hresult
    refine ⟨?_, by simp⟩
    rintro _ ⟨⟩
    exact hresult
  · next s hfold =>
    rw [hfold] at hresult
    exact ⟨by simp, fun _ v => hresult.sound.finished v (hresult.done v (List.mem_finRange v))⟩

theorem circuit_of_circuit? {path : List (Fin n)} (h : circuit? ways = some path) : Circuit ways.Leads path :=
  (search_spec ways 0).2.1 path h

theorem finished_of_circuit? (h : circuit? ways = none) (v : Fin n) : ways.Finished v :=
  (search_spec ways 0).2.2 h v

/-- The search finds a circuit exactly if there is one. A node to which it steps back is always on its path, so it
makes no difference where others would stand. -/
theorem circuit?_exact (ways : Ways n) :
    (circuit? ways = none ↔ ways.Acyclic) ∧
      (∀ path, circuit? ways = some path → Circuit ways.Leads path) ∧
      ∀ place, search ways place = circuit? ways := by
  refine ⟨⟨fun h => Ways.acyclic_of_finished (finished_of_circuit? h), fun hacyclic => ?_⟩,
    fun path => circuit_of_circuit?, fun place => (search_spec ways place).1⟩
  cases hcircuit : circuit? ways with
  | none => rfl
  | some path =>
    obtain ⟨v, hv⟩ := (circuit_of_circuit? hcircuit).exists_transGen
    exact absurd hv (hacyclic v)

-- the step from 0 leads to a circuit and is not part of it
example : circuit? #v[[1, 1], [2], [1, 0]] = some [1, 2, 1] := by decide

end GoalCompiler.Graph
