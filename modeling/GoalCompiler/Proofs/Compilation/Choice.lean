import GoalCompiler.Compilation.Stages
import GoalCompiler.Proofs.Workflow.Dependence

/-! Conditions that choose among steps, and the order of those that are chosen. Whatever the conditions leave
out, the rest can be put in order: an id that somebody depends on is still there or counts as dropped. Only
an id that two of the chosen steps share is refused. -/
namespace GoalCompiler.Settled

open Dependent (ids)

variable {steps : List Settled} {b : Bindings} {simulator : Option Simulator}

/-- Each step comes after those with an id it depends on. -/
def DependenciesFirst (steps : List Settled) : Prop :=
  ∀ (i j : Nat) (s t : Settled) (id : String), steps[i]? = some s → steps[j]? = some t →
    id ∈ s.step.dependsOn → t.step.id = some id → j < i

/-- What is chosen stands in its order among the steps, and an id is kept or dropped. -/
theorem chooseFrom_spec {state : HostState} {chosen out : Chosen}
    (h : chooseFrom b simulator state chosen steps = .ok out) :
    ∃ kept, out.accepted = chosen.accepted ++ kept ∧ (dependents kept).Sublist (dependents steps) ∧
      chosen.dropped ⊆ out.dropped ∧
      ∀ id ∈ ids (dependents steps), id ∈ ids (dependents kept) ∨ id ∈ out.dropped := by
  induction steps generalizing state chosen with
  | nil =>
    obtain rfl : chosen = out := by simpa [chooseFrom] using h
    exact ⟨[], by simp, List.Sublist.refl _, List.Subset.refl _, by simp [dependents, ids]⟩
  | cons s steps ih =>
    unfold chooseFrom at h
    split at h
    · next referenced _ =>
      obtain ⟨kept, hacc, hsub, hdrop, hids⟩ := ih h
      refine ⟨{ s with referenced } :: kept, by simp [hacc], hsub.cons_cons _, hdrop, ?_⟩
      intro id hid
      rcases Dependent.mem_ids.mp hid with ⟨d, hd, hdid⟩
      rcases List.mem_cons.mp hd with rfl | hd
      · exact .inl (Dependent.mem_ids.mpr ⟨_, List.mem_cons_self, hdid⟩)
      · exact (hids id (Dependent.mem_ids.mpr ⟨d, hd, hdid⟩)).imp_left fun hk => by
          obtain ⟨e, he, heid⟩ := Dependent.mem_ids.mp hk
          exact Dependent.mem_ids.mpr ⟨e, List.mem_cons_of_mem _ he, heid⟩
    · obtain ⟨kept, hacc, hsub, hdrop, hids⟩ := ih h
      refine ⟨kept, hacc, hsub.cons _, ?_, ?_⟩
      · refine List.Subset.trans ?_ hdrop
        cases s.step.id with
        | none => exact List.Subset.refl _
        | some id => exact fun j hj => NameSet.mem_insert.mpr (.inr hj)
      · intro id hid
        rcases Dependent.mem_ids.mp hid with ⟨d, hd, hdid⟩
        rcases List.mem_cons.mp hd with rfl | hd
        · have hs : s.step.id = some id := hdid
          refine .inr (hdrop ?_)
          simp only [hs]
          exact NameSet.mem_insert.mpr (.inl rfl)
        · exact hids id (Dependent.mem_ids.mpr ⟨d, hd, hdid⟩)
    · cases h

/-- Nothing that depends on an id stands before or at a step that has it. -/
theorem dependenciesFirst_of_pairwise
    (h : steps.Pairwise fun s t => ¬ ∃ id ∈ s.step.dependsOn, t.step.id = some id)
    (hs : ∀ s ∈ steps, ¬ ∃ id ∈ s.step.dependsOn, s.step.id = some id) : DependenciesFirst steps := by
  intro i j s t id hi hj hid ht
  obtain ⟨hil, rfl⟩ := List.getElem?_eq_some_iff.mp hi
  obtain ⟨hjl, rfl⟩ := List.getElem?_eq_some_iff.mp hj
  rcases lt_trichotomy i j with hij | rfl | hji
  · exact absurd ⟨id, hid, ht⟩ (List.pairwise_iff_getElem.mp h i j hil hjl hij)
  · exact absurd ⟨id, hid, ht⟩ (hs _ (List.getElem_mem hil))
  · exact hji

theorem follows_of_dependsOn {i j : Nat} {s t : Settled} (hi : steps[i]? = some s) (hj : steps[j]? = some t)
    (h : ∃ id ∈ s.step.dependsOn, t.step.id = some id) :
    Graph.Follows (Dependent.needs (dependents steps)) i j := by
  obtain ⟨id, hid, ht⟩ := h
  refine Dependent.follows_needs.mpr ⟨s.step.dependent, t.step.dependent, id, ?_, ?_, hid, ht⟩
  · simp [dependents, hi]
  · simp [dependents, hj]

/-- The steps that conditions choose are refused for an id that two of them share and for nothing else;
otherwise all of them come, each behind what it depends on. -/
theorem inOrder_of_choose {chosen : Chosen} (hg : checkGraph steps = .ok ())
    (hc : choose steps b simulator = .ok chosen) :
    (∃ id, (ids (dependents chosen.accepted)).Duplicate id ∧
      inOrder chosen.accepted chosen.dropped = .error (.duplicateId id)) ∨
    ((ids (dependents chosen.accepted)).Nodup ∧ ∃ out,
      inOrder chosen.accepted chosen.dropped = .ok out ∧ out.Perm chosen.accepted ∧
        DependenciesFirst out ∧ (ids (dependents out)).Nodup) := by
  obtain ⟨hknown, hacyclic⟩ := Dependent.check_eq_ok hg
  obtain ⟨kept, hacc, hsub, -, hids⟩ := chooseFrom_spec hc
  obtain rfl : chosen.accepted = kept := by simpa using hacc
  have hmissing : ∀ d ∈ dependents chosen.accepted, ∀ id ∈ d.dependsOn,
      id ∈ ids (dependents chosen.accepted) ∨ id ∈ chosen.dropped := fun d hd id hid =>
    hids id (hknown d (hsub.subset hd) id hid)
  rcases Dependent.sequence_of_acyclic (Dependent.acyclic_of_sublist hsub hacyclic) hmissing with
    ⟨id, hdup, he⟩ | ⟨hnodup, order, ho, hp, hord⟩
  · exact .inl ⟨id, hdup, by simp [inOrder, he, Except.map]⟩
  · have hrange : order.Perm (List.range chosen.accepted.length) := by simpa [dependents] using hp
    have hperm := Graph.rearranged_perm hrange
    obtain ⟨hpair, hself⟩ := Graph.rearranged_ordered hord (fun _ _ _ _ => follows_of_dependsOn)
    refine .inr ⟨hnodup, _, by simp [inOrder, ho, Except.map], hperm,
      dependenciesFirst_of_pairwise hpair hself, ?_⟩
    exact ((hperm.map _).filterMap _).nodup_iff.mpr hnodup

/-- A step that depends on an id before it is declared, and two alternatives with that id. -/
def table : List Settled :=
  [{ step := { id := some "leg", tool := "extrude", dependsOn := ["top"] } },
   { step := { id := some "top", tool := "add_circle", condition := some "1 > 2" } },
   { step := { id := some "top", tool := "add_square" } }]

/-- One alternative is left out, and the other one comes first. -/
def chosenTable : Chosen where
  accepted := [{ step := { id := some "leg", tool := "extrude", dependsOn := ["top"] } },
    { step := { id := some "top", tool := "add_square" } }]
  dropped := ["top"]

theorem inOrder_chosenTable :
    checkGraph table = .ok () ∧ choose table [] none = .ok chosenTable ∧
      ((∃ id, (ids (dependents chosenTable.accepted)).Duplicate id ∧
        inOrder chosenTable.accepted chosenTable.dropped = .error (.duplicateId id)) ∨
      ((ids (dependents chosenTable.accepted)).Nodup ∧ ∃ out,
        inOrder chosenTable.accepted chosenTable.dropped = .ok out ∧ out.Perm chosenTable.accepted ∧
          DependenciesFirst out ∧ (ids (dependents out)).Nodup)) := by
  have hg : checkGraph table = .ok () := by decide
  have hc : choose table [] none = .ok chosenTable := by decide +kernel
  exact ⟨hg, hc, inOrder_of_choose hg hc⟩

end GoalCompiler.Settled
