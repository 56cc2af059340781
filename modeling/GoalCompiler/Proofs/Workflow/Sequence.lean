import GoalCompiler.Proofs.Graph.Cycles
import GoalCompiler.Proofs.Graph.Earliest
import GoalCompiler.Proofs.Workflow.Dependence

/-! The order of steps, exactly. Steps can be put in order when no id comes twice, nothing that is depended on
is missing and no dependencies go around in a circle; the order is then the first of all that are possible.
Otherwise one of the three is named, and a circle by the ids on it. The countdown that finds the order never fails. -/
namespace GoalCompiler.Dependent

open GoalCompiler.Graph (Follows Acyclic Arranges)

variable {ds : List Dependent} {dropped : List String}

/-- Steps that can be put in order. -/
structure Sequenceable (ds : List Dependent) (dropped : List String) : Prop where
  distinct : (ids ds).Nodup
  known : ∀ d ∈ ds, ∀ id ∈ d.dependsOn, id ∈ ids ds ∨ id ∈ dropped
  acyclic : Acyclic (needs ds)

/-- Ids along which each step depends on the one before, from a step back to the same. -/
structure ClosedPath (ds : List Dependent) (path : List String) : Prop where
  two_le : 2 ≤ path.length
  ends : path.head? = path.getLast?
  steps : path.IsChain fun before after => ∃ d ∈ ds, d.id = some after ∧ before ∈ d.dependsOn

theorem arrange_of_sequence {order : List Nat} (h : sequence ds dropped = .ok order) :
    Graph.arrange (needs ds) = some order := by
  unfold sequence at h
  split at h
  · cases h
  · split at h
    · cases h
    · split at h
      · next ho =>
        obtain rfl := Except.ok.inj h
        exact ho
      · cases h

theorem sequenceable_of_sequence {order : List Nat} (h : sequence ds dropped = .ok order) :
    Sequenceable ds dropped := by
  have harrange := arrange_of_sequence h
  unfold sequence at h
  split at h
  · cases h
  · rename_i hrepeated
    split at h
    · cases h
    · rename_i hmissing
      exact ⟨(repeatedId?_eq_none List.nodup_nil).mp hrepeated, missing?_eq_none.mp hmissing,
        Arranges.acyclic (Graph.arrange_spec harrange)⟩

theorem missing_of_missing? {d : Dependent} {id : String} (h : missing? ds dropped = some (d, id)) :
    d ∈ ds ∧ id ∈ d.dependsOn ∧ id ∉ ids ds ∧ id ∉ dropped := by
  obtain ⟨d', hd, hfind⟩ := List.exists_of_findSome?_eq_some h
  obtain ⟨id', hid, heq⟩ := Option.map_eq_some_iff.mp hfind
  obtain ⟨rfl, rfl⟩ := Prod.mk.inj heq
  have hunknown := List.find?_some hid
  simp only [Bool.not_eq_true', Bool.or_eq_false_iff, List.any_eq_false, beq_iff_eq] at hunknown
  refine ⟨hd, List.mem_of_find?_eq_some hid, fun hmem => ?_, by simpa using hunknown.2⟩
  obtain ⟨e, he, heid⟩ := mem_ids.mp hmem
  exact hunknown.1 e he heid

/-- The ids along a closed path of the graph. A step on it has an id, because another one depends on it. -/
theorem closedPath_of_closed {path : List Nat} (h : Graph.Closed (needs ds) path) :
    ClosedPath ds (path.filterMap fun i => ds[i]?.map label) := by
  have hid : ∀ {i : Nat} {e : Dependent} {id : String}, ds[i]? = some e → e.id = some id →
      ds[i]?.map label = some id := fun he heid => by
    rw [he, Option.map_some, label, heid, Option.getD_some]
  have hstep : ∀ i ∈ path, ∀ j ∈ path, Follows (needs ds) j i → ∃ before after,
      ds[i]?.map label = some before ∧ ds[j]?.map label = some after ∧
        ∃ d ∈ ds, d.id = some after ∧ before ∈ d.dependsOn := by
    intro i _ j hj hf
    obtain ⟨k, -, hk⟩ := h.exists_step j hj
    obtain ⟨-, d, after, -, hd, -, hdid⟩ := follows_needs.mp hk
    obtain ⟨d', e, before, hd', he, hdep, heid⟩ := follows_needs.mp hf
    obtain rfl : d = d' := Option.some.inj (hd.symm.trans hd')
    exact ⟨before, after, hid he heid, hid hd hdid, d, List.mem_of_getElem? hd, hdid, hdep⟩
  obtain ⟨htwo, hends, hsteps⟩ := h.labels hstep
  exact ⟨htwo, hends, hsteps⟩

/-- Steps without an order have a circle to show for it. -/
theorem closedPath_of_arrange_eq_none (h : Graph.arrange (needs ds) = none) :
    ClosedPath ds ((cycle? ds).getD []) := by
  obtain ⟨path, hcycle, hclosed⟩ := Graph.closed_of_arrange_eq_none h
  rw [cycle?, hcycle]
  exact closedPath_of_closed hclosed

theorem refused_of_sequence {e : Failure} (h : sequence ds dropped = .error e) :
    (∃ id, e = .duplicateId id ∧ (ids ds).Duplicate id) ∨
    (∃ d id, e = .unknownDependency d.label id ∧
      d ∈ ds ∧ id ∈ d.dependsOn ∧ id ∉ ids ds ∧ id ∉ dropped) ∨
    (∃ path, e = .cycle .steps path ∧ ClosedPath ds path) := by
  unfold sequence at h
  split at h
  · rename_i id hrepeated
    refine .inl ⟨id, (Except.error.inj h).symm, ?_⟩
    simpa using duplicate_of_repeatedId? hrepeated
  · split at h
    · rename_i d id hmissing
      exact .inr (.inl ⟨d, id, (Except.error.inj h).symm, missing_of_missing? hmissing⟩)
    · split at h
      · cases h
      · rename_i hnone
        exact .inr (.inr ⟨_, (Except.error.inj h).symm, closedPath_of_arrange_eq_none hnone⟩)

/-- Steps come in an order exactly if they can be put in one, and it is the least of all that are possible:
steps that already stand behind what they depend on stay where they are. Otherwise an id that comes twice, one
that is missing or a circle is named. No count of dependencies is lowered below zero on the way. -/
theorem sequence_exact (ds : List Dependent) (dropped : List String) :
    ((∃ order, sequence ds dropped = .ok order) ↔ Sequenceable ds dropped) ∧
    (∀ order, sequence ds dropped = .ok order →
      Arranges (needs ds) order ∧
      (∀ other, Arranges (needs ds) other → order = other ∨ List.Lex (· < ·) order other) ∧
      ((∀ i j, Follows (needs ds) i j → j < i) → order = List.range ds.length)) ∧
    (∀ e, sequence ds dropped = .error e →
      (∃ id, e = .duplicateId id ∧ (ids ds).Duplicate id) ∨
      (∃ d id, e = .unknownDependency d.label id ∧
        d ∈ ds ∧ id ∈ d.dependsOn ∧ id ∉ ids ds ∧ id ∉ dropped) ∨
      (∃ path, e = .cycle .steps path ∧ ClosedPath ds path)) ∧
    ∃ s, Graph.countdown (needs ds) = some s ∧ s.ready = [] := by
  refine ⟨⟨fun ⟨order, h⟩ => sequenceable_of_sequence h, fun h => ?_⟩, fun order h => ?_,
    fun e h => refused_of_sequence h, Graph.exists_countdown (needs ds)⟩
  · rcases sequence_of_acyclic h.acyclic h.known with ⟨id, hdup, -⟩ | ⟨-, order, horder, -⟩
    · exact absurd h.distinct (List.exists_duplicate_iff_not_nodup.mp ⟨id, hdup⟩)
    · exact ⟨order, horder⟩
  · have harrange := arrange_of_sequence h
    refine ⟨Graph.arrange_spec harrange, fun other => Graph.arrange_least harrange, fun hsorted => ?_⟩
    have hrange := harrange.symm.trans (Graph.arrange_of_sorted hsorted)
    simpa [needs] using Option.some.inj hrange

end GoalCompiler.Dependent
