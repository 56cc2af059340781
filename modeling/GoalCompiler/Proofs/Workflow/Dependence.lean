import GoalCompiler.Proofs.Graph.Cycles
import GoalCompiler.Proofs.Outcome
import GoalCompiler.Workflow.Sequence
import Mathlib.Data.List.Duplicate
import Mathlib.Data.List.NodupEquivFin

/-! What steps need of each other by their ids, and the order that `sequence` gives them. Steps that could be
put in order still can be when some of them are left out: no way around in a circle is new, and what is
missing is only what was left out. -/
namespace GoalCompiler.Dependent

open GoalCompiler.Graph (Follows Acyclic Ordered)

variable {ds : List Dependent}

/-- The ids that are given, in order. -/
def ids (ds : List Dependent) : List String := ds.filterMap Dependent.id

theorem mem_ids {id : String} : id ∈ ids ds ↔ ∃ d ∈ ds, d.id = some id := by
  simp [ids, List.mem_filterMap]

theorem mem_positions {id : String} {i : Nat} :
    i ∈ positions ds id ↔ ∃ d, ds[i]? = some d ∧ d.id = some id := by
  simp only [positions, List.mem_filterMap, Prod.exists, List.mem_zipIdx_iff_getElem?]
  constructor
  · rintro ⟨d, j, hd, h⟩
    split_ifs at h with hid
    obtain rfl : j = i := by simpa using h
    exact ⟨d, hd, by simpa using hid⟩
  · rintro ⟨d, hd, hid⟩
    exact ⟨d, i, hd, by simp [hid]⟩

/-- A step comes after each of those that have an id it depends on. -/
theorem follows_needs {i j : Nat} :
    Follows (needs ds) i j ↔
      ∃ d e id, ds[i]? = some d ∧ ds[j]? = some e ∧ id ∈ d.dependsOn ∧ e.id = some id := by
  simp only [Follows, needs, List.getElem?_map, Option.map_eq_some_iff]
  constructor
  · rintro ⟨_, ⟨d, hd, rfl⟩, hj⟩
    obtain ⟨id, hid, hp⟩ := List.mem_flatMap.mp hj
    obtain ⟨e, he, hei⟩ := mem_positions.mp hp
    exact ⟨d, e, id, hd, he, hid, hei⟩
  · rintro ⟨d, e, id, hd, he, hid, hei⟩
    exact ⟨_, ⟨d, hd, rfl⟩, List.mem_flatMap.mpr ⟨id, hid, mem_positions.mpr ⟨e, he, hei⟩⟩⟩

/-- Leaving steps out opens no way around in a circle. -/
theorem acyclic_of_sublist {ds' : List Dependent} (h : ds'.Sublist ds) (ha : Acyclic (needs ds)) :
    Acyclic (needs ds') := by
  obtain ⟨f, hf⟩ := List.sublist_iff_exists_orderEmbedding_getElem?_eq.mp h
  intro i hi
  refine ha (f i) (hi.lift f fun a b hab => ?_)
  obtain ⟨d, e, id, hd, he, hid, hei⟩ := follows_needs.mp hab
  exact follows_needs.mpr ⟨d, e, id, hf a ▸ hd, hf b ▸ he, hid, hei⟩

theorem repeatedId?_eq_none {seen : List String} (hs : seen.Nodup) :
    repeatedId? seen ds = none ↔ (seen.reverse ++ ids ds).Nodup := by
  induction ds generalizing seen with
  | nil => simp [repeatedId?, ids, hs]
  | cons d ds ih =>
    cases hd : d.id with
    | none => simp [repeatedId?, hd, ids, ih hs]
    | some id =>
      by_cases hm : id ∈ seen
      · simp only [repeatedId?, hd, hm, ids, List.contains_iff_mem, if_true, reduceCtorEq, false_iff]
        intro hn
        exact List.disjoint_of_nodup_append hn (List.mem_reverse.mpr hm) (by simp [hd])
      · simp [repeatedId?, hd, hm, ids, ih (List.nodup_cons.mpr ⟨hm, hs⟩)]

/-- The id that is refused comes twice. -/
theorem duplicate_of_repeatedId? {seen : List String} {id : String} (h : repeatedId? seen ds = some id) :
    id ∈ seen ∧ id ∈ ids ds ∨ (ids ds).Duplicate id := by
  induction ds generalizing seen with
  | nil => simp [repeatedId?] at h
  | cons d ds ih =>
    cases hd : d.id with
    | none => simpa [ids, hd] using ih (by simpa [repeatedId?, hd] using h)
    | some id' =>
      have hids : ids (d :: ds) = id' :: ids ds := by simp [ids, hd]
      rw [hids]
      by_cases hm : id' ∈ seen
      · obtain rfl : id' = id := by simpa [repeatedId?, hd, hm] using h
        exact .inl ⟨hm, by simp⟩
      · rcases ih (by simpa [repeatedId?, hd, hm] using h) with ⟨hseen, hrest⟩ | hdup
        · rcases List.mem_cons.mp hseen with rfl | hseen
          · exact .inr (.cons_mem hrest)
          · exact .inl ⟨hseen, by simp [hrest]⟩
        · exact .inr (.cons_duplicate hdup)

theorem missing?_eq_none {dropped : List String} :
    missing? ds dropped = none ↔
      ∀ d ∈ ds, ∀ id ∈ d.dependsOn, id ∈ ids ds ∨ id ∈ dropped := by
  simp only [missing?, List.findSome?_eq_none_iff, Option.map_eq_none_iff, List.find?_eq_none, mem_ids,
    Bool.not_eq_true, Bool.not_eq_false', Bool.or_eq_true, List.any_eq_true, beq_iff_eq,
    List.contains_iff_mem]

/-- What passes `check` depends on its own ids only, and never in a circle. -/
theorem check_eq_ok (h : check ds = .ok ()) :
    (∀ d ∈ ds, ∀ id ∈ d.dependsOn, id ∈ ids ds) ∧ Acyclic (needs ds) := by
  unfold check at h
  split at h
  · cases h
  · next hm =>
    split at h
    · cases h
    · next hc =>
      refine ⟨by simpa using missing?_eq_none.mp hm, ?_⟩
      exact Graph.acyclic_of_cycle?_eq_none (by simpa [cycle?] using hc)

/-- Without missing ids and circles the only thing left to refuse is a repeated id. -/
theorem sequence_of_acyclic {dropped : List String} (ha : Acyclic (needs ds))
    (hm : ∀ d ∈ ds, ∀ id ∈ d.dependsOn, id ∈ ids ds ∨ id ∈ dropped) :
    (∃ id, (ids ds).Duplicate id ∧ sequence ds dropped = .error (.duplicateId id)) ∨
    ((ids ds).Nodup ∧ ∃ order, sequence ds dropped = .ok order ∧
      order.Perm (List.range ds.length) ∧ Ordered (needs ds) order) := by
  unfold sequence
  cases hr : repeatedId? [] ds with
  | some id => exact .inl ⟨id, by simpa using duplicate_of_repeatedId? hr, rfl⟩
  | none =>
    obtain ⟨order, ho⟩ := Graph.exists_arrange ha
    obtain ⟨hp, hord⟩ := Graph.arrange_spec ho
    refine .inr ⟨by simpa using (repeatedId?_eq_none List.nodup_nil).mp hr, order, ?_, ?_, hord⟩
    · simp [missing?_eq_none.mpr hm, ho]
    · simpa [needs] using hp

end GoalCompiler.Dependent
