import GoalCompiler.Proofs.Resolution.Answers
import GoalCompiler.Proofs.Workflow.Forms

/-! Values for groups. A value that comes from a text is meant for some of the group, and for the parameter that
was asked about unless the text speaks of the side of others only. -/
namespace GoalCompiler

namespace Workflow

variable {w : Workflow} {p : Parameter} {context : String}

/-- The parameters that share answers with this one, itself among them. -/
def fellows (w : Workflow) (p : Parameter) : List Parameter :=
  match p.group with
  | none => [p]
  | some group => w.members group

theorem mem_members {q : Parameter} {group : String} :
    q ∈ w.members group ↔ q ∈ w.parameters ∧ q.group = some group := by
  simp [members, List.mem_filter]

theorem mem_fellows_of_targets (hd : (w.parameters.map Parameter.name).Nodup) (hp : p ∈ w.parameters)
    {q : Parameter} (h : q ∈ w.targets p.name context) : q ∈ w.fellows p := by
  rw [targets, parameter?_eq hd hp] at h
  unfold fellows
  cases hgroup : p.group with
  | none => simpa [hgroup] using h
  | some group =>
    simp only [hgroup, groupTargets] at h
    split_ifs at h
    · exact h
    · split at h
      · rw [List.mem_singleton.mp h]
        exact mem_members.mpr ⟨hp, hgroup⟩
      · exact List.mem_of_mem_filter h

/-- A text that speaks of no side is meant for the whole group. -/
theorem targets_of_no_side (hd : (w.parameters.map Parameter.name).Nodup) (hp : p ∈ w.parameters)
    (h : (Text.sidesIn context).isEmpty) : w.targets p.name context = w.fellows p := by
  rw [targets, parameter?_eq hd hp, fellows]
  dsimp only
  cases p.group with
  | none => rfl
  | some group => exact if_pos h

/-- The text speaks of the side of others in the group, but not of the parameter's own. -/
def Elsewhere (w : Workflow) (p : Parameter) (context : String) : Prop :=
  ¬ p.isOnSide (Text.sidesIn context) ∧
    ∃ group, p.group = some group ∧ ∃ q ∈ w.members group, q.isOnSide (Text.sidesIn context)

theorem not_isOnSide_of_isEmpty {sides : List String} (h : sides.isEmpty) : ¬ p.isOnSide sides := by
  rw [List.isEmpty_iff.mp h]
  simp [Parameter.isOnSide]

/-- What is said about a parameter is meant for it, unless it is said of another side. -/
theorem mem_targets_self (hd : (w.parameters.map Parameter.name).Nodup) (hp : p ∈ w.parameters) :
    p ∈ w.targets p.name context ↔ ¬ w.Elsewhere p context := by
  rw [targets, parameter?_eq hd hp]
  dsimp only
  split
  · rename_i hgroup
    simp [Elsewhere, hgroup]
  · rename_i group hgroup
    have hmem := mem_members.mpr ⟨hp, hgroup⟩
    by_cases hsides : (Text.sidesIn context).isEmpty
    · have hnone : ¬ w.Elsewhere p context := by
        rintro ⟨-, -, -, q, -, hq⟩
        exact not_isOnSide_of_isEmpty hsides hq
      simp [groupTargets, hsides, hmem, hnone]
    · have helse : w.Elsewhere p context ↔ ¬ p.isOnSide (Text.sidesIn context) ∧
          ∃ q ∈ w.members group, q.isOnSide (Text.sidesIn context) := by
        simp [Elsewhere, hgroup]
      rw [helse, groupTargets, if_neg hsides]
      split
      · rename_i hnil
        have hnone : ∀ q ∈ w.members group, ¬ q.isOnSide (Text.sidesIn context) := fun q hq =>
          List.filter_eq_nil_iff.mp hnil q hq
        simpa using fun _ q hq => hnone q hq
      · rw [List.mem_filter]
        constructor
        · rintro ⟨-, hside⟩ ⟨hnot, -⟩
          exact hnot hside
        · intro h
          refine ⟨hmem, Classical.byContradiction fun hnot => h ⟨hnot, ?_⟩⟩
          rename_i hne
          obtain ⟨q, hq⟩ := List.exists_mem_of_ne_nil _ hne
          obtain ⟨hq, hside⟩ := List.mem_filter.mp hq
          exact ⟨q, hq, hside⟩

/-- The forms in which a value is taken. -/
theorem mem_targetValues {name n : String} {value v : Json} :
    (n, v) ∈ w.targetValues name context value ↔
      ∃ t ∈ w.targets name context, t.name = n ∧ t.accept value = .ok v := by
  rw [targetValues, List.mem_filterMap]
  refine exists_congr fun t => and_congr_right fun _ => ?_
  cases t.accept value <;> simp

/-- The names under which a value is taken. -/
theorem mem_keys_targetValues {name n : String} {value : Json} :
    n ∈ Dict.keys (w.targetValues name context value) ↔
      ∃ t ∈ w.targets name context, t.name = n ∧ t.accepts value := by
  simp only [Dict.keys, List.mem_map, Prod.exists, exists_and_right, exists_eq_right, mem_targetValues,
    Parameter.accepts_iff]
  constructor
  · rintro ⟨v, t, ht, hname, hv⟩
    exact ⟨t, ht, hname, v, hv⟩
  · rintro ⟨t, ht, hname, v, hv⟩
    exact ⟨v, t, ht, hname, hv⟩

end Workflow

end GoalCompiler
