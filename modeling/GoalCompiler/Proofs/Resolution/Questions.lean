import GoalCompiler.Proofs.Resolution.Asking
import Mathlib.Data.List.Nodup

/-! Which questions are put. The open parameters are asked about in their order, each by a question of its own or,
in a group of which nothing singles one out, by the question that the first of them gets for the whole group. No
parameter gets two questions and no group is asked for twice. -/
namespace GoalCompiler

/-- The group that the question asks for as a whole. -/
def Question.whole? (q : Question) : Option String := if q.members.isEmpty then none else q.group

namespace Workflow

variable {w : Workflow} {p : Parameter} {context group : String} {asked : List String} {u : Unresolved}
  {us : List Unresolved} {q : Question}

/-- The question about an open parameter. -/
theorem question_cases (w : Workflow) (p : Parameter) (context : String) :
    (wholeGroup? p context = none ∧ (w.question p context).members = []) ∨
      ∃ group, wholeGroup? p context = some group ∧ (w.question p context).group = some group ∧
        (w.question p context).members = (w.members group).map Parameter.name := by
  unfold question
  cases hgroup : p.group with
  | none => exact .inl ⟨by simp [wholeGroup?, hgroup], rfl⟩
  | some group =>
    by_cases hsides : (Text.sidesIn context).isEmpty
    · exact .inr ⟨group, wholeGroup?_eq_some.mpr ⟨hgroup, hsides⟩, by simp [hsides]⟩
    · exact .inl ⟨by simp [wholeGroup?, hgroup, hsides], by simp [hsides, Question.ofParameter]⟩

@[simp] theorem whole?_question (hp : p ∈ w.parameters) :
    (w.question p context).whole? = wholeGroup? p context := by
  unfold Question.whole?
  rcases question_cases w p context with ⟨hwhole, hmembers⟩ | ⟨group, hwhole, hgroup, hmembers⟩
  · rw [hmembers, hwhole]
    rfl
  · have hmem : p ∈ w.members group := mem_members.mpr ⟨hp, (wholeGroup?_eq_some.mp hwhole).1⟩
    rw [hmembers, hgroup, hwhole, if_neg (by simpa using List.ne_nil_of_mem hmem)]

/-- An open parameter is passed over if its group has its question, and else gets one. -/
theorem questionsAfter_cons_cases (asked : List String) (us : List Unresolved)
    (hp : w.parameter? u.name = some p) :
    (∃ group ∈ asked, wholeGroup? p u.context = some group ∧
      w.questionsAfter asked (u :: us) = w.questionsAfter asked us) ∨
    ∃ asked', (∀ group, group ∈ asked' ↔ group ∈ asked ∨ wholeGroup? p u.context = some group) ∧
      (∀ group ∈ asked, wholeGroup? p u.context ≠ some group) ∧
      w.questionsAfter asked (u :: us) = w.question p u.context :: w.questionsAfter asked' us := by
  rw [questionsAfter, hp]
  dsimp only
  split
  · next hwhole => exact .inr ⟨asked, by simp [hwhole], by simp [hwhole], rfl⟩
  · next group hwhole =>
    split
    · next hasked => exact .inl ⟨group, List.contains_iff_mem.mp hasked, hwhole, rfl⟩
    · next hnew =>
      refine .inr ⟨group :: asked, fun g => ?_, ?_, rfl⟩
      · simp [hwhole, or_comm, eq_comm]
      · rintro g hg heq
        cases hwhole.symm.trans heq
        exact hnew (List.contains_iff_mem.mpr hg)

theorem exists_parameter? (h : u.name ∈ w.parameters.map Parameter.name) :
    ∃ p, w.parameter? u.name = some p ∧ p ∈ w.parameters ∧ p.name = u.name := by
  obtain ⟨p, hp, hname⟩ := List.mem_map.mp h
  cases hfind : w.parameter? u.name with
  | none => exact absurd (List.find?_eq_none.mp hfind p hp) (by simp [hname])
  | some p' => exact ⟨p', rfl, List.mem_of_find?_eq_some hfind, by simpa using List.find?_some hfind⟩

/-- The open parameters are declared. -/
def DeclaresAll (w : Workflow) (us : List Unresolved) : Prop := ∀ u ∈ us, u.name ∈ w.parameters.map Parameter.name

theorem sublist_questionsAfter (asked : List String) (h : w.DeclaresAll us) :
    ((w.questionsAfter asked us).map Question.parameter).Sublist (us.map Unresolved.name) := by
  induction us generalizing asked with
  | nil => exact List.Sublist.slnil
  | cons u rest ih =>
    obtain ⟨hu, hrest⟩ := List.forall_mem_cons.mp h
    obtain ⟨p, hp, -, hname⟩ := exists_parameter? hu
    rcases questionsAfter_cons_cases asked rest hp with ⟨-, -, -, heq⟩ | ⟨asked', -, -, heq⟩
    · rw [heq]
      exact (ih asked hrest).cons _
    · rw [heq, List.map_cons, List.map_cons, parameter_question, hname]
      exact (ih asked' hrest).cons_cons _

/-- No group is asked for twice, nor if it has been before. -/
theorem whole?_questionsAfter (asked : List String) (h : w.DeclaresAll us) :
    ((w.questionsAfter asked us).filterMap Question.whole?).Nodup ∧
      ∀ group ∈ asked, group ∉ (w.questionsAfter asked us).filterMap Question.whole? := by
  induction us generalizing asked with
  | nil => simp [questionsAfter]
  | cons u rest ih =>
    obtain ⟨hu, hrest⟩ := List.forall_mem_cons.mp h
    obtain ⟨p, hp, hmem, -⟩ := exists_parameter? hu
    rcases questionsAfter_cons_cases asked rest hp with ⟨-, -, -, heq⟩ | ⟨asked', hasked, hnew, heq⟩
    · rw [heq]
      exact ih asked hrest
    · obtain ⟨hnodup, hlater⟩ := ih asked' hrest
      rw [heq]
      cases hwhole : wholeGroup? p u.context with
      | none =>
        rw [List.filterMap_cons_none (by rw [whole?_question hmem, hwhole])]
        exact ⟨hnodup, fun group hgroup => hlater group ((hasked group).mpr (.inl hgroup))⟩
      | some group =>
        rw [List.filterMap_cons_some (by rw [whole?_question hmem, hwhole])]
        refine ⟨List.nodup_cons.mpr ⟨hlater group ((hasked group).mpr (.inr hwhole)), hnodup⟩, fun g hg => ?_⟩
        rw [List.mem_cons, not_or]
        refine ⟨?_, hlater g ((hasked g).mpr (.inl hg))⟩
        rintro rfl
        exact hnew g hg hwhole

/-- An open parameter gets its own question, or its group has one or gets one. -/
theorem asked_questionsAfter (asked : List String) (h : w.DeclaresAll us) (hu : u ∈ us)
    (hp : w.parameter? u.name = some p) :
    w.question p u.context ∈ w.questionsAfter asked us ∨ ∃ group, wholeGroup? p u.context = some group ∧
      (group ∈ asked ∨ ∃ q ∈ w.questionsAfter asked us, q.whole? = some group) := by
  induction us generalizing asked with
  | nil => cases hu
  | cons u' rest ih =>
    obtain ⟨hu', hrest⟩ := List.forall_mem_cons.mp h
    obtain ⟨p', hp', hmem, -⟩ := exists_parameter? hu'
    rcases questionsAfter_cons_cases asked rest hp' with
      ⟨group, hgroup, hwhole, heq⟩ | ⟨asked', hasked, -, heq⟩
    · rw [heq]
      rcases List.mem_cons.mp hu with rfl | hu
      · cases hp.symm.trans hp'
        exact .inr ⟨group, hwhole, .inl hgroup⟩
      · exact ih asked hrest hu
    · rw [heq]
      rcases List.mem_cons.mp hu with rfl | hu
      · cases hp.symm.trans hp'
        exact .inl List.mem_cons_self
      · rcases ih asked' hrest hu with hown | ⟨group, hwhole, hgroup | ⟨q, hq, hqwhole⟩⟩
        · exact .inl (List.mem_cons_of_mem _ hown)
        · refine .inr ⟨group, hwhole, ((hasked group).mp hgroup).imp_right fun hfirst => ?_⟩
          exact ⟨_, List.mem_cons_self, (whole?_question hmem).trans hfirst⟩
        · exact .inr ⟨group, hwhole, .inr ⟨q, List.mem_cons_of_mem _ hq, hqwhole⟩⟩

theorem members_of_mem_questions (hq : q ∈ w.questions us) :
    q.members = [] ∨ ∃ group, q.group = some group ∧ q.members = (w.members group).map Parameter.name := by
  obtain ⟨u, -, p, -, rfl⟩ := mem_questionsAfter hq
  rcases question_cases w p u.context with ⟨-, hmembers⟩ | ⟨group, -, hgroup, hmembers⟩
  · exact .inl hmembers
  · exact .inr ⟨group, hgroup, hmembers⟩

/-- A question for a whole group is for every parameter in it. -/
theorem members_of_whole? (hq : q ∈ w.questions us) (h : q.whole? = some group) :
    q.group = some group ∧ q.members = (w.members group).map Parameter.name := by
  unfold Question.whole? at h
  split_ifs at h with hnone
  rcases members_of_mem_questions hq with hmembers | ⟨g, hgroup, hmembers⟩
  · exact absurd (by simp [hmembers]) hnone
  · cases h.symm.trans hgroup
    exact ⟨hgroup, hmembers⟩

/-- Every open parameter is asked about: by one question of its own, or by the one question for its group. A
parameter without a group, or with a side in its text, has its own. The questions are in the order of the open
parameters, and one for a group lists all its parameters as they are declared. -/
theorem each_asked_once (hdeclared : ∀ u ∈ us, u.name ∈ w.parameters.map Parameter.name)
    (hdistinct : (us.map Unresolved.name).Nodup) :
    ((w.questions us).map Question.parameter).Nodup ∧
    ((w.questions us).map Question.parameter).Sublist (us.map Unresolved.name) ∧
    (∀ u ∈ us, ∃ p, w.parameter? u.name = some p ∧ ((∃ q ∈ w.questions us, q.parameter = u.name) ∨
      ∃ q ∈ w.questions us, q.group = p.group ∧ p.group.isSome ∧ u.name ∈ q.members)) ∧
    (∀ q ∈ w.questions us, q.members = [] ∨
      ∃ group, q.group = some group ∧ q.members = (w.members group).map Parameter.name) ∧
    (∀ group, (w.questions us).countP (fun q => q.group == some group && !q.members.isEmpty) ≤ 1) ∧
    ∀ u ∈ us, ∀ p, w.parameter? u.name = some p → p.group = none ∨ Text.sidesIn u.context ≠ [] →
      ∃ q ∈ w.questions us, q = w.question p u.context ∧ q.parameter = u.name ∧ q.members = [] := by
  have hsublist := sublist_questionsAfter [] hdeclared
  refine ⟨hdistinct.sublist hsublist, hsublist, fun u hu => ?_, fun q hq => members_of_mem_questions hq,
    fun group => ?_, fun u hu p hp hown => ?_⟩
  · obtain ⟨p, hp, hmem, hname⟩ := exists_parameter? (hdeclared u hu)
    refine ⟨p, hp, ?_⟩
    rcases asked_questionsAfter [] hdeclared hu hp with hown | ⟨group, hwhole, hgroup | ⟨q, hq, hqwhole⟩⟩
    · exact .inl ⟨_, hown, by rw [parameter_question, hname]⟩
    · cases hgroup
    · obtain ⟨hgroup, hmembers⟩ := members_of_whole? hq hqwhole
      have hpgroup := (wholeGroup?_eq_some.mp hwhole).1
      refine .inr ⟨q, hq, by rw [hgroup, hpgroup], by rw [hpgroup]; rfl, ?_⟩
      rw [hmembers, ← hname]
      exact List.mem_map_of_mem (mem_members.mpr ⟨hmem, hpgroup⟩)
  · have hcount := List.nodup_iff_count_le_one.mp (whole?_questionsAfter [] hdeclared).1 group
    rw [List.count, List.countP_filterMap] at hcount
    refine (List.countP_mono_left fun q _ hq => ?_).trans hcount
    rw [Bool.and_eq_true, Bool.not_eq_true', beq_iff_eq] at hq
    simp [Question.whole?, hq.1, hq.2]
  · obtain ⟨p', hp', -, hname⟩ := exists_parameter? (hdeclared u hu)
    cases hp.symm.trans hp'
    have hnone : wholeGroup? p u.context = none := by
      rcases hown with hgroup | hsides
      · simp [wholeGroup?, hgroup]
      · cases hwhole : wholeGroup? p u.context with
        | none => rfl
        | some group => exact absurd (List.isEmpty_iff.mp (wholeGroup?_eq_some.mp hwhole).2) hsides
    rcases asked_questionsAfter [] hdeclared hu hp with hmem | ⟨group, hwhole, -⟩
    · refine ⟨_, hmem, rfl, by rw [parameter_question, hname], ?_⟩
      rcases question_cases w p u.context with ⟨-, hmembers⟩ | ⟨group, hwhole, -⟩
      · exact hmembers
      · cases hnone.symm.trans hwhole
    · cases hnone.symm.trans hwhole

/-- A rack with two groups and a width. -/
def rack : Workflow where
  name := "rack"
  parameters := [{ name := "left_leg", group := some "legs" }, { name := "upper_shelf", group := some "shelves" },
    { name := "right_leg", group := some "legs" }, { name := "lower_shelf", group := some "shelves" },
    { name := "width" }]

/-- What is open of the rack. One leg is singled out. -/
def openRack : List Unresolved :=
  [⟨"lower_shelf", "thick shelves", 1.0⟩, ⟨"left_leg", "splayed legs", 1.0⟩,
    ⟨"width", "on the left", 1.0⟩, ⟨"right_leg", "the right leg", 1.0⟩,
    ⟨"upper_shelf", "thick shelves", 1.0⟩]

/-- Both shelves share a question, and so do both legs; but the right one has its own as well. -/
theorem each_asked_rack :
    (∀ u ∈ openRack, u.name ∈ rack.parameters.map Parameter.name) ∧ (openRack.map Unresolved.name).Nodup ∧
    (rack.questions openRack).map (fun q => (q.parameter, q.group, q.members)) =
      [("lower_shelf", some "shelves", ["upper_shelf", "lower_shelf"]),
        ("left_leg", some "legs", ["left_leg", "right_leg"]), ("width", none, []), ("right_leg", some "legs", [])] ∧
    ((rack.questions openRack).map Question.parameter).Nodup ∧
    ∀ group, (rack.questions openRack).countP (fun q => q.group == some group && !q.members.isEmpty) ≤ 1 := by
  have hdeclared : ∀ u ∈ openRack, u.name ∈ rack.parameters.map Parameter.name := by decide +kernel
  have hdistinct : (openRack.map Unresolved.name).Nodup := by decide +kernel
  obtain ⟨hparameters, -, -, -, hgroups, -⟩ := each_asked_once hdeclared hdistinct
  exact ⟨hdeclared, hdistinct, by decide +kernel, hparameters, hgroups⟩

end Workflow

end GoalCompiler
