import GoalCompiler.Proofs.Resolution.Groups
import GoalCompiler.Resolution.Question

/-! What questions ask for. One question may stand for a whole group; together the questions ask for what each open
parameter's own question would ask for. -/
namespace GoalCompiler

/-- The question asks for the parameter of this name, alone or with its group. -/
def Question.AsksFor (q : Question) (n : String) : Prop := q.parameter = n ∨ n ∈ q.members

namespace Workflow

variable {w : Workflow} {p : Parameter} {context group n : String}

@[simp] theorem parameter_question : (w.question p context).parameter = p.name := by
  unfold question
  split
  · rfl
  · split <;> rfl

@[simp] theorem context_question : (w.question p context).context = context := by
  unfold question
  split
  · rfl
  · split <;> rfl

theorem wholeGroup?_eq_some :
    wholeGroup? p context = some group ↔ p.group = some group ∧ (Text.sidesIn context).isEmpty := by
  unfold wholeGroup?
  cases p.group with
  | none => simp
  | some g => simp [Option.filter, and_comm]

/-- A question for a whole group asks for its members. -/
theorem asksFor_question_of_whole (hp : p ∈ w.parameters) (h : wholeGroup? p context = some group) :
    (w.question p context).AsksFor n ↔ n ∈ (w.members group).map Parameter.name := by
  obtain ⟨hgroup, hsides⟩ := wholeGroup?_eq_some.mp h
  have hmembers : (w.question p context).members = (w.members group).map Parameter.name := by
    simp [question, hgroup, hsides]
  rw [Question.AsksFor, hmembers, parameter_question, or_iff_right_iff_imp]
  rintro rfl
  exact List.mem_map_of_mem (mem_members.mpr ⟨hp, hgroup⟩)

/-- Any other question asks for one parameter. -/
theorem asksFor_question_of_not_whole (h : wholeGroup? p context = none) :
    (w.question p context).AsksFor n ↔ p.name = n := by
  have hmembers : (w.question p context).members = [] := by
    unfold question
    split
    · rfl
    · next group hgroup =>
      have hsides : ¬ (Text.sidesIn context).isEmpty := fun hsides =>
        nomatch h.symm.trans (wholeGroup?_eq_some.mpr ⟨hgroup, hsides⟩)
      rw [if_neg hsides]
      rfl
  simp [Question.AsksFor, hmembers]

/-- Of one text, a question that asks for a parameter asks for all that other questions for it ask for. -/
theorem asksFor_question_trans {q : Parameter} (hd : (w.parameters.map Parameter.name).Nodup)
    (hp : p ∈ w.parameters) (hq : q ∈ w.parameters) (hpn : (w.question p context).AsksFor n)
    (hqn : (w.question q context).AsksFor n) : (w.question q context).AsksFor p.name := by
  have hgroup : ∀ {t u : Parameter} {g : String}, t ∈ w.members g → u ∈ w.parameters → t.name = u.name →
      u.group = some g := by
    intro t u g ht hu hname
    obtain ⟨ht, hg⟩ := mem_members.mp ht
    exact eq_of_name hd ht hu hname ▸ hg
  cases hpw : wholeGroup? p context with
  | none => rwa [(asksFor_question_of_not_whole hpw).mp hpn]
  | some g =>
    obtain ⟨t, ht, rfl⟩ := List.mem_map.mp ((asksFor_question_of_whole hp hpw).mp hpn)
    obtain ⟨hpg, hsides⟩ := wholeGroup?_eq_some.mp hpw
    cases hqw : wholeGroup? q context with
    | none =>
      have hqt := (asksFor_question_of_not_whole hqw).mp hqn
      have hqg := hgroup ht hq hqt.symm
      exact nomatch hqw.symm.trans (wholeGroup?_eq_some.mpr ⟨hqg, hsides⟩)
    | some g' =>
      obtain ⟨t', ht', hname⟩ := List.mem_map.mp ((asksFor_question_of_whole hq hqw).mp hqn)
      obtain ⟨ht, hg⟩ := mem_members.mp ht
      obtain rfl : g = g' := Option.some.inj (hg.symm.trans (hgroup ht' ht hname))
      exact (asksFor_question_of_whole hq hqw).mpr (List.mem_map_of_mem (mem_members.mpr ⟨hp, hpg⟩))

/-- A reply to a question for a whole group is meant for all that the question asks for. -/
theorem mem_targets_of_whole (hd : (w.parameters.map Parameter.name).Nodup) (hp : p ∈ w.parameters)
    (h : wholeGroup? p context = some group) (hn : (w.question p context).AsksFor n) :
    n ∈ (w.targets p.name context).map Parameter.name := by
  obtain ⟨hgroup, hsides⟩ := wholeGroup?_eq_some.mp h
  rw [targets_of_no_side hd hp hsides, fellows, hgroup]
  exact (asksFor_question_of_whole hp h).mp hn

/-- A reply is meant for all that its question asks for, unless the text speaks of another side. -/
theorem mem_targets_of_asksFor (hd : (w.parameters.map Parameter.name).Nodup) (hp : p ∈ w.parameters)
    (h : ¬ w.Elsewhere p context) (hn : (w.question p context).AsksFor n) :
    n ∈ (w.targets p.name context).map Parameter.name := by
  cases hwhole : wholeGroup? p context with
  | none =>
    obtain rfl := (asksFor_question_of_not_whole hwhole).mp hn
    exact List.mem_map_of_mem ((mem_targets_self hd hp).mpr h)
  | some group => exact mem_targets_of_whole hd hp hwhole hn

theorem asksFor_questionsAfter {asked : List String} {us : List Unresolved} :
    (∃ q ∈ w.questionsAfter asked us, q.AsksFor n) ↔
      ∃ u ∈ us, ∃ p, w.parameter? u.name = some p ∧ (∀ group ∈ wholeGroup? p u.context, group ∉ asked) ∧
        (w.question p u.context).AsksFor n := by
  induction us generalizing asked with
  | nil => simp [questionsAfter]
  | cons u rest ih =>
    rw [questionsAfter]
    simp only [List.exists_mem_cons_iff]
    split
    · next hnone => simp [hnone, ih]
    · next p hp =>
      split
      · next hwhole => simp [hp, hwhole, ih]
      · next group hwhole =>
        split
        · next hasked =>
          have hasked : group ∈ asked := List.contains_iff_mem.mp hasked
          simp [hp, hwhole, hasked, ih]
        · next hnew =>
          have hnew : group ∉ asked := fun h => hnew (List.contains_iff_mem.mpr h)
          have hhead : (∃ p', w.parameter? u.name = some p' ∧
              (∀ group ∈ wholeGroup? p' u.context, group ∉ asked) ∧ (w.question p' u.context).AsksFor n) ↔
              (w.question p u.context).AsksFor n := by simp [hp, hwhole, hnew]
          rw [hhead, List.exists_mem_cons_iff, ih]
          constructor
          · rintro (hasks | ⟨u', hu', p', hp', hgroups, hasks⟩)
            · exact .inl hasks
            · exact .inr ⟨u', hu', p', hp', fun g hg hmem => hgroups g hg (List.mem_cons_of_mem _ hmem), hasks⟩
          · rintro (hasks | ⟨u', hu', p', hp', hgroups, hasks⟩)
            · exact .inl hasks
            · by_cases hsame : wholeGroup? p' u'.context = some group
              · -- the first question for a group stands for all of them
                have hmembers := (asksFor_question_of_whole (List.mem_of_find?_eq_some hp') hsame).mp hasks
                exact .inl ((asksFor_question_of_whole (List.mem_of_find?_eq_some hp) hwhole).mpr hmembers)
              · refine .inr ⟨u', hu', p', hp', fun g hg hmem => ?_, hasks⟩
                rcases List.mem_cons.mp hmem with rfl | hmem
                · exact hsame hg
                · exact hgroups g hg hmem

/-- The questions ask for what the question of each open parameter asks for. -/
theorem asksFor_questions {us : List Unresolved} :
    (∃ q ∈ w.questions us, q.AsksFor n) ↔
      ∃ u ∈ us, ∃ p, w.parameter? u.name = some p ∧ (w.question p u.context).AsksFor n := by
  simp [questions, asksFor_questionsAfter]

theorem mem_questionsAfter {asked : List String} {us : List Unresolved} {q : Question}
    (h : q ∈ w.questionsAfter asked us) :
    ∃ u ∈ us, ∃ p, w.parameter? u.name = some p ∧ q = w.question p u.context := by
  induction us generalizing asked with
  | nil => simp [questionsAfter] at h
  | cons u rest ih =>
    have hlater : ∀ {asked}, q ∈ w.questionsAfter asked rest →
        ∃ u' ∈ u :: rest, ∃ p, w.parameter? u'.name = some p ∧ q = w.question p u'.context := by
      intro asked h
      obtain ⟨u', hu', hq⟩ := ih h
      exact ⟨u', List.mem_cons_of_mem u hu', hq⟩
    rw [questionsAfter] at h
    split at h
    · exact hlater h
    · next p hp =>
      split at h
      · rcases List.mem_cons.mp h with rfl | h
        · exact ⟨u, List.mem_cons_self, p, hp, rfl⟩
        · exact hlater h
      · split at h
        · exact hlater h
        · rcases List.mem_cons.mp h with rfl | h
          · exact ⟨u, List.mem_cons_self, p, hp, rfl⟩
          · exact hlater h

/-- A question about what one text leaves open is that of a parameter. -/
theorem mem_questions {us : List Unresolved} {q : Question} (hus : ∀ u ∈ us, u.context = context)
    (h : q ∈ w.questions us) : ∃ u ∈ us, ∃ p ∈ w.parameters, p.name = u.name ∧ q = w.question p context := by
  obtain ⟨u, hu, p, hp, rfl⟩ := mem_questionsAfter h
  exact ⟨u, hu, p, List.mem_of_find?_eq_some hp, by simpa using List.find?_some hp, by rw [hus u hu]⟩

/-- When answers were given for `names`, among them all that a reply to this question is meant for, the questions
that are left ask for what it asked for if there was no answer for that. -/
theorem asksFor_unanswered_iff {us : List Unresolved} {names : List String} {u : Unresolved}
    (hd : (w.parameters.map Parameter.name).Nodup) (hus : ∀ u ∈ us, u.context = context) (hu : u ∈ us)
    (hp : p ∈ w.parameters) (hname : p.name = u.name)
    (hnames : ∀ m ∈ (w.targets p.name context).map Parameter.name, m ∈ names)
    (hn : (w.question p context).AsksFor n) :
    (∃ q ∈ w.questions (us.filter fun u => u.name ∉ names), q.AsksFor n) ↔ n ∉ names := by
  rw [asksFor_questions]
  constructor
  · rintro ⟨u', hu', p', hp', hn'⟩ hanswered
    obtain ⟨hu', hleft⟩ := List.mem_filter.mp hu'
    rw [hus u' hu'] at hn'
    have hmem : p' ∈ w.parameters := List.mem_of_find?_eq_some hp'
    have hname' : p'.name = u'.name := by simpa using List.find?_some hp'
    have hasks := asksFor_question_trans hd hmem hp hn' hn
    suffices hanswered' : p'.name ∈ names by simp [← hname', hanswered'] at hleft
    cases hwhole : wholeGroup? p context with
    | none =>
      have hpn := (asksFor_question_of_not_whole hwhole).mp hn
      have hpp' := (asksFor_question_of_not_whole hwhole).mp hasks
      rwa [← hpp', hpn]
    | some group => exact hnames _ (mem_targets_of_whole hd hp hwhole hasks)
  · intro hunanswered
    cases hwhole : wholeGroup? p context with
    | none =>
      obtain rfl := (asksFor_question_of_not_whole hwhole).mp hn
      refine ⟨u, List.mem_filter.mpr ⟨hu, by simpa [← hname] using hunanswered⟩, p, ?_, ?_⟩
      · rw [← hname, parameter?_eq hd hp]
      · rwa [hus u hu]
    | some group => exact absurd (hnames n (mem_targets_of_whole hd hp hwhole hn)) hunanswered

end Workflow

end GoalCompiler
