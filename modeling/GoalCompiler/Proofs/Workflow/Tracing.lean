import GoalCompiler.Proofs.Expression.Absence
import GoalCompiler.Proofs.Outcome
import GoalCompiler.Workflow.Filling

/-! The names that a result is traced to. A computation that goes by a scope is traced when its result rests
on nothing but the names that come with it: any scope that has their bindings gives the same result. Filling
in templates is traced, for a text, for a value of any depth, and for a step. -/
namespace GoalCompiler

open Expression (Scope ExtendsOn extendsOn_union)

variable {ε α β : Type}

/-- Where it succeeds, it does the same in every scope with the bindings of the names it gives. -/
def IsTraced (run : Scope → Except ε (Traced α)) : Prop :=
  ∀ s t a, run s = .ok a → ExtendsOn a.names s t → run t = .ok a

namespace IsTraced

/-- What does not look at the scope is traced. -/
theorem const (r : Except ε (Traced α)) : IsTraced fun _ => r := fun _ _ _ h _ => h

theorem map {run : Scope → Except ε (Traced α)} (h : IsTraced run) (f : α → β) :
    IsTraced fun s => (run s).map (·.map f) := by
  intro s t b hb hext
  obtain ⟨a, ha, rfl⟩ := Outcome.map_eq_ok.mp hb
  exact Outcome.map_eq_ok.mpr ⟨a, h s t a ha hext, rfl⟩

/-- One result after the other, with the names of both. -/
theorem pair {γ : Type} {first : Scope → Except ε (Traced α)} {second : Scope → Except ε (Traced β)}
    (hf : IsTraced first) (hs : IsTraced second) (f : α × β → γ) :
    IsTraced fun s => do
      let a ← first s
      let b ← second s
      return (a.pair b).map f := by
  intro s t c hc hext
  obtain ⟨a, ha, hc⟩ := Outcome.bind_eq_ok.mp hc
  obtain ⟨b, hb, hc⟩ := Outcome.bind_eq_ok.mp hc
  obtain rfl := Except.ok.inj hc
  obtain ⟨hexta, hextb⟩ := extendsOn_union.mp hext
  exact Outcome.bind_eq_ok.mpr ⟨a, hf s t a ha hexta,
    Outcome.bind_eq_ok.mpr ⟨b, hs s t b hb hextb, rfl⟩⟩

end IsTraced

/-! ### Templates -/

theorem Template.subset_of_fillSegments {segments : List Segment} {text : String} {names : NameSet}
    {filled : Filled} (h : Template.fillSegments s text names segments = .ok filled) :
    names ⊆ filled.referenced := by
  fun_induction Template.fillSegments s text names segments with
  | case1 text names =>
    obtain rfl := Except.ok.inj h
    exact List.Subset.refl _
  | case2 text names c rest ih => exact ih h
  | case3 text names name rest j hj ih =>
    exact fun m hm => ih h (NameSet.mem_insert.mpr (.inr hm))
  | case4 => cases h
  | case5 => cases h

theorem Template.fillSegments_of_extendsOn {segments : List Segment} {text : String} {names : NameSet}
    {filled : Filled} (h : Template.fillSegments s text names segments = .ok filled)
    (hext : ExtendsOn filled.referenced s t) :
    Template.fillSegments t text names segments = .ok filled := by
  fun_induction Template.fillSegments s text names segments with
  | case1 => exact h
  | case2 text names c rest ih => exact ih h
  | case3 text names name rest j hj ih =>
    have hmem : name ∈ filled.referenced :=
      Template.subset_of_fillSegments h (NameSet.mem_insert.mpr (.inl rfl))
    rw [Template.fillSegments, hext name hmem j hj]
    exact ih h
  | case4 => cases h
  | case5 => cases h

namespace Filling

theorem isTraced_text (template : String) : IsTraced fun s => text s template := by
  intro s t a h hext
  change text s template = .ok a at h
  unfold text at h
  split at h
  · rename_i filled hfilled
    obtain rfl := Except.ok.inj h
    have hsegments := Outcome.mapError_eq_ok.mp hfilled
    have hfilled : Template.fill t template = .ok filled :=
      Outcome.mapError_eq_ok.mpr (Template.fillSegments_of_extendsOn hsegments hext)
    simp only [text, hfilled]
  · cases h

theorem isTraced_optional (template : Option String) : IsTraced fun s => optional s template := by
  cases template with
  | none => exact .const _
  | some template => exact (isTraced_text template).map some

theorem isTraced_texts (templates : List String) : IsTraced fun s => texts s templates := by
  induction templates with
  | nil => exact .const _
  | cons template rest ih => exact (isTraced_text template).pair ih fun p => p.1 :: p.2

mutual

theorem isTraced_value (j : Json) : IsTraced fun s => value s j := by
  cases j with
  | str template => exact (isTraced_text template).map Json.str
  | arr items => exact (isTraced_values items).map Json.arr
  | obj members => exact (isTraced_dict members).map Json.obj
  | null | bool | int | float => exact .const _

theorem isTraced_values (items : List Json) : IsTraced fun s => values s items := by
  match items with
  | [] => exact .const _
  | j :: rest => exact (isTraced_value j).pair (isTraced_values rest) fun (a, b) => a :: b

theorem isTraced_dict (members : List (String × Json)) : IsTraced fun s => dict s members := by
  match members with
  | [] => exact .const _
  | (k, j) :: rest => exact (isTraced_value j).pair (isTraced_dict rest) fun (a, b) => (k, a) :: b

end

/-- All five kinds of texts in a step are traced by the names of the step. -/
theorem isTraced_step (template : Step) : IsTraced fun s => step s template := by
  intro s t filled h hext
  obtain ⟨id, hid, h⟩ := Outcome.bind_eq_ok.mp h
  obtain ⟨description, hdescription, h⟩ := Outcome.bind_eq_ok.mp h
  obtain ⟨condition, hcondition, h⟩ := Outcome.bind_eq_ok.mp h
  obtain ⟨dependsOn, hdependsOn, h⟩ := Outcome.bind_eq_ok.mp h
  obtain ⟨params, hparams, h⟩ := Outcome.bind_eq_ok.mp h
  obtain rfl := Except.ok.inj h
  obtain ⟨hext, hp⟩ := extendsOn_union.mp hext
  obtain ⟨hext, hd⟩ := extendsOn_union.mp hext
  obtain ⟨hext, hc⟩ := extendsOn_union.mp hext
  obtain ⟨hi, he⟩ := extendsOn_union.mp hext
  simp only [step, isTraced_optional _ s t _ hid hi, isTraced_optional _ s t _ hdescription he,
    isTraced_optional _ s t _ hcondition hc, isTraced_texts _ s t _ hdependsOn hd,
    isTraced_dict _ s t _ hparams hp]
  rfl

end Filling

end GoalCompiler
