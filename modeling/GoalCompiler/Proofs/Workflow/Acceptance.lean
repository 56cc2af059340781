import GoalCompiler.Goal.Targets
import GoalCompiler.Proofs.Outcome
import GoalCompiler.Workflow.Validation
import Mathlib.Data.List.Nodup

/-! Values that parameters take. The form in which a parameter takes a value is one that it takes again. A
workflow that passes validation has distinct parameters, and its defaults are values that they take. -/
namespace GoalCompiler

namespace Parameter

variable {p : Parameter} {value v : Json}

theorem accept_eq_ok :
    p.accept value = .ok v ↔ p.type.coerce? value = some v ∧ p.inRange v ∧ p.isAllowed v := by
  unfold accept
  split
  · rename_i hnone
    simp [hnone]
  · rename_i u hsome
    rw [hsome]
    constructor
    · intro h
      split_ifs at h with hrange hallowed
      obtain rfl := Except.ok.inj h
      exact ⟨rfl, by simpa using hrange, by simpa using hallowed⟩
    · rintro ⟨hu, hrange, hallowed⟩
      obtain rfl := Option.some.inj hu
      simp [hrange, hallowed]

theorem coerce?_idem {t : ValueType} (h : t.coerce? value = some v) : t.coerce? v = some v := by
  cases t <;> cases value <;> simp only [ValueType.coerce?, Option.map_eq_some_iff, reduceCtorEq] at h
  case int.float =>
    obtain ⟨n, -, rfl⟩ := h
    rfl
  all_goals
    obtain rfl := Option.some.inj h
    rfl

/-- What comes out of `accept` is accepted as it is. -/
theorem accept_idem (h : p.accept value = .ok v) : p.accept v = .ok v := by
  obtain ⟨hcoerce, hrest⟩ := accept_eq_ok.mp h
  exact accept_eq_ok.mpr ⟨coerce?_idem hcoerce, hrest⟩

theorem accepts_iff : p.accepts value ↔ ∃ v, p.accept value = .ok v := by
  unfold accepts
  cases p.accept value <;> simp [Except.toBool]

theorem accepts_of_accept (h : p.accept value = .ok v) : p.accepts v :=
  accepts_iff.mpr ⟨v, accept_idem h⟩

end Parameter

namespace Workflow

variable {w : Workflow} {name : String} {v : Json}

/-- The parameter of that name, if there is one, takes the value. -/
def Takes (w : Workflow) (name : String) (v : Json) : Prop :=
  ∀ p ∈ w.parameters, p.name = name → p.accepts v

/-- What validation makes sure of. -/
structure Fit (w : Workflow) : Prop where
  distinct : (w.parameters.map Parameter.name).Nodup
  standard : ∀ p ∈ w.parameters, ¬ p.isComputed → p.accepts p.default
  preset : ∀ e ∈ w.defaults, w.Takes e.1 e.2

theorem eq_of_name (hd : (w.parameters.map Parameter.name).Nodup) {p q : Parameter}
    (hp : p ∈ w.parameters) (hq : q ∈ w.parameters) (h : p.name = q.name) : p = q :=
  List.inj_on_of_nodup_map hd hp hq h

theorem parameter?_eq (hd : (w.parameters.map Parameter.name).Nodup) {p : Parameter}
    (hp : p ∈ w.parameters) : w.parameter? p.name = some p := by
  cases h : w.parameter? p.name with
  | none => simpa using List.find?_eq_none.mp h p hp
  | some q =>
    have hname : q.name = p.name := by simpa using List.find?_some h
    rw [eq_of_name hd (List.mem_of_find?_eq_some h) hp hname]

/-- A value in the form in which a parameter takes it can be bound to its name. -/
theorem takes_of_accept (hd : (w.parameters.map Parameter.name).Nodup) {p : Parameter} {value : Json}
    (hp : p ∈ w.parameters) (h : p.accept value = .ok v) : w.Takes p.name v := fun _ hq hname =>
  eq_of_name hd hp hq hname.symm ▸ Parameter.accepts_of_accept h

theorem takes_default (hf : w.Fit) {p : Parameter} (hp : p ∈ w.parameters) (hc : ¬ p.isComputed) :
    w.Takes p.name p.default := fun _ hq hname =>
  eq_of_name hf.distinct hp hq hname.symm ▸ hf.standard p hp hc

/-! ### What validation makes sure of -/

theorem require_eq_ok {condition : Bool} {flaw : DefinitionFlaw} :
    w.require condition flaw = .ok () ↔ condition := by
  unfold require
  split <;> simp_all

theorem requireValue_eq_ok {r : Except ValueError Json} {flaw : ValueError → DefinitionFlaw} :
    w.requireValue r flaw = .ok () ↔ r.toBool := by
  unfold requireValue
  split <;> simp [Except.toBool]

theorem checkParameter_eq_ok {before : List Parameter} {p : Parameter}
    (h : w.checkParameter before p = .ok ()) :
    p.name ∉ before.map Parameter.name ∧ (¬ p.isComputed → p.accepts p.default) := by
  have hdefault : (if p.isComputed then pure () else w.requireValue (p.accept p.default)
      .parameterDefault : Except Failure Unit) = .ok () → ¬ p.isComputed → p.accepts p.default := by
    intro h hc
    rw [if_neg hc] at h
    exact requireValue_eq_ok.mp h
  obtain ⟨-, -, h⟩ := Outcome.bind_eq_ok.mp h
  obtain ⟨-, -, h⟩ := Outcome.bind_eq_ok.mp h
  obtain ⟨⟨⟩, hnew, h⟩ := Outcome.bind_eq_ok.mp h
  have hname : p.name ∉ before.map Parameter.name := by
    rw [require_eq_ok, Bool.not_eq_true', List.any_eq_false] at hnew
    intro hmem
    obtain ⟨q, hq, hqp⟩ := List.mem_map.mp hmem
    exact hnew q hq (by simp [hqp])
  dsimp only at h
  split at h
  · obtain ⟨-, -, h⟩ := Outcome.bind_eq_ok.mp h
    exact ⟨hname, hdefault h⟩
  · exact ⟨hname, hdefault h⟩

theorem checkParameters_eq_ok {before ps : List Parameter} (hb : (before.map Parameter.name).Nodup)
    (h : w.checkParameters before ps = .ok ()) :
    ((before ++ ps).map Parameter.name).Nodup ∧ ∀ p ∈ ps, ¬ p.isComputed → p.accepts p.default := by
  induction ps generalizing before with
  | nil => simpa using hb
  | cons p ps ih =>
    obtain ⟨⟨⟩, hp, h⟩ := Outcome.bind_eq_ok.mp h
    obtain ⟨hnew, hdefault⟩ := checkParameter_eq_ok hp
    have hb' : ((before ++ [p]).map Parameter.name).Nodup := by
      rw [List.map_append, List.nodup_append]
      refine ⟨hb, List.nodup_singleton _, fun n hn m hm heq => ?_⟩
      obtain rfl := List.mem_singleton.mp hm
      exact hnew (heq ▸ hn)
    obtain ⟨hnodup, hrest⟩ := ih hb' h
    rw [List.append_assoc] at hnodup
    exact ⟨hnodup, List.forall_mem_cons.mpr ⟨hdefault, hrest⟩⟩

/-- What validation checks, all of it. -/
structure Checked (w : Workflow) : Prop where
  name : checkWorkflowName w.name = .ok ()
  parameters : w.checkParameters [] w.parameters = .ok ()
  dependencies : w.checkDependencies = .ok ()
  order : ∃ order, ComputedParameter.inOrder w = .ok order
  modifiers : ∀ m ∈ w.modifiers, w.checkModifier m = .ok ()
  defaults : w.checkDefaults = .ok ()
  steps : ∀ s ∈ w.steps, w.checkStep s = .ok ()
  acyclic : Dependent.cycle? w.literalSteps = none

theorem checked_of_validate (h : w.validate = .ok ()) : w.Checked := by
  obtain ⟨⟨⟩, hname, h⟩ := Outcome.bind_eq_ok.mp h
  obtain ⟨⟨⟩, hparameters, h⟩ := Outcome.bind_eq_ok.mp h
  obtain ⟨⟨⟩, hdependencies, h⟩ := Outcome.bind_eq_ok.mp h
  obtain ⟨order, horder, h⟩ := Outcome.bind_eq_ok.mp h
  obtain ⟨⟨⟩, hmodifiers, h⟩ := Outcome.bind_eq_ok.mp h
  obtain ⟨⟨⟩, hdefaults, h⟩ := Outcome.bind_eq_ok.mp h
  obtain ⟨⟨⟩, hsteps, h⟩ := Outcome.bind_eq_ok.mp h
  refine ⟨hname, hparameters, hdependencies, ⟨order, horder⟩, Outcome.forM_eq_ok.mp hmodifiers, hdefaults,
    Outcome.forM_eq_ok.mp hsteps, ?_⟩
  split at h
  · exact absurd h Outcome.throw_ne_ok
  · assumption

theorem fit_of_validate (h : w.validate = .ok ()) : w.Fit := by
  have hc := checked_of_validate h
  have hempty : (([] : List Parameter).map Parameter.name).Nodup := List.nodup_nil
  obtain ⟨hdistinct, hstandard⟩ := checkParameters_eq_ok hempty hc.parameters
  refine ⟨hdistinct, hstandard, fun e he p hp hname => ?_⟩
  have hentry := Outcome.forM_eq_ok.mp hc.defaults e he
  obtain ⟨-, -, hentry⟩ := Outcome.bind_eq_ok.mp hentry
  rw [← hname, parameter?_eq hdistinct hp] at hentry
  exact requireValue_eq_ok.mp hentry

end Workflow

end GoalCompiler
