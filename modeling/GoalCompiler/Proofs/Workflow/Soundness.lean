import GoalCompiler.Compilation.Stages
import GoalCompiler.Proofs.Workflow.Acceptance
import GoalCompiler.Proofs.Workflow.Computation

/-! Bindings that a workflow agrees to: what is bound to the name of a parameter is a value that it takes.
Binding such values keeps it so, and so does working out the computed parameters. -/
namespace GoalCompiler

namespace Bindings

variable {w : Workflow} {b b' : Bindings} {n m : String} {v : Json} {source : Source}

/-- Every bound value is taken by the parameter of that name. -/
def Sound (w : Workflow) (b : Bindings) : Prop := ∀ n v, b.value? n = some v → w.Takes n v

/-- The name has a value. -/
def Binds (b : Bindings) (n : String) : Prop := (b.value? n).isSome

theorem sound_insert (hb : Sound w b) (hv : w.Takes n v) : Sound w (Dict.insert b n ⟨v, source⟩) := by
  intro m u hu
  by_cases hm : m = n
  · subst hm
    rw [value?, Dict.get?_insert_self] at hu
    obtain rfl := Option.some.inj hu
    exact hv
  · rw [value?, Dict.get?_insert_of_ne _ _ hm] at hu
    exact hb m u hu

theorem binds_insert (h : b.Binds m ∨ m = n) : Binds (Dict.insert b n ⟨v, source⟩) m := by
  by_cases hm : m = n
  · rw [Binds, value?, hm, Dict.get?_insert_self]
    rfl
  · rw [Binds, value?, Dict.get?_insert_of_ne _ _ hm]
    exact h.resolve_right hm

theorem binds_of_isExplicit (h : b.isExplicit n) : b.Binds n := by
  unfold isExplicit source? at h
  unfold Binds value?
  cases hget : Dict.get? b n with
  | none => simp [hget] at h
  | some x => rfl

theorem sound_bind (hb : Sound w b) (hv : w.Takes n v) : Sound w (b.bind n v source) := by
  unfold bind
  split
  · exact sound_insert hb hv
  · exact hb

theorem binds_bind (h : b.Binds m ∨ m = n) : Binds (b.bind n v source) m := by
  unfold bind
  split
  · exact binds_insert h
  · rename_i hadmits
    refine h.elim id fun hm => hm ▸ binds_of_isExplicit ?_
    -- a value is turned away only by one that the caller gave
    simp only [admits, Bool.or_eq_true, Bool.not_eq_true', not_or, Bool.not_eq_false] at hadmits
    exact hadmits.1

section All

variable {α : Type} {name : α → String} {value : α → Json} {source : α → Source} {xs : List α}

theorem sound_bindAll (hb : Sound w b) (hv : ∀ x ∈ xs, w.Takes (name x) (value x)) :
    Sound w (xs.foldl (fun b x => b.bind (name x) (value x) (source x)) b) := by
  induction xs generalizing b with
  | nil => exact hb
  | cons x xs ih =>
    obtain ⟨hx, hxs⟩ := List.forall_mem_cons.mp hv
    exact ih (sound_bind hb hx) hxs

theorem binds_bindAll (h : b.Binds m ∨ m ∈ xs.map name) :
    Binds (xs.foldl (fun b x => b.bind (name x) (value x) (source x)) b) m := by
  induction xs generalizing b with
  | nil => exact h.resolve_right (by simp)
  | cons x xs ih =>
    rw [List.map_cons, List.mem_cons, ← or_assoc] at h
    exact ih (h.imp binds_bind id)

end All

/-! ### Computed parameters -/

variable {order : List ComputedParameter}

theorem sound_compute (hd : (w.parameters.map Parameter.name).Nodup)
    (hparams : ∀ c ∈ order, c.parameter ∈ w.parameters) (hb : Sound w b)
    (h : b.compute order = ⟨b', none⟩) : Sound w b' := by
  induction order generalizing b with
  | nil =>
    obtain rfl : b = b' := congrArg Progress.bindings h
    exact hb
  | cons c rest ih =>
    obtain ⟨hc, hrest⟩ := List.forall_mem_cons.mp hparams
    rcases compute_cons_eq_ok h with ⟨-, h⟩ | ⟨-, v, hv, h⟩
    · exact ih hrest hb h
    · obtain ⟨s, -, haccept⟩ := ComputedParameter.evaluate_eq_ok.mp hv
      exact ih hrest (sound_insert hb (Workflow.takes_of_accept hd hc haccept)) h

theorem binds_compute (h : b.compute order = ⟨b', none⟩)
    (hm : b.Binds m ∨ m ∈ order.map ComputedParameter.name) : b'.Binds m := by
  induction order generalizing b with
  | nil =>
    obtain rfl : b = b' := congrArg Progress.bindings h
    exact hm.resolve_right (by simp)
  | cons c rest ih =>
    rw [List.map_cons, List.mem_cons, ← or_assoc] at hm
    rcases compute_cons_eq_ok h with ⟨hex, h⟩ | ⟨-, v, -, h⟩
    · refine ih h (hm.imp (fun hm => hm.elim id fun hm => ?_) id)
      exact hm ▸ binds_of_isExplicit hex
    · exact ih h (hm.imp binds_insert id)

end Bindings

namespace Workflow

open Bindings (Sound Binds)

variable {w : Workflow} {b b' : Bindings}

/-! ### What a request starts from -/

theorem sound_defaultBindings (hf : w.Fit) : Sound w w.defaultBindings := by
  have hempty : Sound w [] := fun n v h => by simp [Bindings.value?, Dict.get?] at h
  have hdeclared : Sound w ((w.parameters.filter fun p => !p.isComputed).foldl
      (fun b p => Bindings.bind b p.name p.default .default) []) :=
    Bindings.sound_bindAll hempty fun p hp => by
      obtain ⟨hp, hc⟩ := List.mem_filter.mp hp
      exact takes_default hf hp (by simpa using hc)
  exact Bindings.sound_bindAll hdeclared hf.preset

theorem binds_defaultBindings {p : Parameter} (hp : p ∈ w.parameters) (hc : ¬ p.isComputed) :
    Binds w.defaultBindings p.name := by
  have hmem : p ∈ w.parameters.filter fun p => !p.isComputed :=
    List.mem_filter.mpr ⟨hp, by simpa using hc⟩
  exact Bindings.binds_bindAll (.inl (Bindings.binds_bindAll (.inr (List.mem_map_of_mem hmem))))

theorem bindExplicit_spec (hd : (w.parameters.map Parameter.name).Nodup) {entries : List (String × Json)}
    (h : w.bindExplicit b entries = .ok b') (hb : Sound w b) :
    Sound w b' ∧ ∀ m, b.Binds m → b'.Binds m := by
  induction entries generalizing b with
  | nil =>
    obtain rfl := Except.ok.inj h
    exact ⟨hb, fun _ hm => hm⟩
  | cons e rest ih =>
    obtain ⟨name, value⟩ := e
    rw [bindExplicit] at h
    split at h
    · rename_i p hp
      obtain rfl : p.name = name := by simpa using List.find?_some hp
      have hmem : p ∈ w.parameters := List.mem_of_find?_eq_some hp
      split at h
      · rename_i v hv
        obtain ⟨hs, hk⟩ := ih h (Bindings.sound_bind hb (takes_of_accept hd hmem hv))
        exact ⟨hs, fun m hm => hk m (Bindings.binds_bind (.inl hm))⟩
      · simp at h
    · rename_i hnone
      split at h
      · -- no parameter has the name, so there is nothing to refuse the value
        have hv : w.Takes name value := fun q hq hname =>
          absurd hname (by simpa using List.find?_eq_none.mp hnone q hq)
        obtain ⟨hs, hk⟩ := ih h (Bindings.sound_bind hb hv)
        exact ⟨hs, fun m hm => hk m (Bindings.binds_bind (.inl hm))⟩
      · simp at h

theorem initialBindings_spec (hf : w.Fit) {explicit : Dict Json}
    (h : w.initialBindings explicit = .ok b) :
    Sound w b ∧ ∀ p ∈ w.parameters, ¬ p.isComputed → b.Binds p.name := by
  obtain ⟨hs, hk⟩ := bindExplicit_spec hf.distinct h (sound_defaultBindings hf)
  exact ⟨hs, fun p hp hc => hk p.name (binds_defaultBindings hp hc)⟩

end Workflow

end GoalCompiler
