import GoalCompiler.Compilation.Compiler
import GoalCompiler.Proofs.Outcome

/-! What the stages of a compilation fail with. A pass over the computed parameters fails with the fault of an
expression or of a value, as it is. What comes after the passes fails with neither: where an expression of a step
has no value, the step is named. -/
namespace GoalCompiler

/-- An expression has no value, or a parameter does not take its value; it is not said in which step. -/
def Failure.OfComputed : Failure → Prop
  | .expression _ => True
  | .value _ => True
  | _ => False

open Outcome (FailsOnly failsOnly_ok failsOnly_error failsOnly_mapM)

theorem ComputedParameter.failsOnly_evaluate (c : ComputedParameter) (b : Bindings) :
    FailsOnly Failure.OfComputed (c.evaluate b) := by
  unfold evaluate
  split
  · exact failsOnly_error trivial
  · cases c.parameter.accept _ with
    | ok v => exact failsOnly_ok
    | error e => exact failsOnly_error trivial

/-- A pass fails with an expression or a value. -/
theorem Compiler.failsOnly_computed (b : Bindings) (order : List ComputedParameter) :
    FailsOnly Failure.OfComputed (computed b order) := by
  induction order generalizing b with
  | nil => exact failsOnly_ok
  | cons c rest ih =>
    rw [computed, Bindings.compute]
    split_ifs
    · exact ih b
    · cases hvalue : c.evaluate b with
      | error e => exact failsOnly_error (c.failsOnly_evaluate b e hvalue)
      | ok v => exact ih _

/-! ### Steps -/

theorem Failure.not_ofComputed_inside (label : String) (e : Failure) : ¬ (e.inside label).OfComputed := by
  cases e <;> exact id

namespace Unrolling

variable {scope : Expression.Scope} {limit emitted : Nat}

theorem failsOnly_plan (s : Step) : FailsOnly (¬ Failure.OfComputed ·) (plan scope s) := by
  unfold plan
  split
  · exact failsOnly_ok
  · rename_i l _
    cases planLoop scope s.label l.iteration with
    | ok p => exact failsOnly_ok
    | error e => exact failsOnly_error (e.not_ofComputed_inside s.label)

theorem failsOnly_checkGroup (group : String) (expected : Nat) (planned : List (Template × Plan)) :
    FailsOnly (¬ Failure.OfComputed ·) (checkGroup group expected planned) := by
  induction planned with
  | nil => exact failsOnly_ok
  | cons tp rest ih =>
    rw [checkGroup]
    split
    · exact ih
    · exact failsOnly_error id

theorem failsOnly_instantiate (t : Template) (bindings : Dict Json) :
    FailsOnly (¬ Failure.OfComputed ·) (instantiate scope t bindings) := by
  unfold instantiate
  split
  · exact failsOnly_ok
  · exact failsOnly_error (Failure.not_ofComputed_inside _ _)

theorem failsOnly_below_limit {α : Type} {n : Nat} {r : Except Failure α} (h : FailsOnly (¬ Failure.OfComputed ·) r) :
    FailsOnly (¬ Failure.OfComputed ·)
      (if limit < n then throw (.stepLimit limit n) >>= fun _ : Unit => r else r) := by
  split
  · exact failsOnly_error id
  · exact h

theorem failsOnly_unrollRun (run : List Template) :
    FailsOnly (¬ Failure.OfComputed ·) (unrollRun scope limit emitted run) := by
  refine (failsOnly_mapM fun t _ => (failsOnly_plan t.step).bind fun p => failsOnly_ok).bind fun planned => ?_
  have hcopies : ∀ count, FailsOnly (¬ Failure.OfComputed ·) (copies scope planned count) := fun count =>
    failsOnly_mapM fun tb _ => failsOnly_instantiate tb.1 tb.2
  dsimp only
  split
  · exact (failsOnly_checkGroup _ _ planned).bind fun _ => failsOnly_below_limit (hcopies _)
  · exact failsOnly_below_limit (hcopies _)

theorem failsOnly_unrollRuns (done : List Unrolled) (rs : List (List Template)) :
    FailsOnly (¬ Failure.OfComputed ·) (unrollRuns scope limit done rs) := by
  induction rs generalizing done with
  | nil => exact failsOnly_ok
  | cons run rest ih => exact (failsOnly_unrollRun run).bind fun more => ih _

end Unrolling

namespace Settled

variable {b : Bindings} {simulator : Option Simulator}

theorem failsOnly_settle (u : Unrolled) : FailsOnly (¬ Failure.OfComputed ·) (u.settle b) := by
  unfold Unrolled.settle
  split
  · exact failsOnly_ok
  · exact failsOnly_error (Failure.not_ofComputed_inside _ _)

theorem failsOnly_checkGraph (steps : List Settled) : FailsOnly (¬ Failure.OfComputed ·) (checkGraph steps) := by
  unfold checkGraph Dependent.check
  split
  · exact failsOnly_error id
  · split
    · exact failsOnly_error id
    · exact failsOnly_ok

theorem failsOnly_chooseFrom (state : HostState) (chosen : Chosen) (steps : List Settled) :
    FailsOnly (¬ Failure.OfComputed ·) (chooseFrom b simulator state chosen steps) := by
  induction steps generalizing state chosen with
  | nil => exact failsOnly_ok
  | cons s rest ih =>
    unfold chooseFrom
    split
    · exact ih _ _
    · exact ih _ _
    · exact failsOnly_error id

theorem failsOnly_inOrder (steps : List Settled) (dropped : List String) :
    FailsOnly (¬ Failure.OfComputed ·) (inOrder steps dropped) := by
  unfold inOrder Dependent.sequence
  split
  · exact failsOnly_error id
  · split
    · exact failsOnly_error id
    · split
      · exact failsOnly_ok
      · exact failsOnly_error id

end Settled

theorem Compiler.failsOnly_build (limit : Nat) (simulator : Option Simulator) (b : Bindings) (steps : List Step) :
    FailsOnly (¬ Failure.OfComputed ·) (build limit simulator b steps) :=
  (Unrolling.failsOnly_unrollRuns _ _).bind fun _ =>
    (failsOnly_mapM fun u _ => Settled.failsOnly_settle u).bind fun settled =>
      (Settled.failsOnly_checkGraph settled).bind fun _ =>
        (Settled.failsOnly_chooseFrom _ _ settled).bind fun chosen =>
          (Settled.failsOnly_inOrder chosen.accepted chosen.dropped).bind fun _ => failsOnly_ok

end GoalCompiler
