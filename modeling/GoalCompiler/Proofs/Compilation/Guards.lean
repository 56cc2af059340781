import GoalCompiler.Proofs.Compilation.Choice
import GoalCompiler.Proofs.Expression.Locality
import GoalCompiler.Proofs.Workflow.Sequence

/-! Conditions and the host's state. The condition of a step is decided in the state that the steps chosen
before it lead to, in the order of their declaration. Dependencies may then move the step behind others, and
the state that it is run in is another one. Where nothing has to move, the two are the same. -/
namespace GoalCompiler

namespace Settled

open Expression (AgreeOn Compiled)

variable {steps out : List Settled} {b : Bindings} {simulator : Option Simulator} {chosen : Chosen}

/-- What comes out are the accepted steps, each moved to a place of its own. -/
theorem inOrder_eq_ok {dropped : List String} (h : inOrder steps dropped = .ok out) :
    ∃ order, Graph.arrange (Dependent.needs (dependents steps)) = some order ∧
      order.Perm (List.range steps.length) ∧ out = order.filterMap fun i => steps[i]? := by
  obtain ⟨order, hsequence, rfl⟩ := Outcome.map_eq_ok.mp h
  have harrange := Dependent.arrange_of_sequence hsequence
  refine ⟨order, harrange, ?_, rfl⟩
  simpa [Dependent.needs, dependents] using (Graph.arrange_spec harrange).1

/-- Steps that depend on earlier ones only keep their order. -/
theorem inOrder_of_dependenciesFirst {dropped : List String} (hd : DependenciesFirst steps)
    (h : inOrder steps dropped = .ok out) : out = steps := by
  obtain ⟨order, harrange, -, rfl⟩ := inOrder_eq_ok h
  have hsorted : ∀ i j, Graph.Follows (Dependent.needs (dependents steps)) i j → j < i := by
    intro i j hf
    obtain ⟨d, e, id, hi, hj, hid, he⟩ := Dependent.follows_needs.mp hf
    obtain ⟨s, hs, rfl⟩ := Option.map_eq_some_iff.mp (List.getElem?_map ▸ hi)
    obtain ⟨t, ht, rfl⟩ := Option.map_eq_some_iff.mp (List.getElem?_map ▸ hj)
    exact hd i j s t id hs ht hid he
  obtain rfl : List.range _ = order := Option.some.inj ((Graph.arrange_of_sorted hsorted).symm.trans harrange)
  simpa [Dependent.needs, dependents] using Graph.filterMap_getElem?_range steps

/-! ### Guards -/

/-- The state after a step. Without a simulator nothing is known of it. -/
def foresee (simulator : Option Simulator) (state : HostState) (s : Settled) : HostState :=
  match simulator with
  | some simulator => simulator.apply state s.step
  | none => state

/-- The state before any step. -/
def startState (simulator : Option Simulator) : HostState := (simulator.map Simulator.start).getD []

/-- The state that steps lead to. -/
def stateAfter (simulator : Option Simulator) (state : HostState) (steps : List Settled) : HostState :=
  steps.foldl (foresee simulator) state

/-- The condition of the step, if it has one, is true in this state. -/
def Admitted (b : Bindings) (s : Settled) (state : HostState) : Prop :=
  ∀ source, s.step.condition = some source →
    ∃ e, Compiled.read source = .ok e ∧ e.holds (s.conditionScope b state) = .ok true

/-- Run one after another from this state, all steps are admitted where they are run. -/
def AdmittedAlong (b : Bindings) (simulator : Option Simulator) (state : HostState) (steps : List Settled) :
    Prop :=
  ∀ i s, steps[i]? = some s → Admitted b s (stateAfter simulator state (steps.take i))

theorem admittedAlong_cons {state : HostState} {s : Settled} (h : Admitted b s state)
    (hrest : AdmittedAlong b simulator (foresee simulator state s) steps) :
    AdmittedAlong b simulator state (s :: steps) := by
  intro i t ht
  cases i with
  | zero =>
    obtain rfl : s = t := by simpa using ht
    exact h
  | succ i => exact hrest i t (by simpa using ht)

theorem admitted_of_judge {s : Settled} {state : HostState} {referenced : NameSet}
    (h : s.judge b state = .keep referenced) : Admitted b s state := by
  intro source hsource
  unfold judge at h
  rw [hsource] at h
  dsimp only at h
  split at h
  · rename_i names hdecided
    obtain ⟨e, he, hrest⟩ := Outcome.bind_eq_ok.mp hdecided
    obtain ⟨holds, hholds, hpair⟩ := Outcome.bind_eq_ok.mp hrest
    obtain ⟨rfl, -⟩ := Prod.mk.inj (Except.ok.inj hpair)
    exact ⟨e, he, hholds⟩
  · cases h
  · split at h <;> cases h

theorem admittedAlong_of_chooseFrom {state : HostState} {out : Chosen}
    (h : chooseFrom b simulator state chosen steps = .ok out) :
    ∃ kept, out.accepted = chosen.accepted ++ kept ∧ AdmittedAlong b simulator state kept := by
  induction steps generalizing state chosen with
  | nil =>
    obtain rfl := Except.ok.inj h
    exact ⟨[], by simp, fun i s hs => by simp at hs⟩
  | cons s steps ih =>
    unfold chooseFrom at h
    split at h
    · rename_i referenced hkeep
      obtain ⟨kept, hacc, hkept⟩ := ih h
      -- the condition sees the loop variables only, and not what was read so far
      have hs : Admitted b { s with referenced } state := admitted_of_judge (s := s) hkeep
      exact ⟨{ s with referenced } :: kept, by simp [hacc], admittedAlong_cons hs hkept⟩
    · obtain ⟨kept, hacc, hkept⟩ := ih h
      exact ⟨kept, hacc, hkept⟩
    · cases h

/-- Every chosen step is admitted in the state that those chosen before it lead to. -/
theorem admittedAlong_of_choose (h : choose steps b simulator = .ok chosen) :
    AdmittedAlong b simulator (startState simulator) chosen.accepted := by
  obtain ⟨kept, hacc, hkept⟩ := admittedAlong_of_chooseFrom h
  obtain rfl : chosen.accepted = kept := by simpa using hacc
  exact hkept

/-- States that agree on the names a condition reads admit the same steps. -/
theorem Admitted.congr {s : Settled} {state state' : HostState} (h : Admitted b s state)
    (hagree : ∀ source e, s.step.condition = some source → Compiled.read source = .ok e →
      ∀ name ∈ e.identifiers, Dict.get? state' name = Dict.get? state name) : Admitted b s state' := by
  intro source hsource
  obtain ⟨e, he, hholds⟩ := h source hsource
  have hscope : AgreeOn e.identifiers (s.conditionScope b state') (s.conditionScope b state) := by
    intro name hname
    simp only [conditionScope, Expression.Scope.over, Expression.Scope.ofDict,
      hagree source e hsource he name hname]
  exact ⟨e, he, (Compiled.holds_congr hscope).trans hholds⟩

theorem stateAfter_none (state : HostState) (steps : List Settled) : stateAfter none state steps = state := by
  induction steps with
  | nil => rfl
  | cons s steps ih => exact ih

/-- Conditions hold in the order in which they were decided. At the place where a step comes out its condition
holds if the state there has the values that the condition read, wherever the step came from; so it does
without a simulator, and whenever the steps come out as they were chosen, since none depends on a later one. -/
theorem admitted_where_emitted (hc : choose steps b simulator = .ok chosen)
    (ho : inOrder chosen.accepted chosen.dropped = .ok out) :
    AdmittedAlong b simulator (startState simulator) chosen.accepted ∧
    (∃ order : List Nat, order.Perm (List.range chosen.accepted.length) ∧
      (∀ i : Nat, out[i]? = order[i]?.bind fun j => chosen.accepted[j]?) ∧
      ∀ (i j : Nat) (s : Settled), order[i]? = some j → out[i]? = some s →
        (∀ source e, s.step.condition = some source → Compiled.read source = .ok e →
          ∀ name ∈ e.identifiers,
            Dict.get? (stateAfter simulator (startState simulator) (out.take i)) name =
              Dict.get? (stateAfter simulator (startState simulator) (chosen.accepted.take j)) name) →
        Admitted b s (stateAfter simulator (startState simulator) (out.take i))) ∧
    (simulator = none → AdmittedAlong b simulator (startState simulator) out) ∧
    (DependenciesFirst chosen.accepted →
      out = chosen.accepted ∧ AdmittedAlong b simulator (startState simulator) out) := by
  have hchosen := admittedAlong_of_choose hc
  obtain ⟨order, -, hperm, hout⟩ := inOrder_eq_ok ho
  have hplace : ∀ i : Nat, out[i]? = order[i]?.bind fun j => chosen.accepted[j]? := fun i => by
    rw [hout, Graph.getElem?_rearranged hperm]
  have hdecided : ∀ (i j : Nat) (s : Settled), order[i]? = some j → out[i]? = some s →
      Admitted b s (stateAfter simulator (startState simulator) (chosen.accepted.take j)) := by
    intro i j s hj hs
    exact hchosen j s (by simpa [hplace i, hj] using hs)
  refine ⟨hchosen, ⟨order, hperm, hplace, fun i j s hj hs hagree => (hdecided i j s hj hs).congr hagree⟩,
    ?_, fun hd => ?_⟩
  · rintro rfl i s hs
    obtain ⟨j, hj, -⟩ := Option.bind_eq_some_iff.mp ((hplace i).symm.trans hs)
    have hadmitted := hdecided i j s hj hs
    rw [stateAfter_none] at hadmitted ⊢
    exact hadmitted
  · obtain rfl := inOrder_of_dependenciesFirst hd ho
    exact ⟨rfl, hchosen⟩

/-- A step for an empty selection that depends on one declared after it, whose tool selects something. -/
def moved : List Settled :=
  [{ step := { id := some "sweep", tool := "scene_sweep", condition := some "not has_selection",
               dependsOn := ["box"] } },
   { step := { id := some "box", tool := "scene_create_box" } }]

/-- The selection is empty when the condition is decided, but not when the step comes. -/
theorem not_admittedAlong_moved :
    checkGraph moved = .ok () ∧ choose moved [] (some (Simulator.new [] [])) = .ok ⟨moved, []⟩ ∧
      inOrder moved [] = .ok moved.reverse ∧
      ¬ AdmittedAlong [] (some (Simulator.new [] [])) (startState (some (Simulator.new [] [])))
        moved.reverse := by
  refine ⟨by decide, by decide +kernel, by decide +kernel, fun h => ?_⟩
  obtain ⟨e, he, hholds⟩ := h 1 _ rfl "not has_selection" rfl
  have hfalse : Expression.evaluateCondition "not has_selection"
      (conditionScope moved[0] [] (stateAfter (some (Simulator.new [] []))
        (startState (some (Simulator.new [] []))) (moved.reverse.take 1))) = .ok false := by
    decide +kernel
  rw [Expression.evaluateCondition, he] at hfalse
  exact absurd (hholds.symm.trans hfalse) nofun

/-- A step that has to be moved behind one which leaves alone what its condition reads. -/
def selected : List Settled :=
  [{ step := { id := some "sweep", tool := "scene_sweep", condition := some "current_mode == 'OBJECT'",
               dependsOn := ["box"] } },
   { step := { id := some "box", tool := "scene_create_box" } }]

theorem admitted_selected :
    choose selected [] (some (Simulator.new [] [])) = .ok ⟨selected, []⟩ ∧
      inOrder selected [] = .ok selected.reverse ∧
      AdmittedAlong [] (some (Simulator.new [] [])) (startState (some (Simulator.new [] []))) selected ∧
      Admitted [] selected[0] (stateAfter (some (Simulator.new [] []))
        (startState (some (Simulator.new [] []))) (selected.reverse.take 1)) := by
  have hc : choose selected [] (some (Simulator.new [] [])) = .ok ⟨selected, []⟩ := by decide +kernel
  have ho : inOrder selected [] = .ok selected.reverse := by decide +kernel
  obtain ⟨hchosen, ⟨order, -, hplace, hadmits⟩, -⟩ := admitted_where_emitted hc ho
  obtain ⟨j, hj, hs⟩ := Option.bind_eq_some_iff.mp ((hplace 1).symm.trans (show _ = some selected[0] from rfl))
  obtain rfl : j = 0 := by
    rcases j with _ | _ | j
    · rfl
    · exact absurd hs (by decide +kernel)
    · simp [selected] at hs
  refine ⟨hc, ho, hchosen, hadmits 1 0 _ hj rfl fun source e hsource he name hname => ?_⟩
  obtain rfl := Option.some.inj hsource
  have hidentifiers : (Compiled.read "current_mode == 'OBJECT'").map Compiled.identifiers =
      .ok ["current_mode"] := by decide +kernel
  rw [he] at hidentifiers
  rw [Except.ok.inj hidentifiers, List.mem_singleton] at hname
  subst hname
  decide +kernel

end Settled

end GoalCompiler
