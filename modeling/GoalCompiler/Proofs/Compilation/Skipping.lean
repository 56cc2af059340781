import GoalCompiler.Proofs.Compilation.Guards

/-! Steps that are left out. Going through the steps, all that a later condition can see is the steps that were
accepted before it, in the state that they lead to; a step that is left out leaves nothing behind but its id.
So the rest is chosen as if the step had never been there, and no step has a say about those before it. -/
namespace GoalCompiler.Settled

open Expression (evaluateCondition)

variable {b : Bindings} {simulator : Option Simulator} {s : Settled}

/-- The condition of the step is false, or cannot be decided where the step is optional. -/
def Skipped (b : Bindings) (s : Settled) (state : HostState) : Prop :=
  ∃ source, s.step.condition = some source ∧
    (evaluateCondition source (s.conditionScope b state) = .ok false ∨
      s.step.optional ∧ ∃ e, evaluateCondition source (s.conditionScope b state) = .error e)

/-- Skipped steps are those that are left out. -/
theorem judge_eq_leave {state : HostState} : s.judge b state = .leave ↔ Skipped b s state := by
  unfold judge Skipped evaluateCondition
  cases s.step.condition with
  | none => simp
  | some source =>
    cases hread : Expression.Compiled.read source with
    | error e => simp [bind, Except.bind, hread]
    | ok e =>
      cases hholds : e.holds (s.conditionScope b state) with
      | error f => simp [bind, Except.bind, hread, hholds]
      | ok holds => cases holds <;> simp [bind, Except.bind, pure, Except.pure, hread, hholds]

/-! ### Going on from a choice -/

namespace Chosen

/-- The state that the accepted steps lead to. -/
def state (simulator : Option Simulator) (c : Chosen) : HostState :=
  stateAfter simulator (startState simulator) c.accepted

def accept (c : Chosen) (s : Settled) (referenced : NameSet) : Chosen :=
  { c with accepted := c.accepted ++ [{ s with referenced }] }

def leaveOut (c : Chosen) (s : Settled) : Chosen :=
  { c with dropped := match s.step.id with
      | some id => NameSet.insert c.dropped id
      | none => c.dropped }

theorem state_accept (c : Chosen) (s : Settled) (referenced : NameSet) :
    (c.accept s referenced).state simulator = foresee simulator (c.state simulator) s := by
  rw [state, accept, stateAfter, List.foldl_append]
  rfl

theorem mem_dropped_leaveOut {c : Chosen} {id : String} :
    id ∈ (c.leaveOut s).dropped ↔ id ∈ c.dropped ∨ s.step.id = some id := by
  unfold leaveOut
  cases s.step.id with
  | none => simp
  | some own => simp [NameSet.mem_insert, or_comm, eq_comm]

end Chosen

/-- Goes through further steps, in the state that a choice led to. -/
def chooseOn (b : Bindings) (simulator : Option Simulator) (c : Chosen) (steps : List Settled) :
    Except Failure Chosen :=
  chooseFrom b simulator (c.state simulator) c steps

theorem chooseOn_cons (c : Chosen) (s : Settled) (rest : List Settled) :
    chooseOn b simulator c (s :: rest) =
      match s.judge b (c.state simulator) with
      | .keep referenced => chooseOn b simulator (c.accept s referenced) rest
      | .leave => chooseOn b simulator (c.leaveOut s) rest
      | .fail e => .error (.condition s.step.label e) := by
  rw [chooseOn, chooseFrom.eq_def]
  dsimp only
  cases s.judge b (c.state simulator) with
  | keep referenced =>
    dsimp only
    rw [chooseOn, Chosen.state_accept]
    rfl
  | leave => rfl
  | fail e => rfl

/-- All that goes from steps to those after them is what was chosen. -/
theorem chooseOn_append (c : Chosen) (before after : List Settled) :
    chooseOn b simulator c (before ++ after) =
      chooseOn b simulator c before >>= fun c => chooseOn b simulator c after := by
  induction before generalizing c with
  | nil => rfl
  | cons s rest ih =>
    rw [List.cons_append, chooseOn_cons, chooseOn_cons]
    cases s.judge b (c.state simulator) with
    | keep referenced => exact ih _
    | leave => exact ih _
    | fail e => rfl

theorem choose_append (before after : List Settled) :
    choose (before ++ after) b simulator =
      choose before b simulator >>= fun c => chooseOn b simulator c after :=
  chooseOn_append {} before after

/-- What was chosen stays, whatever comes after it. -/
theorem chosen_of_chooseOn {c out : Chosen} {steps : List Settled} (h : chooseOn b simulator c steps = .ok out) :
    c.accepted <+: out.accepted ∧ c.dropped ⊆ out.dropped := by
  obtain ⟨kept, haccepted, -, hdropped, -⟩ := chooseFrom_spec h
  exact ⟨⟨kept, haccepted.symm⟩, hdropped⟩

/-! ### An id more or less -/

/-- The two choices are the same, but for an id that is dropped in the first one. -/
structure DropsToo (id? : Option String) (c c' : Chosen) : Prop where
  accepted : c.accepted = c'.accepted
  dropped : ∀ id, id ∈ c.dropped ↔ id ∈ c'.dropped ∨ id? = some id

theorem DropsToo.accept {id? : Option String} {c c' : Chosen} (h : DropsToo id? c c') (s : Settled)
    (referenced : NameSet) : DropsToo id? (c.accept s referenced) (c'.accept s referenced) :=
  ⟨by rw [Chosen.accept, Chosen.accept, h.accepted], h.dropped⟩

theorem DropsToo.leaveOut {id? : Option String} {c c' : Chosen} (h : DropsToo id? c c') (s : Settled) :
    DropsToo id? (c.leaveOut s) (c'.leaveOut s) :=
  ⟨h.accepted, fun id => by
    rw [Chosen.mem_dropped_leaveOut, Chosen.mem_dropped_leaveOut, h.dropped, or_right_comm]⟩

/-- Dropped ids decide nothing. -/
theorem DropsToo.resume {id? : Option String} {c c' out : Chosen} {steps : List Settled}
    (h : DropsToo id? c c') (hout : chooseOn b simulator c steps = .ok out) :
    ∃ out', chooseOn b simulator c' steps = .ok out' ∧ DropsToo id? out out' := by
  induction steps generalizing c c' with
  | nil =>
    obtain rfl := Except.ok.inj hout
    exact ⟨c', rfl, h⟩
  | cons s rest ih =>
    have hstate : c.state simulator = c'.state simulator := by rw [Chosen.state, h.accepted, Chosen.state]
    rw [chooseOn_cons, hstate] at hout
    rw [chooseOn_cons]
    cases hjudge : s.judge b (c'.state simulator) with
    | keep referenced =>
      rw [hjudge] at hout
      exact ih (h.accept s referenced) hout
    | leave =>
      rw [hjudge] at hout
      exact ih (h.leaveOut s) hout
    | fail e =>
      rw [hjudge] at hout
      cases hout

/-- What becomes of a step is settled by the steps before it. Where it is skipped, the others come out as they
do without it, and nothing is dropped that is not dropped then but its own id. -/
theorem skipped_inert (b : Bindings) (simulator : Option Simulator) (before after : List Settled) (s : Settled) :
    (∀ e, choose (before ++ [s]) b simulator = .error e →
      choose (before ++ s :: after) b simulator = .error e) ∧
    ∀ out, choose (before ++ s :: after) b simulator = .ok out →
      ∃ chosen decided, choose before b simulator = .ok chosen ∧
        choose (before ++ [s]) b simulator = .ok decided ∧
        decided.accepted <+: out.accepted ∧ decided.dropped ⊆ out.dropped ∧
        (Skipped b s (chosen.state simulator) →
          decided.accepted = chosen.accepted ∧
          ∃ out', choose (before ++ after) b simulator = .ok out' ∧ out.accepted = out'.accepted ∧
            ∀ id, id ∈ out.dropped ↔ id ∈ out'.dropped ∨ s.step.id = some id) ∧
        (¬ Skipped b s (chosen.state simulator) →
          ∃ referenced, decided.accepted = chosen.accepted ++ [{ s with referenced }]) := by
  have hsplit : choose (before ++ s :: after) b simulator =
      choose (before ++ [s]) b simulator >>= fun c => chooseOn b simulator c after := by
    rw [← choose_append, List.append_assoc, List.singleton_append]
  refine ⟨fun e h => by rw [hsplit, h]; rfl, fun out hout => ?_⟩
  obtain ⟨decided, hdecided, hafter⟩ := Outcome.bind_eq_ok.mp (hsplit.symm.trans hout)
  obtain ⟨chosen, hchosen, hstep⟩ := Outcome.bind_eq_ok.mp ((choose_append _ _).symm.trans hdecided)
  obtain ⟨haccepted, hdropped⟩ := chosen_of_chooseOn hafter
  refine ⟨chosen, decided, hchosen, hdecided, haccepted, hdropped, fun hskipped => ?_, fun hskipped => ?_⟩
  · rw [chooseOn_cons, judge_eq_leave.mpr hskipped] at hstep
    obtain rfl : chosen.leaveOut s = decided := Except.ok.inj hstep
    have hextra : DropsToo s.step.id (chosen.leaveOut s) chosen :=
      ⟨rfl, fun id => Chosen.mem_dropped_leaveOut⟩
    obtain ⟨out', hout', hsame⟩ := hextra.resume hafter
    refine ⟨rfl, out', ?_, hsame.accepted, hsame.dropped⟩
    rw [choose_append, hchosen]
    exact hout'
  · rw [chooseOn_cons] at hstep
    cases hjudge : s.judge b (chosen.state simulator) with
    | keep referenced =>
      rw [hjudge] at hstep
      obtain rfl : chosen.accept s referenced = decided := Except.ok.inj hstep
      exact ⟨referenced, rfl⟩
    | leave => exact absurd (judge_eq_leave.mp hjudge) hskipped
    | fail e =>
      rw [hjudge] at hstep
      cases hstep

/-- A step that would clear the selection, if it were known what it asks for. -/
def clearing : Settled where
  step := { id := some "clear", tool := "scene_deselect", condition := some "spare > 0", optional := true }

def box : Settled where
  step := { id := some "box", tool := "scene_create_box" }

def joining : Settled where
  step := { id := some "join", tool := "modeling_join", condition := some "has_selection" }

/-- The box is still selected when the last step asks for it. -/
theorem skipped_inert_clearing :
    choose [box, clearing, joining] [] (some (Simulator.new [] [])) = .ok ⟨[box, joining], ["clear"]⟩ ∧
      ∃ out', choose [box, joining] [] (some (Simulator.new [] [])) = .ok out' ∧
        [box, joining] = out'.accepted ∧
        ∀ id, id ∈ ["clear"] ↔ id ∈ out'.dropped ∨ clearing.step.id = some id := by
  have hout : choose [box, clearing, joining] [] (some (Simulator.new [] [])) =
      .ok ⟨[box, joining], ["clear"]⟩ := by decide +kernel
  obtain ⟨chosen, decided, hchosen, -, -, -, hskip, -⟩ :=
    (skipped_inert [] (some (Simulator.new [] [])) [box] [joining] clearing).2 _ hout
  obtain rfl : ⟨[box], []⟩ = chosen := by
    have hbox : choose [box] [] (some (Simulator.new [] [])) = .ok ⟨[box], []⟩ := by decide +kernel
    exact Except.ok.inj (hbox.symm.trans hchosen)
  have hunknown : evaluateCondition "spare > 0"
      (clearing.conditionScope [] (Chosen.state (some (Simulator.new [] [])) ⟨[box], []⟩)) =
        .error ⟨.unknownSymbol "spare", "spare > 0"⟩ := by decide +kernel
  exact ⟨hout, (hskip ⟨_, rfl, .inr ⟨rfl, _, hunknown⟩⟩).2⟩

end GoalCompiler.Settled
