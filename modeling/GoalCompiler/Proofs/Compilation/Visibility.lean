import GoalCompiler.Proofs.Compilation.Skipping
import GoalCompiler.Proofs.Dictionary
import GoalCompiler.Proofs.Workflow.Acceptance
import GoalCompiler.Settings

/-! Which names of a request a condition sees. The host's state comes before the request, and it grows with each
accepted step that a rule speaks of. Validation keeps declared names apart from those of the standard state and of
the standard rules; the names that the settings bring in are not among them. So a condition sees a declared
name as it is bound exactly until the settings bind it in the state, from the start or through a rule. -/
namespace GoalCompiler

open Expression (Scope eval)

/-! ### Names of the state -/

/-- What holds of the outcome of a fold held of its start, or came with one of the elements. -/
theorem holds_foldl_iff {σ α : Type} {next : σ → α → σ} {P : σ → Prop} {Q : α → Prop}
    (hnext : ∀ state x, P (next state x) ↔ P state ∨ Q x) (state : σ) (xs : List α) :
    P (xs.foldl next state) ↔ P state ∨ ∃ x ∈ xs, Q x := by
  induction xs generalizing state with
  | nil => simp
  | cons x xs ih => rw [List.foldl_cons, ih, hnext, List.exists_mem_cons_iff, or_assoc]

theorem Dict.contains_update {α : Type} {m other : Dict α} {k : String} :
    contains (update m other) k ↔ contains m k ∨ k ∈ keys other := by
  rw [keys, List.mem_map]
  exact holds_foldl_iff (P := fun m => contains m k) (fun _ e => contains_insert (k := e.1)) m other

/-- In a step with these parameters there is a value to be set. -/
def Effect.HasValue (params : Dict Json) : Effect → Prop
  | .set _ => True
  | .copy parameter => Dict.contains params parameter

/-- The rule speaks of the step and gives the name a value in it. -/
def HostRule.Sets (r : HostRule) (step : Step) (name : String) : Prop :=
  r.matchesTool step.tool ∧ ∃ e ∈ r.effects, e.1 = name ∧ e.2.HasValue step.params

namespace HostRule

variable {state : HostState} {params : Dict Json} {name : String}

theorem contains_applyEffect (key : String) (effect : Effect) :
    Dict.contains (applyEffect params state key effect) name ↔
      Dict.contains state name ∨ key = name ∧ effect.HasValue params := by
  cases effect with
  | set value => simp [applyEffect, Effect.HasValue, Dict.contains_insert]
  | copy parameter =>
    cases hvalue : Dict.get? params parameter with
    | none => simp [applyEffect, Effect.HasValue, Dict.contains, hvalue]
    | some value =>
      have hcontains : Dict.contains params parameter := by rw [Dict.contains, hvalue]; rfl
      simp [applyEffect, Effect.HasValue, hvalue, hcontains, Dict.contains_insert]

theorem contains_apply (r : HostRule) :
    Dict.contains (r.apply params state) name ↔
      Dict.contains state name ∨ ∃ e ∈ r.effects, e.1 = name ∧ e.2.HasValue params :=
  holds_foldl_iff (P := fun state => Dict.contains state name)
    (fun _ e => contains_applyEffect e.1 e.2) state r.effects

/-- The standard rules set nothing but names of the standard state. -/
theorem mem_stateKeys_of_standard {r : HostRule} (hr : r ∈ standard) {step : Step} (h : r.Sets step name) :
    name ∈ stateKeys := by
  have hkeys : ∀ r ∈ standard, ∀ e ∈ r.effects, e.1 ∈ stateKeys := by decide
  obtain ⟨-, e, he, rfl, -⟩ := h
  exact hkeys r hr e he

end HostRule

namespace Simulator

variable {simulator : Simulator} {state : HostState} {name : String}

theorem contains_apply (step : Step) :
    Dict.contains (simulator.apply state step) name ↔
      Dict.contains state name ∨ ∃ r ∈ simulator.rules, r.Sets step name := by
  rw [apply, holds_foldl_iff (P := fun state => Dict.contains state name) fun _ r => r.contains_apply]
  simp only [List.mem_filter, HostRule.Sets, and_assoc]

theorem contains_stateAfter (steps : List Settled) :
    Dict.contains (Settled.stateAfter (some simulator) state steps) name ↔
      Dict.contains state name ∨ ∃ s ∈ steps, ∃ r ∈ simulator.rules, r.Sets s.step name :=
  holds_foldl_iff (P := fun state => Dict.contains state name) (fun _ s => contains_apply s.step) state steps

end Simulator

/-! ### Names that the settings bring in -/

/-- The rule, as it is written down, speaks of the step and sets the name in it. -/
def RuleSettings.Sets (r : RuleSettings) (step : Step) (name : String) : Prop :=
  (∃ pattern, Text.Pattern.read? r.pattern = some pattern ∧ pattern.isIn step.tool) ∧
    (name ∈ Dict.keys r.set ∨ ∃ parameter, (name, parameter) ∈ r.fromParam ∧ Dict.contains step.params parameter)

theorem RuleSettings.sets_rule {r : RuleSettings} {rule : HostRule} (h : r.rule = .ok rule) {step : Step}
    {name : String} : rule.Sets step name ↔ r.Sets step name := by
  unfold RuleSettings.rule at h
  unfold RuleSettings.Sets
  split at h
  · cases h
  · rename_i pattern hpattern
    obtain rfl := Except.ok.inj h
    simp [HostRule.Sets, HostRule.matchesTool, hpattern, Dict.keys, or_and_right, exists_or, Effect.HasValue]

namespace CompilerSettings

variable {settings : CompilerSettings} {simulator : Option Simulator} {name : String}

/-- After these steps the state has a value of the name that is due to the settings: they start with one, or have a
rule that sets it in one of the steps. -/
def Simulates (settings : CompilerSettings) (steps : List Settled) (name : String) : Prop :=
  settings.enableSimulation ∧
    (name ∈ Dict.keys settings.initialState ∨ ∃ s ∈ steps, ∃ r ∈ settings.rules, r.Sets s.step name)

/-- But for the standard names, the state has those that the settings bring in. -/
theorem contains_state_iff (hsimulator : settings.simulator = .ok simulator) (hname : name ∉ stateKeys)
    (chosen : Settled.Chosen) :
    Dict.contains (chosen.state simulator) name ↔ settings.Simulates chosen.accepted name := by
  unfold CompilerSettings.simulator at hsimulator
  unfold Simulates
  split at hsimulator
  · rename_i henabled
    obtain ⟨rules, hrules, h⟩ := Outcome.bind_eq_ok.mp hsimulator
    obtain rfl := Except.ok.inj h
    have hstart : ¬ Dict.contains Simulator.defaultStart name := Dict.contains_iff.not.mpr hname
    have hread : (∃ s ∈ chosen.accepted, ∃ r ∈ HostRule.standard ++ rules, r.Sets s.step name) ↔
        ∃ s ∈ chosen.accepted, ∃ r ∈ settings.rules, r.Sets s.step name := by
      refine exists_congr fun s => and_congr_right fun _ => ⟨?_, ?_⟩
      · rintro ⟨rule, hrule, hsets⟩
        rcases List.mem_append.mp hrule with hrule | hrule
        · exact absurd (HostRule.mem_stateKeys_of_standard hrule hsets) hname
        · obtain ⟨r, hr, hrule⟩ := Outcome.exists_of_mem_mapM hrules hrule
          exact ⟨r, hr, (RuleSettings.sets_rule hrule).mp hsets⟩
      · rintro ⟨r, hr, hsets⟩
        obtain ⟨rule, hrule, hread⟩ := Outcome.exists_mem_of_mapM hrules hr
        exact ⟨rule, List.mem_append_right _ hrule, (RuleSettings.sets_rule hread).mpr hsets⟩
    rw [Settled.Chosen.state, Simulator.contains_stateAfter]
    change Dict.contains (Dict.update Simulator.defaultStart settings.initialState) name ∨ _ ↔ _
    rw [Dict.contains_update, iff_false_intro hstart, false_or]
    exact (or_congr_right hread).trans (and_iff_right henabled).symm
  · rename_i hdisabled
    obtain rfl := Except.ok.inj hsimulator
    rw [Settled.Chosen.state, Settled.stateAfter_none]
    exact iff_of_false (Bool.false_ne_true) fun h => hdisabled h.1

end CompilerSettings

/-! ### Names that a workflow declares -/

namespace Workflow

variable {w : Workflow} {name : String}

/-- The name is that of a parameter or has a default. -/
def Declares (w : Workflow) (name : String) : Prop :=
  (∃ p ∈ w.parameters, p.name = name) ∨ name ∈ Dict.keys w.defaults

theorem not_mem_stateKeys_of_checkParameters {before ps : List Parameter}
    (h : w.checkParameters before ps = .ok ()) : ∀ p ∈ ps, p.name ∉ stateKeys := by
  induction ps generalizing before with
  | nil => simp
  | cons p ps ih =>
    obtain ⟨⟨⟩, hp, h⟩ := Outcome.bind_eq_ok.mp h
    obtain ⟨-, -, hp⟩ := Outcome.bind_eq_ok.mp hp
    obtain ⟨⟨⟩, hreserved, -⟩ := Outcome.bind_eq_ok.mp hp
    exact List.forall_mem_cons.mpr ⟨by simpa [require_eq_ok] using hreserved, ih h⟩

/-- Validation reserves the standard names of the state. -/
theorem not_mem_stateKeys_of_validate (h : w.validate = .ok ()) (hname : w.Declares name) : name ∉ stateKeys := by
  have hc := checked_of_validate h
  rcases hname with ⟨p, hp, rfl⟩ | hname
  · exact not_mem_stateKeys_of_checkParameters hc.parameters p hp
  · obtain ⟨e, he, rfl⟩ := List.mem_map.mp hname
    obtain ⟨⟨⟩, hreserved, -⟩ := Outcome.bind_eq_ok.mp (Outcome.forM_eq_ok.mp hc.defaults e he)
    simpa [require_eq_ok] using hreserved

end Workflow

/-! ### What a condition sees -/

namespace Settled

variable {w : Workflow} {settings : CompilerSettings} {simulator : Option Simulator} {b : Bindings}

theorem conditionScope_of_not_contains {s : Settled} {state : HostState} {name : String}
    (hloop : ¬ Dict.contains s.bindings name) (hstate : ¬ Dict.contains state name) :
    s.conditionScope b state name = b.scope name := by
  have hloop := Dict.get?_eq_none_iff.mpr (Dict.contains_iff.not.mp hloop)
  have hstate := Dict.get?_eq_none_iff.mpr (Dict.contains_iff.not.mp hstate)
  simp [conditionScope, Scope.over, Scope.ofDict, hloop, hstate]

theorem conditionScope_of_contains {s : Settled} {state : HostState} {name : String}
    (hloop : ¬ Dict.contains s.bindings name) (hstate : Dict.contains state name) :
    s.conditionScope b state name = Dict.get? state name := by
  have hloop := Dict.get?_eq_none_iff.mpr (Dict.contains_iff.not.mp hloop)
  obtain ⟨value, hvalue⟩ := Option.isSome_iff_exists.mp hstate
  simp [conditionScope, Scope.over, Scope.ofDict, hloop, hvalue]

/-- Wherever a step comes up in a choice, its condition sees a declared name that is no loop variable of the step as
the request binds it, if the settings have not brought the name into the state; if they have, it sees the state. -/
theorem declared_seen (hvalid : w.validate = .ok ()) (hsimulator : settings.simulator = .ok simulator)
    {before : List Settled} {chosen : Chosen} (hchosen : choose before b simulator = .ok chosen) {s : Settled}
    {name : String} (hname : w.Declares name) (hloop : ¬ Dict.contains s.bindings name) :
    (∀ rest, choose (before ++ s :: rest) b simulator = chooseOn b simulator chosen (s :: rest)) ∧
      (¬ settings.Simulates chosen.accepted name →
        eval (s.conditionScope b (chosen.state simulator)) (.ident name) = eval b.scope (.ident name)) ∧
      (settings.Simulates chosen.accepted name →
        Dict.contains (chosen.state simulator) name ∧
          eval (s.conditionScope b (chosen.state simulator)) (.ident name) =
            eval (Scope.ofDict (chosen.state simulator)) (.ident name)) := by
  have hstate := CompilerSettings.contains_state_iff hsimulator
    (Workflow.not_mem_stateKeys_of_validate hvalid hname) chosen
  refine ⟨fun rest => ?_, fun hfree => ?_, fun hsimulated => ?_⟩
  · rw [choose_append, hchosen]
    rfl
  · have hscope := conditionScope_of_not_contains (b := b) hloop (hstate.not.mpr hfree)
    simp only [eval, Expression.lookUp, hscope]
  · have hscope := conditionScope_of_contains (b := b) hloop (hstate.mpr hsimulated)
    exact ⟨hstate.mpr hsimulated, by simp only [eval, Expression.lookUp, hscope, Scope.ofDict]⟩

/-- A rack that is built only if it is a high one. -/
def rack : Workflow where
  name := "rack"
  parameters := [{ name := "shelves", type := .int, default := .int 5 }]
  steps :=
    [{ tool := "cut_boards", condition := some "shelves > 9" },
     { tool := "build_rack", condition := some "shelves > 3" }]

def rackBindings : Bindings := [("shelves", ⟨.int 5, .default⟩)]

def rackSteps : List Settled := rack.steps.map fun s => { step := s }

/-- To cut boards would leave one shelf. -/
def cuttingSettings : CompilerSettings where
  rules := [{ pattern := "^cut", set := [("shelves", .int 1)] }]

/-- No boards are cut, and the rack still has its shelves. -/
theorem declared_seen_rack :
    rack.validate = .ok () ∧ rack.Declares "shelves" ∧ ¬ Dict.contains (rackSteps[1]).bindings "shelves" ∧
      ∃ simulator, cuttingSettings.simulator = .ok simulator ∧
      choose [rackSteps[0]] rackBindings simulator = .ok {} ∧
      choose rackSteps rackBindings simulator = .ok ⟨[{ rackSteps[1] with referenced := ["shelves"] }], []⟩ ∧
      eval (conditionScope rackSteps[1] rackBindings (Chosen.state simulator {})) (.ident "shelves") =
        eval rackBindings.scope (.ident "shelves") := by
  have hvalid : rack.validate = .ok () := by decide +kernel
  have hname : rack.Declares "shelves" := .inl ⟨_, List.mem_cons_self, rfl⟩
  obtain ⟨simulator, hsimulator⟩ := Outcome.exists_eq_ok_of_isOk
    (show cuttingSettings.simulator.isOk by decide +kernel)
  have hloop : ¬ Dict.contains (rackSteps[1]).bindings "shelves" := by decide
  have hhead : (cuttingSettings.simulator.toOption.map fun simulator =>
      choose [rackSteps[0]] rackBindings simulator) = some (.ok {}) := by decide +kernel
  have hall : (cuttingSettings.simulator.toOption.map fun simulator => choose rackSteps rackBindings simulator) =
      some (.ok ⟨[{ rackSteps[1] with referenced := ["shelves"] }], []⟩) := by decide +kernel
  rw [hsimulator] at hhead hall
  obtain ⟨-, hfree, -⟩ := declared_seen hvalid hsimulator (Option.some.inj hhead) hname hloop
  refine ⟨hvalid, hname, hloop, simulator, hsimulator, Option.some.inj hhead, Option.some.inj hall, hfree ?_⟩
  rintro ⟨-, hstart | ⟨t, ht, -⟩⟩
  · exact absurd hstart (by decide)
  · cases ht

/-- The state is said to start with one shelf. -/
def oneShelf : CompilerSettings where
  initialState := [("shelves", .int 1)]

/-- A rack of five shelves is left out, since its condition sees one shelf. -/
theorem simulated_rack :
    rack.validate = .ok () ∧ rack.Declares "shelves" ∧ ∃ simulator, oneShelf.simulator = .ok simulator ∧
      choose rackSteps rackBindings simulator = .ok {} ∧
      eval rackBindings.scope (.ident "shelves") = .ok (.int 5) ∧
      ¬ Dict.contains (rackSteps[1]).bindings "shelves" ∧
      eval (conditionScope rackSteps[1] rackBindings (Chosen.state simulator {})) (.ident "shelves") =
        .ok (.int 1) :=
  ⟨by decide +kernel, .inl ⟨_, List.mem_cons_self, rfl⟩, some (Simulator.new [("shelves", .int 1)] []), rfl,
    by decide +kernel, by decide +kernel, by decide, by decide +kernel⟩

end Settled

end GoalCompiler
