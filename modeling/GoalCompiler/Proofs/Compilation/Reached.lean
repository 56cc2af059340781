import GoalCompiler.Compilation.Compiler
import GoalCompiler.Proofs.Resolution.Answers
import GoalCompiler.Proofs.Workflow.Soundness

/-! The bindings that instructions are built from. A request that is past the resolution of its parameters
and the second pass over the computed ones has a value for every parameter, and one that it takes. -/
namespace GoalCompiler.Compiler

open Bindings (Sound Binds)

variable {σ : Type} {c : Compiler σ} {r : CompileRequest} {s s' : Session σ} {w : Workflow}
  {given merged b : Bindings} {order : List ComputedParameter} {resolution : Resolution}

/-- The request gets to building instructions for the workflow, from these bindings. -/
def Reaches (c : Compiler σ) (r : CompileRequest) (s : Session σ) (w : Workflow) (b : Bindings) : Prop :=
  ∃ goal given order resolution s',
    Goal.analyse c.resolver.services.embedder r.goal = .ok goal ∧
    c.choose goal r.workflow = .ok (some w) ∧
    prepare w r = .ok (given, order) ∧
    c.resolver.resolve w goal given s = (.ok resolution, s') ∧
    resolution.isComplete ∧
    computed (merge given resolution) order = .ok b

theorem computed_eq_ok : computed given order = .ok b ↔ given.compute order = ⟨b, none⟩ := by
  unfold computed
  split
  · rename_i b' h
    rw [h, Except.ok.injEq, Progress.mk.injEq]
    simp
  · rename_i b' e h
    rw [h]
    simp

/-- Instructions come of the bindings that are reached. -/
theorem compile_of_reaches (h : c.Reaches r s w b) :
    (c.compile r s).1 =
      (build c.stepLimit c.simulator b (r.steps.getD w.steps)).map (.ready w.name) := by
  obtain ⟨goal, given, order, resolution, s', hgoal, hchoose, hprepare, hresolve, hcomplete, hb⟩ := h
  simp only [compile, hgoal, hchoose, compileWith, hprepare, hresolve, finish, hcomplete, hb, if_true]
  rfl

theorem finish_eq_ready {name : String} {instructions : List Instruction}
    (h : c.finish w r given order resolution = .ok (.ready name instructions)) :
    ∃ b, resolution.isComplete ∧ computed (merge given resolution) order = .ok b ∧ w.name = name ∧
      build c.stepLimit c.simulator b (r.steps.getD w.steps) = .ok instructions := by
  unfold finish at h
  split at h
  · rename_i hcomplete
    obtain ⟨b, hb, h⟩ := Outcome.bind_eq_ok.mp h
    obtain ⟨built, hbuilt, h⟩ := Outcome.bind_eq_ok.mp h
    obtain ⟨rfl, rfl⟩ := CompileResponse.ready.inj (Except.ok.inj h)
    exact ⟨b, hcomplete, hb, rfl, hbuilt⟩
  · cases h

/-- There is no other way to instructions. -/
theorem reaches_of_ready {name : String} {instructions : List Instruction}
    (h : (c.compile r s).1 = .ok (.ready name instructions)) :
    ∃ w b, c.Reaches r s w b ∧ w.name = name ∧
      build c.stepLimit c.simulator b (r.steps.getD w.steps) = .ok instructions := by
  unfold compile at h
  split at h
  · simp at h
  · rename_i goal hgoal
    split at h
    · simp at h
    · simp at h
    · rename_i w hchoose
      unfold compileWith at h
      split at h
      · simp at h
      · rename_i given order hprepare
        split at h
        · simp at h
        · rename_i resolution s' hresolve
          obtain ⟨b, hcomplete, hb, rfl, hbuild⟩ := finish_eq_ready h
          exact ⟨w, b, ⟨goal, given, order, resolution, s', hgoal, hchoose, hprepare, hresolve,
            hcomplete, hb⟩, rfl, hbuild⟩

/-! ### Bindings along the way -/

theorem parameter_of_inOrder (hf : w.Fit) (h : ComputedParameter.inOrder w = .ok order) :
    ∀ c ∈ order, c.parameter ∈ w.parameters := fun _ hc =>
  ((ComputedParameter.mem_inOrder hf.distinct h).mp (List.mem_map_of_mem hc)).1

theorem prepare_spec (hf : w.Fit) (h : prepare w r = .ok (given, order)) :
    Sound w given ∧ (∀ p ∈ w.parameters, ¬ p.isComputed → given.Binds p.name) ∧
      ComputedParameter.inOrder w = .ok order := by
  obtain ⟨initial, hinitial, h⟩ := Outcome.bind_eq_ok.mp h
  obtain ⟨order', horder, h⟩ := Outcome.bind_eq_ok.mp h
  obtain ⟨b, hb, h⟩ := Outcome.bind_eq_ok.mp h
  obtain ⟨rfl, rfl⟩ := Prod.mk.inj (Except.ok.inj h)
  obtain ⟨hsound, hbinds⟩ := Workflow.initialBindings_spec hf hinitial
  have hb := computed_eq_ok.mp hb
  exact ⟨Bindings.sound_compute hf.distinct (parameter_of_inOrder hf horder) hsound hb,
    fun p hp hc => Bindings.binds_compute hb (.inl (hbinds p hp hc)), horder⟩

theorem merge_spec (hs : Sound w given) (hr : resolution.Sound w) :
    Sound w (merge given resolution) ∧ ∀ n, given.Binds n → (merge given resolution).Binds n :=
  ⟨Bindings.sound_bindAll hs fun e he => hr e (List.mem_of_mem_filter he),
    fun _ hn => Bindings.binds_bindAll (.inl hn)⟩

/-- Whatever the caller gives, the goal says, the memory holds and the handler replies: every parameter of a
workflow that passed validation is bound in the end to a value that it takes. -/
theorem accepted_of_reaches (hw : w.validate = .ok ()) (h : c.Reaches r s w b) :
    (∀ p ∈ w.parameters, ∃ v, b.value? p.name = some v ∧ ∃ u, p.accept v = .ok u) ∧
      (c.compile r s).1 =
        (build c.stepLimit c.simulator b (r.steps.getD w.steps)).map (.ready w.name) := by
  refine ⟨fun p hp => ?_, compile_of_reaches h⟩
  obtain ⟨goal, given, order, resolution, s', -, -, hprepare, hresolve, -, hb⟩ := h
  have hf := Workflow.fit_of_validate hw
  obtain ⟨hgiven, hbinds, horder⟩ := prepare_spec hf hprepare
  obtain ⟨hmerged, hkeeps⟩ := merge_spec hgiven (Resolver.sound_resolve hf hresolve)
  have hb := computed_eq_ok.mp hb
  have hbound : b.Binds p.name := by
    refine Bindings.binds_compute hb ?_
    by_cases hc : p.isComputed
    · exact .inr ((ComputedParameter.mem_name_inOrder hf.distinct horder).mpr ⟨p, hp, hc, rfl⟩)
    · exact .inl (hkeeps p.name (hbinds p hp hc))
  obtain ⟨v, hv⟩ := Option.isSome_iff_exists.mp hbound
  have htakes := Bindings.sound_compute hf.distinct (parameter_of_inOrder hf horder) hmerged hb p.name v hv
  exact ⟨v, hv, Parameter.accepts_iff.mp (htakes p hp rfl)⟩

/-- A table whose legs are asked for together. -/
def joinery : Workflow where
  name := "table"
  parameters :=
    [{ name := "area", computed := some "width * depth" },
     { name := "width", range := some (1.0, 10.0), default := .int 2 },
     { name := "depth", type := .int, default := .int 3 },
     { name := "left_leg", type := .int, default := .int 1, group := some "legs", hints := ["tall"] },
     { name := "right_leg", type := .int, default := .int 1, group := some "legs", hints := ["tall"] }]
  modifiers := [{ phrase := "wide", values := [("width", .int 5)] }]
  steps := [{ tool := "build_table", params := [("area", .str "$area"), ("leg", .str "$left_leg")] }]

/-- A compiler without vectors, whose handler is mistaken about a type once. -/
def joiner : Compiler Records where
  registry := ⟨[joinery]⟩
  resolver :=
    { services :=
        { embedder := .oneByOne "none" "none" fun _ => .ok []
          memory := Records.memory
          handler := some (Handler.scripted [.value (.str "seven"), .value (.int 7)])
          stamp := fun _ => ⟨⟨0⟩, ⟨""⟩⟩ } }

def tableRequest : CompileRequest where
  goal := "a wide table with tall legs"
  explicit := [("depth", .float 4.0)]
  workflow := some "table"

def tableInstruction : Instruction where
  tool := "build_table"
  params := [("area", .int 20), ("leg", .int 7)]
  provenance := [("area", .computed), ("left_leg", .clarified)]

theorem accepted_joinery :
    joinery.validate = .ok () ∧ ∃ b, joiner.Reaches tableRequest ⟨[], [], 0⟩ joinery b ∧
      (∀ p ∈ joinery.parameters, ∃ v, b.value? p.name = some v ∧ ∃ u, p.accept v = .ok u) ∧
      (joiner.compile tableRequest ⟨[], [], 0⟩).1 =
        (build joiner.stepLimit joiner.simulator b
          (tableRequest.steps.getD joinery.steps)).map (.ready joinery.name) := by
  have hw : joinery.validate = .ok () := by decide +kernel
  have hready : (joiner.compile tableRequest ⟨[], [], 0⟩).1 = .ok (.ready "table" [tableInstruction]) := by
    decide +kernel
  obtain ⟨w, b, hreaches, -, -⟩ := reaches_of_ready hready
  obtain rfl : joinery = w := by
    have hget : joiner.registry.get? "table" = some joinery := by decide +kernel
    obtain ⟨goal, -, -, -, -, -, hchoose, -⟩ := hreaches
    simp only [choose, tableRequest, hget] at hchoose
    exact Option.some.inj (Except.ok.inj hchoose)
  exact ⟨hw, b, hreaches, accepted_of_reaches hw hreaches⟩

end GoalCompiler.Compiler
