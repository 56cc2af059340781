import GoalCompiler.Proofs.Compilation.Reached
import GoalCompiler.Proofs.Resolution.Asking
import GoalCompiler.Proofs.Resolution.Defaults
import GoalCompiler.Proofs.Workflow.Defaults

/-! Defaults in a compilation. What is reported as a default, and what the questions show, is the parameter's own;
what the steps are compiled with is the default that the workflow has for it, if it has one. -/
namespace GoalCompiler

theorem Workflow.default_question {w : Workflow} {p : Parameter} {context : String} :
    (w.question p context).default = p.default := by
  unfold question
  split
  · rfl
  · split <;> rfl

/-- Every question that is left over shows the default of its parameter. -/
theorem Workflow.default_of_mem_questions {w : Workflow} {us : List Unresolved} {q : Question}
    (hd : (w.parameters.map Parameter.name).Nodup) (h : q ∈ w.questions us) {p : Parameter} (hp : p ∈ w.parameters)
    (hname : q.parameter = p.name) : q.default = p.default := by
  obtain ⟨u, -, t, ht, rfl⟩ := mem_questionsAfter h
  rw [parameter_question] at hname
  rw [default_question, eq_of_name hd (List.mem_of_find?_eq_some ht) hp hname]

namespace Compiler

variable {σ : Type} {c : Compiler σ} {r : CompileRequest} {s s' : Session σ} {w : Workflow} {goal : Goal}
  {given b : Bindings} {order : List ComputedParameter} {resolution : Resolution} {p : Parameter}

/-- No pass works out a parameter that is not computed. -/
theorem not_mem_inOrder (hf : w.Fit) (h : ComputedParameter.inOrder w = .ok order) (hp : p ∈ w.parameters)
    (hc : ¬ p.isComputed) : p.name ∉ order.map ComputedParameter.name := by
  intro hmem
  obtain ⟨q, hq, hcomputed, hname⟩ := (ComputedParameter.mem_name_inOrder hf.distinct h).mp hmem
  obtain rfl := Workflow.eq_of_name hf.distinct hq hp hname
  exact hc hcomputed

/-- A parameter that the caller does not give has its default while the others are resolved. -/
theorem default_of_prepare (hf : w.Fit) (hdefaults : (Dict.keys w.defaults).Nodup) (hp : p ∈ w.parameters)
    (h : prepare w r = .ok (given, order)) (hfree : p.Free given) :
    Dict.get? given p.name = some ⟨w.defaultOf p, .default⟩ ∧ p.name ∉ order.map ComputedParameter.name := by
  obtain ⟨initial, hinitial, h⟩ := Outcome.bind_eq_ok.mp h
  obtain ⟨order', horder, h⟩ := Outcome.bind_eq_ok.mp h
  obtain ⟨b, hb, h⟩ := Outcome.bind_eq_ok.mp h
  obtain ⟨rfl, rfl⟩ := Prod.mk.inj (Except.ok.inj h)
  have hname := not_mem_inOrder hf horder hp hfree.1
  have hsame := Bindings.compute_frame (computed_eq_ok.mp hb) (.inr hname)
  refine ⟨hsame.trans (Workflow.get?_initialBindings hf.distinct hdefaults hp hfree.1 hinitial ?_), hname⟩
  rw [← Bindings.isExplicit_congr hsame]
  exact hfree.2

/-- What is recorded as a default changes nothing. -/
theorem get?_merge_of_default {n : String} {v : Json} (hordered : Dict.Ordered resolution.bindings)
    (h : Dict.get? resolution.bindings n = some ⟨v, .default⟩) :
    Dict.get? (merge given resolution) n = Dict.get? given n := by
  refine Bindings.get?_bindAll_of_forall_ne fun e he => ?_
  rintro rfl
  obtain ⟨hmem, hsource⟩ := List.mem_filter.mp he
  rw [(Dict.mem_iff_get? hordered).mp hmem] at h
  rw [Option.some.inj h] at hsource
  cases hsource

/-- A question shows the parameter's own default, also where it is put to no avail, and that is what is recorded
then. A value that is recorded as a default is the parameter's own, while the steps are compiled with the default that
the workflow has for it: they are the same exactly if the workflow has no other. -/
theorem reported_default_iff (hvalid : w.validate = .ok ()) (hdefaults : (Dict.keys w.defaults).Nodup)
    (hprepare : prepare w r = .ok (given, order))
    (hresolve : c.resolver.resolve w goal given s = (.ok resolution, s')) (hp : p ∈ w.parameters) :
    (∀ x ∈ c.resolver.services.exchanges s s', x.1.question.parameter = p.name →
      x.1.question.default = p.default) ∧
    (∀ q ∈ w.questions resolution.unresolved, q.parameter = p.name → q.default = p.default) ∧
    (c.resolver.tiers = Tier.standard →
      (∃ x ∈ c.resolver.services.exchanges s s', x.1.question.parameter = p.name) →
      (∀ context v, ¬ Replied (c.resolver.services.exchanges s s') p context v) →
      (∀ v, ¬ Meant w (c.resolver.services.exchanges s s') w.parameters p v) →
      Dict.get? resolution.bindings p.name = some ⟨p.default, .default⟩) ∧
    ∀ v, Dict.get? resolution.bindings p.name = some ⟨v, .default⟩ → v = p.default ∧
      ∀ b, computed (merge given resolution) order = .ok b →
        Dict.get? b p.name = some ⟨w.defaultOf p, .default⟩ ∧
        (b.value? p.name = some v ↔ w.defaultOf p = p.default) := by
  have hf := Workflow.fit_of_validate hvalid
  have hshown : s.ShowsOwn s' w.parameters := by
    have h : s.ShowsOwn (c.resolver.resolve w goal given s).2 w.parameters := Resolver.showsOwn_resolve
    rwa [hresolve] at h
  have hrecorded := Resolver.ownDefaults_resolve hresolve
  refine ⟨fun x hx hname => hshown.default_eq hf.distinct hp hx hname,
    fun q hq hname => Workflow.default_of_mem_questions hf.distinct hq hp hname,
    fun htiers hasked hnone hmeant =>
      Resolver.default_of_unanswered htiers hf.distinct hp hresolve hasked hnone hmeant, fun v hv => ?_⟩
  obtain ⟨q, hq, hname, hfree, rfl⟩ := hrecorded.own _ _ hv rfl
  obtain rfl := Workflow.eq_of_name hf.distinct hq hp hname
  refine ⟨rfl, fun b hb => ?_⟩
  obtain ⟨hgiven, hnot⟩ := default_of_prepare hf hdefaults hp hprepare hfree
  have hget : Dict.get? b q.name = some ⟨w.defaultOf q, .default⟩ := calc
    _ = Dict.get? (merge given resolution) q.name := Bindings.compute_frame (computed_eq_ok.mp hb) (.inr hnot)
    _ = Dict.get? given q.name := get?_merge_of_default hrecorded.ordered hv
    _ = some ⟨w.defaultOf q, .default⟩ := hgiven
  refine ⟨hget, ?_⟩
  rw [Bindings.value?, hget, Option.map_some, Option.some_inj]

/-- A table that is wider than tables are by default. -/
def wideTable : Workflow where
  name := "table"
  parameters :=
    [{ name := "width", type := .int, default := .int 2, hints := ["wide"] },
     { name := "depth", type := .int, default := .int 3, hints := ["deep"] }]
  defaults := [("width", .int 5)]
  steps := [{ tool := "build_table", params := [("width", .str "$width"), ("depth", .str "$depth")] }]

/-- The handler declines to say anything about it. -/
def silent : Compiler Records where
  registry := ⟨[wideTable]⟩
  resolver := Resolver.interview []

def wideRequest : CompileRequest where
  goal := "a wide and deep table"
  workflow := some "table"

def wideGiven : Bindings := [("depth", ⟨.int 3, .default⟩), ("width", ⟨.int 5, .default⟩)]

def wideResolution : Resolution where
  bindings := [("depth", ⟨.int 3, .default⟩), ("width", ⟨.int 2, .default⟩)]

theorem prepare_wideTable : prepare wideTable wideRequest = .ok (wideGiven, []) := by
  have harrange : Graph.arrange (ComputedParameter.needs []) = some [] := by decide +kernel
  have horder : ComputedParameter.inOrder wideTable = .ok [] :=
    Outcome.bind_eq_ok.mpr ⟨[], rfl, by rw [harrange]; rfl⟩
  have hinitial : wideTable.initialBindings [] = .ok wideGiven := rfl
  exact Outcome.bind_eq_ok.mpr ⟨_, hinitial, Outcome.bind_eq_ok.mpr ⟨_, horder, rfl⟩⟩

/-- The handler is asked about both, and the resolution takes their own defaults. -/
theorem resolve_wideTable : ∃ s', silent.resolver.resolve wideTable (Resolver.plainGoal wideRequest.goal) wideGiven
      ⟨[], [], 0⟩ = (.ok wideResolution, s') ∧
    (silent.resolver.services.exchanges ⟨[], [], 0⟩ s').map (fun x => (x.1.question.parameter, x.1.question.default,
      x.2)) = [("width", .int 2, .declined), ("depth", .int 3, .declined)] := by
  have hok : (silent.resolver.resolve wideTable (Resolver.plainGoal wideRequest.goal) wideGiven ⟨[], [], 0⟩).1 =
      .ok wideResolution := by decide +kernel
  exact ⟨_, Prod.ext hok rfl, by decide +kernel⟩

/-- The depth is what the question showed. -/
theorem reported_default_wideTable :
    wideTable.validate = .ok () ∧ (Dict.keys wideTable.defaults).Nodup ∧
    prepare wideTable wideRequest = .ok (wideGiven, []) ∧
    ∃ s', silent.resolver.resolve wideTable (Resolver.plainGoal wideRequest.goal) wideGiven ⟨[], [], 0⟩ =
        (.ok wideResolution, s') ∧
      (∃ x ∈ silent.resolver.services.exchanges ⟨[], [], 0⟩ s', x.1.question.parameter = "depth" ∧
        x.1.question.default = .int 3) ∧
      Dict.get? wideResolution.bindings "depth" = some ⟨.int 3, .default⟩ ∧
      ∃ b, computed (merge wideGiven wideResolution) [] = .ok b ∧ b.value? "depth" = some (.int 3) := by
  have hvalid : wideTable.validate = .ok () := by decide +kernel
  have hdefaults : (Dict.keys wideTable.defaults).Nodup := by decide
  have hp : wideTable.parameters[1] ∈ wideTable.parameters := List.getElem_mem (by decide)
  obtain ⟨s', hresolve, hexchanges⟩ := resolve_wideTable
  obtain ⟨hshown, -, hfalls, hused⟩ := reported_default_iff hvalid hdefaults prepare_wideTable hresolve hp
  obtain ⟨x, hx, heq⟩ : ∃ x ∈ silent.resolver.services.exchanges ⟨[], [], 0⟩ s',
      (x.1.question.parameter, x.1.question.default, x.2) = ("depth", .int 3, .declined) :=
    List.mem_map.mp (hexchanges ▸ by decide)
  have hname : x.1.question.parameter = "depth" := congrArg Prod.fst heq
  have hdeclined : ∀ i value, (i, Reply.value value) ∉ silent.resolver.services.exchanges ⟨[], [], 0⟩ s' := by
    intro i value hi
    have hmem := hexchanges ▸ List.mem_map_of_mem hi
    simp at hmem
  have hrecorded : Dict.get? wideResolution.bindings "depth" = some ⟨.int 3, .default⟩ := by
    refine hfalls rfl ⟨x, hx, hname⟩ ?_ ?_
    · rintro context v ⟨i, value, hi, -⟩
      exact hdeclined i value hi
    · rintro v ⟨q, -, context, u, ⟨i, value, hi, -⟩, -⟩
      exact hdeclined i value hi
  have hdefault : wideTable.defaultOf wideTable.parameters[1] = wideTable.parameters[1].default := by decide +kernel
  refine ⟨hvalid, hdefaults, prepare_wideTable, s', hresolve, ⟨x, hx, hname, hshown x hx hname⟩, hrecorded, _, rfl, ?_⟩
  exact ((hused _ hrecorded).2 _ rfl).2.mpr hdefault

def wideInstruction : Instruction where
  tool := "build_table"
  params := [("width", .int 5), ("depth", .int 3)]
  provenance := [("depth", .default), ("width", .default)]

/-- The width is not: the question shows two, and two is recorded, but the table is built five wide. -/
theorem used_otherwise_wideTable :
    wideTable.validate = .ok () ∧
    Goal.analyse silent.resolver.services.embedder wideRequest.goal = .ok (Resolver.plainGoal wideRequest.goal) ∧
    prepare wideTable wideRequest = .ok (wideGiven, []) ∧
    (∃ s', silent.resolver.resolve wideTable (Resolver.plainGoal wideRequest.goal) wideGiven ⟨[], [], 0⟩ =
        (.ok wideResolution, s') ∧
      ("width", Json.int 2, Reply.declined) ∈ (silent.resolver.services.exchanges ⟨[], [], 0⟩ s').map fun x =>
        (x.1.question.parameter, x.1.question.default, x.2)) ∧
    Dict.get? wideResolution.bindings "width" = some ⟨.int 2, .default⟩ ∧
    (silent.compile wideRequest ⟨[], [], 0⟩).1 = .ok (.ready "table" [wideInstruction]) := by
  obtain ⟨s', hresolve, hexchanges⟩ := resolve_wideTable
  exact ⟨by decide +kernel, Resolver.analyse_interview _ _, prepare_wideTable,
    ⟨s', hresolve, hexchanges ▸ List.mem_cons_self⟩, by decide +kernel, by decide +kernel⟩

end Compiler

end GoalCompiler
