import GoalCompiler.Proofs.Compilation.Provenance
import GoalCompiler.Proofs.Workflow.Sequence
import GoalCompiler.Workflow.Validation

/-! Circles that are told before any request. A step without a loop comes exactly once, and all such steps have their
texts filled in from one scope, so that equal ids stay equal. What they depend on goes along with them: steps
that depend on each other in a circle as they are written do so in every request, however the loops unroll and
whatever other steps come of them. -/
namespace GoalCompiler

open Expression (Scope)
open GoalCompiler.Graph (Follows Acyclic)

namespace Filling

variable {scope : Scope}

theorem exists_text_of_mem {xs : List String} {ys : Traced (List String)} (h : texts scope xs = .ok ys) {x : String}
    (hx : x ∈ xs) : ∃ y, text scope x = .ok y ∧ y.value ∈ ys.value := by
  induction xs generalizing ys with
  | nil => cases hx
  | cons x' xs ih =>
    obtain ⟨y', hy', h⟩ := Outcome.bind_eq_ok.mp h
    obtain ⟨rest, hrest, h⟩ := Outcome.bind_eq_ok.mp h
    obtain rfl := Except.ok.inj h
    rcases List.mem_cons.mp hx with rfl | hx
    · exact ⟨y', hy', List.mem_cons_self⟩
    · obtain ⟨y, hy, hmem⟩ := ih hrest hx
      exact ⟨y, hy, List.mem_cons_of_mem _ hmem⟩

end Filling

namespace Dependent

variable {scope : Scope} {ds es : List Dependent}

/-- The id of `e` is that of `d`, filled in, and `e` depends on all that `d` does. -/
structure FilledIn (scope : Scope) (d e : Dependent) : Prop where
  id : ∀ id, d.id = some id → ∃ y, Filling.text scope id = .ok y ∧ e.id = some y.value
  dependsOn : ∀ id ∈ d.dependsOn, ∃ y, Filling.text scope id = .ok y ∧ y.value ∈ e.dependsOn

/-- Equal ids stay equal when they are filled in from one scope. -/
theorem follows_of_filledIn {i j k l : Nat} {d d' e e' : Dependent} (hi : ds[i]? = some d) (hj : ds[j]? = some d')
    (hk : es[k]? = some e) (hl : es[l]? = some e') (h : FilledIn scope d e) (h' : FilledIn scope d' e')
    (hf : Follows (needs ds) i j) : Follows (needs es) k l := by
  obtain ⟨c, c', id, hc, hc', hid, hcid⟩ := follows_needs.mp hf
  obtain rfl : c = d := Option.some.inj (hc.symm.trans hi)
  obtain rfl : c' = d' := Option.some.inj (hc'.symm.trans hj)
  obtain ⟨y, hy, hmem⟩ := h.dependsOn id hid
  obtain ⟨y', hy', hid'⟩ := h'.id id hcid
  obtain rfl : y = y' := Except.ok.inj (hy.symm.trans hy')
  exact follows_needs.mpr ⟨e, e', y.value, hk, hl, hmem, hid'⟩

/-- Steps go around in a circle if they hold all of some that do, filled in from one scope. -/
theorem acyclic_of_filledIn (h : ∀ d ∈ ds, ∃ e ∈ es, FilledIn scope d e) (ha : Acyclic (needs es)) :
    Acyclic (needs ds) := by
  have hplace : ∀ i : Nat, ∃ k : Nat, ∀ d, ds[i]? = some d → ∃ e, es[k]? = some e ∧ FilledIn scope d e := by
    intro i
    cases hd : ds[i]? with
    | none => exact ⟨0, fun d h => by cases h⟩
    | some d =>
      obtain ⟨e, he, hde⟩ := h d (List.mem_of_getElem? hd)
      obtain ⟨k, hk⟩ := List.mem_iff_getElem?.mp he
      exact ⟨k, fun d' hd' => Option.some.inj hd' ▸ ⟨e, hk, hde⟩⟩
  choose place hplace using hplace
  intro i hi
  refine ha (place i) (hi.lift place fun j k hf => ?_)
  obtain ⟨d, d', -, hd, hd', -, -⟩ := follows_needs.mp hf
  obtain ⟨e, he, hde⟩ := hplace j d hd
  obtain ⟨e', he', hde'⟩ := hplace k d' hd'
  exact follows_of_filledIn hd hd' he he' hde hde' hf

/-- Steps in a circle are refused, if not for a step that is missing. -/
theorem check_of_not_acyclic (h : ¬ Acyclic (needs ds)) : ∃ e, check ds = .error e ∧
    ((∃ d id, e = .unknownDependency d.label id ∧ d ∈ ds ∧ id ∈ d.dependsOn ∧ id ∉ ids ds) ∨
      ∃ path, e = .cycle .steps path ∧ ClosedPath ds path) := by
  unfold check
  split
  · rename_i d id hmissing
    obtain ⟨hd, hid, hunknown, -⟩ := missing_of_missing? hmissing
    exact ⟨_, rfl, .inl ⟨d, id, rfl, hd, hid, hunknown⟩⟩
  · split
    · rename_i path hcycle
      obtain ⟨nodes, hnodes, rfl⟩ := Option.map_eq_some_iff.mp hcycle
      exact ⟨_, rfl, .inr ⟨_, rfl, closedPath_of_closed (Graph.closed_of_cycle? hnodes)⟩⟩
    · rename_i hnone
      exact absurd (Graph.acyclic_of_cycle?_eq_none (Option.map_eq_none_iff.mp hnone)) h

end Dependent

/-! ### Steps without loops -/

namespace Unrolling

variable {scope : Scope}

/-- A step without a loop is a run of its own. -/
theorem mem_runs_of_no_loop {ts : List Template} {t : Template} (ht : t ∈ ts) (hloop : t.step.loop = none) :
    [t] ∈ runs ts := by
  have halone : ∀ u v, u = t ∨ v = t → joined u v = false := by
    rintro u v (rfl | rfl)
    · simp [joined, group?, hloop]
    · have hnone : group? v.step = none := by rw [group?, hloop, Option.bind_none]
      cases hu : group? u.step <;> simp [joined, hu, hnone]
  induction ts with
  | nil => cases ht
  | cons u rest ih =>
    rw [runs_cons]
    rcases List.mem_cons.mp ht with rfl | ht
    · split
      · rw [halone _ _ (.inl rfl)]
        exact List.mem_cons_self
      · exact List.mem_cons_self
    · have hmem := ih ht
      split
      · rename_i v run others hruns
        rw [hruns] at hmem
        split
        · rename_i hjoined
          -- the step is in no run with the one before it
          rcases List.mem_cons.mp hmem with heq | hmem
          · rw [halone u v (.inr (List.cons.inj heq).1.symm)] at hjoined
            cases hjoined
          · exact List.mem_cons_of_mem _ hmem
        · exact List.mem_cons_of_mem _ hmem
      · exact List.mem_cons_of_mem _ hmem

theorem subset_of_unrollRuns {limit : Nat} {done out : List Unrolled} {rs : List (List Template)}
    (h : unrollRuns scope limit done rs = .ok out) : done ⊆ out := by
  induction rs generalizing done with
  | nil =>
    obtain rfl := Except.ok.inj h
    exact List.Subset.refl _
  | cons run rest ih =>
    obtain ⟨more, -, h⟩ := Outcome.bind_eq_ok.mp h
    exact List.Subset.trans (List.subset_append_left done more) (ih h)

theorem exists_unrollRun_of_mem {limit : Nat} {done out : List Unrolled} {rs : List (List Template)}
    (h : unrollRuns scope limit done rs = .ok out) {run : List Template} (hrun : run ∈ rs) :
    ∃ emitted more, unrollRun scope limit emitted run = .ok more ∧ more ⊆ out := by
  induction rs generalizing done with
  | nil => cases hrun
  | cons run' rest ih =>
    obtain ⟨more, hmore, hrest⟩ := Outcome.bind_eq_ok.mp h
    rcases List.mem_cons.mp hrun with rfl | hrun
    · exact ⟨_, more, hmore, List.Subset.trans (List.subset_append_right done more) (subset_of_unrollRuns hrest)⟩
    · exact ih hrest hrun

/-- A step without a loop comes once, filled in from the scope. -/
theorem exists_copy_of_no_loop {limit : Nat} {steps : List Step} {out : List Unrolled}
    (h : unroll scope limit steps = .ok out) {s : Step} (hs : s ∈ steps) (hloop : s.loop = none) :
    ∃ u ∈ out, ∃ origin, instantiate scope ⟨s, origin⟩ [] = .ok u := by
  change unrollRuns scope limit [] (runs (templates steps)) = .ok out at h
  obtain ⟨i, hi⟩ := List.mem_iff_getElem?.mp hs
  have ht : (⟨s, i⟩ : Template) ∈ templates steps :=
    List.mem_map.mpr ⟨(s, i), List.mem_zipIdx_iff_getElem?.mpr hi, rfl⟩
  obtain ⟨emitted, more, hmore, hsub⟩ := exists_unrollRun_of_mem h (mem_runs_of_no_loop ht hloop)
  obtain ⟨planned, hplanned, -, -, hcopies⟩ := unrollRun_eq_ok hmore
  obtain ⟨hrun, hplan⟩ := planned_spec hplanned
  obtain ⟨⟨t, p⟩, rfl, rfl⟩ := List.map_eq_singleton_iff.mp hrun.symm
  obtain rfl : Plan.once = p := by
    have hp := hplan (_, p) List.mem_cons_self
    rw [plan, hloop] at hp
    exact Except.ok.inj hp
  have hcount : Plan.once.count = 1 := by decide
  rw [List.map_singleton, List.headD_cons, hcount] at hcopies
  obtain ⟨u, rest, hcopy, -, rfl⟩ := List.forall₂_cons_left_iff.mp (copies_eq_ok hcopies)
  exact ⟨u, hsub List.mem_cons_self, i, hcopy⟩

end Unrolling

/-- The step that comes of one without a loop has the same id and dependencies, filled in. -/
theorem Unrolled.filledIn_of_settle {scope : Scope} {t : Unrolling.Template} {u : Unrolled} {b : Bindings}
    {s : Settled} (hu : Unrolling.instantiate scope t [] = .ok u) (hs : u.settle b = .ok s) :
    Dependent.FilledIn (Scope.over (Scope.ofDict []) scope) t.step.dependent s.step.dependent := by
  obtain ⟨filled, hfilled, rfl⟩ := Unrolling.instantiate_eq_ok.mp hu
  obtain ⟨params, -, rfl⟩ := Unrolled.settle_eq_ok.mp hs
  obtain ⟨id, hid, h⟩ := Outcome.bind_eq_ok.mp hfilled
  obtain ⟨description, -, h⟩ := Outcome.bind_eq_ok.mp h
  obtain ⟨condition, -, h⟩ := Outcome.bind_eq_ok.mp h
  obtain ⟨dependsOn, hdependsOn, h⟩ := Outcome.bind_eq_ok.mp h
  obtain ⟨values, -, h⟩ := Outcome.bind_eq_ok.mp h
  obtain rfl := Except.ok.inj h
  refine ⟨fun own hown => ?_, fun other hother => Filling.exists_text_of_mem hdependsOn hother⟩
  have hown : t.step.id = some own := hown
  rw [hown] at hid
  obtain ⟨y, hy, rfl⟩ := Outcome.map_eq_ok.mp hid
  exact ⟨y, hy, rfl⟩

/-- A workflow whose steps with known ids depend on each other in a circle could not be compiled by any request: where
its loops unroll and the parameters of all steps settle, these are refused in turn, for a circle or for a step that
is missing. -/
theorem Workflow.checkGraph_of_literal_cycle {w : Workflow} {path : List String}
    (hcycle : Dependent.cycle? w.literalSteps = some path) {scope : Scope} {limit : Nat} {unrolled : List Unrolled}
    (hu : unroll scope limit w.steps = .ok unrolled) {b : Bindings} {settled : List Settled}
    (hs : unrolled.mapM (fun u => u.settle b) = .ok settled) :
    ∃ e, Settled.checkGraph settled = .error e ∧
      ((∃ d id, e = .unknownDependency d.label id ∧ d ∈ Settled.dependents settled ∧ id ∈ d.dependsOn ∧
        id ∉ Dependent.ids (Settled.dependents settled)) ∨
      ∃ path, e = .cycle .steps path ∧ Dependent.ClosedPath (Settled.dependents settled) path) := by
  have hfilled : ∀ d ∈ w.literalSteps, ∃ e ∈ Settled.dependents settled,
      Dependent.FilledIn (Scope.over (Scope.ofDict []) scope) d e := by
    intro d hd
    obtain ⟨s, hstep, rfl⟩ := List.mem_map.mp hd
    obtain ⟨hmem, hliteral⟩ := List.mem_filter.mp hstep
    have hloop : s.loop = none := by
      simp only [hasLiteralId, Bool.and_eq_true, Option.isNone_iff_eq_none] at hliteral
      exact hliteral.1
    obtain ⟨u, hu, origin, hcopy⟩ := Unrolling.exists_copy_of_no_loop hu hmem hloop
    obtain ⟨t, ht, hsettle⟩ := Outcome.exists_mem_of_mapM hs hu
    exact ⟨t.step.dependent, List.mem_map_of_mem ht, Unrolled.filledIn_of_settle hcopy hsettle⟩
  obtain ⟨nodes, hnodes, -⟩ := Option.map_eq_some_iff.mp hcycle
  exact Dependent.check_of_not_acyclic fun hacyclic =>
    (Graph.closed_of_cycle? hnodes).not_acyclic (Dependent.acyclic_of_filledIn hfilled hacyclic)

namespace Workflow

/-- Two blades that wait for each other, and rivets of which the second waits for nobody but the left one. -/
def scissors : Workflow where
  name := "scissors"
  parameters := [{ name := "count", type := .int, default := .int 2 }]
  steps :=
    [{ id := some "rivet_\x7bi\x7d", tool := "drill", dependsOn := ["left\x7d\x7d"]
       loop := some ⟨.range "i" ⟨.literal 1, .expression "count"⟩, none⟩ },
     { id := some "left\x7d\x7d", tool := "cut", dependsOn := ["right"] },
     { id := some "right", tool := "cut", condition := some "False"
       dependsOn := ["left\x7d\x7d", "rivet_\x7bcount\x7d"] }]

def scissorsBindings : Bindings := [("count", ⟨.int 2, .default⟩)]

def rivet (number : String) : Step := { id := some ("rivet_" ++ number), tool := "drill", dependsOn := ["left\x7d"] }

def unrolledScissors : List Unrolled :=
  [{ step := rivet "1", bindings := [("i", .int 1)], referenced := ["i"], origin := 0 },
   { step := rivet "2", bindings := [("i", .int 2)], referenced := ["i"], origin := 0 },
   { step := { id := some "left\x7d", tool := "cut", dependsOn := ["right"] }, origin := 1 },
   { step := { id := some "right", tool := "cut", condition := some "False", dependsOn := ["left\x7d", "rivet_2"] }
     referenced := ["count"], origin := 2 }]

def settledScissors : List Settled :=
  unrolledScissors.map fun u => { step := u.step, bindings := u.bindings, referenced := u.referenced }

theorem checkGraph_scissors :
    scissors.validate = .error (.cycle .steps ["left\x7d\x7d", "right", "left\x7d\x7d"]) ∧
      Dependent.cycle? scissors.literalSteps = some ["left\x7d\x7d", "right", "left\x7d\x7d"] ∧
      unroll scissorsBindings.scope 10 scissors.steps = .ok unrolledScissors ∧
      unrolledScissors.mapM (fun u => u.settle scissorsBindings) = .ok settledScissors ∧
      ∃ e, Settled.checkGraph settledScissors = .error e ∧
        ((∃ d id, e = .unknownDependency d.label id ∧ d ∈ Settled.dependents settledScissors ∧ id ∈ d.dependsOn ∧
          id ∉ Dependent.ids (Settled.dependents settledScissors)) ∨
        ∃ path, e = .cycle .steps path ∧ Dependent.ClosedPath (Settled.dependents settledScissors) path) := by
  have hcycle : Dependent.cycle? scissors.literalSteps = some ["left\x7d\x7d", "right", "left\x7d\x7d"] := by
    decide +kernel
  have hu : unroll scissorsBindings.scope 10 scissors.steps = .ok unrolledScissors := by decide +kernel
  have hs : unrolledScissors.mapM (fun u => u.settle scissorsBindings) = .ok settledScissors := by decide +kernel
  exact ⟨by decide +kernel, hcycle, hu, hs, checkGraph_of_literal_cycle hcycle hu hs⟩

end Workflow

end GoalCompiler
