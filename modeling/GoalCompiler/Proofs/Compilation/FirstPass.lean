import GoalCompiler.Proofs.Compilation.Failures
import GoalCompiler.Proofs.Compilation.Reached
import GoalCompiler.Proofs.Resolution.Course
import GoalCompiler.Proofs.Workflow.Defaults

/-! The first of the two passes over the computed parameters. It works on the defaults and on what the caller gives,
before anything is resolved. What it binds is bound anew by the second pass, and to resolve parameters all that
matters is which names the caller gave. So the first pass leaves no trace in what is compiled; but where it
fails, so does the compilation, whatever would have been resolved. -/
namespace GoalCompiler

/-! ### Bindings that differ in computed parameters -/

namespace Bindings

variable {b b' early : Bindings} {order : List ComputedParameter} {names : List String} {n m : String} {v : Json}
  {source : Source} {entries : List (String × Binding)}

/-- Both bind all names alike but for some of these names, which the caller gave in neither. -/
def AgreeBut (names : List String) (b b' : Bindings) : Prop :=
  ∀ n, Dict.get? b' n = Dict.get? b n ∨ n ∈ names ∧ ¬ b.isExplicit n ∧ ¬ b'.isExplicit n

theorem AgreeBut.isExplicit_eq (h : AgreeBut names b b') (n : String) : b'.isExplicit n = b.isExplicit n := by
  rcases h n with hget | ⟨-, hb, hb'⟩
  · exact isExplicit_congr hget
  · rw [Bool.eq_false_of_not_eq_true hb, Bool.eq_false_of_not_eq_true hb']

theorem AgreeBut.bind (h : AgreeBut names b b') : AgreeBut names (b.bind m v source) (b'.bind m v source) := by
  intro n
  rcases h n with hget | ⟨hn, hb, hb'⟩
  · exact .inl (get?_bind_congr hget)
  · by_cases hm : n = m
    · subst hm
      have hadmits : b.admits n source := by simp [admits, hb]
      have hadmits' : b'.admits n source := by simp [admits, hb']
      exact .inl (by rw [Bindings.bind, Bindings.bind, if_pos hadmits, if_pos hadmits', Dict.get?_insert_self,
        Dict.get?_insert_self])
    · right
      rw [isExplicit_congr (get?_bind_of_ne hm), isExplicit_congr (get?_bind_of_ne hm)]
      exact ⟨hn, hb, hb'⟩

theorem AgreeBut.bindAll (h : AgreeBut names b b') : AgreeBut names (b.bindAll entries) (b'.bindAll entries) := by
  induction entries generalizing b b' with
  | nil => exact h
  | cons e rest ih => exact ih h.bind

/-- A pass changes nothing but what it works out, and does not take it for given. -/
theorem agreeBut_of_compute (hl : ComputedParameter.Layered order) (h : b.compute order = ⟨early, none⟩) :
    AgreeBut (order.map ComputedParameter.name) b early := by
  intro n
  by_cases hn : ¬ b.isExplicit n ∧ n ∈ order.map ComputedParameter.name
  · obtain ⟨hex, hmem⟩ := hn
    refine .inr ⟨hmem, hex, ?_⟩
    obtain ⟨c, hc, rfl⟩ := List.mem_map.mp hmem
    obtain ⟨v, -, hget⟩ := compute_value hl h c hc hex
    simp [isExplicit, source?, hget]
  · refine .inl (compute_frame h ?_)
    by_cases hex : b.isExplicit n
    · exact .inl hex
    · exact .inr fun hmem => hn ⟨hex, hmem⟩

theorem ordered_bind (h : Dict.Ordered b) : Dict.Ordered (b.bind m v source) := by
  unfold bind
  split
  · exact Dict.ordered_insert h
  · exact h

theorem ordered_bindAll (h : Dict.Ordered b) : Dict.Ordered (b.bindAll entries) :=
  List.foldlRecOn entries _ h fun _ hb _ _ => ordered_bind hb

end Bindings

theorem Workflow.ordered_initialBindings {w : Workflow} {explicit : Dict Json} {b : Bindings}
    (h : w.initialBindings explicit = .ok b) : Dict.Ordered b := by
  rw [initialBindings, bindExplicit_eq] at h
  obtain ⟨given, -, rfl⟩ := Outcome.map_eq_ok.mp h
  rw [defaultBindings_eq]
  exact Bindings.ordered_bindAll (Bindings.ordered_bindAll (Bindings.ordered_bindAll List.Pairwise.nil))

/-! ### Resolution -/

namespace Resolver

variable {σ : Type} {r : Resolver σ} {w : Workflow} {goal : Goal} {given given' : Bindings}

theorem add_congr (h : ∀ n, given'.isExplicit n = given.isExplicit n) (done : Resolution) (a : Settlement) :
    done.add given' a = done.add given a := by
  cases a with
  | values entries source => simp only [Resolution.add, h]
  | unsettled u => rfl

theorem resolveFrom_congr {assignments : Dict Assignment} {done : Resolution} {s : Session σ} {ps : List Parameter}
    (h : ∀ n, given'.isExplicit n = given.isExplicit n) :
    r.resolveFrom w goal assignments given' done s ps = r.resolveFrom w goal assignments given done s ps := by
  induction ps generalizing done s with
  | nil => rfl
  | cons p rest ih =>
    simp only [resolveFrom, h, ih, add_congr h]

/-- All that resolution reads of the bindings is which names the caller gave. -/
theorem resolve_congr {s : Session σ} (h : ∀ n, given'.isExplicit n = given.isExplicit n) :
    r.resolve w goal given' s = r.resolve w goal given s := by
  simp only [resolve, resolveFrom_congr h]

end Resolver

/-! ### One pass and two -/

namespace Compiler

variable {σ : Type} {c : Compiler σ} {r : CompileRequest} {s s' : Session σ} {w : Workflow} {goal : Goal}
  {initial early final : Bindings} {order : List ComputedParameter} {resolution : Resolution}

/-- What a request starts from, with the computed parameters left for later. -/
def prepareOnce (w : Workflow) (r : CompileRequest) : Except Failure (Bindings × List ComputedParameter) := do
  let b ← w.initialBindings r.explicit
  return (b, ← ComputedParameter.inOrder w)

/-- Compiles the steps of a workflow from what a request starts from. -/
def compileFrom (c : Compiler σ) (w : Workflow) (goal : Goal) (r : CompileRequest) (s : Session σ) :
    Except Failure (Bindings × List ComputedParameter) → Except Failure CompileResponse × Session σ
  | .error e => (.error e, s)
  | .ok (b, order) =>
    match c.resolver.resolve w goal b s with
    | (.error e, s) => (.error e, s)
    | (.ok resolution, s) => (c.finish w r b order resolution, s)

/-- A compilation that works out the computed parameters but once, when the others are resolved. -/
def compileOnce (c : Compiler σ) (r : CompileRequest) (s : Session σ) :
    Except Failure CompileResponse × Session σ :=
  match Goal.analyse c.resolver.services.embedder r.goal with
  | .error e => (.error (.service e), s)
  | .ok goal =>
    match c.choose goal r.workflow with
    | .error e => (.error e, s)
    | .ok none => (.ok .noMatch, s)
    | .ok (some w) => c.compileFrom w goal r s (prepareOnce w r)

theorem prepare_eq (hinitial : w.initialBindings r.explicit = .ok initial)
    (horder : ComputedParameter.inOrder w = .ok order) :
    prepare w r = (computed initial order).map fun b => (b, order) := by
  simp only [prepare, hinitial, horder]
  change (computed initial order >>= fun b => pure (b, order)) = _
  cases computed initial order <;> rfl

theorem compile_of_choose (hgoal : Goal.analyse c.resolver.services.embedder r.goal = .ok goal)
    (hchoose : c.choose goal r.workflow = .ok (some w)) : c.compile r s = c.compileFrom w goal r s (prepare w r) := by
  simp only [compile, hgoal, hchoose]
  rfl

theorem compileOnce_of_choose (hgoal : Goal.analyse c.resolver.services.embedder r.goal = .ok goal)
    (hchoose : c.choose goal r.workflow = .ok (some w)) :
    c.compileOnce r s = c.compileFrom w goal r s (prepareOnce w r) := by
  simp only [compileOnce, hgoal, hchoose]

/-- Once the second pass is done, instructions come of its bindings. -/
theorem compileFrom_of_computed (hresolve : c.resolver.resolve w goal initial s = (.ok resolution, s'))
    (hcomplete : resolution.isComplete) (hfinal : computed (merge initial resolution) order = .ok final) :
    c.compileFrom w goal r s (.ok (initial, order)) =
      ((build c.stepLimit c.simulator final (r.steps.getD w.steps)).map (.ready w.name), s') := by
  simp only [compileFrom, hresolve, finish, hcomplete, hfinal, if_true]
  rfl

/-- The second pass makes the same of the bindings whether or not there was a first one. -/
theorem computed_merge_of_early (hordered : Dict.Ordered initial) (hl : ComputedParameter.Layered order)
    (hearly : computed initial order = .ok early) (hfinal : computed (merge initial resolution) order = .ok final) :
    computed (merge early resolution) order = .ok final := by
  have hearly := computed_eq_ok.mp hearly
  have hfinal := computed_eq_ok.mp hfinal
  have hagree : Bindings.AgreeBut _ (merge initial resolution) (merge early resolution) :=
    (Bindings.agreeBut_of_compute hl hearly).bindAll
  obtain ⟨b, hb, hsame⟩ := Bindings.compute_congr hl hfinal hagree
  obtain rfl : b = final := Dict.ext_of_ordered
    (Bindings.ordered_compute (Bindings.ordered_bindAll (Bindings.ordered_compute hordered hearly)) hb)
    (Bindings.ordered_compute (Bindings.ordered_bindAll hordered) hfinal) hsame
  exact computed_eq_ok.mpr hb

/-- A request whose parameters are all resolved, and whose computed parameters can be worked out then. If they can
be worked out before as well, from the defaults and what the caller gives, it is compiled as if that was never
done, and no failure of a computed parameter comes of it. If they cannot, this is what the compilation fails with,
before anything is resolved, though it would not have come to it without the first pass. -/
theorem first_pass_decides (hvalid : w.validate = .ok ())
    (hgoal : Goal.analyse c.resolver.services.embedder r.goal = .ok goal)
    (hchoose : c.choose goal r.workflow = .ok (some w)) (hinitial : w.initialBindings r.explicit = .ok initial)
    (horder : ComputedParameter.inOrder w = .ok order)
    (hresolve : c.resolver.resolve w goal initial s = (.ok resolution, s')) (hcomplete : resolution.isComplete)
    (hfinal : computed (merge initial resolution) order = .ok final) :
    (∀ early, computed initial order = .ok early →
      c.compile r s = c.compileOnce r s ∧ Outcome.FailsOnly (¬ Failure.OfComputed ·) (c.compile r s).1) ∧
    ∀ e, computed initial order = .error e →
      e.OfComputed ∧ c.compile r s = (.error e, s) ∧ (c.compile r s).1 ≠ (c.compileOnce r s).1 := by
  have honce : c.compileOnce r s =
      ((build c.stepLimit c.simulator final (r.steps.getD w.steps)).map (.ready w.name), s') := by
    have hprepare : prepareOnce w r = .ok (initial, order) := by simp only [prepareOnce, hinitial, horder]; rfl
    rw [compileOnce_of_choose hgoal hchoose, hprepare, compileFrom_of_computed hresolve hcomplete hfinal]
  have hbuild : Outcome.FailsOnly (¬ Failure.OfComputed ·) (c.compileOnce r s).1 := by
    rw [honce]
    exact (failsOnly_build _ _ _ _).map
  refine ⟨fun early hearly => ?_, fun e he => ?_⟩
  · obtain ⟨hl, -⟩ := ComputedParameter.inOrder_spec (Workflow.fit_of_validate hvalid).distinct horder
    have hexplicit := (Bindings.agreeBut_of_compute hl (computed_eq_ok.mp hearly)).isExplicit_eq
    have hprepare : prepare w r = .ok (early, order) := by rw [prepare_eq hinitial horder, hearly]; rfl
    have hsame : c.compile r s = c.compileOnce r s := by
      rw [honce, compile_of_choose hgoal hchoose, hprepare]
      exact compileFrom_of_computed ((Resolver.resolve_congr hexplicit).trans hresolve) hcomplete
        (computed_merge_of_early (Workflow.ordered_initialBindings hinitial) hl hearly hfinal)
    exact ⟨hsame, hsame ▸ hbuild⟩
  · have hcomputed := failsOnly_computed initial order e he
    have hprepare : prepare w r = .error e := by rw [prepare_eq hinitial horder, he]; rfl
    have hfail : c.compile r s = (.error e, s) := by
      rw [compile_of_choose hgoal hchoose, hprepare]
      rfl
    refine ⟨hcomputed, hfail, fun hsame => hbuild e ?_ hcomputed⟩
    rw [← hsame, hfail]

/-- A shelf of so many boards, as far apart as they have to be. -/
def shelf (boards : Json) : Workflow where
  name := "shelf"
  parameters :=
    [{ name := "boards", type := .int, default := boards },
     { name := "gap", computed := some "60 / boards", dependsOn := ["boards"] }]
  modifiers := [{ phrase := "three boards", values := [("boards", .int 3)] }]
  steps := [{ tool := "build_shelf", params := [("gap", .str "$gap")] }]

def shelving (boards : Json) : Compiler Records where
  registry := ⟨[shelf boards]⟩
  resolver := Resolver.interview []

def shelfRequest : CompileRequest where
  goal := "a shelf of three boards"
  workflow := some "shelf"

def shelfGoal : Goal := Resolver.plainGoal shelfRequest.goal

def shelfGiven (boards : Json) : Bindings := [("boards", ⟨boards, .default⟩)]

def shelfOrder : List ComputedParameter := (ComputedParameter.inOrder (shelf .null)).toOption.getD []

def threeBoards : Resolution where
  bindings := [("boards", ⟨.int 3, .modifier⟩)]

def shelfFinal : Bindings := [("boards", ⟨.int 3, .modifier⟩), ("gap", ⟨.float 20.0, .computed⟩)]

def shelfInstruction : Instruction where
  tool := "build_shelf"
  params := [("gap", .float 20.0)]
  provenance := [("gap", .computed)]

theorem inOrder_shelf (boards : Json) : ComputedParameter.inOrder (shelf boards) = .ok shelfOrder := by
  obtain ⟨order, horder⟩ := Outcome.exists_eq_ok_of_isOk
    (show (ComputedParameter.inOrder (shelf .null)).isOk by decide +kernel)
  have hsame : ComputedParameter.inOrder (shelf boards) = ComputedParameter.inOrder (shelf .null) := rfl
  rw [hsame, shelfOrder, horder]
  rfl

/-- A shelf of two boards has a gap as well, though it is not the one that is taken. -/
theorem first_pass_decides_shelf :
    (shelf (.int 2)).validate = .ok () ∧
    Goal.analyse (shelving (.int 2)).resolver.services.embedder shelfRequest.goal = .ok shelfGoal ∧
    (shelving (.int 2)).choose shelfGoal shelfRequest.workflow = .ok (some (shelf (.int 2))) ∧
    (shelf (.int 2)).initialBindings shelfRequest.explicit = .ok (shelfGiven (.int 2)) ∧
    ComputedParameter.inOrder (shelf (.int 2)) = .ok shelfOrder ∧
    ∃ s', (shelving (.int 2)).resolver.resolve (shelf (.int 2)) shelfGoal (shelfGiven (.int 2)) ⟨[], [], 0⟩ =
        (.ok threeBoards, s') ∧
      threeBoards.isComplete ∧
      computed (merge (shelfGiven (.int 2)) threeBoards) shelfOrder = .ok shelfFinal ∧
      computed (shelfGiven (.int 2)) shelfOrder =
        .ok (shelfGiven (.int 2) ++ [("gap", ⟨.float 30.0, .computed⟩)]) ∧
      (shelving (.int 2)).compile shelfRequest ⟨[], [], 0⟩ =
        (shelving (.int 2)).compileOnce shelfRequest ⟨[], [], 0⟩ ∧
      ((shelving (.int 2)).compile shelfRequest ⟨[], [], 0⟩).1 = .ok (.ready "shelf" [shelfInstruction]) := by
  have hvalid : (shelf (.int 2)).validate = .ok () := by decide +kernel
  have hgoal : Goal.analyse (shelving (.int 2)).resolver.services.embedder shelfRequest.goal = .ok shelfGoal :=
    Resolver.analyse_interview [] _
  have hchoose : (shelving (.int 2)).choose shelfGoal shelfRequest.workflow = .ok (some (shelf (.int 2))) := by
    decide +kernel
  have hinitial : (shelf (.int 2)).initialBindings shelfRequest.explicit = .ok (shelfGiven (.int 2)) := rfl
  have hresolved : ((shelving (.int 2)).resolver.resolve (shelf (.int 2)) shelfGoal (shelfGiven (.int 2))
      ⟨[], [], 0⟩).1 = .ok threeBoards := by decide +kernel
  obtain ⟨s', hresolve⟩ : ∃ s', (shelving (.int 2)).resolver.resolve (shelf (.int 2)) shelfGoal
      (shelfGiven (.int 2)) ⟨[], [], 0⟩ = (.ok threeBoards, s') := ⟨_, Prod.ext hresolved rfl⟩
  have hfinal : computed (merge (shelfGiven (.int 2)) threeBoards) shelfOrder = .ok shelfFinal := by decide +kernel
  have hearly : computed (shelfGiven (.int 2)) shelfOrder =
      .ok (shelfGiven (.int 2) ++ [("gap", ⟨.float 30.0, .computed⟩)]) := by decide +kernel
  obtain ⟨hsame, -⟩ := (first_pass_decides hvalid hgoal hchoose hinitial (inOrder_shelf _) hresolve rfl hfinal).1 _
    hearly
  exact ⟨hvalid, hgoal, hchoose, hinitial, inOrder_shelf _, s', hresolve, rfl, hfinal, hearly, hsame,
    by decide +kernel⟩

/-- A shelf without boards has no gap, and the one between three boards is not worked out any more. -/
theorem refused_shelf :
    (shelf (.int 0)).validate = .ok () ∧
    Goal.analyse (shelving (.int 0)).resolver.services.embedder shelfRequest.goal = .ok shelfGoal ∧
    (shelf (.int 0)).initialBindings shelfRequest.explicit = .ok (shelfGiven (.int 0)) ∧
    ComputedParameter.inOrder (shelf (.int 0)) = .ok shelfOrder ∧
    ((shelving (.int 0)).resolver.resolve (shelf (.int 0)) shelfGoal (shelfGiven (.int 0)) ⟨[], [], 0⟩).1 =
      .ok threeBoards ∧
    threeBoards.isComplete ∧
    computed (merge (shelfGiven (.int 0)) threeBoards) shelfOrder = .ok shelfFinal ∧
    ((shelving (.int 0)).compileOnce shelfRequest ⟨[], [], 0⟩).1 = .ok (.ready "shelf" [shelfInstruction]) ∧
    ((shelving (.int 0)).compile shelfRequest ⟨[], [], 0⟩).1 =
      .error (.expression ⟨.arithmetic .divisionByZero, "60 / boards"⟩) :=
  ⟨by decide +kernel, Resolver.analyse_interview [] _, rfl, inOrder_shelf _, by decide +kernel, rfl,
    by decide +kernel, by decide +kernel, by decide +kernel⟩

end Compiler

end GoalCompiler
