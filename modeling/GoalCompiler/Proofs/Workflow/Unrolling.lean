import GoalCompiler.Proofs.Number.Whole
import GoalCompiler.Proofs.Outcome
import GoalCompiler.Proofs.Workflow.Combinations
import Mathlib.Data.List.SplitBy

/-! What unrolled loops are. The templates fall into maximal runs of one group; a run comes turn by turn,
and turn `k` has for each template the copy whose loop variables are the combination `k` of their values. -/
namespace GoalCompiler.Unrolling

open Expression (Scope)

/-! ### Values of the loop variables -/

/-- The values that a range of a loop runs through: the 64-bit numbers from its first bound to its last. -/
def Interval (scope : Scope) (label : String) (r : Range) (values : List Json) : Prop :=
  ∃ first last, bound scope label r.first = .ok first ∧ bound scope label r.last = .ok last ∧
    values = Axis.span first last ∧ ∀ j ∈ values, ∃ n, j = .int n ∧ Number.fitsWord n

/-- The variables of a loop with the values of each. -/
inductive Spans (scope : Scope) (label : String) :
    Option Iteration → List String → List (List Json) → Prop
  | once : Spans scope label none [] []
  | range {name r values} (h : Interval scope label r values) :
    Spans scope label (some (.range name r)) [name] [values]
  | values (name items) : Spans scope label (some (.values name items)) [name] [items]
  | product {names ranges lists} (hsome : names ≠ []) (hlen : names.length = ranges.length)
    (h : List.Forall₂ (Interval scope label) ranges lists) :
    Spans scope label (some (.product names ranges)) names lists

variable {scope : Scope} {label : String}

theorem Interval.unique {r : Range} {values values' : List Json}
    (h : Interval scope label r values) (h' : Interval scope label r values') : values = values' := by
  obtain ⟨first, last, hfirst, hlast, rfl, -⟩ := h
  obtain ⟨first', last', hfirst', hlast', rfl, -⟩ := h'
  rw [hfirst] at hfirst'
  rw [hlast] at hlast'
  rw [Except.ok.inj hfirst', Except.ok.inj hlast']

/-- A loop has the values of its variables from the scope alone. -/
theorem Spans.unique {i : Option Iteration} {names names' : List String}
    {lists lists' : List (List Json)} (h : Spans scope label i names lists)
    (h' : Spans scope label i names' lists') : names = names' ∧ lists = lists' := by
  cases h with
  | once =>
    cases h'
    exact ⟨rfl, rfl⟩
  | range hr =>
    cases h' with
    | range hr' => exact ⟨rfl, by rw [hr.unique hr']⟩
  | values =>
    cases h'
    exact ⟨rfl, rfl⟩
  | product _ _ hr =>
    cases h' with
    | product _ _ hr' =>
      have hunique : Relator.RightUnique (Interval scope label) := fun _ _ _ h h' => h.unique h'
      exact ⟨rfl, hunique.forall₂ hr hr'⟩

theorem fitsWord_bound {b : Bound} {n : Int}
    (h : bound scope label b = .ok n) : Number.fitsWord n := by
  cases b with
  | literal w =>
    obtain rfl := Except.ok.inj h
    exact Whole.fitsWord_toInt w
  | expression source =>
    obtain ⟨text, -, h⟩ := Outcome.bind_eq_ok.mp h
    split at h
    · simp at h
    · rename_i w _
      obtain rfl := Except.ok.inj h
      exact Whole.fitsWord_toInt w
    · split at h
      · rename_i hx
        obtain rfl := Except.ok.inj h
        exact Whole.fitsWord_of_wholeNumber? hx
      · simp at h
    · simp at h

theorem axis_spec {r : Range} {a : Axis}
    (h : axis scope label r = .ok a) : ∃ values, Interval scope label r values ∧ a.Agrees values := by
  obtain ⟨first, hfirst, h⟩ := Outcome.bind_eq_ok.mp h
  obtain ⟨last, hlast, h⟩ := Outcome.bind_eq_ok.mp h
  obtain rfl := Except.ok.inj h
  refine ⟨Axis.span first last, ⟨first, last, hfirst, hlast, rfl, fun j hj => ?_⟩,
    Axis.agrees_between first last⟩
  obtain ⟨k, hk, rfl⟩ := List.mem_map.mp hj
  have hleast := Whole.fitsWord_iff.mp (fitsWord_bound hfirst)
  have hmost := Whole.fitsWord_iff.mp (fitsWord_bound hlast)
  rw [List.mem_range] at hk
  exact ⟨first + k, rfl, Whole.fitsWord_iff.mpr (by omega)⟩

theorem axes_spec {ranges : List Range} {axes : List Axis}
    (h : ranges.mapM (axis scope label) = .ok axes) :
    ∃ lists, List.Forall₂ (Interval scope label) ranges lists ∧ List.Forall₂ Axis.Agrees axes lists := by
  have hall := Outcome.mapM_eq_ok.mp h
  induction hall with
  | nil => exact ⟨[], .nil, .nil⟩
  | cons ha _ ih =>
    obtain ⟨values, hvalues, hagree⟩ := axis_spec ha
    obtain ⟨lists, hlists, hagrees⟩ := ih (Outcome.mapM_eq_ok.mpr ‹_›)
    exact ⟨values :: lists, .cons hvalues hlists, .cons hagree hagrees⟩

theorem planLoop_spec {i : Iteration} {p : Plan}
    (h : planLoop scope label i = .ok p) :
    ∃ lists, Spans scope label (some i) p.names lists ∧ List.Forall₂ Axis.Agrees p.axes lists := by
  cases i with
  | range name r =>
    obtain ⟨a, ha, h⟩ := Outcome.bind_eq_ok.mp h
    obtain rfl := Except.ok.inj h
    obtain ⟨values, hvalues, hagree⟩ := axis_spec ha
    exact ⟨[values], .range hvalues, .cons hagree .nil⟩
  | values name items =>
    obtain rfl := Except.ok.inj h
    exact ⟨[items], .values name items, .cons (.inl rfl) .nil⟩
  | product names ranges =>
    simp only [planLoop] at h
    split at h
    · simp at h
    · rename_i hc
      obtain ⟨axes, haxes, h⟩ := Outcome.bind_eq_ok.mp h
      obtain rfl := Except.ok.inj h
      obtain ⟨lists, hlists, hagrees⟩ := axes_spec haxes
      simp only [Bool.or_eq_true, List.isEmpty_iff, bne_iff_ne, not_or, not_not] at hc
      exact ⟨lists, .product hc.1 hc.2 hlists, hagrees⟩

theorem plan_spec {s : Step} {p : Plan} (h : plan scope s = .ok p) :
    ∃ lists, Spans scope s.label (s.loop.map Loop.iteration) p.names lists ∧
      List.Forall₂ Axis.Agrees p.axes lists := by
  unfold plan at h
  cases hloop : s.loop with
  | none =>
    rw [hloop] at h
    obtain rfl := Except.ok.inj h
    exact ⟨[], .once, .nil⟩
  | some l =>
    rw [hloop] at h
    exact planLoop_spec (Outcome.mapError_eq_ok.mp h)

/-! ### Copies of a run -/

/-- Copy `k` of a template. Its loop variables have the values of combination `k`, and its texts are those of
the template, filled from these variables and where they say nothing from the scope. -/
structure IsCopy (scope : Scope) (t : Template) (k : Nat) (u : Unrolled) : Prop where
  choice : ∃ names lists values,
    Spans scope t.step.label (t.step.loop.map Loop.iteration) names lists ∧
      (combinations lists)[k]? = some values ∧ u.bindings = Dict.ofList (names.zip values)
  origin : u.origin = t.origin
  single : u.step.loop = none
  filled : Filling.step (Scope.over (Scope.ofDict u.bindings) scope) t.step =
    .ok ⟨u.step, u.referenced⟩

/-- The elements of a list with the number of the turn: all in turn 0, then all in turn 1, and so on. -/
def turns {α : Type} (xs : List α) (n : Nat) : List (α × Nat) :=
  (List.range n).flatMap fun k => xs.map fun x => (x, k)

theorem map_turns {α β : Type} (f : α → Nat → β) (xs : List α) (n : Nat) :
    (turns xs n).map (fun xk => f xk.1 xk.2) =
      (List.range n).flatMap fun k => xs.map fun x => f x k := by
  simp only [turns, List.map_flatMap, List.map_map]
  rfl

theorem turns_map {α β : Type} (f : α → β) (xs : List α) (n : Nat) :
    turns (xs.map f) n = (turns xs n).map fun xk => (f xk.1, xk.2) := by
  rw [map_turns (fun x k => (f x, k))]
  simp only [turns, List.map_map]
  rfl

theorem mem_turns {α : Type} {xs : List α} {n : Nat} {xk : α × Nat} :
    xk ∈ turns xs n ↔ xk.1 ∈ xs ∧ xk.2 < n := by
  obtain ⟨x, k⟩ := xk
  simp only [turns, List.mem_flatMap, List.mem_range, List.mem_map, Prod.mk.injEq]
  constructor
  · rintro ⟨k, hk, x, hx, rfl, rfl⟩
    exact ⟨hx, hk⟩
  · rintro ⟨hx, hk⟩
    exact ⟨k, hk, x, hx, rfl, rfl⟩

/-- What comes of a run: every template has `n` combinations, whose positions are 64-bit numbers, and the
copies of all templates alternate. -/
structure Turns (scope : Scope) (run : List Template) (n : Nat) (out : List Unrolled) : Prop where
  counts : ∀ t ∈ run, ∃ names lists,
    Spans scope t.step.label (t.step.loop.map Loop.iteration) names lists ∧
      (combinations lists).length = n ∧
      (0 < n → ∀ values ∈ lists, values.length < 0x8000000000000000)
  copies : List.Forall₂ (fun tk u => IsCopy scope tk.1 tk.2 u) (turns run n) out

theorem loop_of_filled {s : Step} {filled : Traced Step}
    (h : Filling.step scope s = .ok filled) : filled.value.loop = none := by
  obtain ⟨id, -, h⟩ := Outcome.bind_eq_ok.mp h
  obtain ⟨description, -, h⟩ := Outcome.bind_eq_ok.mp h
  obtain ⟨condition, -, h⟩ := Outcome.bind_eq_ok.mp h
  obtain ⟨dependsOn, -, h⟩ := Outcome.bind_eq_ok.mp h
  obtain ⟨params, -, h⟩ := Outcome.bind_eq_ok.mp h
  obtain rfl := Except.ok.inj h
  rfl

theorem instantiate_eq_ok {t : Template} {vars : Dict Json} {u : Unrolled} :
    instantiate scope t vars = .ok u ↔
      ∃ filled, Filling.step (Scope.over (Scope.ofDict vars) scope) t.step = .ok filled ∧
        ⟨filled.value, vars, filled.names, t.origin⟩ = u := by
  unfold instantiate
  cases Filling.step (Scope.over (Scope.ofDict vars) scope) t.step <;> simp

theorem isCopy_of_instantiate {t : Template} {p : Plan} {lists : List (List Json)}
    {k : Nat} {u : Unrolled}
    (hspans : Spans scope t.step.label (t.step.loop.map Loop.iteration) p.names lists)
    (hpick : (combinations lists)[k]? = some (Plan.pick p.axes k).1)
    (h : instantiate scope t (p.bindings k) = .ok u) : IsCopy scope t k u := by
  obtain ⟨filled, hfilled, rfl⟩ := instantiate_eq_ok.mp h
  exact ⟨⟨p.names, lists, _, hspans, hpick, rfl⟩, rfl, loop_of_filled hfilled, hfilled⟩

theorem checkGroup_eq_ok {group : String} {n : Nat} {planned : List (Template × Plan)}
    (h : checkGroup group n planned = .ok ()) : ∀ tp ∈ planned, tp.2.count = n := by
  induction planned with
  | nil => simp
  | cons tp rest ih =>
    obtain ⟨t, p⟩ := tp
    rw [checkGroup] at h
    split at h
    · rename_i hp
      exact List.forall_mem_cons.mpr ⟨hp, ih h⟩
    · simp at h

/-- The steps that a run asks for are at least those of any of its templates. -/
theorem le_attempted (counts : List Nat) (emitted : Nat) :
    min maxCount emitted ≤ counts.foldl (fun n c => min maxCount (n + c)) emitted ∧
      ∀ c ∈ counts, min maxCount c ≤ counts.foldl (fun n c => min maxCount (n + c)) emitted := by
  induction counts generalizing emitted with
  | nil => exact ⟨Nat.min_le_right _ _, by simp⟩
  | cons c rest ih =>
    obtain ⟨hstart, hrest⟩ := ih (min maxCount (emitted + c))
    rw [List.foldl_cons]
    refine ⟨by omega, List.forall_mem_cons.mpr ⟨by omega, hrest⟩⟩

theorem planned_spec {run : List Template} {planned : List (Template × Plan)}
    (h : (run.mapM fun t => do return (t, ← plan scope t.step)) = .ok planned) :
    run = planned.map Prod.fst ∧ ∀ tp ∈ planned, plan scope tp.1.step = .ok tp.2 := by
  have hall := Outcome.mapM_eq_ok.mp h
  clear h
  induction hall with
  | nil => simp
  | @cons t tp run planned htp _ ih =>
    obtain ⟨p, hp, htp⟩ := Outcome.bind_eq_ok.mp htp
    obtain rfl := Except.ok.inj htp
    exact ⟨by rw [List.map_cons, ← ih.1], List.forall_mem_cons.mpr ⟨hp, ih.2⟩⟩

/-- A template whose count is told apart has that many combinations, and its plan picks them in order. -/
theorem combinations_of_plan {s : Step} {p : Plan} (h : plan scope s = .ok p)
    (hcount : p.count < maxCount) :
    ∃ lists, Spans scope s.label (s.loop.map Loop.iteration) p.names lists ∧
      (combinations lists).length = p.count ∧
      ∀ k < p.count, (combinations lists)[k]? = some (Plan.pick p.axes k).1 := by
  obtain ⟨lists, hspans, hagree⟩ := plan_spec h
  obtain ⟨hlen, hpick⟩ := Plan.pick_eq_combination hagree hcount
  exact ⟨lists, hspans, hlen, fun k hk => hpick k (hlen ▸ hk)⟩

theorem copies_eq_ok {planned : List (Template × Plan)} {n : Nat}
    {out : List Unrolled} (h : copies scope planned n = .ok out) :
    List.Forall₂ (fun xk u => instantiate scope xk.1.1 (xk.1.2.bindings xk.2) = .ok u)
      (turns planned n) out := by
  have hmap := map_turns (fun (x : Template × Plan) k => (x.1, x.2.bindings k)) planned n
  have hall := Outcome.mapM_eq_ok.mp h
  change List.Forall₂ _ ((List.range n).flatMap fun k => planned.map fun x =>
    (x.1, x.2.bindings k)) out at hall
  rwa [← hmap, List.forall₂_map_left_iff] at hall

/-- The copies of templates that all come equally often. -/
theorem turns_of_copies {planned : List (Template × Plan)} {n : Nat}
    {out : List Unrolled} (hn : n < 0x8000000000000000)
    (hplan : ∀ tp ∈ planned, plan scope tp.1.step = .ok tp.2)
    (hcount : ∀ tp ∈ planned, tp.2.count = n) (h : copies scope planned n = .ok out) :
    Turns scope (planned.map Prod.fst) n out := by
  have hmax : n < maxCount := Nat.lt_trans hn (by decide)
  constructor
  · intro t ht
    obtain ⟨tp, htp, rfl⟩ := List.mem_map.mp ht
    obtain ⟨lists, hspans, hlen, -⟩ :=
      combinations_of_plan (hplan tp htp) (by rw [hcount tp htp]; exact hmax)
    rw [hcount tp htp] at hlen
    refine ⟨tp.2.names, lists, hspans, hlen, fun hpos values hvalues => ?_⟩
    have hle : values.length ≤ n := by
      rw [length_combinations] at hlen
      exact Nat.le_of_dvd hpos (hlen ▸ List.dvd_prod (List.mem_map_of_mem hvalues))
    exact Nat.lt_of_le_of_lt hle hn
  · rw [turns_map, List.forall₂_map_left_iff]
    have hall := copies_eq_ok h
    have hmem : ∀ xk ∈ turns planned n, xk ∈ turns planned n := fun _ h => h
    refine ((List.forall₂_and_left _ _).mpr ⟨hmem, hall⟩).imp ?_
    rintro ⟨⟨t, p⟩, k⟩ u ⟨hxk, hu⟩
    obtain ⟨htp, hk⟩ := mem_turns.mp hxk
    obtain ⟨lists, hspans, -, hpick⟩ :=
      combinations_of_plan (hplan (t, p) htp) (by rw [hcount (t, p) htp]; exact hmax)
    exact isCopy_of_instantiate hspans (hpick k (by rw [hcount (t, p) htp]; exact hk)) hu

/-! ### Runs -/

/-- Whether a template takes turns with the next one. -/
def joined (t u : Template) : Bool := (group? t.step).isSome && group? t.step == group? u.step

theorem runs_cons (t : Template) (rest : List Template) :
    runs (t :: rest) = match runs rest with
      | (u :: run) :: others =>
        if joined t u then (t :: u :: run) :: others else [t] :: (u :: run) :: others
      | others => [t] :: others :=
  rfl

theorem runs_eq_splitBy (ts : List Template) : runs ts = ts.splitBy joined := by
  rw [eq_comm, List.splitBy_eq_iff]
  induction ts with
  | nil => simp [runs]
  | cons t rest ih =>
    obtain ⟨hflat, hne, hchain, hends⟩ := ih
    rw [runs_cons]
    match hr : runs rest with
    | [] =>
      rw [hr] at hflat
      simp [hflat]
    | [] :: others => simp [hr] at hne
    | (u :: run) :: others =>
      rw [hr] at hflat hne hchain hends
      have hrest := List.forall_mem_cons.mp hchain
      by_cases hj : joined t u
      · simp only [hj, if_true]
        refine ⟨by simp [hflat], by simpa using hne, List.forall_mem_cons.mpr
          ⟨List.isChain_cons_cons.mpr ⟨hj, hrest.1⟩, hrest.2⟩, ?_⟩
        cases others with
        | nil => simp
        | cons run' others =>
          rw [List.isChain_cons_cons] at hends ⊢
          simpa using hends
      · simp only [hj]
        refine ⟨by simp [hflat], by simpa using hne, List.forall_mem_cons.mpr
          ⟨List.isChain_singleton t, hchain⟩, List.isChain_cons_cons.mpr ⟨?_, hends⟩⟩
        simpa using hj

/-- A run of more than one template has a group. -/
theorem group_of_joined {t u : Template} {run : List Template}
    (h : (t :: u :: run).IsChain fun x y => joined x y) : (group? t.step).isSome := by
  have hj := (List.isChain_cons_cons.mp h).1
  simp only [joined, Bool.and_eq_true] at hj
  exact hj.1

/-- All templates of a run come as often as the first of them. -/
theorem counts_of_checked {run : List Template} {planned : List (Template × Plan)}
    (hchain : run.IsChain fun x y => joined x y) (hrun : run = planned.map Prod.fst)
    (h : ∀ group, (run.head?.bind fun t => group? t.step) = some group →
      checkGroup group ((planned.map fun tp => tp.2.count).headD 0) planned = .ok ()) :
    ∀ tp ∈ planned, tp.2.count = (planned.map fun tp => tp.2.count).headD 0 := by
  subst hrun
  match planned with
  | [] => simp
  | [tp] => simp
  | tp :: tp' :: rest =>
    obtain ⟨group, hgroup⟩ := Option.isSome_iff_exists.mp (group_of_joined hchain)
    exact checkGroup_eq_ok (h group hgroup)

theorem below_limit {α : Type} {limit n : Nat} {r : Except Failure α} {out : α}
    (h : (if limit < n then throw (.stepLimit limit n) >>= fun _ : Unit => r else r) = .ok out) :
    n ≤ limit ∧ r = .ok out := by
  split at h
  · obtain ⟨⟨⟩, hthrow, -⟩ := Outcome.bind_eq_ok.mp h
    exact absurd hthrow Outcome.throw_ne_ok
  · exact ⟨by omega, h⟩

theorem unrollRun_eq_ok {limit emitted : Nat} {run : List Template}
    {out : List Unrolled} (h : unrollRun scope limit emitted run = .ok out) :
    ∃ planned, (run.mapM fun t => do return (t, ← plan scope t.step)) = .ok planned ∧
      (∀ group, (run.head?.bind fun t => group? t.step) = some group →
        checkGroup group ((planned.map fun tp => tp.2.count).headD 0) planned = .ok ()) ∧
      (planned.map fun tp => tp.2.count).foldl (fun n c => min maxCount (n + c)) emitted ≤ limit ∧
      copies scope planned ((planned.map fun tp => tp.2.count).headD 0) = .ok out := by
  obtain ⟨planned, hplanned, h⟩ := Outcome.bind_eq_ok.mp h
  refine ⟨planned, hplanned, ?_⟩
  dsimp only at h
  split at h
  · rename_i group hgroup
    obtain ⟨⟨⟩, hcheck, h⟩ := Outcome.bind_eq_ok.mp h
    refine ⟨fun g hg => ?_, below_limit h⟩
    rw [hgroup] at hg
    obtain rfl := Option.some.inj hg
    exact hcheck
  · rename_i hgroup
    exact ⟨fun g hg => by simp [hgroup] at hg, below_limit h⟩

/-- A run that fits below the limit comes in turns. -/
theorem turns_of_unrollRun {limit emitted : Nat} {run : List Template}
    {out : List Unrolled} (hlimit : limit < 0x8000000000000000)
    (hchain : run.IsChain fun x y => joined x y) (h : unrollRun scope limit emitted run = .ok out) :
    ∃ n, Turns scope run n out := by
  obtain ⟨planned, hplanned, hgroup, hattempted, hcopies⟩ := unrollRun_eq_ok h
  obtain ⟨hrun, hplan⟩ := planned_spec hplanned
  have hcount := counts_of_checked hchain hrun hgroup
  have hle : (planned.map fun tp => tp.2.count).headD 0 ≤ limit := by
    cases planned with
    | nil => exact Nat.zero_le limit
    | cons tp rest =>
      have hleast := (le_attempted ((tp :: rest).map fun tp => tp.2.count) emitted).2 tp.2.count
        List.mem_cons_self
      have hmax : limit < maxCount := Nat.lt_trans hlimit (by decide)
      rw [List.map_cons, List.headD_cons]
      omega
  exact ⟨_, hrun ▸ turns_of_copies (Nat.lt_of_le_of_lt hle hlimit) hplan hcount hcopies⟩

theorem turns_of_unrollRuns {limit : Nat} {done out : List Unrolled}
    {rs : List (List Template)} (hlimit : limit < 0x8000000000000000)
    (hchain : ∀ run ∈ rs, run.IsChain fun x y => joined x y)
    (h : unrollRuns scope limit done rs = .ok out) :
    ∃ outs, List.Forall₂ (fun run out => ∃ n, Turns scope run n out) rs outs ∧
      out = done ++ outs.flatten := by
  induction rs generalizing done with
  | nil =>
    obtain rfl := Except.ok.inj h
    exact ⟨[], .nil, by simp⟩
  | cons run rest ih =>
    obtain ⟨more, hmore, h⟩ := Outcome.bind_eq_ok.mp h
    obtain ⟨hhead, htail⟩ := List.forall_mem_cons.mp hchain
    obtain ⟨outs, houts, rfl⟩ := ih htail h
    exact ⟨more :: outs, .cons (turns_of_unrollRun hlimit hhead hmore) houts, by simp⟩

/-- The templates of a list of steps, each with its position. -/
def templates (steps : List Step) : List Template := steps.zipIdx.map fun si => ⟨si.1, si.2⟩

theorem exists_template_of_unrollRun {limit emitted : Nat} {run : List Template} {out : List Unrolled}
    (h : unrollRun scope limit emitted run = .ok out) :
    ∀ u ∈ out, ∃ t ∈ run, u.origin = t.origin ∧ instantiate scope t u.bindings = .ok u := by
  obtain ⟨planned, hplanned, -, -, hcopies⟩ := unrollRun_eq_ok h
  obtain ⟨rfl, -⟩ := planned_spec hplanned
  intro u hu
  obtain ⟨xk, hxk, hcopy⟩ := Outcome.exists_of_mem_mapM hcopies hu
  obtain ⟨k, -, hk⟩ := List.mem_flatMap.mp hxk
  obtain ⟨tp, htp, rfl⟩ := List.mem_map.mp hk
  obtain ⟨filled, -, rfl⟩ := instantiate_eq_ok.mp hcopy
  exact ⟨tp.1, List.mem_map_of_mem htp, rfl, hcopy⟩

theorem exists_template_of_unrollRuns {limit : Nat} {done out : List Unrolled} {rs : List (List Template)}
    (h : unrollRuns scope limit done rs = .ok out) :
    ∀ u ∈ out, u ∈ done ∨ ∃ t ∈ rs.flatten, u.origin = t.origin ∧ instantiate scope t u.bindings = .ok u := by
  induction rs generalizing done with
  | nil =>
    obtain rfl := Except.ok.inj h
    exact fun u hu => .inl hu
  | cons run rest ih =>
    obtain ⟨more, hmore, h⟩ := Outcome.bind_eq_ok.mp h
    intro u hu
    rw [List.flatten_cons]
    rcases ih h u hu with hdone | ⟨t, ht, hcopy⟩
    · rcases List.mem_append.mp hdone with hdone | hnew
      · exact .inl hdone
      · obtain ⟨t, ht, hcopy⟩ := exists_template_of_unrollRun hmore u hnew
        exact .inr ⟨t, List.mem_append_left _ ht, hcopy⟩
    · exact .inr ⟨t, List.mem_append_right _ ht, hcopy⟩

/-- What is unrolled are copies of the steps at the positions that they name. -/
theorem exists_template_of_unroll {limit : Nat} {steps : List Step} {out : List Unrolled}
    (h : unroll scope limit steps = .ok out) :
    ∀ u ∈ out, ∃ t : Template, steps[t.origin]? = some t.step ∧ u.origin = t.origin ∧
      instantiate scope t u.bindings = .ok u := by
  change unrollRuns scope limit [] (runs (templates steps)) = .ok out at h
  intro u hu
  rcases exists_template_of_unrollRuns h u hu with hnone | ⟨t, ht, hcopy⟩
  · cases hnone
  · rw [runs_eq_splitBy, List.flatten_splitBy] at ht
    obtain ⟨⟨s, k⟩, hsk, rfl⟩ := List.mem_map.mp ht
    exact ⟨⟨s, k⟩, List.mem_zipIdx_iff_getElem?.mp hsk, hcopy⟩

/-- Unrolled steps are the turns of the maximal runs, one run after another. -/
theorem turns_of_unroll {limit : Nat} {steps : List Step} {out : List Unrolled}
    (hlimit : limit < 0x8000000000000000) (h : unroll scope limit steps = .ok out) :
    ∃ outs, List.Forall₂ (fun run out => ∃ n, Turns scope run n out)
        ((templates steps).splitBy joined) outs ∧ out = outs.flatten := by
  change unrollRuns scope limit [] (runs (templates steps)) = .ok out at h
  rw [runs_eq_splitBy] at h
  exact turns_of_unrollRuns hlimit (fun _ hrun => List.isChain_of_mem_splitBy hrun) h

/-- Two steps that take turns, and one for every pair of two numbers. -/
def staircase : List Step :=
  [{ id := some "tread\x7bi\x7d", tool := "extrude"
     loop := some ⟨.range "i" ⟨.literal 1, .literal 2⟩, some "flight"⟩ },
   { tool := "paint", params := [("color", .str "\x7bc\x7d")]
     loop := some ⟨.values "c" [.str "red", .str "blue"], some "flight"⟩ },
   { tool := "drill"
     loop := some ⟨.product ["i", "j"] [⟨.literal 0, .literal 1⟩, ⟨.literal 5, .literal 6⟩], none⟩ }]

def unrolledStaircase : List Unrolled :=
  [{ step := { id := some "tread1", tool := "extrude" }
     bindings := [("i", .int 1)], referenced := ["i"], origin := 0 },
   { step := { tool := "paint", params := [("color", .str "red")] }
     bindings := [("c", .str "red")], referenced := ["c"], origin := 1 },
   { step := { id := some "tread2", tool := "extrude" }
     bindings := [("i", .int 2)], referenced := ["i"], origin := 0 },
   { step := { tool := "paint", params := [("color", .str "blue")] }
     bindings := [("c", .str "blue")], referenced := ["c"], origin := 1 },
   { step := { tool := "drill" }, bindings := [("i", .int 0), ("j", .int 5)], origin := 2 },
   { step := { tool := "drill" }, bindings := [("i", .int 0), ("j", .int 6)], origin := 2 },
   { step := { tool := "drill" }, bindings := [("i", .int 1), ("j", .int 5)], origin := 2 },
   { step := { tool := "drill" }, bindings := [("i", .int 1), ("j", .int 6)], origin := 2 }]

theorem turns_unrolledStaircase :
    10 < 0x8000000000000000 ∧ unroll (fun _ => none) 10 staircase = .ok unrolledStaircase ∧
      ∃ outs, List.Forall₂ (fun run out => ∃ n, Turns (fun _ => none) run n out)
        ((templates staircase).splitBy joined) outs ∧ unrolledStaircase = outs.flatten := by
  have h : unroll (fun _ => none) 10 staircase = .ok unrolledStaircase := by decide +kernel
  exact ⟨by decide, h, turns_of_unroll (by decide) h⟩

end GoalCompiler.Unrolling
