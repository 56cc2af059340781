import GoalCompiler.Proofs.Expression.Rendering
import GoalCompiler.Proofs.Workflow.StepLimit

/-! Steps that are left as they are. Where the texts of a step have no braces there is nothing to fill in, and
without a loop it comes once; so a list of such steps comes out of unrolling unchanged, in any scope. What is
unrolled has no loops left, and it was within the limit. It is therefore unrolled again for nothing, unless
there are braces in what was put in place of the placeholders. -/
namespace GoalCompiler

open Expression (Scope)

namespace Json

mutual

/-- The texts inside a value, at every depth. -/
def texts : Json → List String
  | .str s => [s]
  | .arr items => itemTexts items
  | .obj members => memberTexts members
  | .null | .bool _ | .int _ | .float _ => []

def itemTexts : List Json → List String
  | [] => []
  | j :: rest => texts j ++ itemTexts rest

def memberTexts : List (String × Json) → List String
  | [] => []
  | (_, j) :: rest => texts j ++ memberTexts rest

end

end Json

/-- The texts of a step that are templates. Tools, keys of parameters and extensions are none. -/
def Step.texts (s : Step) : List String :=
  s.id.toList ++ s.description.toList ++ s.condition.toList ++ s.dependsOn ++ Json.memberTexts s.params

/-- There is nothing to fill in. -/
def Plain (texts : List String) : Prop := ∀ text ∈ texts, ¬ Template.hasPlaceholders text

instance (texts : List String) : Decidable (Plain texts) :=
  inferInstanceAs (Decidable (∀ text ∈ texts, ¬ Template.hasPlaceholders text))

theorem plain_append {ss ts : List String} : Plain (ss ++ ts) ↔ Plain ss ∧ Plain ts :=
  List.forall_mem_append

theorem plain_cons {s : String} {ts : List String} :
    Plain (s :: ts) ↔ ¬ Template.hasPlaceholders s ∧ Plain ts :=
  List.forall_mem_cons

/-! ### Filling in nothing -/

namespace Filling

variable {scope : Scope}

theorem text_of_plain {s : String} (h : ¬ Template.hasPlaceholders s) : text scope s = .ok ⟨s, []⟩ := by
  rw [text, Template.fill_of_not_hasPlaceholders (Bool.eq_false_of_not_eq_true h)]

theorem optional_of_plain {s : Option String} (h : Plain s.toList) : optional scope s = .ok ⟨s, []⟩ := by
  cases s with
  | none => rfl
  | some s =>
    rw [optional, text_of_plain (h s List.mem_cons_self)]
    rfl

theorem texts_of_plain {ss : List String} (h : Plain ss) : texts scope ss = .ok ⟨ss, []⟩ := by
  induction ss with
  | nil => rfl
  | cons s rest ih =>
    obtain ⟨hs, hrest⟩ := plain_cons.mp h
    rw [texts, text_of_plain hs, ih hrest]
    rfl

mutual

theorem value_of_plain (j : Json) (h : Plain j.texts) : value scope j = .ok ⟨j, []⟩ := by
  cases j with
  | str s =>
    rw [value, text_of_plain (h s List.mem_cons_self)]
    rfl
  | arr items =>
    rw [value, values_of_plain items h]
    rfl
  | obj members =>
    rw [value, dict_of_plain members h]
    rfl
  | null | bool | int | float => rw [value]

theorem values_of_plain (items : List Json) (h : Plain (Json.itemTexts items)) :
    values scope items = .ok ⟨items, []⟩ := by
  match items with
  | [] => rw [values]
  | j :: rest =>
    obtain ⟨hj, hrest⟩ := plain_append.mp h
    rw [values, value_of_plain j hj, values_of_plain rest hrest]
    rfl

theorem dict_of_plain (members : List (String × Json)) (h : Plain (Json.memberTexts members)) :
    dict scope members = .ok ⟨members, []⟩ := by
  match members with
  | [] => rw [dict]
  | (k, j) :: rest =>
    obtain ⟨hj, hrest⟩ := plain_append.mp h
    rw [dict, value_of_plain j hj, dict_of_plain rest hrest]
    rfl

end

/-- A step with nothing to fill in loses its loop and nothing else. -/
theorem step_of_plain {s : Step} (h : Plain s.texts) : step scope s = .ok ⟨{ s with loop := none }, []⟩ := by
  obtain ⟨h, hparams⟩ := plain_append.mp h
  obtain ⟨h, hdependsOn⟩ := plain_append.mp h
  obtain ⟨h, hcondition⟩ := plain_append.mp h
  obtain ⟨hid, hdescription⟩ := plain_append.mp h
  rw [step, optional_of_plain hid, optional_of_plain hdescription, optional_of_plain hcondition,
    texts_of_plain hdependsOn, dict_of_plain _ hparams]
  rfl

end Filling

/-! ### Unrolling what has no loops -/

namespace Unrolling

variable {scope : Scope}

/-- A step that comes as it stands. -/
def untouched (t : Template) : Unrolled := ⟨t.step, [], [], t.origin⟩

theorem runs_of_no_loop {ts : List Template} (h : ∀ t ∈ ts, t.step.loop = none) : runs ts = ts.map ([·]) := by
  induction ts with
  | nil => rfl
  | cons t rest ih =>
    obtain ⟨ht, hrest⟩ := List.forall_mem_cons.mp h
    have halone : ∀ u, joined t u = false := fun u => by simp [joined, group?, ht]
    rw [runs_cons, ih hrest]
    cases rest with
    | nil => rfl
    | cons u rest => simp [halone]

theorem vet_of_no_loop {limit emitted : Nat} {t : Template} (h : t.step.loop = none)
    (hlimit : min maxCount (emitted + 1) ≤ limit) : vet scope limit emitted [t] = .ok [(t, .once)] := by
  have hplan : plan scope t.step = .ok .once := by rw [plan, h]
  have hplanned : ([t].mapM fun t => do return (t, ← plan scope t.step)) = Except.ok [(t, Plan.once)] := by
    rw [List.mapM_cons, hplan]
    rfl
  have hgroup : group? t.step = none := by rw [group?, h, Option.bind_none]
  have hcount : Plan.once.count = 1 := by decide
  rw [vet, hplanned]
  simp only [bind, Except.bind, List.head?_cons, Option.bind_some, hgroup, List.map_cons, List.map_nil, hcount,
    List.foldl_cons, List.foldl_nil, if_neg (Nat.not_lt_of_le hlimit)]
  rfl

theorem instantiate_of_plain {t : Template} (hloop : t.step.loop = none) (h : Plain t.step.texts) :
    instantiate scope t [] = .ok (untouched t) := by
  refine instantiate_eq_ok.mpr ⟨_, Filling.step_of_plain h, ?_⟩
  rw [untouched, ← hloop]

/-- A step without a loop counts as one and comes as it stands. -/
theorem unrollRun_of_plain {limit emitted : Nat} {t : Template} (hloop : t.step.loop = none)
    (h : Plain t.step.texts) (hlimit : min maxCount (emitted + 1) ≤ limit) :
    unrollRun scope limit emitted [t] = .ok [untouched t] := by
  have hcopies : copies scope [(t, .once)] 1 = .ok [untouched t] := by
    have hbindings : Plan.once.bindings 0 = [] := rfl
    change [(t, Plan.once.bindings 0)].mapM (fun tb => instantiate scope tb.1 tb.2) = _
    rw [List.mapM_cons, hbindings, instantiate_of_plain hloop h]
    rfl
  rw [unrollRun_eq, vet_of_no_loop hloop hlimit]
  exact hcopies

theorem unrollRuns_of_plain {limit : Nat} {done : List Unrolled} {ts : List Template}
    (hloop : ∀ t ∈ ts, t.step.loop = none) (h : ∀ t ∈ ts, Plain t.step.texts)
    (hlimit : min maxCount (done.length + ts.length) ≤ limit) :
    unrollRuns scope limit done (ts.map ([·])) = .ok (done ++ ts.map untouched) := by
  induction ts generalizing done with
  | nil => rw [List.map_nil, List.map_nil, List.append_nil, unrollRuns]
  | cons t rest ih =>
    obtain ⟨hlt, hlrest⟩ := List.forall_mem_cons.mp hloop
    obtain ⟨ht, hrest⟩ := List.forall_mem_cons.mp h
    rw [List.length_cons] at hlimit
    have hone : min maxCount (done.length + 1) ≤ limit := by omega
    have hmore : min maxCount ((done ++ [untouched t]).length + rest.length) ≤ limit := by
      rw [List.length_append, List.length_singleton]
      omega
    rw [List.map_cons, unrollRuns, unrollRun_of_plain hlt ht hone]
    change unrollRuns scope limit (done ++ [untouched t]) (rest.map ([·])) = _
    rw [ih hlrest hrest hmore, List.map_cons, List.append_assoc, List.singleton_append]

/-- Steps without loops and with nothing to fill in come as they stand, if they are not too many. -/
theorem unroll_of_plain {limit : Nat} {steps : List Step} (hloop : ∀ s ∈ steps, s.loop = none)
    (h : ∀ s ∈ steps, Plain s.texts) (hlimit : min maxCount steps.length ≤ limit) :
    unroll scope limit steps = .ok ((templates steps).map untouched) := by
  have hstep : ∀ t ∈ templates steps, t.step ∈ steps := by
    intro t ht
    obtain ⟨si, hsi, rfl⟩ := List.mem_map.mp ht
    exact List.mem_of_getElem? (List.mem_zipIdx_iff_getElem?.mp hsi)
  change unrollRuns scope limit [] (runs (templates steps)) = _
  rw [runs_of_no_loop fun t ht => hloop _ (hstep t ht)]
  refine unrollRuns_of_plain (fun t ht => hloop _ (hstep t ht)) (fun t ht => h _ (hstep t ht)) ?_
  simpa [templates] using hlimit

theorem loop_of_unroll {limit : Nat} {steps : List Step} {out : List Unrolled}
    (h : unroll scope limit steps = .ok out) : ∀ u ∈ out, u.step.loop = none := by
  intro u hu
  obtain ⟨t, -, -, hcopy⟩ := exists_template_of_unroll h u hu
  obtain ⟨filled, hfilled, heq⟩ := instantiate_eq_ok.mp hcopy
  rw [← heq]
  exact loop_of_filled hfilled

theorem length_le_of_unroll {limit : Nat} {steps : List Step} {out : List Unrolled}
    (h : unroll scope limit steps = .ok out) : min maxCount out.length ≤ limit := by
  rcases Nat.lt_or_ge limit maxCount with hlt | hge
  · change unrollRuns scope limit [] (runs (templates steps)) = .ok out at h
    rw [runs_eq_splitBy] at h
    have hle := length_of_unrollRuns hlt (fun _ hrun => List.isChain_of_mem_splitBy hrun) (Nat.zero_le _) h
    omega
  · omega

/-- What came out of unrolling is left as it is when it is unrolled again below the same limit, whatever the
scope now is, if there are no braces in the texts of its steps. -/
theorem unroll_again {scope : Scope} {limit : Nat} {steps : List Step} {out : List Unrolled}
    (h : unroll scope limit steps = .ok out) (hplain : ∀ u ∈ out, Plain u.step.texts) (scope' : Scope) :
    unroll scope' limit (out.map Unrolled.step) =
      .ok (out.zipIdx.map fun (u, i) => ⟨u.step, [], [], i⟩) := by
  have hloop := loop_of_unroll h
  have hlimit := length_le_of_unroll h
  rw [unroll_of_plain (List.forall_mem_map.mpr hloop) (List.forall_mem_map.mpr hplain)
    (by rwa [List.length_map]), templates, List.zipIdx_map, List.map_map, List.map_map]
  rfl

/-- A rail of a fence, with a note that nobody interprets. -/
def rail (number : String) : Step where
  id := some ("rail" ++ number)
  tool := "extrude"
  params := [("at", .arr [.int 1, .obj [("row", .str ("row " ++ number))]])]
  extensions := [("note", .str "\x7bi\x7d")]

def coat (rail : String) : Step where
  tool := "paint"
  dependsOn := [rail]

/-- Two rails, each painted before the next one. -/
def fence : List Step :=
  [{ rail "\x7bi\x7d" with loop := some ⟨.range "i" ⟨.literal 1, .literal 2⟩, some "rails"⟩ },
   { coat "\x7br\x7d" with loop := some ⟨.values "r" [.str "rail1", .str "rail2"], some "rails"⟩ }]

def unrolledFence : List Unrolled :=
  [{ step := rail "1", bindings := [("i", .int 1)], referenced := ["i"], origin := 0 },
   { step := coat "rail1", bindings := [("r", .str "rail1")], referenced := ["r"], origin := 1 },
   { step := rail "2", bindings := [("i", .int 2)], referenced := ["i"], origin := 0 },
   { step := coat "rail2", bindings := [("r", .str "rail2")], referenced := ["r"], origin := 1 }]

/-- The limit leaves no room, and the second scope would fill the note with another placeholder. -/
theorem unroll_again_fence :
    unroll (fun _ => none) 4 fence = .ok unrolledFence ∧ (∀ u ∈ unrolledFence, Plain u.step.texts) ∧
      unroll (Scope.ofDict [("i", .str "\x7br\x7d")]) 4 [rail "1", coat "rail1", rail "2", coat "rail2"] =
        .ok [⟨rail "1", [], [], 0⟩, ⟨coat "rail1", [], [], 1⟩, ⟨rail "2", [], [], 2⟩,
          ⟨coat "rail2", [], [], 3⟩] := by
  have h : unroll (fun _ => none) 4 fence = .ok unrolledFence := by decide +kernel
  have hplain : ∀ u ∈ unrolledFence, Plain u.step.texts := by decide +kernel
  exact ⟨h, hplain, unroll_again h hplain _⟩

end Unrolling

end GoalCompiler
