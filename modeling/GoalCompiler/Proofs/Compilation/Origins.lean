import GoalCompiler.Proofs.Compilation.Guards
import GoalCompiler.Proofs.Compilation.Provenance
import GoalCompiler.Proofs.Workflow.Unrolling
import Mathlib.Data.List.Perm.Basic

/-! Where instructions come from. Every instruction is made of one copy of a template, and no two of the same
copy. On the way only texts change: what the compiler does not interpret is handed on as it stands, and the
parameters keep their keys and their lengths at every depth, down to the values that texts ask for. -/
namespace GoalCompiler

open Expression (Scope Compiled)

variable {scope : Scope} {b : Bindings}

/-! ### Parameters -/

/-- What a text in the parameters comes to. With its placeholders replaced it may still be a text, or it asks
for the value of an expression, which is no array and no object, or for that of a variable. -/
inductive Leaf (scope : Scope) (template : String) : Json → Prop
  | text {filled} (hfill : Filling.text scope template = .ok filled)
    (hask : Request.ofText filled.value = .none) : Leaf scope template (.str filled.value)
  | calculated {filled body e v} (hfill : Filling.text scope template = .ok filled)
    (hask : Request.ofText filled.value = .calculate body) (hread : Compiled.read body = .ok e)
    (hvalue : e.value scope = .ok v) : Leaf scope template v.toJson
  | reference {filled name j} (hfill : Filling.text scope template = .ok filled)
    (hask : Request.ofText filled.value = .reference name) (hvalue : scope name = some j) :
    Leaf scope template j

/-- A value has the shape of the template's: it differs in texts only, and in what has come in their place. -/
inductive KeepsShape (scope : Scope) : Json → Json → Prop
  | null : KeepsShape scope .null .null
  | bool (x : Bool) : KeepsShape scope (.bool x) (.bool x)
  | int (n : Int) : KeepsShape scope (.int n) (.int n)
  | float (x : Float) : KeepsShape scope (.float x) (.float x)
  | str {template j} (h : Leaf scope template j) : KeepsShape scope (.str template) j
  | arr {items items'} (h : List.Forall₂ (KeepsShape scope) items items') : KeepsShape scope (.arr items) (.arr items')
  | obj {members members'} (hkeys : Dict.keys members' = Dict.keys members)
    (hvalues : List.Forall₂ (KeepsShape scope) (Dict.values members) (Dict.values members')) :
    KeepsShape scope (.obj members) (.obj members')

theorem leaf_of_text {template : String} {filled : Traced String} {settled : Traced Json}
    (hf : Filling.text scope template = .ok filled)
    (hs : Substitution.text scope filled.value = .ok settled) : Leaf scope template settled.value := by
  unfold Substitution.text at hs
  split at hs
  · rename_i body hask
    obtain ⟨e, hread, hs⟩ := Outcome.bind_eq_ok.mp hs
    obtain ⟨v, hvalue, hs⟩ := Outcome.bind_eq_ok.mp hs
    obtain rfl := Except.ok.inj hs
    exact .calculated hf hask hread hvalue
  · rename_i name hask
    split at hs
    · rename_i j hj
      obtain rfl := Except.ok.inj hs
      exact .reference hf hask hj
    · cases hs
  · rename_i hask
    obtain rfl := Except.ok.inj hs
    exact .text hf hask

mutual

theorem keepsShape_of_value (j : Json) {filled settled : Traced Json} (hf : Filling.value scope j = .ok filled)
    (hs : Substitution.value scope filled.value = .ok settled) : KeepsShape scope j settled.value := by
  cases j with
  | str template =>
    obtain ⟨text, htext, rfl⟩ := Outcome.map_eq_ok.mp hf
    exact .str (leaf_of_text htext hs)
  | arr items =>
    obtain ⟨items', hitems', rfl⟩ := Outcome.map_eq_ok.mp hf
    obtain ⟨items'', hitems'', rfl⟩ := Outcome.map_eq_ok.mp hs
    exact .arr (keepsShape_of_values items hitems' hitems'')
  | obj members =>
    obtain ⟨members', hmembers', rfl⟩ := Outcome.map_eq_ok.mp hf
    obtain ⟨members'', hmembers'', rfl⟩ := Outcome.map_eq_ok.mp hs
    obtain ⟨hkeys, hvalues⟩ := keepsShape_of_dict members hmembers' hmembers''
    exact .obj hkeys hvalues
  | null =>
    obtain rfl := Except.ok.inj hf
    obtain rfl := Except.ok.inj hs
    exact .null
  | bool x =>
    obtain rfl := Except.ok.inj hf
    obtain rfl := Except.ok.inj hs
    exact .bool x
  | int n =>
    obtain rfl := Except.ok.inj hf
    obtain rfl := Except.ok.inj hs
    exact .int n
  | float x =>
    obtain rfl := Except.ok.inj hf
    obtain rfl := Except.ok.inj hs
    exact .float x

theorem keepsShape_of_values (items : List Json) {filled settled : Traced (List Json)}
    (hf : Filling.values scope items = .ok filled)
    (hs : Substitution.values scope filled.value = .ok settled) :
    List.Forall₂ (KeepsShape scope) items settled.value := by
  match items with
  | [] =>
    obtain rfl := Except.ok.inj hf
    obtain rfl := Except.ok.inj hs
    exact .nil
  | j :: rest =>
    obtain ⟨fj, hfj, hf⟩ := Outcome.bind_eq_ok.mp hf
    obtain ⟨frest, hfrest, hf⟩ := Outcome.bind_eq_ok.mp hf
    obtain rfl := Except.ok.inj hf
    obtain ⟨sj, hsj, hs⟩ := Outcome.bind_eq_ok.mp hs
    obtain ⟨srest, hsrest, hs⟩ := Outcome.bind_eq_ok.mp hs
    obtain rfl := Except.ok.inj hs
    exact .cons (keepsShape_of_value j hfj hsj) (keepsShape_of_values rest hfrest hsrest)

theorem keepsShape_of_dict (members : Dict Json) {filled settled : Traced (Dict Json)}
    (hf : Filling.dict scope members = .ok filled)
    (hs : Substitution.dict scope filled.value = .ok settled) :
    Dict.keys settled.value = Dict.keys members ∧
      List.Forall₂ (KeepsShape scope) (Dict.values members) (Dict.values settled.value) := by
  match members with
  | [] =>
    obtain rfl := Except.ok.inj hf
    obtain rfl := Except.ok.inj hs
    exact ⟨rfl, .nil⟩
  | (k, j) :: rest =>
    obtain ⟨fj, hfj, hf⟩ := Outcome.bind_eq_ok.mp hf
    obtain ⟨frest, hfrest, hf⟩ := Outcome.bind_eq_ok.mp hf
    obtain rfl := Except.ok.inj hf
    obtain ⟨sj, hsj, hs⟩ := Outcome.bind_eq_ok.mp hs
    obtain ⟨srest, hsrest, hs⟩ := Outcome.bind_eq_ok.mp hs
    obtain rfl := Except.ok.inj hs
    obtain ⟨hkeys, hvalues⟩ := keepsShape_of_dict rest hfrest hsrest
    exact ⟨congrArg (k :: ·) hkeys, .cons (keepsShape_of_value j hfj hsj) hvalues⟩

end

/-! ### Steps -/

/-- What an instruction has from the step that it was made of. -/
structure Carried (scope : Scope) (template : Step) (i : Instruction) : Prop where
  tool : i.tool = template.tool
  timeout : i.timeout = template.timeout
  maxRetries : i.maxRetries = template.maxRetries
  retryDelay : i.retryDelay = template.retryDelay
  onFailure : i.onFailure = template.onFailure
  priority : i.priority = template.priority
  extensions : i.extensions = template.extensions
  params : KeepsShape scope (.obj template.params) (.obj i.params)

/-- The names that the texts of a copy see: its loop variables hide those of the request. -/
def copyScope (vars : Dict Json) (b : Bindings) : Scope := Scope.over (Scope.ofDict vars) b.scope

theorem Unrolling.Template.carried_of_yields {t : Unrolling.Template} {vars : Dict Json}
    {state : HostState} {i : Instruction} (h : t.Yields vars state b i) :
    Carried (copyScope vars b) t.step i := by
  obtain ⟨u, s, referenced, hu, hs, -, rfl⟩ := h
  obtain ⟨filled, hfilled, rfl⟩ := Unrolling.instantiate_eq_ok.mp hu
  obtain ⟨settled, hsettled, rfl⟩ := Unrolled.settle_eq_ok.mp hs
  obtain ⟨id, -, hfilled⟩ := Outcome.bind_eq_ok.mp hfilled
  obtain ⟨description, -, hfilled⟩ := Outcome.bind_eq_ok.mp hfilled
  obtain ⟨condition, -, hfilled⟩ := Outcome.bind_eq_ok.mp hfilled
  obtain ⟨dependsOn, -, hfilled⟩ := Outcome.bind_eq_ok.mp hfilled
  obtain ⟨params, hparams, hfilled⟩ := Outcome.bind_eq_ok.mp hfilled
  obtain rfl := Except.ok.inj hfilled
  obtain ⟨hkeys, hvalues⟩ := keepsShape_of_dict t.step.params hparams hsettled
  exact ⟨rfl, rfl, rfl, rfl, rfl, rfl, rfl, .obj hkeys hvalues⟩

/-! ### Stages -/

namespace Settled

/-- The step is kept in some state, and all that changes is what counts as read. -/
def KeptAs (b : Bindings) (s kept : Settled) : Prop :=
  ∃ state referenced, s.judge b state = .keep referenced ∧ { s with referenced } = kept

theorem keptAs_of_chooseFrom {simulator : Option Simulator} {state : HostState} {steps : List Settled}
    {chosen out : Chosen} (h : chooseFrom b simulator state chosen steps = .ok out) :
    ∃ sources kept, out.accepted = chosen.accepted ++ kept ∧ sources.Sublist steps ∧
      List.Forall₂ (KeptAs b) sources kept := by
  induction steps generalizing state chosen with
  | nil =>
    obtain rfl := Except.ok.inj h
    exact ⟨[], [], by simp, .slnil, .nil⟩
  | cons s steps ih =>
    unfold chooseFrom at h
    split at h
    · rename_i referenced hkeep
      obtain ⟨sources, kept, hacc, hsub, hkept⟩ := ih h
      exact ⟨s :: sources, { s with referenced } :: kept, by simp [hacc], hsub.cons_cons s,
        .cons ⟨state, referenced, hkeep, rfl⟩ hkept⟩
    · obtain ⟨sources, kept, hacc, hsub, hkept⟩ := ih h
      exact ⟨sources, kept, hacc, hsub.cons s, hkept⟩
    · cases h

end Settled

section Pairs
variable {α β γ : Type} {R : α → β → Prop} {S : β → γ → Prop}

/-- A sublist of the results has come of a sublist of what they were made of. -/
theorem exists_sublist_of_forall₂ {xs : List α} {ys ys' : List β} (h : List.Forall₂ R xs ys)
    (hsub : ys'.Sublist ys) : ∃ xs', xs'.Sublist xs ∧ List.Forall₂ R xs' ys' := by
  induction hsub generalizing xs with
  | slnil => exact ⟨[], List.nil_sublist xs, .nil⟩
  | cons y _ ih =>
    obtain ⟨x, rest, -, hrest, rfl⟩ := List.forall₂_cons_right_iff.mp h
    obtain ⟨xs', hxs', hall⟩ := ih hrest
    exact ⟨xs', hxs'.cons x, hall⟩
  | cons_cons y _ ih =>
    obtain ⟨x, rest, hx, hrest, rfl⟩ := List.forall₂_cons_right_iff.mp h
    obtain ⟨xs', hxs', hall⟩ := ih hrest
    exact ⟨x :: xs', hxs'.cons_cons x, .cons hx hall⟩

theorem forall₂_comp {xs : List α} {ys : List β} {zs : List γ} (h : List.Forall₂ R xs ys)
    (h' : List.Forall₂ S ys zs) : List.Forall₂ (Relation.Comp R S) xs zs := by
  induction h generalizing zs with
  | nil =>
    cases h'
    exact .nil
  | cons hxy _ ih =>
    obtain ⟨z, rest, hyz, hrest, rfl⟩ := List.forall₂_cons_left_iff.mp h'
    exact .cons ⟨_, hxy, hyz⟩ (ih hrest)

/-- In another order the results have come of what they were made of in another order. -/
theorem exists_perm_of_forall₂ {xs : List α} {ys ys' : List β} (h : List.Forall₂ R xs ys)
    (hperm : ys'.Perm ys) : ∃ xs', xs'.Perm xs ∧ List.Forall₂ R xs' ys' := by
  obtain ⟨xs', hall, hxs'⟩ := List.perm_comp_forall₂ hperm h.flip
  exact ⟨xs', hxs', hall.flip⟩

end Pairs

variable {limit : Nat} {simulator : Option Simulator} {steps : List Step} {unrolled : List Unrolled}
  {settled out : List Settled} {chosen : Settled.Chosen}

/-- Each instruction is yielded by the template of the copy it is made of, and each is made of its own. -/
theorem yields_of_stages (hu : unroll b.scope limit steps = .ok unrolled)
    (hs : unrolled.mapM (fun u => u.settle b) = .ok settled)
    (hc : Settled.choose settled b simulator = .ok chosen)
    (ho : Settled.inOrder chosen.accepted chosen.dropped = .ok out) :
    ∃ sources : List Unrolled, sources.Subperm unrolled ∧
      List.Forall₂ (fun u i => ∃ (t : Unrolling.Template) (state : HostState),
        steps[t.origin]? = some t.step ∧ u.origin = t.origin ∧ t.Yields u.bindings state b i)
        sources (out.map fun s => s.emit b) := by
  obtain ⟨judged, kept, hacc, hsub, hkept⟩ := Settled.keptAs_of_chooseFrom hc
  obtain rfl : chosen.accepted = kept := by simpa using hacc
  obtain ⟨copies, hcopies, hsettled⟩ := exists_sublist_of_forall₂ (Outcome.mapM_eq_ok.mp hs) hsub
  obtain ⟨order, -, hperm, rfl⟩ := Settled.inOrder_eq_ok ho
  obtain ⟨sources, hsources, hall⟩ :=
    exists_perm_of_forall₂ (forall₂_comp hsettled hkept) (Graph.rearranged_perm hperm)
  have hsub : sources.Subperm unrolled := ⟨copies, hsources.symm, hcopies⟩
  refine ⟨sources, hsub, List.forall₂_map_right_iff.mpr ?_⟩
  refine ((List.forall₂_and_left _ _).mpr ⟨fun u hu => hu, hall⟩).imp ?_
  rintro u _ ⟨hmem, s, hs, state, referenced, hkeep, rfl⟩
  obtain ⟨t, ht, horigin, hcopy⟩ := Unrolling.exists_template_of_unroll hu u (hsub.subset hmem)
  exact ⟨t, state, ht, horigin, u, s, referenced, hcopy, hs, hkeep, rfl⟩

/-- Through all stages, every instruction has from the template of its copy what is not interpreted, and
parameters of the same shape; and no two instructions are made of one copy. -/
theorem carried_of_stages (hu : unroll b.scope limit steps = .ok unrolled)
    (hs : unrolled.mapM (fun u => u.settle b) = .ok settled)
    (hc : Settled.choose settled b simulator = .ok chosen)
    (ho : Settled.inOrder chosen.accepted chosen.dropped = .ok out) :
    ∃ sources : List Unrolled, sources.Subperm unrolled ∧
      List.Forall₂ (fun u i => ∃ template, steps[u.origin]? = some template ∧
        Carried (copyScope u.bindings b) template i)
        sources (out.map fun s => s.emit b) := by
  obtain ⟨sources, hsub, hall⟩ := yields_of_stages hu hs hc ho
  refine ⟨sources, hsub, hall.imp ?_⟩
  rintro u i ⟨t, state, ht, horigin, hyields⟩
  exact ⟨t.step, by rw [horigin, ht], t.carried_of_yields hyields⟩

/-- The leg of a workbench: with a number as its text and the values in its parameters. -/
def benchLeg (number : String) (spot row height : Json) : Step :=
  { id := some ("leg" ++ number), tool := "extrude", condition := some (number ++ " > 1"), dependsOn := ["top"]
    params := [("at", .arr [spot, row, .null]), ("size", .obj [("height", height), ("spot", spot)])]
    timeout := some 2.5, maxRetries := some 3, onFailure := .skip
    extensions := [("note", .arr [.str "$spot", .str "\x7bi\x7d"])] }

def benchTop : Step := { id := some "top", tool := "add_square", priority := some 7, retryDelay := some 0.5 }

/-- Two legs, of which the first is left out, and the top that comes before them. -/
def bench : List Step :=
  [{ benchLeg "\x7bi\x7d" (.str "$spot") (.str "row \x7bi\x7d") (.str "$CALCULATE(\x7bi\x7d + tall)") with
     loop := some ⟨.range "i" ⟨.literal 1, .literal 2⟩, none⟩ },
   benchTop]

def benchSpot : Json := .arr [.int 0, .int 4]

def benchBindings : Bindings := [("spot", ⟨benchSpot, .explicit⟩), ("tall", ⟨.int 8, .default⟩)]

def unrolledBench : List Unrolled :=
  [{ step := benchLeg "1" (.str "$spot") (.str "row 1") (.str "$CALCULATE(1 + tall)")
     bindings := [("i", .int 1)], referenced := ["i"], origin := 0 },
   { step := benchLeg "2" (.str "$spot") (.str "row 2") (.str "$CALCULATE(2 + tall)")
     bindings := [("i", .int 2)], referenced := ["i"], origin := 0 },
   { step := benchTop, origin := 1 }]

def settledBench (number : Nat) : Settled where
  step := benchLeg (toString number) benchSpot (.str ("row " ++ toString number)) (.int (number + 8))
  bindings := [("i", .int number)]
  referenced := ["i", "spot", "tall"]

theorem carried_bench :
    unroll benchBindings.scope 10 bench = .ok unrolledBench ∧
      unrolledBench.mapM (fun u => u.settle benchBindings) =
        .ok [settledBench 1, settledBench 2, { step := benchTop }] ∧
      Settled.choose [settledBench 1, settledBench 2, { step := benchTop }] benchBindings none =
        .ok ⟨[settledBench 2, { step := benchTop }], ["leg1"]⟩ ∧
      Settled.inOrder [settledBench 2, { step := benchTop }] ["leg1"] =
        .ok [{ step := benchTop }, settledBench 2] ∧
      ∃ sources : List Unrolled, sources.Subperm unrolledBench ∧
        List.Forall₂ (fun u i => ∃ template, bench[u.origin]? = some template ∧
          Carried (copyScope u.bindings benchBindings) template i)
          sources [({ step := benchTop } : Settled).emit benchBindings, (settledBench 2).emit benchBindings] := by
  have hu : unroll benchBindings.scope 10 bench = .ok unrolledBench := by decide +kernel
  have hs : unrolledBench.mapM (fun u => u.settle benchBindings) =
      .ok [settledBench 1, settledBench 2, { step := benchTop }] := by decide +kernel
  have hc : Settled.choose [settledBench 1, settledBench 2, { step := benchTop }] benchBindings none =
      .ok ⟨[settledBench 2, { step := benchTop }], ["leg1"]⟩ := by decide +kernel
  have ho : Settled.inOrder [settledBench 2, { step := benchTop }] ["leg1"] =
      .ok [{ step := benchTop }, settledBench 2] := by decide +kernel
  exact ⟨hu, hs, hc, ho, carried_of_stages hu hs hc ho⟩

end GoalCompiler
