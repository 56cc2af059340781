import GoalCompiler.Compilation.Stages
import GoalCompiler.Proofs.Workflow.Tracing
import GoalCompiler.Proofs.Workflow.Unrolling

/-! What an instruction rests on. It comes of a template and of the values of the variables in its provenance,
and of nothing else that a request has bound: two requests that agree on these get the same instruction. -/
namespace GoalCompiler

open Expression (Scope ExtendsOn)

namespace Substitution

theorem isTraced_text (text : String) : IsTraced fun s => Substitution.text s text := by
  intro s t a h hext
  change Substitution.text s text = .ok a at h
  unfold Substitution.text at h ⊢
  split at h
  · obtain ⟨e, he, h⟩ := Outcome.bind_eq_ok.mp h
    obtain ⟨v, hv, h⟩ := Outcome.bind_eq_ok.mp h
    obtain rfl := Except.ok.inj h
    exact Outcome.bind_eq_ok.mpr ⟨e, he, Outcome.bind_eq_ok.mpr ⟨v, e.value_of_extendsOn hext hv, rfl⟩⟩
  · rename_i name _
    split at h
    · rename_i j hj
      obtain rfl := Except.ok.inj h
      simp only [hext name List.mem_cons_self j hj]
    · cases h
  · exact h

mutual

theorem isTraced_value (j : Json) : IsTraced fun s => value s j := by
  cases j with
  | str text => exact isTraced_text text
  | arr items => exact (isTraced_values items).map Json.arr
  | obj members => exact (isTraced_dict members).map Json.obj
  | null | bool | int | float => exact .const _

theorem isTraced_values (items : List Json) : IsTraced fun s => values s items := by
  match items with
  | [] => exact .const _
  | j :: rest => exact (isTraced_value j).pair (isTraced_values rest) fun (a, b) => a :: b

theorem isTraced_dict (members : List (String × Json)) : IsTraced fun s => dict s members := by
  match members with
  | [] => exact .const _
  | (k, j) :: rest => exact (isTraced_value j).pair (isTraced_dict rest) fun (a, b) => (k, a) :: b

end

end Substitution

/-- What lies under a scope matters only where that scope says nothing. -/
theorem Expression.Scope.over_eq_some {top s t : Scope} {name : String} {j : Json}
    (h : top name = none → ∀ j, s name = some j → t name = some j) (hj : Scope.over top s name = some j) :
    Scope.over top t name = some j := by
  unfold Scope.over at hj ⊢
  cases htop : top name with
  | none =>
    rw [htop, Option.none_or] at hj
    rw [Option.none_or, h htop j hj]
  | some i => rwa [htop] at hj

namespace Settled

deriving instance DecidableEq for Verdict

variable {s : Settled} {b b' : Bindings} {state : HostState} {referenced : NameSet}

theorem judge_eq_keep :
    s.judge b state = .keep referenced ↔
      (s.step.condition = none ∧ s.referenced = referenced) ∨
      ∃ source e, s.step.condition = some source ∧ Expression.Compiled.read source = .ok e ∧
        e.holds (s.conditionScope b state) = .ok true ∧
        NameSet.union s.referenced (e.identifiers.filter fun n => !Dict.contains state n) = referenced := by
  unfold judge
  cases s.step.condition with
  | none => simp
  | some source =>
    cases hread : Expression.Compiled.read source with
    | error e =>
      by_cases ho : s.step.optional <;> simp [hread, ho, bind, Except.bind]
    | ok e =>
      cases hholds : e.holds (s.conditionScope b state) with
      | error f => by_cases ho : s.step.optional <;> simp [hread, hholds, ho, bind, Except.bind]
      | ok holds => cases holds <;> simp [hread, hholds, bind, Except.bind, pure, Except.pure]

theorem subset_of_judge (h : s.judge b state = .keep referenced) : s.referenced ⊆ referenced := by
  rcases judge_eq_keep.mp h with ⟨-, rfl⟩ | ⟨-, -, -, -, -, rfl⟩
  · exact List.Subset.refl _
  · exact fun _ hname => NameSet.mem_union.mpr (.inl hname)

/-- A condition that holds rests on the loop variables, on the state and on the names counted as read. -/
theorem judge_of_agree (h : s.judge b state = .keep referenced)
    (hbound : ∀ name ∈ referenced, Scope.ofDict s.bindings name = none →
      ∀ j, b.scope name = some j → b'.scope name = some j) :
    s.judge b' state = .keep referenced := by
  rcases judge_eq_keep.mp h with hnone | ⟨source, e, hsource, hread, hholds, hnames⟩
  · exact judge_eq_keep.mpr (.inl hnone)
  · refine judge_eq_keep.mpr (.inr ⟨source, e, hsource, hread, e.holds_of_extendsOn ?_ hholds, hnames⟩)
    refine fun name hname j => Scope.over_eq_some fun hloop _ => Scope.over_eq_some fun hstate => ?_
    have hread : name ∈ referenced := by
      rw [← hnames, NameSet.mem_union, List.mem_filter]
      exact .inr ⟨hname, by simpa [Dict.contains, Scope.ofDict] using hstate⟩
    exact hbound name hread hloop

/-- A variable that the request binds is in the provenance if the step refers to it. -/
theorem mem_provenance {name : String} {j : Json} (hname : name ∈ s.referenced)
    (hj : b.value? name = some j) : name ∈ Dict.keys (s.emit b).provenance := by
  have hsource : ∃ src, s.source? b name = some src := by
    obtain ⟨x, hx, -⟩ := Option.map_eq_some_iff.mp hj
    unfold source?
    split
    · exact ⟨_, rfl⟩
    · exact ⟨x.source, by rw [Bindings.source?, hx]; rfl⟩
  obtain ⟨src, hsrc⟩ := hsource
  exact List.mem_map.mpr ⟨(name, src), List.mem_filterMap.mpr ⟨name, hname, by rw [hsrc]; rfl⟩, rfl⟩

end Settled

theorem Unrolled.settle_eq_ok {u : Unrolled} {b : Bindings} {s : Settled} :
    u.settle b = .ok s ↔
      ∃ params, Substitution.dict (Scope.over (Scope.ofDict u.bindings) b.scope) u.step.params = .ok params ∧
        ⟨{ u.step with params := params.value }, u.bindings,
          NameSet.union (NameSet.union u.referenced (Dict.keys u.bindings)) params.names⟩ = s := by
  unfold Unrolled.settle
  cases Substitution.dict (Scope.over (Scope.ofDict u.bindings) b.scope) u.step.params <;> simp

/-- The template, with these loop variables and in this state, is accepted and comes out as the instruction. -/
def Unrolling.Template.Yields (t : Unrolling.Template) (vars : Dict Json) (state : HostState) (b : Bindings)
    (i : Instruction) : Prop :=
  ∃ u s referenced, Unrolling.instantiate b.scope t vars = .ok u ∧ u.settle b = .ok s ∧
    s.judge b state = .keep referenced ∧ ({ s with referenced } : Settled).emit b = i

/-- An instruction rests on its provenance. Where two requests agree on the variables in it, loop variables
apart, the template comes to the same instruction under both, but for where the values are from. -/
theorem Unrolling.Template.yields_of_agree {t : Unrolling.Template} {vars : Dict Json} {state : HostState}
    {b b' : Bindings} {i : Instruction} (h : t.Yields vars state b i)
    (hagree : ∀ name ∈ Dict.keys i.provenance, ¬ Dict.contains vars name → b'.value? name = b.value? name) :
    ∃ provenance, t.Yields vars state b' { i with provenance } := by
  obtain ⟨u, s, referenced, hu, hs, hkeep, rfl⟩ := h
  obtain ⟨filled, hfilled, rfl⟩ := Unrolling.instantiate_eq_ok.mp hu
  obtain ⟨params, hparams, rfl⟩ := Unrolled.settle_eq_ok.mp hs
  -- what the request binds among the names referred to, it binds in the second run too
  have hbound : ∀ name ∈ referenced, Scope.ofDict vars name = none →
      ∀ j, b.scope name = some j → b'.scope name = some j := by
    intro name hname hvar j hj
    have hfree : ¬ Dict.contains vars name := by simpa [Dict.contains, Scope.ofDict] using hvar
    exact (hagree name (Settled.mem_provenance hname hj) hfree).trans hj
  have hkept := Settled.subset_of_judge hkeep
  have hextends : ∀ names : NameSet, names ⊆ referenced →
      ExtendsOn names (Scope.over (Scope.ofDict vars) b.scope) (Scope.over (Scope.ofDict vars) b'.scope) :=
    fun names hsub name hname j => Scope.over_eq_some (hbound name (hsub hname))
  have hown : filled.names ⊆ referenced := fun name hname =>
    hkept (NameSet.mem_union.mpr (.inl (NameSet.mem_union.mpr (.inl hname))))
  have hvalues : params.names ⊆ referenced := fun name hname => hkept (NameSet.mem_union.mpr (.inr hname))
  have hfilled' := Filling.isTraced_step t.step _ _ filled hfilled (hextends _ hown)
  have hparams' := Substitution.isTraced_dict filled.value.params _ _ params hparams (hextends _ hvalues)
  exact ⟨_, _, _, referenced, Unrolling.instantiate_eq_ok.mpr ⟨filled, hfilled', rfl⟩,
    Unrolled.settle_eq_ok.mpr ⟨params, hparams', rfl⟩, Settled.judge_of_agree hkeep hbound, rfl⟩

/-- A leg of a table, cut when something is selected. A leg that is sized has its size whatever `extra` is. -/
def legTemplate : Unrolling.Template where
  origin := 0
  step :=
    { id := some "leg_\x7bi\x7d", tool := "extrude", description := some "\x7blabel\x7d leg"
      params := [("depth", .str "$depth"), ("size", .str "$CALCULATE(\x7bi\x7d + 1 if sized or extra else 0)")]
      condition := some "has_selection and tall" }

def legNumber : Dict Json := [("i", .int 2)]

def selectedState : HostState := [("has_selection", .bool true)]

def legBindings : Bindings :=
  [("depth", ⟨.int 3, .explicit⟩), ("has_selection", ⟨.bool false, .default⟩), ("label", ⟨.str "front", .learned⟩),
   ("sized", ⟨.bool true, .modifier⟩), ("tall", ⟨.bool true, .default⟩), ("width", ⟨.int 7, .default⟩)]

/-- What the leg does not rest on is bound to something else, or not at all, or for the first time. -/
def otherBindings : Bindings :=
  [("depth", ⟨.int 3, .default⟩), ("extra", ⟨.str "thick", .explicit⟩), ("has_selection", ⟨.null, .explicit⟩),
   ("label", ⟨.str "front", .default⟩), ("sized", ⟨.bool true, .default⟩), ("tall", ⟨.bool true, .computed⟩)]

def unrolledLeg : Unrolled where
  origin := 0
  bindings := legNumber
  referenced := ["i", "label"]
  step :=
    { id := some "leg_2", tool := "extrude", description := some "front leg"
      params := [("depth", .str "$depth"), ("size", .str "$CALCULATE(2 + 1 if sized or extra else 0)")]
      condition := some "has_selection and tall" }

def settledLeg : Settled where
  bindings := legNumber
  referenced := ["depth", "extra", "i", "label", "sized"]
  step :=
    { id := some "leg_2", tool := "extrude", description := some "front leg"
      params := [("depth", .int 3), ("size", .int 3)], condition := some "has_selection and tall" }

def legInstruction : Instruction where
  id := some "leg_2"
  tool := "extrude"
  params := [("depth", .int 3), ("size", .int 3)]
  description := some "front leg"
  provenance := [("depth", .explicit), ("i", .loop), ("label", .learned), ("sized", .modifier), ("tall", .default)]

theorem yields_legInstruction :
    legTemplate.Yields legNumber selectedState legBindings legInstruction ∧
      (∀ name ∈ Dict.keys legInstruction.provenance, ¬ Dict.contains legNumber name →
        otherBindings.value? name = legBindings.value? name) ∧
      ∃ provenance,
        legTemplate.Yields legNumber selectedState otherBindings { legInstruction with provenance } := by
  have hyields : legTemplate.Yields legNumber selectedState legBindings legInstruction :=
    ⟨unrolledLeg, settledLeg, ["depth", "extra", "i", "label", "sized", "tall"], by decide +kernel,
      by decide +kernel, by decide +kernel, by decide +kernel⟩
  have hagree : ∀ name ∈ Dict.keys legInstruction.provenance, ¬ Dict.contains legNumber name →
      otherBindings.value? name = legBindings.value? name := by
    decide +kernel
  exact ⟨hyields, hagree, Unrolling.Template.yields_of_agree hyields hagree⟩

end GoalCompiler
