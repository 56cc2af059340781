import GoalCompiler.Proofs.Dictionary
import GoalCompiler.Proofs.Expression.Locality
import GoalCompiler.Proofs.Graph.Arrangement
import GoalCompiler.Proofs.Outcome
import GoalCompiler.Workflow.Computed

/-! Computed parameters after one pass in order. Each is worked out before anything that reads it and not
touched afterwards, so what it was worked out from is what is bound at the end. -/
namespace GoalCompiler

namespace ComputedParameter

variable {w : Workflow} {cs order : List ComputedParameter}

abbrev name (c : ComputedParameter) : String := c.parameter.name

/-! ### The order -/

theorem read_all {ps : List (Parameter × String)}
    (h : List.Forall₂ (fun ps c => (match Expression.Compiled.read ps.2 with
      | .ok e => .ok ⟨ps.1, e⟩
      | .error e => .error (.expression e) : Except Failure ComputedParameter) = .ok c) ps cs) :
    cs.map parameter = ps.map Prod.fst ∧
      ∀ c ∈ cs, ∃ source, (c.parameter, source) ∈ ps ∧
        Expression.Compiled.read source = .ok c.expression := by
  induction h with
  | nil => simp
  | @cons p c ps cs hc _ ih =>
    split at hc
    · rename_i e he
      obtain rfl := Except.ok.inj hc
      refine ⟨by rw [List.map_cons, List.map_cons, ih.1], List.forall_mem_cons.mpr ⟨?_, ?_⟩⟩
      · exact ⟨p.2, List.mem_cons_self, he⟩
      · intro c hc
        obtain ⟨source, hmem, hread⟩ := ih.2 c hc
        exact ⟨source, List.mem_cons_of_mem p hmem, hread⟩
    · simp at hc

theorem map_fst_computed (ps : List Parameter) :
    (ps.filterMap fun p => p.computed.map fun source => (p, source)).map Prod.fst =
      ps.filter Parameter.isComputed := by
  induction ps with
  | nil => rfl
  | cons p ps ih =>
    cases hp : p.computed with
    | none => simp [hp, Parameter.isComputed, ← ih]
    | some source => simp [hp, Parameter.isComputed, ← ih]

theorem ofWorkflow_spec (h : ofWorkflow w = .ok cs) :
    cs.map parameter = w.parameters.filter Parameter.isComputed ∧
      ∀ c ∈ cs, ∃ source, c.parameter.computed = some source ∧
        Expression.Compiled.read source = .ok c.expression := by
  obtain ⟨hmap, hread⟩ := read_all (Outcome.mapM_eq_ok.mp h)
  rw [map_fst_computed] at hmap
  refine ⟨hmap, fun c hc => ?_⟩
  obtain ⟨source, hmem, hsource⟩ := hread c hc
  obtain ⟨p, -, hp⟩ := List.mem_filterMap.mp hmem
  obtain ⟨source', hcomputed, heq⟩ := Option.map_eq_some_iff.mp hp
  obtain ⟨rfl, rfl⟩ := Prod.mk.inj heq
  exact ⟨source', hcomputed, hsource⟩

theorem nodup_names (hnames : (w.parameters.map Parameter.name).Nodup) (h : ofWorkflow w = .ok cs) :
    (cs.map name).Nodup := by
  have hsub := (List.filter_sublist (p := Parameter.isComputed) (l := w.parameters)).map Parameter.name
  rw [← (ofWorkflow_spec h).1, List.map_map] at hsub
  exact hsub.nodup hnames

/-- A name has the position of a parameter that bears it. -/
theorem exists_of_position? {n : String} {j : Nat} (h : position? cs n = some j) :
    ∃ d, cs[j]? = some d ∧ d.name = n := by
  obtain ⟨⟨d, j⟩, hfind, rfl⟩ := Option.map_eq_some_iff.mp h
  refine ⟨d, ?_, by simpa using List.find?_some hfind⟩
  exact List.mem_zipIdx_iff_getElem?.mp (List.mem_reverse.mp (List.mem_of_find?_eq_some hfind))

/-- With distinct names the position of a name is where it stands. -/
theorem position?_eq {j : Nat} {d : ComputedParameter} (hnames : (cs.map name).Nodup)
    (hd : cs[j]? = some d) : position? cs d.name = some j := by
  cases hp : position? cs d.name with
  | none =>
    rw [position?, Option.map_eq_none_iff, List.find?_eq_none] at hp
    have hmem : (d, j) ∈ cs.zipIdx.reverse :=
      List.mem_reverse.mpr (List.mem_zipIdx_iff_getElem?.mpr hd)
    exact absurd (hp _ hmem) (by simp)
  | some i =>
    obtain ⟨c, hc, hname⟩ := exists_of_position? hp
    have hi : (cs.map name)[i]? = (cs.map name)[j]? := by simp [hc, hd, hname]
    have hlt : i < (cs.map name).length := by
      rw [List.length_map]
      exact (List.getElem?_eq_some_iff.mp hc).1
    exact congrArg some ((List.getElem?_inj hlt hnames).mp hi)

/-- A computed parameter comes after those that it names. -/
theorem follows_needs {i j : Nat} (hnames : (cs.map name).Nodup) :
    Graph.Follows (needs cs) i j ↔
      ∃ c d, cs[i]? = some c ∧ cs[j]? = some d ∧ d.name ∈ c.prerequisites := by
  simp only [Graph.Follows, needs, List.getElem?_map, Option.map_eq_some_iff]
  constructor
  · rintro ⟨_, ⟨c, hc, rfl⟩, hj⟩
    obtain ⟨n, hn, hp⟩ := List.mem_filterMap.mp hj
    obtain ⟨d, hd, rfl⟩ := exists_of_position? hp
    exact ⟨c, d, hc, hd, hn⟩
  · rintro ⟨c, d, hc, hd, hn⟩
    exact ⟨_, ⟨c, hc, rfl⟩, List.mem_filterMap.mpr ⟨d.name, hn, position?_eq hnames hd⟩⟩

/-- A list in which nothing reads its own name or one that comes later. -/
structure Layered (order : List ComputedParameter) : Prop where
  distinct : (order.map name).Nodup
  earlier : order.Pairwise fun c d => d.name ∉ c.prerequisites
  apart : ∀ c ∈ order, c.name ∉ c.prerequisites

theorem Layered.tail {c : ComputedParameter} (h : Layered (c :: order)) : Layered order :=
  ⟨(List.nodup_cons.mp h.distinct).2, (List.pairwise_cons.mp h.earlier).2,
    fun d hd => h.apart d (List.mem_cons_of_mem c hd)⟩

/-- What the first reads is not worked out by itself or any other. -/
theorem Layered.read {c : ComputedParameter} {n : String} (h : Layered (c :: order))
    (hn : n ∈ c.prerequisites) : n ∉ (c :: order).map name := by
  intro hmem
  rcases List.mem_cons.mp hmem with rfl | hmem
  · exact h.apart c List.mem_cons_self hn
  · obtain ⟨d, hd, rfl⟩ := List.mem_map.mp hmem
    exact (List.pairwise_cons.mp h.earlier).1 d hd hn

theorem inOrder_spec (hnames : (w.parameters.map Parameter.name).Nodup) (h : inOrder w = .ok order) :
    Layered order ∧ ∃ cs, ofWorkflow w = .ok cs ∧ order.Perm cs := by
  obtain ⟨cs, hcs, h⟩ := Outcome.bind_eq_ok.mp h
  have hcsnames := nodup_names hnames hcs
  split at h
  · rename_i arranged harranged
    obtain rfl := Except.ok.inj h
    obtain ⟨hperm, hordered⟩ := Graph.arrange_spec harranged
    rw [needs, List.length_map] at hperm
    have hcs' := Graph.rearranged_perm hperm
    obtain ⟨hearlier, hapart⟩ := Graph.rearranged_ordered
      (R := fun c d : ComputedParameter => d.name ∈ c.prerequisites)
      hordered fun i j c d hc hd hread => (follows_needs hcsnames).mpr ⟨c, d, hc, hd, hread⟩
    exact ⟨⟨(hcs'.map name).nodup_iff.mpr hcsnames, hearlier, hapart⟩, cs, hcs, hcs'⟩
  · exact absurd h Outcome.throw_ne_ok

/-- The order holds the computed parameters of the workflow and no others. -/
theorem mem_inOrder (hnames : (w.parameters.map Parameter.name).Nodup) (h : inOrder w = .ok order)
    {p : Parameter} : p ∈ order.map parameter ↔ p ∈ w.parameters ∧ p.isComputed := by
  obtain ⟨-, cs, hcs, hperm⟩ := inOrder_spec hnames h
  rw [(hperm.map _).mem_iff, (ofWorkflow_spec hcs).1, List.mem_filter]

theorem mem_name_inOrder (hnames : (w.parameters.map Parameter.name).Nodup) (h : inOrder w = .ok order)
    {n : String} : n ∈ order.map name ↔ ∃ p ∈ w.parameters, p.isComputed ∧ p.name = n := by
  constructor
  · intro hn
    obtain ⟨c, hc, rfl⟩ := List.mem_map.mp hn
    obtain ⟨hw, hcomputed⟩ := (mem_inOrder hnames h).mp (List.mem_map_of_mem hc)
    exact ⟨c.parameter, hw, hcomputed, rfl⟩
  · rintro ⟨p, hp, hcomputed, rfl⟩
    obtain ⟨c, hc, rfl⟩ := List.mem_map.mp ((mem_inOrder hnames h).mpr ⟨hp, hcomputed⟩)
    exact List.mem_map_of_mem hc

theorem identifiers_subset {c : ComputedParameter} {n : String} (h : n ∈ c.expression.identifiers) :
    n ∈ c.prerequisites :=
  NameSet.mem_ofList.mpr (List.mem_append_right _ h)

/-- The value hangs on what the names are bound to that the expression reads. -/
theorem evaluate_congr {c : ComputedParameter} {b b' : Bindings}
    (h : ∀ n ∈ c.prerequisites, Dict.get? b' n = Dict.get? b n) : c.evaluate b' = c.evaluate b := by
  have hagree : Expression.AgreeOn c.expression.identifiers b'.scope b.scope := fun n hn =>
    congrArg (Option.map Binding.value) (h n (identifiers_subset hn))
  rw [evaluate, evaluate, Expression.Compiled.value_congr hagree]

theorem evaluate_eq_ok {c : ComputedParameter} {b : Bindings} {v : Json} :
    c.evaluate b = .ok v ↔
      ∃ s, c.expression.value b.scope = .ok s ∧ c.parameter.accept s.toJson = .ok v := by
  unfold evaluate
  split
  · rename_i he
    simp [he]
  · rename_i s hs
    simp [hs, Outcome.mapError_eq_ok]

end ComputedParameter

namespace Bindings

variable {b b' : Bindings} {order : List ComputedParameter}

theorem isExplicit_congr {n : String} (h : Dict.get? b' n = Dict.get? b n) :
    b'.isExplicit n = b.isExplicit n := by
  rw [isExplicit, isExplicit, source?, source?, h]

theorem bind_computed {n : String} {v : Json} (h : ¬ b.isExplicit n) :
    b.bind n v .computed = Dict.insert b n ⟨v, .computed⟩ := by
  simp [bind, admits, h]

theorem compute_cons_eq_ok {c : ComputedParameter} {rest : List ComputedParameter}
    (h : b.compute (c :: rest) = ⟨b', none⟩) :
    b.isExplicit c.name ∧ b.compute rest = ⟨b', none⟩ ∨
      ¬ b.isExplicit c.name ∧ ∃ v, c.evaluate b = .ok v ∧
        compute (Dict.insert b c.name ⟨v, .computed⟩) rest = ⟨b', none⟩ := by
  rw [compute] at h
  split at h
  · exact .inl ⟨‹_›, h⟩
  · rename_i hex
    split at h
    · simp at h
    · rename_i v hv
      exact .inr ⟨hex, v, hv, bind_computed hex ▸ h⟩

/-- A pass leaves every name alone that it does not work out, and those that the caller gave. -/
theorem compute_frame {n : String} (h : b.compute order = ⟨b', none⟩)
    (hn : b.isExplicit n ∨ n ∉ order.map ComputedParameter.name) :
    Dict.get? b' n = Dict.get? b n := by
  induction order generalizing b with
  | nil =>
    obtain rfl : b = b' := congrArg Progress.bindings h
    rfl
  | cons c rest ih =>
    rw [List.map_cons, List.mem_cons, not_or] at hn
    rcases compute_cons_eq_ok h with ⟨-, h⟩ | ⟨hex, v, -, h⟩
    · exact ih h (hn.imp id And.right)
    · have hne : n ≠ c.name := by
        rcases hn with hn | hn
        · rintro rfl
          exact hex hn
        · exact hn.1
      have hget := Dict.get?_insert_of_ne b (⟨v, .computed⟩ : Binding) hne
      rw [ih h (hn.imp (fun hn => (isExplicit_congr hget).trans hn) And.right), hget]

/-- A pass binds what it works out to the value over the bindings at the end. -/
theorem compute_value (hl : ComputedParameter.Layered order) (h : b.compute order = ⟨b', none⟩) :
    ∀ c ∈ order, ¬ b.isExplicit c.name →
      ∃ v, c.evaluate b' = .ok v ∧ Dict.get? b' c.name = some ⟨v, .computed⟩ := by
  induction order generalizing b with
  | nil => simp
  | cons c rest ih =>
    have hc : c.name ∉ rest.map ComputedParameter.name := (List.nodup_cons.mp hl.distinct).1
    rcases compute_cons_eq_ok h with ⟨hex, h⟩ | ⟨hex, v, hv, h⟩
    · exact List.forall_mem_cons.mpr ⟨fun hn => absurd hex hn, ih hl.tail h⟩
    · refine List.forall_mem_cons.mpr ⟨fun _ => ⟨v, ?_, ?_⟩, fun d hd hdex => ?_⟩
      · -- nothing that `c` reads is bound anew by `c` itself or after it
        rw [← hv]
        refine ComputedParameter.evaluate_congr fun n hn => ?_
        obtain ⟨hne, hnot⟩ := not_or.mp (List.mem_cons.not.mp (hl.read hn))
        rw [compute_frame h (.inr hnot), Dict.get?_insert_of_ne _ _ hne]
      · rw [compute_frame h (.inr hc), Dict.get?_insert_self]
      · have hne : d.name ≠ c.name := fun heq => hc (heq ▸ List.mem_map_of_mem hd)
        have hget := Dict.get?_insert_of_ne b (⟨v, .computed⟩ : Binding) hne
        exact ih hl.tail h d hd (by rwa [isExplicit_congr hget])

theorem ordered_compute (hb : Dict.Ordered b) (h : b.compute order = ⟨b', none⟩) : Dict.Ordered b' := by
  induction order generalizing b with
  | nil =>
    obtain rfl : b = b' := congrArg Progress.bindings h
    exact hb
  | cons c rest ih =>
    rcases compute_cons_eq_ok h with ⟨-, h⟩ | ⟨-, v, -, h⟩
    · exact ih hb h
    · exact ih (Dict.ordered_insert hb) h

/-- A pass over bindings that already hold the values works them out again and changes none. -/
theorem compute_settled {b₀ : Bindings} (hsame : ∀ n, Dict.get? b n = Dict.get? b₀ n)
    (hv : ∀ c ∈ order, ¬ b₀.isExplicit c.name →
      ∃ v, c.evaluate b₀ = .ok v ∧ Dict.get? b₀ c.name = some ⟨v, .computed⟩) :
    ∃ b', b.compute order = ⟨b', none⟩ ∧ ∀ n, Dict.get? b' n = Dict.get? b₀ n := by
  induction order generalizing b with
  | nil => exact ⟨b, rfl, hsame⟩
  | cons c rest ih =>
    obtain ⟨hc, hrest⟩ := List.forall_mem_cons.mp hv
    rw [compute]
    by_cases hex : b₀.isExplicit c.name
    · rw [if_pos (by rwa [isExplicit_congr (hsame _)])]
      exact ih hsame hrest
    · have hexb : ¬ b.isExplicit c.name := by rwa [isExplicit_congr (hsame _)]
      obtain ⟨v, hval, hget⟩ := hc hex
      rw [if_neg hexb, ComputedParameter.evaluate_congr fun n _ => hsame n, hval]
      refine ih (fun n => ?_) hrest
      rw [bind_computed hexb]
      by_cases hn : n = c.name
      · rw [hn, Dict.get?_insert_self, hget]
      · rw [Dict.get?_insert_of_ne _ _ hn, hsame]

/-- What names that are worked out were bound to before the pass leaves no trace. -/
theorem compute_congr {b₁ : Bindings} (hl : ComputedParameter.Layered order)
    (h : b.compute order = ⟨b', none⟩)
    (hb : ∀ n, Dict.get? b₁ n = Dict.get? b n ∨
      n ∈ order.map ComputedParameter.name ∧ ¬ b.isExplicit n ∧ ¬ b₁.isExplicit n) :
    ∃ b₁', b₁.compute order = ⟨b₁', none⟩ ∧ ∀ n, Dict.get? b₁' n = Dict.get? b' n := by
  induction order generalizing b b₁ with
  | nil =>
    obtain rfl : b = b' := congrArg Progress.bindings h
    exact ⟨b₁, rfl, fun n => (hb n).resolve_right (by simp)⟩
  | cons c rest ih =>
    have hexc : b₁.isExplicit c.name = b.isExplicit c.name := by
      rcases hb c.name with heq | ⟨-, hex, hex₁⟩
      · exact isExplicit_congr heq
      · rw [Bool.eq_false_of_not_eq_true hex, Bool.eq_false_of_not_eq_true hex₁]
    rw [compute]
    rcases compute_cons_eq_ok h with ⟨hex, h⟩ | ⟨hex, v, hv, h⟩
    · rw [if_pos (hexc.trans hex)]
      refine ih hl.tail h fun n => (hb n).imp id ?_
      rintro ⟨hn, hnex, hnex₁⟩
      rcases List.mem_cons.mp hn with rfl | hn
      · exact absurd hex hnex
      · exact ⟨hn, hnex, hnex₁⟩
    · have hex₁ : ¬ b₁.isExplicit c.name := by rwa [hexc]
      -- what `c` reads is not worked out any more, so both bind it alike
      have hread : ∀ n ∈ c.prerequisites, Dict.get? b₁ n = Dict.get? b n := fun n hn =>
        (hb n).resolve_right fun hmem => hl.read hn hmem.1
      rw [if_neg hex₁, ComputedParameter.evaluate_congr hread, hv]
      rw [← bind_computed hex] at h
      refine ih hl.tail h fun n => ?_
      rw [bind_computed hex₁, bind_computed hex]
      by_cases hn : n = c.name
      · left
        rw [hn, Dict.get?_insert_self, Dict.get?_insert_self]
      · have hget := Dict.get?_insert_of_ne b (⟨v, .computed⟩ : Binding) hn
        have hget₁ := Dict.get?_insert_of_ne b₁ (⟨v, .computed⟩ : Binding) hn
        rw [isExplicit_congr hget, isExplicit_congr hget₁, hget, hget₁]
        exact (hb n).imp id fun ⟨hmem, hnex⟩ => ⟨(List.mem_cons.mp hmem).resolve_left hn, hnex⟩

/-- The names that a pass binds anew: computed parameters that the caller did not give. -/
def Recomputed (w : Workflow) (b : Bindings) (n : String) : Prop :=
  (∃ p ∈ w.parameters, p.isComputed ∧ p.name = n) ∧ ¬ b.isExplicit n

/-- What a pass over the computed parameters of a workflow makes of bindings. -/
structure Settles (w : Workflow) (order : List ComputedParameter) (b b' : Bindings) : Prop where
  /-- Computed parameters have the value of their expression over the bindings at the end. -/
  value : ∀ p ∈ w.parameters, ∀ source, p.computed = some source → ¬ b.isExplicit p.name →
    ∃ e s v, Expression.Compiled.read source = .ok e ∧ e.value b'.scope = .ok s ∧
      p.accept s.toJson = .ok v ∧ Dict.get? b' p.name = some ⟨v, .computed⟩
  /-- Nothing else is bound anew. -/
  frame : ∀ n, ¬ Recomputed w b n → Dict.get? b' n = Dict.get? b n
  /-- A second pass changes nothing. -/
  again : ∃ b'', b'.compute order = ⟨b'', none⟩ ∧ (∀ n, Dict.get? b'' n = Dict.get? b' n) ∧
    (Dict.Ordered b → b'' = b')
  /-- What the computed parameters were bound to before leaves no trace. -/
  fresh : ∀ b₁ : Bindings,
    (∀ n, Dict.get? b₁ n = Dict.get? b n ∨ Recomputed w b n ∧ Recomputed w b₁ n) →
      ∃ b₁', b₁.compute order = ⟨b₁', none⟩ ∧ (∀ n, Dict.get? b₁' n = Dict.get? b' n) ∧
        (Dict.Ordered b → Dict.Ordered b₁ → b₁' = b')

/-- A pass in the order of the workflow settles its computed parameters. -/
theorem settles_of_compute {w : Workflow} (hnames : (w.parameters.map Parameter.name).Nodup)
    (horder : ComputedParameter.inOrder w = .ok order) (h : b.compute order = ⟨b', none⟩) :
    Settles w order b b' := by
  obtain ⟨hl, cs, hcs, hperm⟩ := ComputedParameter.inOrder_spec hnames horder
  have hread := (ComputedParameter.ofWorkflow_spec hcs).2
  have hmem := fun p => ComputedParameter.mem_inOrder (p := p) hnames horder
  have hname := fun n => ComputedParameter.mem_name_inOrder (n := n) hnames horder
  have hvalue := compute_value hl h
  refine ⟨fun p hp source hsource hex => ?_, fun n hn => ?_, ?_, fun b₁ hb₁ => ?_⟩
  · obtain ⟨c, hc, rfl⟩ := List.mem_map.mp ((hmem p).mpr ⟨hp, by simp [Parameter.isComputed, hsource]⟩)
    obtain ⟨source', hsource', he⟩ := hread c (hperm.mem_iff.mp hc)
    obtain rfl : source' = source := Option.some.inj (hsource'.symm.trans hsource)
    obtain ⟨v, hv, hget⟩ := hvalue c hc hex
    obtain ⟨s, hs, hv⟩ := ComputedParameter.evaluate_eq_ok.mp hv
    exact ⟨c.expression, s, v, he, hs, hv, hget⟩
  · refine compute_frame h ?_
    by_cases hex : b.isExplicit n
    · exact .inl hex
    · exact .inr fun hmem => hn ⟨(hname n).mp hmem, hex⟩
  · have hkeep : ∀ c ∈ order, b.isExplicit c.name → b'.isExplicit c.name := fun c hc hex => by
      rwa [isExplicit_congr (compute_frame h (.inl hex))]
    have hsettled : ∀ c ∈ order, ¬ b'.isExplicit c.name →
        ∃ v, c.evaluate b' = .ok v ∧ Dict.get? b' c.name = some ⟨v, .computed⟩ := fun c hc hex =>
      hvalue c hc fun hex' => hex (hkeep c hc hex')
    obtain ⟨b'', h'', hsame⟩ := compute_settled (fun _ => rfl) hsettled
    exact ⟨b'', h'', hsame, fun hb => Dict.ext_of_ordered (ordered_compute (ordered_compute hb h) h'')
      (ordered_compute hb h) hsame⟩
  · obtain ⟨b₁', h₁, hsame⟩ := compute_congr hl h fun n => (hb₁ n).imp id fun ⟨hn, hn₁⟩ =>
      ⟨(hname n).mpr hn.1, hn.2, hn₁.2⟩
    exact ⟨b₁', h₁, hsame, fun hb hb₁ => Dict.ext_of_ordered (ordered_compute hb₁ h₁)
      (ordered_compute hb h) hsame⟩

/-- A volume that is declared before the area it is worked out from. -/
def crate : Workflow where
  name := "crate"
  parameters :=
    [{ name := "volume", type := .int, computed := some "area * height" },
     { name := "side", type := .int, default := .int 2 },
     { name := "area", type := .int, computed := some "side * side" },
     { name := "height", type := .int, default := .int 3 }]

/-- The area is left over from another side, and the volume is missing. -/
def stale : Bindings :=
  [("area", ⟨.int 100, .computed⟩), ("height", ⟨.int 3, .default⟩), ("side", ⟨.int 2, .explicit⟩)]

def settled : Bindings :=
  [("area", ⟨.int 4, .computed⟩), ("height", ⟨.int 3, .default⟩), ("side", ⟨.int 2, .explicit⟩),
   ("volume", ⟨.int 12, .computed⟩)]

def crateOrder : List ComputedParameter := (ComputedParameter.inOrder crate).toOption.getD []

theorem settles_crate :
    (crate.parameters.map Parameter.name).Nodup ∧ ComputedParameter.inOrder crate = .ok crateOrder ∧
      stale.compute crateOrder = ⟨settled, none⟩ ∧ Settles crate crateOrder stale settled := by
  have hnames : (crate.parameters.map Parameter.name).Nodup := by decide
  have horder : ComputedParameter.inOrder crate = .ok crateOrder := by
    have hok : (ComputedParameter.inOrder crate).isOk := by decide +kernel
    unfold crateOrder
    cases h : ComputedParameter.inOrder crate with
    | error e => simp [h, Except.isOk, Except.toBool] at hok
    | ok order => rfl
  have h : stale.compute crateOrder = ⟨settled, none⟩ := by
    have hb : (stale.compute crateOrder).bindings = settled := by decide +kernel
    have hf : (stale.compute crateOrder).failure = none := by decide +kernel
    rw [← hb, ← hf]
  exact ⟨hnames, horder, h, settles_of_compute hnames horder h⟩

end Bindings

end GoalCompiler
