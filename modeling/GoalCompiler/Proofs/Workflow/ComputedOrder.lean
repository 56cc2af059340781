import GoalCompiler.Proofs.Graph.Labels
import GoalCompiler.Proofs.Workflow.Computation

/-! The order of computed parameters, exactly. They can be worked out one after another when none needs itself,
by itself or by way of others; the order is then the first of all that are possible, as they are declared.
Otherwise a circle is named. Names of parameters that are not computed make no difference. -/
namespace GoalCompiler.ComputedParameter

open GoalCompiler.Graph (Follows Labelled Staged)

variable {w : Workflow} {cs order : List ComputedParameter}

/-- A computed parameter names another one or itself, in its declaration or in its expression. -/
def Uses (w : Workflow) (p q : Parameter) : Prop :=
  p ∈ w.parameters ∧ q ∈ w.parameters ∧ q.isComputed ∧ ∃ source, p.computed = some source ∧
    (q.name ∈ p.dependsOn ∨ ∃ e, Expression.Compiled.read source = .ok e ∧ q.name ∈ e.identifiers)

/-- The parameters that are computed, as declared. -/
def declared (w : Workflow) : List Parameter := w.parameters.filter Parameter.isComputed

/-- Names along which each parameter uses the one before, from a parameter back to the same. -/
structure ClosedPath (w : Workflow) (path : List String) : Prop where
  two_le : 2 ≤ path.length
  ends : path.head? = path.getLast?
  steps : path.IsChain fun before after => ∃ p q, Uses w p q ∧ p.name = after ∧ q.name = before

theorem mem_prerequisites {c : ComputedParameter} {n : String} :
    n ∈ c.prerequisites ↔ n ∈ c.parameter.dependsOn ∨ n ∈ c.expression.identifiers := by
  rw [prerequisites, NameSet.mem_ofList, List.mem_append]

/-- What a computed parameter uses are the others that its prerequisites name. -/
theorem uses_iff (hcs : ofWorkflow w = .ok cs) {c d : ComputedParameter} (hc : c ∈ cs) (hd : d ∈ cs) :
    Uses w c.parameter d.parameter ↔ d.name ∈ c.prerequisites := by
  obtain ⟨hmap, hread⟩ := ofWorkflow_spec hcs
  have hmem : ∀ e ∈ cs, e.parameter ∈ w.parameters ∧ e.parameter.isComputed := fun e he =>
    List.mem_filter.mp (hmap ▸ List.mem_map_of_mem he)
  obtain ⟨source, hsource, hexpression⟩ := hread c hc
  rw [mem_prerequisites]
  constructor
  · rintro ⟨-, -, -, source', hsource', huses⟩
    obtain rfl : source = source' := Option.some.inj (hsource.symm.trans hsource')
    refine huses.imp id ?_
    rintro ⟨e, he, hn⟩
    obtain rfl : c.expression = e := Except.ok.inj (hexpression.symm.trans he)
    exact hn
  · intro huses
    exact ⟨(hmem c hc).1, (hmem d hd).1, (hmem d hd).2, source, hsource,
      huses.imp id fun hn => ⟨c.expression, hexpression, hn⟩⟩

/-- The graph that is put in order has the computed parameters for its nodes. -/
theorem labelled (hnames : (w.parameters.map Parameter.name).Nodup) (hcs : ofWorkflow w = .ok cs) :
    Labelled (needs cs) (Uses w) (declared w) := by
  have hmap : cs.map parameter = declared w := (ofWorkflow_spec hcs).1
  refine ⟨List.filter_sublist.nodup hnames.of_map, by simp [needs, ← hmap], fun i j => ?_, ?_⟩
  · simp only [follows_needs (nodup_names hnames hcs), ← hmap, List.getElem?_map, Option.map_eq_some_iff]
    constructor
    · rintro ⟨c, d, hc, hd, hn⟩
      refine ⟨c.parameter, d.parameter, ⟨c, hc, rfl⟩, ⟨d, hd, rfl⟩, ?_⟩
      exact (uses_iff hcs (List.mem_of_getElem? hc) (List.mem_of_getElem? hd)).mpr hn
    · rintro ⟨-, -, ⟨c, hc, rfl⟩, ⟨d, hd, rfl⟩, huses⟩
      exact ⟨c, d, hc, hd, (uses_iff hcs (List.mem_of_getElem? hc) (List.mem_of_getElem? hd)).mp huses⟩
  · rintro p q ⟨hp, hq, hcomputed, source, hsource, -⟩
    exact ⟨List.mem_filter.mpr ⟨hp, by simp [Parameter.isComputed, hsource]⟩,
      List.mem_filter.mpr ⟨hq, hcomputed⟩⟩

theorem exists_ofWorkflow (hread : ∀ p ∈ w.parameters, ∀ source, p.computed = some source →
    ∃ e, Expression.Compiled.read source = .ok e) : ∃ cs, ofWorkflow w = .ok cs := by
  cases h : ofWorkflow w with
  | ok cs => exact ⟨cs, rfl⟩
  | error f =>
    obtain ⟨⟨p, source⟩, hmem, hfail⟩ := Outcome.exists_of_mapM_eq_error h
    obtain ⟨p', hp, heq⟩ := List.mem_filterMap.mp hmem
    obtain ⟨source', hsource, heq⟩ := Option.map_eq_some_iff.mp heq
    obtain ⟨rfl, rfl⟩ := Prod.mk.inj heq
    obtain ⟨e, he⟩ := hread p' hp source' hsource
    simp only [he] at hfail
    cases hfail

/-- The parameters in order are those that the arrangement of the graph names. -/
theorem parameters_inOrder (hcs : ofWorkflow w = .ok cs) (h : inOrder w = .ok order) :
    ∃ is, Graph.arrange (needs cs) = some is ∧ order ⊆ cs ∧
      order.map parameter = is.filterMap fun i => (declared w)[i]? := by
  have hmap : cs.map parameter = declared w := (ofWorkflow_spec hcs).1
  obtain ⟨cs', hcs', h⟩ := Outcome.bind_eq_ok.mp h
  obtain rfl : cs = cs' := Except.ok.inj (hcs.symm.trans hcs')
  split at h
  · rename_i is his
    obtain rfl := Except.ok.inj h
    refine ⟨is, his, fun c hc => ?_, ?_⟩
    · obtain ⟨i, -, hi⟩ := List.mem_filterMap.mp hc
      exact List.mem_of_getElem? hi
    · simp only [List.map_filterMap, ← hmap, List.getElem?_map]
  · exact absurd h Outcome.throw_ne_ok

/-- The names along a closed path of the graph. -/
theorem closedPath_of_closed (hnames : (w.parameters.map Parameter.name).Nodup) (hcs : ofWorkflow w = .ok cs)
    {path : List Nat} (h : Graph.Closed (needs cs) path) :
    ClosedPath w (path.filterMap fun i => cs[i]?.map name) := by
  have hstep : ∀ i ∈ path, ∀ j ∈ path, Follows (needs cs) j i → ∃ before after,
      cs[i]?.map name = some before ∧ cs[j]?.map name = some after ∧
        ∃ p q, Uses w p q ∧ p.name = after ∧ q.name = before := by
    intro i _ j _ hf
    obtain ⟨c, d, hc, hd, hn⟩ := (follows_needs (nodup_names hnames hcs)).mp hf
    have huses := (uses_iff hcs (List.mem_of_getElem? hc) (List.mem_of_getElem? hd)).mpr hn
    exact ⟨d.name, c.name, by rw [hd, Option.map_some], by rw [hc, Option.map_some], _, _, huses, rfl, rfl⟩
  obtain ⟨htwo, hends, hsteps⟩ := h.labels hstep
  exact ⟨htwo, hends, hsteps⟩

/-- What is refused goes around in a circle, which is named. -/
theorem cycle_of_inOrder (hnames : (w.parameters.map Parameter.name).Nodup) (hcs : ofWorkflow w = .ok cs)
    {e : Failure} (h : inOrder w = .error e) :
    Graph.arrange (needs cs) = none ∧ ∃ path, e = .cycle .parameters path ∧ ClosedPath w path := by
  rcases Outcome.bind_eq_error.mp h with hfail | ⟨cs', hcs', h⟩
  · cases hcs.symm.trans hfail
  · obtain rfl : cs = cs' := Except.ok.inj (hcs.symm.trans hcs')
    split at h
    · cases h
    · rename_i hnone
      obtain ⟨path, hcycle, hclosed⟩ := Graph.closed_of_arrange_eq_none hnone
      rw [hcycle] at h
      exact ⟨hnone, _, (Except.error.inj h).symm, closedPath_of_closed hnames hcs hclosed⟩

/-- Computed parameters come in an order exactly if none uses itself by any way around. It is the least of all
orders in which each comes behind those that it uses, where what is declared earlier counts less. Otherwise a
circle is named. No count of prerequisites is lowered below zero on the way. -/
theorem inOrder_exact (hnames : (w.parameters.map Parameter.name).Nodup)
    (hread : ∀ p ∈ w.parameters, ∀ source, p.computed = some source →
      ∃ e, Expression.Compiled.read source = .ok e) :
    ((∃ order, inOrder w = .ok order) ↔ ∀ p, ¬ Relation.TransGen (Uses w) p p) ∧
    (∀ order, inOrder w = .ok order →
      (∀ c ∈ order, ∃ source, c.parameter.computed = some source ∧
        Expression.Compiled.read source = .ok c.expression) ∧
      Staged (Uses w) (declared w) (order.map parameter) ∧
      ∀ other, Staged (Uses w) (declared w) other → order.map parameter = other ∨
        List.Lex (fun p q => [p, q].Sublist w.parameters) (order.map parameter) other) ∧
    (∀ e, inOrder w = .error e → ∃ path, e = .cycle .parameters path ∧ ClosedPath w path) ∧
    ∃ cs, ofWorkflow w = .ok cs ∧ ∃ s, Graph.countdown (needs cs) = some s ∧ s.ready = [] := by
  obtain ⟨cs, hcs⟩ := exists_ofWorkflow hread
  have hlabelled := labelled hnames hcs
  have hstaged : ∀ order, inOrder w = .ok order → Staged (Uses w) (declared w) (order.map parameter) := by
    intro order h
    obtain ⟨is, his, -, hmap⟩ := parameters_inOrder hcs h
    rw [hmap]
    exact hlabelled.staged (Graph.arrange_spec his)
  refine ⟨⟨?_, fun hacyclic => ?_⟩, fun order h => ⟨?_, hstaged order h, fun other hother => ?_⟩, fun e h => ?_,
    cs, hcs, Graph.exists_countdown (needs cs)⟩
  · rintro ⟨order, h⟩
    exact (hstaged order h).acyclic hlabelled.nodup
  · cases h : inOrder w with
    | ok order => exact ⟨order, rfl⟩
    | error e =>
      obtain ⟨is, his⟩ := Graph.exists_arrange (hlabelled.acyclic hacyclic)
      cases (cycle_of_inOrder hnames hcs h).1.symm.trans his
  · obtain ⟨-, -, hsub, -⟩ := parameters_inOrder hcs h
    exact fun c hc => (ofWorkflow_spec hcs).2 c (hsub hc)
  · obtain ⟨is, his, -, hmap⟩ := parameters_inOrder hcs h
    rw [hmap]
    refine (hlabelled.least his hother).imp id fun hlex => ?_
    exact hlex.imp (fun p q hpq => hpq.trans List.filter_sublist) _ _
  · exact (cycle_of_inOrder hnames hcs h).2

/-- A total of what is declared after it. Shipping waits for the net amount, which it does not read. -/
def invoice : Workflow where
  name := "invoice"
  parameters :=
    [{ name := "total", type := .int, computed := some "net + shipping" },
     { name := "price", type := .int, default := .int 5 },
     { name := "shipping", type := .int, computed := some "2", dependsOn := ["net", "price"] },
     { name := "net", type := .int, computed := some "price * 3" }]

def invoiceOrder : List ComputedParameter := (inOrder invoice).toOption.getD []

theorem inOrder_invoice :
    (invoice.parameters.map Parameter.name).Nodup ∧
      (∀ p ∈ invoice.parameters, ∀ source, p.computed = some source →
        ∃ e, Expression.Compiled.read source = .ok e) ∧
      invoiceOrder.map name = ["net", "shipping", "total"] ∧
      Staged (Uses invoice) (declared invoice) (invoiceOrder.map parameter) ∧
      (∀ p, ¬ Relation.TransGen (Uses invoice) p p) := by
  have hnames : (invoice.parameters.map Parameter.name).Nodup := by decide
  have hread : ∀ p ∈ invoice.parameters, ∀ source, p.computed = some source →
      ∃ e, Expression.Compiled.read source = .ok e := by
    have hok : ∀ p ∈ invoice.parameters, ∀ source ∈ p.computed,
        (Expression.Compiled.read source).isOk := by decide +kernel
    exact fun p hp source hsource => Outcome.exists_eq_ok_of_isOk (hok p hp source hsource)
  have horder : inOrder invoice = .ok invoiceOrder := by
    obtain ⟨order, h⟩ : ∃ order, inOrder invoice = .ok order :=
      Outcome.exists_eq_ok_of_isOk (by decide +kernel)
    rw [invoiceOrder, h]
    rfl
  obtain ⟨hiff, hok, -⟩ := inOrder_exact hnames hread
  exact ⟨hnames, hread, by decide +kernel, (hok _ horder).2.1, hiff.mp ⟨_, horder⟩⟩

end GoalCompiler.ComputedParameter
