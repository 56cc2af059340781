import GoalCompiler.Proofs.Expression.Depth
import GoalCompiler.Proofs.Expression.Spelling

/-! The bounds on the depth of trees that are read, and texts that show them exact: one whose tree is as deep
as the square bound allows, and one whose tree is deeper than levels can be open. -/
namespace GoalCompiler.Expression

/-! ### What readers take -/

/-- The reader takes the tokens for the tree, whatever follows that does not go on with it. -/
def Reading.Reads (r : Reading) (s : Symbol) (us : List Token) (e : Expr) : Prop :=
  ∀ vs rest, vs.map Placed.token = us → Stops s rest → ∃ shorter, r (vs ++ rest) = .ok ⟨e, rest, shorter⟩

def Extension.Reads (m : Extension) (f : Folding) (clauses : List (Clause (Expr → Expr → Expr))) : Prop :=
  ∀ left vs rest, vs.map Placed.token = clauses.flatMap Clause.tokens → Stops f.symbol rest →
    ∃ notLonger, m left (vs ++ rest) = .ok ⟨joined left clauses, rest, notLonger⟩

variable {operand inner base exponent otherwise first : Reading} {more : Extension} {f : Folding}
  {clauses : List (Clause (Expr → Expr → Expr))} {ts : List Placed} {us ws zs : List Token} {e e' e'' : Expr}
  {name : String} {s : Symbol} {n : Nat}

/-- A name alone is never too deep. -/
theorem Reading.Complete.ident {r : Reading} (h : r.Complete s (n + 1))
    (hd : Derives s [.ident name] (.ident name)) : r.Reads s [.ident name] (.ident name) := by
  intro vs rest hvs hstops
  rcases h _ _ hd vs rest hvs hstops with hok | ⟨hlt, -⟩
  · exact hok
  · have hlen : vs.length = 1 := by rw [← List.length_map (f := Placed.token), hvs, List.length_singleton]
    rw [List.length_append] at hlt
    omega

theorem Reading.Reads.thenExtend (hf : first.Reads f.operand us e) (hm : more.Reads f clauses)
    (hjs : ∀ c ∈ clauses, Joins f c.sign c.meaning) :
    (first.thenExtend more).Reads f.symbol (us ++ clauses.flatMap Clause.tokens) (joined e clauses) := by
  intro vs rest hvs hstops
  obtain ⟨vs, vs', rfl, hvs, hvs'⟩ := List.map_eq_append_iff.mp hvs
  obtain ⟨hlt, hfirst⟩ := hf vs (vs' ++ rest) hvs
    (stops_clauses f.looseness_operand (fun c hc => (hjs c hc).looseness) hvs' hstops)
  obtain ⟨hle, hmore⟩ := hm e vs' rest hvs' hstops
  rw [List.append_assoc]
  exact ⟨Nat.lt_of_le_of_lt hle hlt, by simp only [Reading.thenExtend, hfirst, hmore]⟩

theorem Reading.Reads.alone (hf : first.Reads f.operand us e) (hm : more.Reads f []) :
    (first.thenExtend more).Reads f.symbol us e := by
  simpa [joined] using hf.thenExtend hm (by simp)

theorem reads_nil : (fold f.operator operand more : Extension).Reads f [] := by
  intro left vs rest hvs hstops
  obtain rfl := List.map_eq_nil_iff.mp hvs
  exact ⟨_, fold_of_stops hstops⟩

theorem Extension.Reads.fold {c : Clause (Expr → Expr → Expr)} (ho : operand.Reads f.operand c.text c.tree)
    (hm : more.Reads f clauses) (hj : Joins f c.sign c.meaning)
    (hjs : ∀ c ∈ clauses, Joins f c.sign c.meaning) :
    (fold f.operator operand more : Extension).Reads f (c :: clauses) := by
  intro left vs rest hvs hstops
  obtain ⟨t, vs, vs', rfl, ht, hvs, hvs'⟩ := clauses_cons hvs
  have hop : f.operator t.token = some c.meaning := operator_eq_some.mpr (ht ▸ hj)
  obtain ⟨hlt, hright⟩ := ho vs (vs' ++ rest) hvs
    (stops_clauses f.looseness_operand (fun c hc => (hjs c hc).looseness) hvs' hstops)
  obtain ⟨hle, hmore⟩ := hm (c.meaning left c.tree) vs' rest hvs' hstops
  rw [List.cons_append, List.append_assoc]
  unfold Expression.fold
  exact ⟨by grind, by simp only [hop, hright, hmore]; rfl⟩

theorem Reading.Reads.unraised (hb : base.Reads .unary us e) : (raised base exponent).Reads .power us e := by
  intro vs rest hvs hstops
  obtain ⟨hlt, hbase⟩ := hb vs rest hvs (hstops.mono (by decide))
  refine ⟨hlt, ?_⟩
  simp only [Expression.raised, Reading.thenExtend, hbase]
  cases rest with
  | nil => rfl
  | cons t rest =>
    obtain ⟨t, p⟩ := t
    cases t with
    | power => exact absurd hstops (by simp)
    | _ => rfl

theorem Reading.Reads.raised (hb : base.Reads .unary us e) (he : exponent.Reads .power ws e') :
    (raised base exponent).Reads .power (us ++ .power :: ws) (.binary .pow e e') := by
  intro vs rest hvs hstops
  obtain ⟨vs, p, vs', rfl, hvs, hvs'⟩ := placed_append_cons hvs
  obtain ⟨hlt, hbase⟩ := hb vs (⟨.power, p⟩ :: (vs' ++ rest)) hvs (by simp)
  obtain ⟨hlt', hexponent⟩ := he vs' rest hvs' hstops
  rw [List.append_assoc, List.cons_append]
  exact ⟨by grind, by simp only [Expression.raised, Reading.thenExtend, hbase, hexponent]⟩

theorem Reading.Reads.compared (ho : operand.Reads .sum us e) (ho' : operand.Reads .sum ws e') :
    (compared operand).Reads .comparison (us ++ .less :: ws) (.compare e [(.lt, e')]) := by
  intro vs rest hvs hstops
  obtain ⟨vs, p, vs', rfl, hvs, hvs'⟩ := placed_append_cons hvs
  obtain ⟨hlt, hleft⟩ := ho vs (⟨.less, p⟩ :: (vs' ++ rest)) hvs (by simp)
  obtain ⟨hlt', hright⟩ := ho' vs' rest hvs' (hstops.mono (by decide))
  have hmore : ∃ notLonger, comparisons operand (⟨.less, p⟩ :: (vs' ++ rest)) =
      .ok ⟨[(.lt, e')], rest, notLonger⟩ := by
    unfold comparisons
    exact ⟨by grind, by simp only [Token.asComparison, hright, comparisons_of_stops hstops]⟩
  obtain ⟨hle, hmore⟩ := hmore
  rw [List.append_assoc, List.cons_append]
  exact ⟨Nat.lt_of_le_of_lt hle hlt, by simp [Expression.compared, Reading.thenExtend, hleft, hmore, Except.map]⟩

theorem Reading.Reads.unconditional (ho : operand.Reads .disjunction us e) :
    (chosen operand otherwise).Reads .conditional us e := by
  intro vs rest hvs hstops
  obtain ⟨hlt, hoperand⟩ := ho vs rest hvs (hstops.mono (by decide))
  refine ⟨hlt, ?_⟩
  simp only [Expression.chosen, Reading.thenExtend, hoperand]
  cases rest with
  | nil => rfl
  | cons t rest =>
    obtain ⟨t, p⟩ := t
    cases t with
    | ifWord => exact absurd hstops (by simp)
    | _ => rfl

theorem Reading.Reads.chosen (ho : operand.Reads .disjunction us e) (ho' : operand.Reads .disjunction ws e')
    (he : otherwise.Reads .conditional zs e'') :
    (chosen operand otherwise).Reads .conditional (us ++ .ifWord :: (ws ++ .elseWord :: zs))
      (.ifElse e' e e'') := by
  intro vs rest hvs hstops
  obtain ⟨vs, p, vs', rfl, htrue, h⟩ := placed_append_cons hvs
  obtain ⟨vs', q, vs'', rfl, hcondition, hfalse⟩ := placed_append_cons h
  obtain ⟨hlt, htrue⟩ :=
    ho vs (⟨.ifWord, p⟩ :: (vs' ++ ⟨.elseWord, q⟩ :: (vs'' ++ rest))) htrue (by simp)
  obtain ⟨hlt', hcondition⟩ := ho' vs' (⟨.elseWord, q⟩ :: (vs'' ++ rest)) hcondition (by simp)
  obtain ⟨hlt'', hfalse⟩ := he vs'' rest hfalse hstops
  rw [List.append_assoc, List.cons_append, List.append_assoc, List.cons_append]
  exact ⟨by grind, by simp only [Expression.chosen, Reading.thenExtend, htrue, hcondition, expect_cons, hfalse]⟩

theorem Reading.Reads.call {t : Token} (hi : inner.Reads .conditional (t :: us) e) (ht : t ≠ .closing) :
    (signed operand inner).Reads .unary (.ident name :: .opening :: (t :: us ++ [.closing]))
      (.call name [e]) := by
  intro vs rest hvs hstops
  obtain ⟨p, vs, rfl, hopening⟩ := placed_cons hvs
  obtain ⟨q, vs, rfl, hinside⟩ := placed_cons hopening
  obtain ⟨vs, r, vs', rfl, hargument, hclosing⟩ := placed_append_cons hinside
  obtain rfl := List.map_eq_nil_iff.mp hclosing
  obtain ⟨hlt, hinner⟩ := hi vs (⟨.closing, r⟩ :: rest) hargument (by simp)
  obtain ⟨o, vs, rfl, -⟩ := placed_cons hargument
  have hargs (levels : Nat) :
      Takes (arguments inner (⟨t, o⟩ :: (vs ++ ⟨.closing, r⟩ :: rest))) levels [e] rest := by
    unfold arguments
    exact .inl ⟨by grind, by simp only [← List.cons_append, hinner, expect_cons]⟩
  rw [List.cons_append, List.cons_append, List.append_assoc, List.cons_append, List.cons_append, List.nil_append]
  rcases Takes.call ht (hargs (vs.length + rest.length + 3)) with hok | ⟨hlt, -⟩
  · exact hok
  · grind

theorem reads_bareCall :
    (signed operand inner).Reads .unary [.ident name, .opening, .closing] (.call name []) := by
  intro vs rest hvs hstops
  obtain ⟨p, vs, rfl, hopening⟩ := placed_cons hvs
  obtain ⟨q, vs, rfl, hclosing⟩ := placed_cons hopening
  obtain ⟨r, rfl⟩ := placed_singleton hclosing
  exact ⟨_, rfl⟩

/-- The reader of the operands of a folding. -/
def Levels.reader (d : Levels) : Folding → Reading
  | .factors => d.power
  | .summands => d.product
  | .conjuncts => d.comparison
  | .disjuncts => d.conjunction

def Levels.extension (d : Levels) : Folding → Extension
  | .factors => d.factors
  | .summands => d.summands
  | .conjuncts => d.conjuncts
  | .disjuncts => d.disjuncts

theorem Levels.extension_layer (d : Levels) (f : Folding) :
    d.layer.extension f = fold f.operator (d.reader f) (d.extension f) := by
  cases f <;> rfl

theorem derives_ident (f : Folding) (name : String) : Derives f.operand [.ident name] (.ident name) := by
  have power : Derives .power [.ident name] (.ident name) := .unraised (.unsigned .ident)
  have product : Derives .product [.ident name] (.ident name) := .alone .factors power
  have comparison : Derives .comparison [.ident name] (.ident name) := .uncompared (.alone .summands product)
  cases f with
  | factors => exact power
  | summands => exact product
  | conjuncts => exact comparison
  | disjuncts => exact .alone .conjuncts comparison

theorem reads_ident (n : Nat) (f : Folding) (name : String) :
    ((Levels.at n).reader f).Reads f.operand [.ident name] (.ident name) := by
  have h := Levels.complete_at n
  cases f with
  | factors => exact h.power.ident (derives_ident .factors name)
  | summands => exact h.product.ident (derives_ident .summands name)
  | conjuncts => exact h.comparison.ident (derives_ident .conjuncts name)
  | disjuncts => exact h.conjunction.ident (derives_ident .disjuncts name)

theorem reads_no_clause (n : Nat) (f : Folding) : ((Levels.at n).extension f).Reads f [] := by
  cases n with
  | zero => exact Levels.extension_layer Levels.floor f ▸ reads_nil
  | succ n => exact Levels.extension_layer (Levels.at n) f ▸ reads_nil

/-! ### The deepest tree -/

/-- A clause whose operand is a name alone. -/
def rung : Folding → Clause (Expr → Expr → Expr)
  | .factors => ⟨.star, .binary .mul, [.ident "x"], .ident "x"⟩
  | .summands => ⟨.plus, .binary .add, [.ident "x"], .ident "x"⟩
  | .conjuncts => ⟨.and, .and, [.ident "x"], .ident "x"⟩
  | .disjuncts => ⟨.or, .or, [.ident "x"], .ident "x"⟩

def ladder (f : Folding) (k : Nat) : List (Clause (Expr → Expr → Expr)) := List.replicate k (rung f)

theorem joins_rung (f : Folding) : Joins f (rung f).sign (rung f).meaning := by
  cases f <;> constructor

theorem joins_ladder (f : Folding) (k : Nat) : ∀ c ∈ ladder f k, Joins f c.sign c.meaning :=
  fun _ hc => List.eq_of_mem_replicate hc ▸ joins_rung f

theorem depth_ladder (f : Folding) (e : Expr) (k : Nat) : (joined e (ladder f k)).depth = e.depth + k := by
  induction k generalizing e with
  | zero => rfl
  | succ k ih =>
    have htree : (rung f).tree.depth = 0 := by cases f <;> rfl
    change (joined ((rung f).meaning e (rung f).tree) (ladder f k)).depth = _
    rw [ih, (joins_rung f).depth, htree]
    omega

/-- A folding may be as long as there are levels left. -/
theorem reads_ladder (n : Nat) (f : Folding) : ((Levels.at n).extension f).Reads f (ladder f n) := by
  induction n with
  | zero => exact reads_no_clause 0 f
  | succ n ih =>
    have hoperand : ((Levels.at n).reader f).Reads f.operand (rung f).text (rung f).tree := by
      cases f <;> exact reads_ident n _ _
    exact Levels.extension_layer (Levels.at n) f ▸
      Extension.Reads.fold hoperand ih (joins_rung f) (joins_ladder f n)

/-- Everything that is joined to an operand with `n` more levels. -/
def around (n : Nat) (us : List Token) : List Token :=
  (us ++ (ladder .factors n).flatMap Clause.tokens ++ (ladder .summands n).flatMap Clause.tokens ++
      [.less, .ident "x"]) ++
    (ladder .conjuncts n).flatMap Clause.tokens ++ (ladder .disjuncts n).flatMap Clause.tokens

def aroundTree (n : Nat) (e : Expr) : Expr :=
  let sum := joined (joined e (ladder .factors n)) (ladder .summands n)
  joined (joined (.compare sum [(.lt, .ident "x")]) (ladder .conjuncts n)) (ladder .disjuncts n)

theorem depth_aroundTree (n : Nat) (e : Expr) : (aroundTree n e).depth = e.depth + 4 * n + 1 := by
  simp only [aroundTree, depth_ladder, Expr.depth, Expr.chainDepth]
  omega

theorem reads_around {n : Nat} (h : (Levels.at n).power.Reads .power us e) :
    ((Levels.at n).conjunction.thenExtend (Levels.at n).disjuncts).Reads .disjunction (around n us)
      (aroundTree n e) := by
  have hproduct : (Levels.at n).product = (Levels.at n).power.thenExtend (Levels.at n).factors := by
    cases n <;> rfl
  have hcomparison : (Levels.at n).comparison =
      compared ((Levels.at n).product.thenExtend (Levels.at n).summands) := by
    cases n <;> rfl
  have hconjunction : (Levels.at n).conjunction =
      (Levels.at n).comparison.thenExtend (Levels.at n).conjuncts := by
    cases n <;> rfl
  have product : (Levels.at n).product.Reads .product _ _ :=
    hproduct ▸ Reading.Reads.thenExtend (f := .factors) h (reads_ladder n .factors) (joins_ladder .factors n)
  have sum := Reading.Reads.thenExtend (f := .summands) product (reads_ladder n .summands)
    (joins_ladder .summands n)
  have name := Reading.Reads.alone (f := .summands) (reads_ident n .summands "x")
    (reads_no_clause n .summands)
  have comparison : (Levels.at n).comparison.Reads .comparison _ _ := hcomparison ▸ sum.compared name
  have conjunction : (Levels.at n).conjunction.Reads .conjunction _ _ :=
    hconjunction ▸ Reading.Reads.thenExtend (f := .conjuncts) comparison (reads_ladder n .conjuncts)
      (joins_ladder .conjuncts n)
  exact Reading.Reads.thenExtend (f := .disjuncts) conjunction (reads_ladder n .disjuncts)
    (joins_ladder .disjuncts n)

/-- The tokens of the deepest tree with `n` more levels. -/
def deepest : Nat → List Token
  | 0 => around 0 [.ident "f", .opening, .closing]
  | n + 1 =>
    around (n + 1) (.ident "f" :: .opening :: (deepest n ++ [.closing]) ++ [.power, .ident "x"]) ++
      [.ifWord, .ident "x", .elseWord, .ident "x"]

def deepestTree : Nat → Expr
  | 0 => aroundTree 0 (.call "f" [])
  | n + 1 =>
    .ifElse (.ident "x") (aroundTree (n + 1) (.binary .pow (.call "f" [deepestTree n]) (.ident "x"))) (.ident "x")

theorem depth_deepestTree (n : Nat) : (deepestTree n).depth = 2 * (n + 1) * (n + 2) - 2 := by
  induction n with
  | zero => rfl
  | succ n ih =>
    have h : 2 * (n + 1 + 1) * (n + 1 + 2) = 2 * (n + 1) * (n + 2) + 4 * (n + 1 + 1) := by ring
    have hpos : 2 ≤ 2 * (n + 1) * (n + 2) := by grind
    simp only [deepestTree, Expr.depth, Expr.argDepth, depth_aroundTree, ih]
    omega

theorem reads_deepest (n : Nat) :
    (Levels.at n).conditional.Reads .conditional (deepest n) (deepestTree n) := by
  induction n with
  | zero =>
    have call : (signed Levels.floor.unary Levels.floor.conditional).Reads .unary
        [.ident "f", .opening, .closing] (.call "f" []) := reads_bareCall
    have power : (raised _ Levels.floor.power).Reads .power _ _ := call.unraised
    have conditional : (chosen _ Levels.floor.conditional).Reads .conditional _ _ :=
      (reads_around (n := 0) power).unconditional
    exact conditional
  | succ n ih =>
    obtain ⟨us, hus⟩ : ∃ us, deepest n = .ident "f" :: us := by cases n <;> exact ⟨_, rfl⟩
    have call : (signed (Levels.at n).unary (Levels.at n).conditional).Reads .unary
        (.ident "f" :: .opening :: (deepest n ++ [.closing])) (.call "f" [deepestTree n]) := by
      rw [hus] at ih ⊢
      exact ih.call nofun
    have power : (Levels.at (n + 1)).power.Reads .power _ _ := call.raised (reads_ident n .factors "x")
    have name := Reading.Reads.alone (f := .disjuncts) (reads_ident (n + 1) .disjuncts "x")
      (reads_no_clause (n + 1) .disjuncts)
    have otherwise := (Levels.complete_at n).conditional.ident (derives_ident .disjuncts "x").toConditional
    exact (reads_around power).chosen name otherwise

/-! ### The bounds -/

theorem deepest_subset_alphabet (n : Nat) : deepest n ⊆ alphabet := by
  have hladder (f : Folding) (k : Nat) : (ladder f k).flatMap Clause.tokens ⊆ alphabet := by
    intro t ht
    obtain ⟨c, hc, ht⟩ := List.mem_flatMap.mp ht
    obtain rfl := List.eq_of_mem_replicate hc
    have hrung : (rung f).tokens ⊆ alphabet := by cases f <;> decide
    exact hrung ht
  have haround (k : Nat) {us : List Token} (hus : us ⊆ alphabet) : around k us ⊆ alphabet := by
    simp only [around, List.append_subset]
    exact ⟨⟨⟨⟨⟨hus, hladder _ _⟩, hladder _ _⟩, by decide⟩, hladder _ _⟩, hladder _ _⟩
  induction n with
  | zero => exact haround 0 (by decide)
  | succ n ih =>
    rw [deepest, List.append_subset]
    refine ⟨haround _ ?_, by decide⟩
    simp only [List.cons_append, List.cons_subset, List.append_subset]
    exact ⟨by decide, by decide, ⟨ih, by decide⟩, by decide⟩

theorem ofTokens_deepest {n : Nat} (hn : maxNesting = n + 1) (h : ts.map Placed.token = deepest n) :
    ofTokens ts = .ok (deepestTree n) := by
  have hread := reads_deepest n ts [] h (stops_nil _)
  rw [List.append_nil] at hread
  obtain ⟨hlt, hread⟩ := hread
  have hne : ts.isEmpty = false := List.isEmpty_eq_false_iff.mpr (List.ne_nil_of_length_pos hlt)
  rw [ofTokens, hn, Nat.add_sub_cancel, hne, hread]
  rfl

theorem read_of_tokens {source : String} (h : Token.tokens source = .ok ts) (he : ofTokens ts = .ok e) :
    read source = .ok e := by
  simp only [read, h, he]

/-- A tree that is read has fewer levels than can be open at once, but for those that are not paid for; and it
never has more than `2 * n * (n + 1) - 2` levels, where `n` can be open, which is as many as some tree has. -/
theorem depth_of_read {source : String} (h : read source = .ok e) :
    e.depth < maxNesting + e.unpaid ∧ e.depth ≤ 2 * maxNesting * (maxNesting + 1) - 2 ∧
      ∃ source e, read source = .ok e ∧ e.depth = 2 * maxNesting * (maxNesting + 1) - 2 := by
  refine ⟨gives_of_read h (Levels.paid_at _).conditional, ?_, ?_⟩
  · exact Nat.le_sub_one_of_lt (gives_of_read h (Levels.below_at _).conditional)
  · obtain ⟨n, hn⟩ : ∃ n, maxNesting = n + 1 := ⟨63, rfl⟩
    have htokens := tokens_spelled fun t ht => plain_of_mem_alphabet t (deepest_subset_alphabet n ht)
    exact ⟨spelled (deepest n), deepestTree n, read_of_tokens htokens (ofTokens_deepest hn (map_placedFrom 0 _)),
      by rw [depth_deepestTree, hn]⟩

/-- As many signs as there are levels left, and two sums that find these levels free again. -/
def refunded : List Token :=
  List.replicate 63 .minus ++ [.ident "x", .plus, .ident "x", .plus, .ident "x"]

theorem depth_refunded : ∃ e, read (spelled refunded) = .ok e ∧ e.depth = 65 ∧ e.unpaid = 2 := by
  have hplain : refunded ⊆ alphabet := by decide
  have htokens := tokens_spelled fun t ht => plain_of_mem_alphabet t (hplain ht)
  -- with its positions as numerals the list is read in a moment
  obtain ⟨ts, hplaced, hdepth⟩ : ∃ ts, placedFrom 0 refunded = ts ∧
      (ofTokens ts).toOption.map (fun e => (e.depth, e.unpaid)) = some (65, 2) :=
    ⟨(List.range 63).map (fun i => ⟨.minus, 2 * i⟩) ++
      [⟨.ident "x", 126⟩, ⟨.plus, 128⟩, ⟨.ident "x", 130⟩, ⟨.plus, 132⟩, ⟨.ident "x", 134⟩],
      by decide +kernel, by decide +kernel⟩
  rw [hplaced] at htokens
  cases hread : ofTokens ts with
  | error r =>
    rw [hread] at hdepth
    cases hdepth
  | ok e =>
    rw [hread] at hdepth
    exact ⟨e, read_of_tokens htokens hread, Prod.mk.inj (Option.some.inj hdepth)⟩

/-- The tree is deeper than levels can be open. -/
theorem maxNesting_lt_depth_refunded : ∃ e, read (spelled refunded) = .ok e ∧ maxNesting < e.depth := by
  obtain ⟨e, he, hdepth, -⟩ := depth_refunded
  exact ⟨e, he, hdepth ▸ by decide⟩

theorem depth_of_read_refunded :
    ∃ e, read (spelled refunded) = .ok e ∧ e.unpaid = 2 ∧ e.depth < maxNesting + e.unpaid ∧
      e.depth ≤ 2 * maxNesting * (maxNesting + 1) - 2 ∧
      ∃ source e, read source = .ok e ∧ e.depth = 2 * maxNesting * (maxNesting + 1) - 2 := by
  obtain ⟨e, he, -, hunpaid⟩ := depth_refunded
  exact ⟨e, he, hunpaid, depth_of_read he⟩

end GoalCompiler.Expression
