import GoalCompiler.Expression.Grammar
import GoalCompiler.Proofs.Outcome
import Mathlib.Data.List.Basic

/-! The grammar of expressions as a relation between tokens and trees, and the soundness of the readers:
the tokens that a reader takes off the front derive the tree it gives. A reader is sound at one depth
when the readers one level deeper are, so the statement for all depths is an induction along `layer`. -/
namespace GoalCompiler.Expression

/-- The symbols of the grammar, the tightest first. -/
inductive Symbol where
  | atom | unary | power | product | sum | comparison | conjunction | disjunction | conditional
deriving DecidableEq, Repr

/-- The symbols made of operands joined from the left. -/
inductive Folding where
  | factors | summands | conjuncts | disjuncts
deriving DecidableEq, Repr

def Folding.symbol : Folding → Symbol
  | .factors => .product
  | .summands => .sum
  | .conjuncts => .conjunction
  | .disjuncts => .disjunction

def Folding.operand : Folding → Symbol
  | .factors => .power
  | .summands => .product
  | .conjuncts => .comparison
  | .disjuncts => .conjunction

/-- The signs of a folding and how each joins two operands. -/
inductive Joins : Folding → Token → (Expr → Expr → Expr) → Prop
  | mul : Joins .factors .star (.binary .mul)
  | div : Joins .factors .slash (.binary .div)
  | mod : Joins .factors .percent (.binary .mod)
  | add : Joins .summands .plus (.binary .add)
  | sub : Joins .summands .minus (.binary .sub)
  | and : Joins .conjuncts .and .and
  | or : Joins .disjuncts .or .or

/-- The signs of comparisons. -/
inductive Compares : Token → Comparison → Prop
  | lt : Compares .less .lt
  | le : Compares .atMost .le
  | gt : Compares .greater .gt
  | ge : Compares .atLeast .ge
  | eq : Compares .equal .eq
  | ne : Compares .unequal .ne

/-- A sign with what it means, and the operand after it. -/
structure Clause (κ : Type) where
  sign : Token
  meaning : κ
  text : List Token
  tree : Expr

def Clause.tokens (c : Clause κ) : List Token := c.sign :: c.text

/-- Operands joined from the left. -/
def joined (first : Expr) (rest : List (Clause (Expr → Expr → Expr))) : Expr :=
  rest.foldl (fun left c => c.meaning left c.tree) first

/-- The tokens `ts` are an expression of the form `s`, and its tree is `e`. -/
inductive Derives : (s : Symbol) → (ts : List Token) → (e : Expr) → Prop
  | unconditional : Derives .disjunction ts e → Derives .conditional ts e
  | ifElse : Derives .disjunction ts whenTrue → Derives .disjunction us condition →
      Derives .conditional vs otherwise →
      Derives .conditional (ts ++ .ifWord :: (us ++ .elseWord :: vs))
        (.ifElse condition whenTrue otherwise)
  | fold (f : Folding) (rest : List (Clause (Expr → Expr → Expr))) : f.symbol = s →
      Derives f.operand ts first → (∀ c ∈ rest, Joins f c.sign c.meaning) →
      (∀ c ∈ rest, Derives f.operand c.text c.tree) →
      Derives s (ts ++ rest.flatMap Clause.tokens) (joined first rest)
  | uncompared : Derives .sum ts e → Derives .comparison ts e
  | compare (rest : List (Clause Comparison)) : Derives .sum ts first → rest ≠ [] →
      (∀ c ∈ rest, Compares c.sign c.meaning) → (∀ c ∈ rest, Derives .sum c.text c.tree) →
      Derives .comparison (ts ++ rest.flatMap Clause.tokens)
        (.compare first (rest.map fun c => (c.meaning, c.tree)))
  | unraised : Derives .unary ts e → Derives .power ts e
  | raised : Derives .unary ts base → Derives .power us exponent →
      Derives .power (ts ++ .power :: us) (.binary .pow base exponent)
  | unsigned : Derives .atom ts e → Derives .unary ts e
  | neg : Derives .unary ts e → Derives .unary (.minus :: ts) (.neg e)
  | not : Derives .unary ts e → Derives .unary (.not :: ts) (.not e)
  | plus : Derives .unary ts e → Derives .unary (.plus :: ts) e
  | int : Derives .atom [.int n] (.int n)
  | float : Derives .atom [.float x] (.float x)
  | str : Derives .atom [.str w] (.str w)
  | yes : Derives .atom [.yes] (.bool true)
  | no : Derives .atom [.no] (.bool false)
  | ident : Derives .atom [.ident name] (.ident name)
  | bareCall : Derives .atom [.ident f, .opening, .closing] (.call f [])
  | call (rest : List (List Token × Expr)) : Derives .conditional ts first →
      (∀ a ∈ rest, Derives .conditional a.1 a.2) →
      Derives .atom
        (.ident f :: .opening :: (ts ++ (rest.flatMap fun a => .comma :: a.1) ++ [.closing]))
        (.call f (first :: rest.map Prod.snd))
  | brackets : Derives .conditional ts e → Derives .atom (.opening :: (ts ++ [.closing])) e

theorem Folding.symbol_injective {f g : Folding} (h : f.symbol = g.symbol) : f = g := by
  cases f <;> cases g <;> first | rfl | cases h

/-- No expression is empty or begins with a closing bracket. -/
theorem Derives.starts {s : Symbol} {ts : List Token} {e : Expr} (h : Derives s ts e) :
    ∃ t us, ts = t :: us ∧ t ≠ .closing := by
  induction h with
  | unconditional _ ih | uncompared _ ih | unraised _ ih | unsigned _ ih => exact ih
  | ifElse _ _ _ ih | fold _ _ _ _ _ _ ih | compare _ _ _ _ _ ih | raised _ _ ih =>
    obtain ⟨t, us, rfl, ht⟩ := ih
    exact ⟨t, _, rfl, ht⟩
  | _ => exact ⟨_, _, rfl, nofun⟩

/-- An operand alone stands for the folding. -/
theorem Derives.alone (f : Folding) {ts : List Token} {e : Expr} (h : Derives f.operand ts e) :
    Derives f.symbol ts e := by
  simpa [joined] using Derives.fold f [] rfl h (by simp) (by simp)

/-- An expression of any form is one of the loosest form. -/
theorem Derives.toConditional {s : Symbol} {ts : List Token} {e : Expr} (h : Derives s ts e) :
    Derives .conditional ts e := by
  have ofDisjunction {ts e} (h : Derives .disjunction ts e) : Derives .conditional ts e := .unconditional h
  have ofConjunction {ts e} (h : Derives .conjunction ts e) := ofDisjunction (.alone .disjuncts h)
  have ofComparison {ts e} (h : Derives .comparison ts e) := ofConjunction (.alone .conjuncts h)
  have ofSum {ts e} (h : Derives .sum ts e) := ofComparison (.uncompared h)
  have ofProduct {ts e} (h : Derives .product ts e) := ofSum (.alone .summands h)
  have ofPower {ts e} (h : Derives .power ts e) := ofProduct (.alone .factors h)
  have ofUnary {ts e} (h : Derives .unary ts e) := ofPower (.unraised h)
  cases s with
  | atom => exact ofUnary (.unsigned h)
  | unary => exact ofUnary h
  | power => exact ofPower h
  | product => exact ofProduct h
  | sum => exact ofSum h
  | comparison => exact ofComparison h
  | conjunction => exact ofConjunction h
  | disjunction => exact ofDisjunction h
  | conditional => exact h

/-- The operator that the readers take a folding's signs for. -/
def Folding.operator : Folding → Token → Option (Expr → Expr → Expr)
  | .factors => fun t => t.asFactor.map Expr.binary
  | .summands => fun t => t.asSummand.map Expr.binary
  | .conjuncts => fun t => if t = .and then some .and else none
  | .disjuncts => fun t => if t = .or then some .or else none

theorem operator_eq_some {f : Folding} {t : Token} {join : Expr → Expr → Expr} :
    f.operator t = some join ↔ Joins f t join := by
  constructor
  · intro h
    cases f <;> cases t <;>
      simp [Folding.operator, Token.asFactor, Token.asSummand] at h <;> subst h <;> constructor
  · rintro (_ | _) <;> rfl

theorem asComparison_eq_some {t : Token} {op : Comparison} :
    t.asComparison = some op ↔ Compares t op := by
  constructor
  · intro h
    cases t <;> simp [Token.asComparison] at h <;> subst h <;> constructor
  · rintro (_ | _) <;> rfl

/-! ### Soundness -/

/-- What the reader takes off the front derives what it gives. -/
def Reading.Sound (r : Reading) (s : Symbol) : Prop :=
  ∀ ts a, r ts = .ok a →
    ∃ us, ts.map Placed.token = us ++ a.rest.map Placed.token ∧ Derives s us a.value

/-- An extension takes clauses of its folding and joins them to what stands on the left. -/
def Extension.Sound (m : Extension) (f : Folding) : Prop :=
  ∀ left ts b, m left ts = .ok b → ∃ clauses,
    ts.map Placed.token = clauses.flatMap Clause.tokens ++ b.rest.map Placed.token ∧
    (∀ c ∈ clauses, Joins f c.sign c.meaning) ∧
    (∀ c ∈ clauses, Derives f.operand c.text c.tree) ∧ b.value = joined left clauses

variable {operand inner base exponent otherwise first argument : Reading} {more : Extension}
  {f : Folding} {ts : List Placed}

theorem map_token_of_expect {wanted : Token} {a : Taken Unit ts} (h : expect wanted ts = .ok a) :
    ts.map Placed.token = wanted :: a.rest.map Placed.token := by
  unfold expect at h
  split at h
  · split at h
    · cases h
      subst wanted
      rfl
    · cases h
  · cases h

theorem eq_of_thenExtend_eq_ok {a : Taken Expr ts} (h : first.thenExtend more ts = .ok a) :
    ∃ left rest, ∃ shorter, ∃ b, first ts = .ok ⟨left, rest, shorter⟩ ∧ more left rest = .ok b ∧
      a.value = b.value ∧ a.rest = b.rest := by
  unfold Reading.thenExtend at h
  split at h
  · cases h
  · split at h
    · cases h
    · cases h
      exact ⟨_, _, _, _, ‹_›, ‹_›, rfl, rfl⟩

theorem Reading.Sound.thenExtend (hf : first.Sound f.operand) (hm : more.Sound f) :
    (first.thenExtend more).Sound f.symbol := by
  intro ts a h
  obtain ⟨left, rest, _, b, hl, hb, ha, hr⟩ := eq_of_thenExtend_eq_ok h
  obtain ⟨us, hus, hd⟩ := hf _ _ hl
  obtain ⟨clauses, hcs, hj, hc, hv⟩ := hm _ _ _ hb
  refine ⟨us ++ clauses.flatMap Clause.tokens, ?_, ?_⟩
  · rw [hus, hcs, hr, List.append_assoc]
  · rw [ha, hv]
    exact .fold f clauses rfl hd hj hc

theorem Reading.Sound.fold (ho : operand.Sound f.operand) (hm : more.Sound f) :
    (fold f.operator operand more : Extension).Sound f := by
  intro left ts b h
  unfold Expression.fold at h
  split at h
  · cases h
    exact ⟨[], rfl, by simp, by simp, rfl⟩
  · rename_i t rest
    split at h
    · cases h
      exact ⟨[], rfl, by simp, by simp, rfl⟩
    · rename_i join hj
      split at h
      · cases h
      · rename_i right hr
        split at h
        · cases h
        · rename_i b' hb
          cases h
          obtain ⟨us, hus, hd⟩ := ho _ _ hr
          obtain ⟨clauses, hcs, hjs, hc, hv⟩ := hm _ _ _ hb
          refine ⟨⟨t.token, join, us, right.value⟩ :: clauses, ?_, ?_, ?_, hv⟩
          · simp only [List.map_cons, hus, hcs, List.flatMap_cons, Clause.tokens, List.cons_append,
              List.append_assoc]
          · exact List.forall_mem_cons.mpr ⟨operator_eq_some.mp hj, hjs⟩
          · exact List.forall_mem_cons.mpr ⟨hd, hc⟩

theorem comparisons_sound (ho : operand.Sound .sum) (a) (h : comparisons operand ts = .ok a) :
    ∃ clauses : List (Clause Comparison),
      ts.map Placed.token = clauses.flatMap Clause.tokens ++ a.rest.map Placed.token ∧
      (∀ c ∈ clauses, Compares c.sign c.meaning) ∧ (∀ c ∈ clauses, Derives .sum c.text c.tree) ∧
      a.value = clauses.map fun c => (c.meaning, c.tree) := by
  fun_induction comparisons operand ts with
  | case1 => 
    cases h
    exact ⟨[], rfl, by simp, by simp, rfl⟩
  | case2 t rest hop =>
    cases h
    exact ⟨[], rfl, by simp, by simp, rfl⟩
  | case3 => cases h
  | case4 => cases h
  | case5 t rest op hop l hl _ b hb ih =>
    cases h
    obtain ⟨us, hus, hd⟩ := ho _ _ hl
    obtain ⟨clauses, hcs, hjs, hc, hv⟩ := ih b hb
    refine ⟨⟨t.token, op, us, l.value⟩ :: clauses, ?_, ?_, ?_, ?_⟩
    · simp only [List.map_cons, hus, hcs, List.flatMap_cons, Clause.tokens, List.cons_append,
        List.append_assoc]
    · exact List.forall_mem_cons.mpr ⟨asComparison_eq_some.mp hop, hjs⟩
    · exact List.forall_mem_cons.mpr ⟨hd, hc⟩
    · simp only [hv, List.map_cons]

theorem arguments_sound (hi : argument.Sound .conditional) (a)
    (h : arguments argument ts = .ok a) :
    ∃ (us : List Token) (e : Expr) (others : List (List Token × Expr)),
      ts.map Placed.token = us ++ (others.flatMap fun x => .comma :: x.1) ++
        .closing :: a.rest.map Placed.token ∧
      Derives .conditional us e ∧ (∀ x ∈ others, Derives .conditional x.1 x.2) ∧
      a.value = e :: others.map Prod.snd := by
  fun_induction arguments argument ts with
  | case1 => cases h
  | case2 => cases h
  | case3 ts l hl position rest hr _ b hb ih =>
    cases h
    obtain ⟨us, hus, hd⟩ := hi _ _ hl
    obtain ⟨vs, e, others, hvs, he, ho, hv⟩ := ih b hb
    refine ⟨us, l.value, (vs, e) :: others, ?_, hd, ?_, ?_⟩
    · simp only [hus, hr, List.map_cons, hvs, List.flatMap_cons, List.cons_append, List.append_assoc]
    · exact List.forall_mem_cons.mpr ⟨he, ho⟩
    · simp only [hv, List.map_cons]
  | case4 => cases h
  | case5 ts l hl b hb _ =>
    cases h
    obtain ⟨us, hus, hd⟩ := hi _ _ hl
    refine ⟨us, l.value, [], ?_, hd, by simp, rfl⟩
    simp only [hus, map_token_of_expect hb, List.flatMap_nil, List.append_nil]

theorem Reading.Sound.atom (hi : inner.Sound .conditional) : (atom inner).Sound .atom := by
  intro ts a h
  unfold Expression.atom at h
  split at h
  · cases h
  · cases h
    exact ⟨_, rfl, .int⟩
  · cases h
    exact ⟨_, rfl, .float⟩
  · cases h
    exact ⟨_, rfl, .str⟩
  · cases h
    exact ⟨_, rfl, .yes⟩
  · cases h
    exact ⟨_, rfl, .no⟩
  · cases h
    exact ⟨_, rfl, .bareCall⟩
  · split at h
    · cases h
    · rename_i args hargs
      cases h
      obtain ⟨us, e, others, hts, he, ho, hv⟩ := arguments_sound hi _ hargs
      refine ⟨_, ?_, congrArg (Expr.call _) hv ▸ Derives.call others he ho⟩
      simp [hts, Taken.after]
  · cases h
    exact ⟨_, rfl, .ident⟩
  · split at h
    · cases h
    · rename_i l hl
      split at h
      · cases h
      · rename_i b hb
        cases h
        obtain ⟨us, hus, hd⟩ := hi _ _ hl
        refine ⟨_, ?_, .brackets hd⟩
        simp [hus, map_token_of_expect hb]
  · cases h

/-- A sign before an operand, where the grammar has a rule for that sign. -/
theorem Reading.Sound.after {t : Placed} {g : Expr → Expr} (ho : operand.Sound .unary)
    (hg : ∀ us e, Derives .unary us e → Derives .unary (t.token :: us) (g e)) {a}
    (h : (operand ts).map (·.after g) = .ok (a : Taken Expr (t :: ts))) :
    ∃ us, (t :: ts).map Placed.token = us ++ a.rest.map Placed.token ∧ Derives .unary us a.value := by
  obtain ⟨b, hb, rfl⟩ := Outcome.map_eq_ok.mp h
  obtain ⟨us, hus, hd⟩ := ho _ _ hb
  exact ⟨t.token :: us, by simp [hus, Taken.after], hg us b.value hd⟩

theorem Reading.Sound.signed (ho : operand.Sound .unary) (hi : inner.Sound .conditional) :
    (signed operand inner).Sound .unary := by
  intro ts a h
  unfold Expression.signed at h
  split at h
  · exact ho.after (fun _ _ => .neg) h
  · exact ho.after (fun _ _ => .not) h
  · exact ho.after (fun _ _ => .plus) h
  · obtain ⟨us, hus, hd⟩ := hi.atom _ _ h
    exact ⟨us, hus, .unsigned hd⟩

theorem Reading.Sound.raised (hb : base.Sound .unary) (he : exponent.Sound .power) :
    (raised base exponent).Sound .power := by
  intro ts a h
  obtain ⟨left, rest, _, b, hl, hm, ha, hr⟩ := eq_of_thenExtend_eq_ok h
  obtain ⟨us, hus, hd⟩ := hb _ _ hl
  split at hm
  · split at hm
    · cases hm
    · rename_i x hx
      cases hm
      obtain ⟨vs, hvs, hd'⟩ := he _ _ hx
      exact ⟨us ++ .power :: vs, by simp [hus, hvs, hr], ha ▸ .raised hd hd'⟩
  · cases hm
    exact ⟨us, by rw [hus, hr], ha ▸ .unraised hd⟩

theorem Reading.Sound.compared (ho : operand.Sound .sum) :
    (compared operand).Sound .comparison := by
  intro ts a h
  obtain ⟨left, rest, _, b, hl, hm, ha, hr⟩ := eq_of_thenExtend_eq_ok h
  obtain ⟨us, hus, hd⟩ := ho _ _ hl
  obtain ⟨c, hc, rfl⟩ := Outcome.map_eq_ok.mp hm
  obtain ⟨clauses, hcs, hjs, hds, hv⟩ := comparisons_sound ho c hc
  refine ⟨us ++ clauses.flatMap Clause.tokens, by simp [hus, hcs, hr], ?_⟩
  rw [ha, hv]
  cases clauses with
  | nil => simpa using Derives.uncompared hd
  | cons c clauses => exact .compare (c :: clauses) hd (List.cons_ne_nil _ _) hjs hds

theorem Reading.Sound.chosen (ho : operand.Sound .disjunction) (he : otherwise.Sound .conditional) :
    (chosen operand otherwise).Sound .conditional := by
  intro ts a h
  obtain ⟨left, rest, _, b, hl, hm, ha, hr⟩ := eq_of_thenExtend_eq_ok h
  obtain ⟨us, hus, hd⟩ := ho _ _ hl
  split at hm
  · split at hm
    · cases hm
    · rename_i condition hc
      split at hm
      · cases hm
      · rename_i word hw
        split at hm
        · cases hm
        · rename_i x hx
          cases hm
          obtain ⟨vs, hvs, hdc⟩ := ho _ _ hc
          obtain ⟨ws, hws, hdx⟩ := he _ _ hx
          refine ⟨us ++ .ifWord :: (vs ++ .elseWord :: ws), ?_, ha ▸ .ifElse hd hdc hdx⟩
          simp [hus, hvs, hr, hws, map_token_of_expect hw]
  · cases hm
    exact ⟨us, by rw [hus, hr], ha ▸ .unconditional hd⟩

/-- All readers at one depth are sound. -/
structure Levels.Sound (d : Levels) : Prop where
  conditional : d.conditional.Sound .conditional
  conjunction : d.conjunction.Sound .conjunction
  comparison : d.comparison.Sound .comparison
  product : d.product.Sound .product
  power : d.power.Sound .power
  unary : d.unary.Sound .unary
  disjuncts : d.disjuncts.Sound .disjuncts
  conjuncts : d.conjuncts.Sound .conjuncts
  summands : d.summands.Sound .summands
  factors : d.factors.Sound .factors

theorem Levels.sound_floor : Levels.floor.Sound :=
  have reading (s : Symbol) : Reading.Sound (fun ts => refuse ts .tooDeep) s := fun _ _ h => nomatch h
  have extension (f : Folding) : Extension.Sound (fun _ ts => refuse ts .tooDeep) f :=
    fun _ _ _ h => nomatch h
  ⟨reading _, reading _, reading _, reading _, reading _, reading _,
    extension _, extension _, extension _, extension _⟩

theorem Levels.Sound.layer {d : Levels} (h : d.Sound) : d.layer.Sound :=
  have unary := h.unary.signed h.conditional
  have power := unary.raised h.power
  have factors := h.power.fold h.factors
  have product := power.thenExtend factors
  have summands := h.product.fold h.summands
  have comparison := (product.thenExtend summands).compared
  have conjuncts := h.comparison.fold h.conjuncts
  have conjunction := comparison.thenExtend conjuncts
  have disjuncts := h.conjunction.fold h.disjuncts
  have conditional := (conjunction.thenExtend disjuncts).chosen h.conditional
  { conditional, conjunction, comparison, product, power, unary, disjuncts, conjuncts, summands, factors }

theorem Levels.sound_at (n : Nat) : (Levels.at n).Sound := by
  induction n with
  | zero => exact sound_floor.layer
  | succ n ih => exact ih.layer

/-- What is read as an expression is one of the grammar. -/
theorem derives_of_ofTokens {e : Expr} (h : ofTokens ts = .ok e) :
    Derives .conditional (ts.map Placed.token) e := by
  unfold ofTokens at h
  split at h
  · cases h
  · split at h
    · cases h
    · rename_i r hr
      obtain ⟨us, hus, hd⟩ := (Levels.sound_at _).conditional _ _ hr
      split at h
      · rename_i hnil
        cases h
        rw [hus, hnil, List.map_nil, List.append_nil]
        exact hd
      · cases h

end GoalCompiler.Expression
