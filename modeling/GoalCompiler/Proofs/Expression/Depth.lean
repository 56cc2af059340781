import GoalCompiler.Proofs.Expression.Recognition
import Mathlib.Tactic.Ring

/-! How deep a tree is that was read. A level of nesting is free again once what it was opened for has been
read, so the operands of a fold do not share one budget: every folding, sign and bracket around an operand
may use up the levels anew. The depth is bounded all the same, by a square of the number of levels, and a
text can be as deep as that. -/
namespace GoalCompiler.Expression

/-! ### What readers give -/

/-- All trees that a reader gives have the property. -/
def Reading.Gives (r : Reading) (P : Expr → Prop) : Prop := ∀ ts a, r ts = .ok a → P a.value

/-- An extension makes trees with the property `Q` of those with the property `P`. -/
def Extension.Leads (m : Extension) (P Q : Expr → Prop) : Prop :=
  ∀ left ts a, P left → m left ts = .ok a → Q a.value

variable {operand inner base exponent otherwise first argument : Reading} {more : Extension}
  {f : Folding} {ts : List Placed} {P S Q R : Expr → Prop} {b c n : Nat}

theorem Reading.Gives.mono {r : Reading} (h : r.Gives P) (hsame : ∀ e, P e → Q e) : r.Gives Q :=
  fun ts a ha => hsame a.value (h ts a ha)

theorem Reading.Gives.thenExtend (hf : first.Gives P) (hm : more.Leads P Q) :
    (first.thenExtend more).Gives Q := by
  intro ts a h
  obtain ⟨left, rest, shorter, x, hl, hx, hv, -⟩ := eq_of_thenExtend_eq_ok h
  rw [hv]
  exact hm left rest x (hf ts _ hl) hx

theorem Reading.Gives.fold (ho : operand.Gives R) (hm : more.Leads S Q) (hsame : ∀ e, P e → Q e)
    (hjoin : ∀ t join, Joins f t join → ∀ l r, P l → R r → S (join l r)) :
    (fold f.operator operand more : Extension).Leads P Q := by
  intro left ts a hleft h
  unfold Expression.fold at h
  split at h
  · cases h
    exact hsame left hleft
  · split at h
    · cases h
      exact hsame left hleft
    · rename_i join hop
      split at h
      · cases h
      · rename_i right hr
        split at h
        · cases h
        · rename_i x hx
          cases h
          exact hm _ _ x (hjoin _ join (operator_eq_some.mp hop) left right.value hleft (ho _ _ hr)) hx

theorem gives_comparisons (ho : operand.Gives P) (a) (h : comparisons operand ts = .ok a) :
    ∀ x ∈ a.value, P x.2 := by
  fun_induction comparisons operand ts with
  | case1 | case2 =>
    cases h
    exact fun x hx => absurd hx List.not_mem_nil
  | case3 | case4 => cases h
  | case5 t rest op hop l hl _ x hx ih =>
    cases h
    exact List.forall_mem_cons.mpr ⟨ho _ _ hl, ih x hx⟩

theorem gives_arguments (hi : argument.Gives P) (a) (h : arguments argument ts = .ok a) :
    ∀ x ∈ a.value, P x := by
  fun_induction arguments argument ts with
  | case1 | case2 | case4 => cases h
  | case3 ts l hl position rest hr _ x hx ih =>
    cases h
    exact List.forall_mem_cons.mpr ⟨hi _ _ hl, ih x hx⟩
  | case5 ts l hl x hx _ =>
    cases h
    exact List.forall_mem_singleton.mpr (hi _ _ hl)

theorem Reading.Gives.atom (hi : inner.Gives P) (hleaf : ∀ e, e.depth = 0 → Q e) (hsame : ∀ e, P e → Q e)
    (hcall : ∀ name args, (∀ x ∈ args, P x) → Q (.call name args)) : (atom inner).Gives Q := by
  intro ts a h
  unfold Expression.atom at h
  split at h
  · cases h
  · cases h
    exact hleaf _ rfl
  · cases h
    exact hleaf _ rfl
  · cases h
    exact hleaf _ rfl
  · cases h
    exact hleaf _ rfl
  · cases h
    exact hleaf _ rfl
  · cases h
    exact hcall _ [] nofun
  · split at h
    · cases h
    · rename_i args hargs
      cases h
      exact hcall _ _ (gives_arguments hi args hargs)
  · cases h
    exact hleaf _ rfl
  · split at h
    · cases h
    · rename_i l hl
      split at h
      · cases h
      · cases h
        exact hsame l.value (hi _ _ hl)
  · cases h

theorem Reading.Gives.signed (ho : operand.Gives P) (hatom : (Expression.atom inner).Gives Q)
    (hsame : ∀ e, P e → Q e) (hneg : ∀ e, P e → Q (.neg e)) (hnot : ∀ e, P e → Q (.not e)) :
    (signed operand inner).Gives Q := by
  intro ts a h
  unfold Expression.signed at h
  split at h
  · obtain ⟨x, hx, rfl⟩ := Outcome.map_eq_ok.mp h
    exact hneg _ (ho _ _ hx)
  · obtain ⟨x, hx, rfl⟩ := Outcome.map_eq_ok.mp h
    exact hnot _ (ho _ _ hx)
  · obtain ⟨x, hx, rfl⟩ := Outcome.map_eq_ok.mp h
    exact hsame x.value (ho _ _ hx)
  · exact hatom _ _ h

theorem Reading.Gives.raised (hb : base.Gives P) (he : exponent.Gives R) (hsame : ∀ e, P e → Q e)
    (hpower : ∀ l r, P l → R r → Q (.binary .pow l r)) : (raised base exponent).Gives Q := by
  intro ts a h
  obtain ⟨left, rest, shorter, x, hl, hm, hv, -⟩ := eq_of_thenExtend_eq_ok h
  rw [hv]
  split at hm
  · split at hm
    · cases hm
    · rename_i y hy
      cases hm
      exact hpower _ _ (hb _ _ hl) (he _ _ hy)
  · cases hm
    exact hsame _ (hb _ _ hl)

theorem Reading.Gives.compared (ho : operand.Gives P) (hsame : ∀ e, P e → Q e)
    (hcompare : ∀ e rest, P e → (∀ x ∈ rest, P x.2) → Q (.compare e rest)) :
    (compared operand).Gives Q := by
  intro ts a h
  obtain ⟨left, rest, shorter, x, hl, hm, hv, -⟩ := eq_of_thenExtend_eq_ok h
  obtain ⟨r, hr, rfl⟩ := Outcome.map_eq_ok.mp hm
  rw [hv]
  dsimp only
  split
  · exact hsame _ (ho _ _ hl)
  · exact hcompare _ _ (ho _ _ hl) (gives_comparisons ho r hr)

theorem Reading.Gives.chosen (ho : operand.Gives P) (he : otherwise.Gives R) (hsame : ∀ e, P e → Q e)
    (hchoice : ∀ c l r, P c → P l → R r → Q (.ifElse c l r)) : (chosen operand otherwise).Gives Q := by
  intro ts a h
  obtain ⟨left, rest, shorter, x, hl, hm, hv, -⟩ := eq_of_thenExtend_eq_ok h
  rw [hv]
  split at hm
  · split at hm
    · cases hm
    · rename_i condition hcondition
      split at hm
      · cases hm
      · split at hm
        · cases hm
        · rename_i y hy
          cases hm
          exact hchoice _ _ _ (ho _ _ hcondition) (ho _ _ hl) (he _ _ hy)
  · cases hm
    exact hsame _ (ho _ _ hl)

/-! ### The square bound -/

theorem Joins.depth {t : Token} {join : Expr → Expr → Expr} (h : Joins f t join) (l r : Expr) :
    (join l r).depth = max l.depth r.depth + 1 := by
  cases h <;> simp only [Expr.depth]

theorem argDepth_lt {args : List Expr} (h : ∀ x ∈ args, x.depth < b) : Expr.argDepth args < max 1 b := by
  induction args with
  | nil => exact Nat.lt_of_lt_of_le Nat.zero_lt_one (Nat.le_max_left 1 b)
  | cons x args ih =>
    obtain ⟨hx, hargs⟩ := List.forall_mem_cons.mp h
    exact Nat.max_lt.mpr ⟨Nat.lt_of_lt_of_le hx (Nat.le_max_right 1 b), ih hargs⟩

theorem chainDepth_eq (rest : List (Comparison × Expr)) :
    Expr.chainDepth rest = Expr.argDepth (rest.map Prod.snd) := by
  induction rest with
  | nil => rfl
  | cons x rest ih => rw [List.map_cons, Expr.chainDepth, Expr.argDepth, ih]

theorem chainDepth_lt {rest : List (Comparison × Expr)} (h : ∀ x ∈ rest, x.2.depth < b) :
    Expr.chainDepth rest < max 1 b := by
  rw [chainDepth_eq]
  exact argDepth_lt (List.forall_mem_map.mpr h)

/-- The trees that a reader gives have fewer than `b` levels; with `b = 0` it reads nothing. -/
def Reading.Below (r : Reading) (b : Nat) : Prop := r.Gives fun e => e.depth < b

/-- An extension puts fewer than `n` levels on a tree that may be as deep as its operands. -/
def Extension.Below (m : Extension) (operand n : Nat) : Prop :=
  ∀ b, operand ≤ b → m.Leads (fun e => e.depth < b) fun e => e.depth + 1 < b + n

theorem Reading.Below.mono {r : Reading} (h : r.Below b) (hle : b ≤ c) : r.Below c :=
  Reading.Gives.mono h fun _ he => Nat.lt_of_lt_of_le he hle

theorem Extension.Below.mono {m : Extension} (h : m.Below b n) (hle : b ≤ c) : m.Below c n :=
  fun d hd => h d (Nat.le_trans hle hd)

theorem Reading.Below.thenExtend (hf : first.Below b) (hm : more.Below c n) (hle : c ≤ b) :
    (first.thenExtend more).Below (b + n - 1) :=
  (Reading.Gives.thenExtend hf (hm b hle)).mono fun _ he => by omega

theorem Reading.Below.fold (ho : operand.Below c) (hm : more.Below c n) :
    (fold f.operator operand more : Extension).Below c (n + 1) := by
  intro b hle
  refine Reading.Gives.fold (S := fun e => e.depth < b + 1) ho ?_ (fun e he => by omega) ?_
  · exact fun left ts a hleft h => by have := hm (b + 1) (by omega) left ts a hleft h; omega
  · exact fun t join hj l r hl hr => by rw [hj.depth]; omega

/-- Without another level an atom is at most a call without arguments. -/
theorem Reading.Below.signed (ho : operand.Below b) (hi : inner.Below b) :
    (signed operand inner).Below (max 2 (b + 1)) := by
  refine Reading.Gives.signed ho (Reading.Gives.atom hi ?_ ?_ ?_) ?_ ?_ ?_
  · exact fun e he => by omega
  · exact fun e he => by omega
  · exact fun name args hargs => by have := argDepth_lt hargs; simp only [Expr.depth]; omega
  · exact fun e he => by omega
  · exact fun e he => by simp only [Expr.depth]; omega
  · exact fun e he => by simp only [Expr.depth]; omega

/-- An exponent counts only if there is a level left for one. -/
theorem Reading.Below.raised (hb : base.Below b) (he : exponent.Below n) (hle : b ≤ c)
    (hn : 0 < n → max b n < c) : (raised base exponent).Below c :=
  Reading.Gives.raised hb he (fun _ he => by omega) fun l r hl hr => by simp only [Expr.depth]; omega

theorem Reading.Below.compared (ho : operand.Below b) : (compared operand).Below (b + 1) :=
  Reading.Gives.compared ho (fun _ he => by omega) fun e rest he hrest => by
    have := chainDepth_lt hrest
    simp only [Expr.depth]
    omega

theorem Reading.Below.chosen (ho : operand.Below b) (he : otherwise.Below n) (hle : b ≤ c)
    (hn : 0 < n → max b n < c) : (chosen operand otherwise).Below c :=
  Reading.Gives.chosen ho he (fun _ he => by omega) fun c l r hc hl hr => by simp only [Expr.depth]; omega

/-- All readers at one depth give trees of fewer than `b` levels and have fewer than `n` folds left. -/
structure Levels.Below (d : Levels) (b n : Nat) : Prop where
  conditional : d.conditional.Below b
  conjunction : d.conjunction.Below b
  comparison : d.comparison.Below b
  product : d.product.Below b
  power : d.power.Below b
  unary : d.unary.Below b
  disjuncts : d.disjuncts.Below b n
  conjuncts : d.conjuncts.Below b n
  summands : d.summands.Below b n
  factors : d.factors.Below b n

/-- A tree that is read with so many levels has fewer levels than this. -/
def reach (levels : Nat) : Nat := 2 * levels * (levels + 1) - 1

theorem reach_succ (n : Nat) :
    reach n = 0 ∧ n = 0 ∧ reach (n + 1) = 3 ∨ 3 ≤ reach n ∧ reach (n + 1) = reach n + 4 * (n + 1) := by
  cases n with
  | zero => exact .inl ⟨rfl, rfl, rfl⟩
  | succ n =>
    have h : 2 * (n + 1 + 1) * (n + 1 + 1 + 1) = 2 * (n + 1) * (n + 1 + 1) + 4 * (n + 1 + 1) := by ring
    have h' : 2 * (n + 1) * (n + 1 + 1) = 2 * n * n + 6 * n + 4 := by ring
    simp only [reach]
    omega

theorem Levels.below_floor : Levels.floor.Below (reach 0) 0 :=
  have reading : Reading.Below (fun ts => refuse ts .tooDeep) 0 := fun _ _ h => nomatch h
  have extension : Extension.Below (fun _ ts => refuse ts .tooDeep) 0 0 := fun _ _ _ _ _ _ h => nomatch h
  ⟨reading, reading, reading, reading, reading, reading, extension, extension, extension, extension⟩

/-- Around an operand there are a call or a sign, a power, a comparison, a choice and the four foldings, and
each folding has as many levels as are left. -/
theorem Levels.Below.layer {d : Levels} {n : Nat} (h : d.Below (reach n) n) :
    d.layer.Below (reach (n + 1)) (n + 1) := by
  have hreach := reach_succ n
  generalize reach n = b at *
  have unary := h.unary.signed h.conditional
  -- The exponent, like what stands after the last word of a choice, takes another level.
  have power := unary.raised h.power (c := max 2 (b + 1) + min b 1) (by omega) (by omega)
  have factors := h.power.fold (f := .factors) h.factors
  have product := power.thenExtend factors (by omega)
  have summands := h.product.fold (f := .summands) h.summands
  have comparison := (product.thenExtend summands (by omega)).compared
  have conjuncts := h.comparison.fold (f := .conjuncts) h.conjuncts
  have conjunction := comparison.thenExtend conjuncts (by omega)
  have disjuncts := h.conjunction.fold (f := .disjuncts) h.disjuncts
  have conditional := (conjunction.thenExtend disjuncts (by omega)).chosen h.conditional
    (c := reach (n + 1)) (by omega) (by omega)
  exact ⟨conditional, conjunction.mono (by omega), comparison.mono (by omega), product.mono (by omega),
    power.mono (by omega), unary.mono (by omega), disjuncts.mono (by omega), conjuncts.mono (by omega),
    summands.mono (by omega), factors.mono (by omega)⟩

theorem Levels.below_at (n : Nat) : (Levels.at n).Below (reach (n + 1)) (n + 1) := by
  induction n with
  | zero => exact below_floor.layer
  | succ n ih => exact ih.layer

/-! ### Levels that are not paid for -/

namespace Expr

mutual

/-- The greatest number of operators on a path that no level is open for when the path goes on below them: those
that it leaves to the left, comparisons, choices that it leaves by the condition or the first alternative,
and a call without arguments at its end. -/
def unpaid : Expr → Nat
  | .int _ | .float _ | .str _ | .bool _ | .ident _ => 0
  | .neg e | .not e => unpaid e
  | .binary _ l r | .and l r | .or l r => max (unpaid l + 1) (unpaid r)
  | .compare first rest => max (unpaid first) (chainUnpaid rest) + 1
  | .ifElse c t e => max (max (unpaid c) (unpaid t) + 1) (unpaid e)
  | .call _ [] => 1
  | .call _ (e :: args) => max (unpaid e) (argUnpaid args)

def chainUnpaid : List (Comparison × Expr) → Nat
  | [] => 0
  | (_, e) :: rest => max (unpaid e) (chainUnpaid rest)

def argUnpaid : List Expr → Nat
  | [] => 0
  | e :: rest => max (unpaid e) (argUnpaid rest)

end

end Expr

/-- Apart from operators that are not paid for, a tree has fewer than `n` levels on each path. -/
def Expr.Paid (n : Nat) (e : Expr) : Prop := e.depth < n + e.unpaid

theorem Joins.unpaid {t : Token} {join : Expr → Expr → Expr} (h : Joins f t join) (l r : Expr) :
    (join l r).unpaid = max (l.unpaid + 1) r.unpaid := by
  cases h <;> simp only [Expr.unpaid]

theorem Expr.Paid.mono {e : Expr} (h : e.Paid n) (hle : n ≤ c) : e.Paid c :=
  Nat.lt_of_lt_of_le h (Nat.add_le_add_right hle e.unpaid)

theorem Expr.Paid.args {e : Expr} {args : List Expr} (he : e.Paid n) (h : ∀ x ∈ args, x.Paid n) :
    max e.depth (Expr.argDepth args) < n + max e.unpaid (Expr.argUnpaid args) := by
  unfold Expr.Paid at he
  induction args with
  | nil =>
    simp only [Expr.argDepth, Expr.argUnpaid]
    omega
  | cons x args ih =>
    obtain ⟨hx, hargs⟩ := List.forall_mem_cons.mp h
    have hrest := ih hargs
    simp only [Expr.Paid, Expr.argDepth, Expr.argUnpaid] at hx ⊢
    omega

theorem chainUnpaid_eq (rest : List (Comparison × Expr)) :
    Expr.chainUnpaid rest = Expr.argUnpaid (rest.map Prod.snd) := by
  induction rest with
  | nil => rfl
  | cons x rest ih => rw [List.map_cons, Expr.chainUnpaid, Expr.argUnpaid, ih]

theorem Expr.Paid.chain {e : Expr} {rest : List (Comparison × Expr)} (he : e.Paid n)
    (h : ∀ x ∈ rest, x.2.Paid n) :
    max e.depth (Expr.chainDepth rest) < n + max e.unpaid (Expr.chainUnpaid rest) := by
  rw [chainDepth_eq, chainUnpaid_eq]
  exact he.args (List.forall_mem_map.mpr h)

theorem paid_call (name : String) {args : List Expr} (h : ∀ x ∈ args, x.Paid n) :
    (Expr.call name args).Paid (n + 1) := by
  cases args with
  | nil => simp [Expr.Paid, Expr.depth, Expr.argDepth, Expr.unpaid]
  | cons e args =>
    obtain ⟨he, hargs⟩ := List.forall_mem_cons.mp h
    have hlt := he.args hargs
    simp only [Expr.Paid, Expr.depth, Expr.argDepth, Expr.unpaid]
    omega

theorem Expr.Paid.joins {t : Token} {join : Expr → Expr → Expr} {l r : Expr} (hj : Joins f t join)
    (hl : l.Paid c) (hr : r.Paid n) (hlt : n < c) : (join l r).Paid c := by
  simp only [Expr.Paid, hj.depth, hj.unpaid] at hl hr ⊢
  omega

/-- An extension pays for trees as deep as its operands, with as many levels as these. -/
def Extension.Paid (m : Extension) (n : Nat) : Prop := ∀ c, n ≤ c → m.Leads (Expr.Paid c) (Expr.Paid c)

theorem Extension.Paid.fold (ho : operand.Gives (Expr.Paid n)) (hm : more.Paid n) :
    (fold f.operator operand more : Extension).Paid (n + 1) := fun c hle =>
  Reading.Gives.fold ho (hm c (Nat.le_of_succ_le hle)) (fun _ he => he) fun _ _ hj _ _ hl hr => hl.joins hj hr hle

/-- All readers at one depth pay for their trees with `n` levels. -/
structure Levels.Paid (d : Levels) (n : Nat) : Prop where
  conditional : d.conditional.Gives (Expr.Paid n)
  conjunction : d.conjunction.Gives (Expr.Paid n)
  comparison : d.comparison.Gives (Expr.Paid n)
  product : d.product.Gives (Expr.Paid n)
  power : d.power.Gives (Expr.Paid n)
  unary : d.unary.Gives (Expr.Paid n)
  disjuncts : d.disjuncts.Paid n
  conjuncts : d.conjuncts.Paid n
  summands : d.summands.Paid n
  factors : d.factors.Paid n

theorem Levels.paid_floor : Levels.floor.Paid 0 :=
  have reading : Reading.Gives (fun ts => refuse ts .tooDeep) (Expr.Paid 0) := fun _ _ h => nomatch h
  have extension : Extension.Paid (fun _ ts => refuse ts .tooDeep) 0 := fun _ _ _ _ _ _ h => nomatch h
  ⟨reading, reading, reading, reading, reading, reading, extension, extension, extension, extension⟩

theorem Levels.Paid.layer {d : Levels} (h : d.Paid n) : d.layer.Paid (n + 1) := by
  have hstep : ∀ e : Expr, e.Paid n → e.Paid (n + 1) := fun e he => he.mono (Nat.le_succ n)
  have hsame : ∀ e : Expr, e.Paid (n + 1) → e.Paid (n + 1) := fun _ he => he
  have atom : (atom d.conditional).Gives (Expr.Paid (n + 1)) :=
    h.conditional.atom (fun e he => by simp [Expr.Paid, he]) hstep fun name args => paid_call name
  have unary := h.unary.signed atom hstep
    (fun e he => by simp only [Expr.Paid, Expr.depth, Expr.unpaid] at he ⊢; omega)
    (fun e he => by simp only [Expr.Paid, Expr.depth, Expr.unpaid] at he ⊢; omega)
  have power := unary.raised h.power hsame fun l r hl hr => by
    simp only [Expr.Paid, Expr.depth, Expr.unpaid] at hl hr ⊢
    omega
  have factors := Extension.Paid.fold (f := .factors) h.power h.factors
  have product := power.thenExtend (factors _ (Nat.le_refl _))
  have summands := Extension.Paid.fold (f := .summands) h.product h.summands
  have sum := product.thenExtend (summands _ (Nat.le_refl _))
  have comparison := sum.compared hsame fun e rest he hrest => by
    have hlt := he.chain hrest
    simp only [Expr.Paid, Expr.depth, Expr.unpaid]
    omega
  have conjuncts := Extension.Paid.fold (f := .conjuncts) h.comparison h.conjuncts
  have conjunction := comparison.thenExtend (conjuncts _ (Nat.le_refl _))
  have disjuncts := Extension.Paid.fold (f := .disjuncts) h.conjunction h.disjuncts
  have disjunction := conjunction.thenExtend (disjuncts _ (Nat.le_refl _))
  have conditional := disjunction.chosen h.conditional hsame fun c l r hc hl hr => by
    simp only [Expr.Paid, Expr.depth, Expr.unpaid] at hc hl hr ⊢
    omega
  exact ⟨conditional, conjunction, comparison, product, power, unary, disjuncts, conjuncts, summands, factors⟩

theorem Levels.paid_at (n : Nat) : (Levels.at n).Paid (n + 1) := by
  induction n with
  | zero => exact paid_floor.layer
  | succ n ih => exact ih.layer

theorem gives_of_read {source : String} {e : Expr} (h : read source = .ok e)
    (hg : (Levels.at (maxNesting - 1)).conditional.Gives P) : P e := by
  unfold read at h
  split at h
  · cases h
  · split at h
    · cases h
    · rename_i ts _ _ hread
      obtain rfl := Except.ok.inj h
      unfold ofTokens at hread
      split at hread
      · cases hread
      · split at hread
        · cases hread
        · rename_i r hr
          split at hread
          · obtain rfl := Except.ok.inj hread
            exact hg _ _ hr
          · cases hread

end GoalCompiler.Expression
