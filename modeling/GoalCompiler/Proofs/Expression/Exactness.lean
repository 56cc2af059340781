import GoalCompiler.Expression.Arithmetic
import GoalCompiler.Proofs.Number.Whole
import Mathlib.Data.Rat.Floor

/-! Operators on whole numbers. A result is the exact one or it is refused as an overflow; nothing wraps. Besides
the results that 64 bits do not hold, two kinds that fit are refused: the remainder of the least number by `-1`,
and powers of `0`, `1` and `-1` whose exponent takes more than 32 bits. -/
namespace GoalCompiler.Expression

open Number (fitsWord leastWord)

/-- The result of an operator in the whole numbers, if it has one there. The remainder is the floored one. -/
def Operator.result? : Operator → Int → Int → Option Int
  | .add, a, b => some (a + b)
  | .sub, a, b => some (a - b)
  | .mul, a, b => some (a * b)
  | .div, _, _ => none
  | .mod, a, b => if b = 0 then none else some (a - b * ⌊(a / b : ℚ)⌋)
  | .pow, a, b => if b < 0 then none else some (a ^ b.toNat)

/-- Operands that are refused although 64 bits hold their result. -/
def Operator.RefusesFitting (op : Operator) (a b : Int) : Prop :=
  op = .mod ∧ a = leastWord ∧ b = -1 ∨ op = .pow ∧ |a| ≤ 1 ∧ 2 ^ 32 ≤ b

theorem word_eq_ok {n : Int} {w : Int64} : word n = .ok (.int w) ↔ n = w.toInt := by
  unfold word
  split
  · rename_i h
    rw [Whole.fitsWord_iff] at h
    have hw : (Int64.ofInt n).toInt = n := Int64.toInt_ofInt_of_le h.1 h.2
    constructor
    · intro h
      cases h
      exact hw.symm
    · rintro rfl
      simp
  · rename_i h
    constructor
    · nofun
    · rintro rfl
      exact absurd (Whole.fitsWord_toInt w) h

theorem word_eq_overflow {n : Int} : word n = .error (.arithmetic .overflow) ↔ fitsWord n = false := by
  cases h : fitsWord n <;> simp [word, h]

/-! ### Powers -/

section Powers

variable {a : Int} {n : Nat}

theorem staysSmall_iff : staysSmall a = true ↔ |a| ≤ 1 := by
  simp only [staysSmall, Bool.or_eq_true, beq_iff_eq]
  rw [abs_le]
  omega

theorem smallPower (ha : |a| ≤ 1) :
    a ^ n = if a = -1 && n % 2 = 0 then 1 else if n = 0 then 1 else a := by
  obtain rfl | rfl | rfl : a = 0 ∨ a = 1 ∨ a = -1 := by
    rw [abs_le] at ha
    omega
  · rcases n with _ | n <;> simp
  · simp
  · rcases Nat.even_or_odd n with h | h
    · simp [h.neg_one_pow, Nat.even_iff.mp h]
    · have hn : n ≠ 0 := h.pos.ne'
      simp [h.neg_one_pow, Nat.odd_iff.mp h, hn]

/-- Past 64 the powers of other bases take more than 64 bits. -/
theorem fitsWord_pow (ha : ¬ |a| ≤ 1) (hn : 64 ≤ n) : fitsWord (a ^ n) = false := by
  have hbase : 2 ≤ a.natAbs := by
    rw [abs_le] at ha
    omega
  have h : 2 ^ 64 ≤ (a ^ n).natAbs := by
    rw [Int.natAbs_pow]
    calc 2 ^ 64 ≤ 2 ^ n := Nat.pow_le_pow_right (by decide) hn
      _ ≤ a.natAbs ^ n := Nat.pow_le_pow_left hbase n
  rw [Bool.eq_false_iff, ne_eq, Whole.fitsWord_iff]
  omega

theorem wordPower_eq :
    wordPower a n =
      if |a| ≤ 1 ∧ 4294967296 ≤ n then .error (.arithmetic .overflow) else word (a ^ n) := by
  by_cases ha : |a| ≤ 1
  · by_cases hn : 4294967296 ≤ n
    · rw [if_pos ⟨ha, hn⟩, wordPower, if_pos hn]
    · rw [if_neg fun h => hn h.2, wordPower, if_neg hn, if_pos (staysSmall_iff.mpr ha), smallPower ha]
  · rw [if_neg fun h => ha h.1]
    by_cases hn : 64 ≤ n
    · rw [word_eq_overflow.mpr (fitsWord_pow ha hn)]
      simp [wordPower, hn, staysSmall_iff, ha]
    · rw [wordPower, if_neg (by omega), if_neg (by rwa [staysSmall_iff]), if_neg hn]
      rfl

end Powers

/-! ### All operators -/

section Operators

variable {op : Operator} {a b r : Int}

theorem fdiv_eq_floor (a b : Int) : a.fdiv b = ⌊(a / b : ℚ)⌋ := by
  have hnat (a : Int) (d : Nat) : a.fdiv d = ⌊(a / (d : Int) : ℚ)⌋ := by
    rw [Int.fdiv_eq_ediv_of_nonneg a (Int.natCast_nonneg d), Int.cast_natCast, Rat.floor_intCast_div_natCast]
  obtain ⟨d, rfl | rfl⟩ := b.eq_nat_or_neg
  · exact hnat a d
  · rw [← Int.neg_fdiv_neg, neg_neg, hnat (-a) d]
    congr 1
    push_cast
    rw [div_neg, neg_div]

/-- The operator gives the exact result, if that fits and is not one of the few that are refused. -/
theorem onWords_of_result? (h : op.result? a b = some r) :
    (op.RefusesFitting a b → onWords op a b = some (.error (.arithmetic .overflow))) ∧
      (¬ op.RefusesFitting a b → onWords op a b = some (word r)) := by
  cases op with
  | add | sub | mul =>
    cases h
    simp [Operator.RefusesFitting, onWords]
  | div => cases h
  | mod =>
    simp only [Operator.result?, Option.ite_none_left_eq_some, Option.some.injEq] at h
    obtain ⟨hb, rfl⟩ := h
    simp only [Operator.RefusesFitting, onWords, if_neg hb, Int.fmod_def, fdiv_eq_floor]
    simp +contextual
  | pow =>
    simp only [Operator.result?, Option.ite_none_left_eq_some, Option.some.injEq] at h
    obtain ⟨hb, rfl⟩ := h
    have hbound : 4294967296 ≤ b.toNat ↔ 2 ^ 32 ≤ b := by omega
    simp only [Operator.RefusesFitting, onWords, if_neg hb, wordPower_eq, hbound]
    simp +contextual

/-- Without an exact result there is none in whole numbers. -/
theorem onWords_of_result?_eq_none (h : op.result? a b = none) :
    onWords op a b = none ∨ onWords op a b = some (.error (.arithmetic .moduloByZero)) := by
  cases op with
  | add | sub | mul => cases h
  | div => exact .inl rfl
  | mod =>
    simp only [Operator.result?, ite_eq_left_iff, reduceCtorEq, imp_false, not_not] at h
    exact .inr (if_pos h)
  | pow =>
    simp only [Operator.result?, ite_eq_left_iff, reduceCtorEq, imp_false, not_not] at h
    exact .inl (if_pos h)

theorem result?_mod_neg_one (a : Int) : Operator.mod.result? a (-1) = some 0 := by
  have h : (a / (-1 : Int) : ℚ) = (-a : Int) := by
    push_cast
    ring
  rw [Operator.result?, if_neg (by decide), h, Int.floor_intCast]
  congr 1
  ring

theorem fitsWord_of_refusesFitting (h : op.RefusesFitting a b) :
    ∃ r, op.result? a b = some r ∧ fitsWord r = true := by
  rcases h with ⟨rfl, rfl, rfl⟩ | ⟨rfl, ha, hb⟩
  · exact ⟨0, result?_mod_neg_one leastWord, rfl⟩
  · refine ⟨a ^ b.toNat, if_neg (by omega), ?_⟩
    have hsmall : |a ^ b.toNat| ≤ 1 := by
      rw [abs_pow]
      exact pow_le_one₀ (abs_nonneg a) ha
    rw [Whole.fitsWord_iff]
    rw [abs_le] at hsmall
    omega

end Operators

/-- What doubles give is no whole number, and no overflow. -/
theorem inFloats_ne (op : Operator) (x y : Float) :
    (∀ w, (onFloats op x y).bind (finite op) ≠ .ok (.int w)) ∧
      (onFloats op x y).bind (finite op) ≠ .error (.arithmetic .overflow) := by
  have hfinite (z : Float) :
      (∀ w, finite op z ≠ .ok (.int w)) ∧ finite op z ≠ .error (.arithmetic .overflow) := by
    unfold finite
    split <;> simp
  cases h : onFloats op x y with
  | ok z => exact hfinite z
  | error e =>
    refine ⟨nofun, ?_⟩
    rintro he
    cases he
    cases op <;> simp only [onFloats] at h
    all_goals first | cases h | (split at h <;> cases h)

theorem calculate_words (op : Operator) (a b : Int64) :
    calculate op (.int a) (.int b) = (onWords op a.toInt b.toInt).getD
      ((onFloats op (Float.ofInt a.toInt) (Float.ofInt b.toInt)).bind (finite op)) := by
  cases op <;> rfl

section Words

variable {op : Operator} {a b : Int64} {r : Int}

theorem calculate_of_result? (h : op.result? a.toInt b.toInt = some r) :
    (op.RefusesFitting a.toInt b.toInt →
      calculate op (.int a) (.int b) = .error (.arithmetic .overflow)) ∧
    (¬ op.RefusesFitting a.toInt b.toInt → calculate op (.int a) (.int b) = word r) := by
  obtain ⟨hrefused, hgiven⟩ := onWords_of_result? h
  rw [calculate_words]
  exact ⟨fun hr => by rw [hrefused hr]; rfl, fun hr => by rw [hgiven hr]; rfl⟩

theorem calculate_of_result?_eq_none (h : op.result? a.toInt b.toInt = none) :
    (∀ w, calculate op (.int a) (.int b) ≠ .ok (.int w)) ∧
      calculate op (.int a) (.int b) ≠ .error (.arithmetic .overflow) := by
  rw [calculate_words]
  rcases onWords_of_result?_eq_none h with h | h
  · rw [h]
    exact inFloats_ne op _ _
  · simp [h]

end Words

/-- On two whole numbers an operator gives `w` exactly if `w` is its result and the operands are not among those
refused, and overflows exactly if its result does not fit or they are. Their results would all fit. A remainder
by zero is refused as such. -/
theorem words_exact_or_refused (op : Operator) (a b : Int64) :
    (∀ w, calculate op (.int a) (.int b) = .ok (.int w) ↔
      op.result? a.toInt b.toInt = some w.toInt ∧ ¬ op.RefusesFitting a.toInt b.toInt) ∧
    (calculate op (.int a) (.int b) = .error (.arithmetic .overflow) ↔
      ∃ r, op.result? a.toInt b.toInt = some r ∧
        (fitsWord r = false ∨ op.RefusesFitting a.toInt b.toInt)) ∧
    (op.RefusesFitting a.toInt b.toInt →
      ∃ r, op.result? a.toInt b.toInt = some r ∧ fitsWord r = true) ∧
    calculate .mod (.int a) (.int 0) = .error (.arithmetic .moduloByZero) := by
  rw [← and_assoc]
  refine ⟨?_, fitsWord_of_refusesFitting, rfl⟩
  cases hr : op.result? a.toInt b.toInt with
  | none => simp [calculate_of_result?_eq_none hr]
  | some r =>
    obtain ⟨hrefused, hgiven⟩ := calculate_of_result? hr
    by_cases h : op.RefusesFitting a.toInt b.toInt
    · simp [hrefused h, h]
    · simp [hgiven h, h, word_eq_ok, word_eq_overflow]

/-- The least number leaves no remainder by `-1`, and `1` is its own power; both are refused as overflows. -/
theorem fitting_refused :
    (Operator.mod.result? leastWord (-1) = some 0 ∧
      calculate .mod (.int Int64.minValue) (.int (-1)) = .error (.arithmetic .overflow)) ∧
    Operator.pow.result? 1 4294967296 = some 1 ∧
      calculate .pow (.int 1) (.int 4294967296) = .error (.arithmetic .overflow) := by
  exact ⟨⟨result?_mod_neg_one leastWord, rfl⟩, by simp [Operator.result?], rfl⟩

end GoalCompiler.Expression
