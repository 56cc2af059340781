import GoalCompiler.Number.Numeral
import GoalCompiler.Proofs.Number.Canonical
import GoalCompiler.Workflow.Parameter

/-! Whole numbers held by doubles. Below `wholeLimit` the exponent of a double is at most that of one unit,
so its whole part is less than `2⁵³` and fits into 64 bits. -/
namespace GoalCompiler.Whole

open Float.Model.UnpackedFloat (unpackExponent)

/-- The eleven bits of a double that hold its exponent. -/
def scale (x : Float) : Nat := x.toBits.toNat / 4503599627370496 % 2048

theorem scale_lt (x : Float) : scale x < 2048 :=
  Nat.mod_lt _ (by decide)

theorem unpackExponent_toNat (x : Float) :
    (@unpackExponent .binary64 x.toModel.toBits.toBitVec).toNat = scale x := by
  change _ = x.toModel.toBits.toNat / _ % _
  simp [unpackExponent, Nat.shiftRight_eq_div_pow]

variable {x : Float} {n : Int}

/-- The absolute value keeps an exponent that is neither the least nor the greatest. -/
theorem unpack_abs (h₀ : 0 < scale x) (h₁ : scale x < 2047) :
    ∃ m, ∃ hm : 0 < m, x.abs.toModel.unpack = .finite .positive m (scale x - 1075) hm := by
  have hscale := unpackExponent_toNat x
  have hx : x.toModel.unpack = .finite _ _ (scale x - 1075) (Nat.add_pos_left (Nat.two_pow_pos 52) _) :=
    (Number.unpack_eq x.toModel.toBits.toBitVec).trans
      (Number.ofParts_full (by omega) (by omega) (by omega) rfl)
  rw [Number.unpack_abs, hx]
  exact ⟨_, _, rfl⟩

theorem unpack_wholeLimit :
    wholeLimit.toModel.unpack = .finite .positive 9000000000000000 0 (by decide) := by
  rfl

/-- Below the limit the exponent is no greater than that of one unit. -/
theorem scale_le (h : x.abs < wholeLimit) : scale x ≤ 1075 ∨ scale x = 2047 := by
  refine Classical.byContradiction fun hc => ?_
  have hlt := scale_lt x
  obtain ⟨m, hm, hx⟩ := unpack_abs (x := x) (by omega) (by omega)
  rw [Number.lt_iff_compare, hx, unpack_wholeLimit] at h
  have hless : (compare ((scale x : Int) - 1075) 0).then (compare m 9000000000000000) = .lt := Option.some.inj h
  have hgt : compare ((scale x : Int) - 1075) 0 = .gt := by
    rw [Int.compare_eq_gt]
    omega
  rw [hgt] at hless
  cases hless

theorem exact_of_scale_le {negative : Bool} {m : Nat} {e : Int}
    (h : Number.exact x = .finite negative m e) (hs : scale x ≤ 1075 ∨ scale x = 2047) :
    m < 9007199254740992 ∧ e ≤ 0 := by
  have hm := Nat.mod_lt x.toBits.toNat (show 4503599627370496 > 0 by decide)
  unfold Number.exact at h
  change (if scale x = 2047 then _ else if scale x = 0 then
    Number.Exact.finite _ (x.toBits.toNat % 4503599627370496) _ else
    Number.Exact.finite _ (4503599627370496 + x.toBits.toNat % 4503599627370496)
      (Int.ofNat (scale x) - 1075)) = _ at h
  split at h
  · split at h <;> simp at h
  · split at h
    · cases h
      omega
    · cases h
      simp only [Int.ofNat_eq_natCast]
      omega

theorem natAbs_whole_lt (h : Number.whole? .towardZero x = some n)
    (hs : scale x ≤ 1075 ∨ scale x = 2047) : n.natAbs < 9007199254740992 := by
  unfold Number.whole? at h
  split at h
  · rename_i negative m e hx
    obtain ⟨hm, he⟩ := exact_of_scale_le hx hs
    cases h
    have habs : (if negative then -(m : Int) else m).natAbs = m := by split <;> simp
    split
    · rw [Number.Rounding.towardZero, Int.natAbs_tdiv, habs]
      exact Nat.lt_of_le_of_lt (Nat.div_le_self _ _) hm
    · obtain rfl : e = 0 := by omega
      rw [Int.natAbs_mul, habs]
      simpa using hm
  · simp at h

theorem fitsWord_iff :
    Number.fitsWord n ↔ -0x8000000000000000 ≤ n ∧ n < 0x8000000000000000 := by
  unfold Number.fitsWord Number.leastWord
  simp

theorem fitsWord_toInt (w : Int64) : Number.fitsWord w.toInt := by
  rw [fitsWord_iff]
  exact ⟨w.le_toInt, w.toInt_lt⟩

theorem natAbs_lt_of_wholeNumber? (h : wholeNumber? x = some n) : n.natAbs < 9007199254740992 := by
  unfold wholeNumber? at h
  split at h
  · rename_i hx
    rw [Bool.and_eq_true, decide_eq_true_eq] at hx
    exact natAbs_whole_lt h (scale_le hx.1)
  · simp at h

/-- A double that counts as a whole number is one of 64 bits. -/
theorem fitsWord_of_wholeNumber? (h : wholeNumber? x = some n) : Number.fitsWord n := by
  have hlt := natAbs_lt_of_wholeNumber? h
  rw [fitsWord_iff]
  omega

end GoalCompiler.Whole
