import GoalCompiler.Proofs.Number.Rounding
import Mathlib.Data.Rat.Floor

/-! Doubles that hold whole numbers, rounded to whole numbers. The bits of a double give the sign, digits and
exponent that it is unpacked into; where these stand for a whole number, every rounding finds that number and
leaves the double as it is. A whole number that is rounded to a double may reach another one, but not pass it. -/
namespace GoalCompiler.Number

open Float.Model (UnpackedFloat)
open Float.Model.UnpackedFloat (Sign unpackExponent unpackMantissa unpackSign)

/-! ### The bits of a double -/

def isNegative : Sign → Bool
  | .negative => true
  | .positive => false

/-- The exact value of an unpacked double. -/
def Exact.ofUnpacked : UnpackedFloat → Exact
  | .notANumber => .nan
  | .infinity s => .infinite (isNegative s)
  | .zero s => .finite (isNegative s) 0 (-1074)
  | .finite s m e _ => .finite (isNegative s) m e

theorem isNegative_ofBitVec (b : BitVec 1) : isNegative (.ofBitVec b) = (b.toNat == 1) := by
  rcases BitVec.eq_zero_or_eq_one b with rfl | rfl <;> rfl

theorem ofUnpacked_ofParts {s : Sign} {k : BitVec 11} {f : BitVec 52} :
    Exact.ofUnpacked (ofParts s k f) =
      if k.toNat = 2047 then if f.toNat = 0 then .infinite (isNegative s) else .nan
      else if k.toNat = 0 then .finite (isNegative s) f.toNat (-1074)
      else .finite (isNegative s) (2 ^ 52 + f.toNat) (k.toNat - 1075) := by
  have hmost : k = -1#11 ↔ k.toNat = 2047 := ⟨fun h => h ▸ rfl, fun h => BitVec.eq_of_toNat_eq h⟩
  have hleast : k = 0#11 ↔ k.toNat = 0 := ⟨fun h => h ▸ rfl, fun h => BitVec.eq_of_toNat_eq h⟩
  have hnone : f = 0#52 ↔ f.toNat = 0 := ⟨fun h => h ▸ rfl, fun h => BitVec.eq_of_toNat_eq h⟩
  rw [ofParts]
  by_cases hk : k = -1#11
  · rw [if_pos hk, if_pos (hmost.mp hk)]
    by_cases hf : f = 0#52
    · rw [if_pos hf, if_pos (hnone.mp hf)]
      rfl
    · rw [if_neg hf, if_neg (mt hnone.mpr hf)]
      rfl
  · rw [if_neg hk, if_neg (mt hmost.mpr hk)]
    by_cases hk' : k = 0#11
    · rw [if_pos hk', if_pos (hleast.mp hk')]
      by_cases hf : f = 0#52
      · rw [dif_pos hf, hnone.mp hf]
        rfl
      · rw [dif_neg hf]
        rfl
    · rw [if_neg hk', if_neg (mt hleast.mpr hk')]
      rfl

theorem exact_eq (x : Float) : exact x = Exact.ofUnpacked x.toModel.unpack := by
  have hx : x.toModel.unpack = ofParts _ _ _ := unpack_eq x.toModel.toBits.toBitVec
  have hbits : x.toBits.toNat = x.toModel.toBits.toBitVec.toNat := rfl
  rw [hx, exact, hbits]
  generalize x.toModel.toBits.toBitVec = b
  have hs : (@unpackSign .binary64 b).toNat = b.toNat / Nat.pow 2 63 := by
    have hb := b.isLt
    simp [unpackSign_eq, Nat.shiftRight_eq_div_pow]
    omega
  have hk : (@unpackExponent .binary64 b).toNat = b.toNat / Nat.pow 2 52 % Nat.pow 2 11 := by
    simp [unpackExponent, Nat.shiftRight_eq_div_pow]
  have hf : (@unpackMantissa .binary64 b).toNat = b.toNat % Nat.pow 2 52 := by
    simp [unpackMantissa]
  rw [← hs, ← hk, ← hf, ← isNegative_ofBitVec]
  exact ofUnpacked_ofParts.symm

/-! ### Whole numbers held by doubles -/

/-- The rounding leaves whole numbers as they are. -/
def Rounding.KeepsWhole (r : Rounding) : Prop := ∀ (n : Int) {d : Nat}, 0 < d → r (n * d) d = n

namespace Rounding

theorem keepsWhole_down : down.KeepsWhole := fun n _ hd => Int.mul_fdiv_cancel n (by omega)

theorem keepsWhole_up : up.KeepsWhole := fun n d hd => by
  rw [up, ← Int.neg_mul, Int.mul_fdiv_cancel _ (by omega), neg_neg]

theorem keepsWhole_towardZero : towardZero.KeepsWhole := fun n _ hd => Int.mul_tdiv_cancel n (by omega)

theorem keepsWhole_nearest : nearest.KeepsWhole := fun n d hd => by
  rw [nearest_eq (q := n) (r := 0) (by ring) le_rfl (by omega), if_pos (by omega)]

end Rounding

section Whole

variable {x : Float} {n : Int} {r : Rounding}

/-- The sign, digits and exponent of a double that holds a whole number. -/
theorem Holds.exact (h : Holds x n) :
    ∃ negative m e, Number.exact x = .finite negative m e ∧ m < 2 ^ 53 ∧
      (e < 0 → (if negative then -m else m : Int) = n * (2 ^ e.natAbs : Nat)) ∧
      (0 ≤ e → n = (if negative then -m else m : Int) * (2 ^ e.natAbs : Nat)) := by
  obtain ⟨hfinite, hvalue⟩ := h
  rw [isFinite_eq] at hfinite
  have hform := canonical_unpack x
  rw [exact_eq]
  generalize x.toModel.unpack = u at *
  cases u with
  | notANumber => cases hfinite
  | infinity => cases hfinite
  | zero s =>
    obtain rfl : n = 0 := Int.cast_eq_zero.mp hvalue.symm
    refine ⟨isNegative s, 0, -1074, rfl, by decide, fun _ => ?_, fun h => absurd h (by decide)⟩
    rw [zero_mul]
    cases s <;> rfl
  | finite s m e hm =>
    have happly : (if isNegative s then -m else m : Int) = s.apply m := by cases s <;> rfl
    refine ⟨isNegative s, m, e, rfl, hform.1, fun he => ?_, fun he => ?_⟩
    · obtain ⟨k, rfl⟩ := Int.exists_eq_neg_ofNat he.le
      rw [value_finite, zpow_neg, zpow_natCast, ← div_eq_mul_inv, div_eq_iff (by positivity)] at hvalue
      rw [happly, Int.natAbs_neg, Int.natAbs_natCast]
      exact_mod_cast hvalue
    · lift e to Nat using he
      rw [value_finite, zpow_natCast] at hvalue
      rw [happly, Int.natAbs_natCast]
      exact_mod_cast hvalue.symm

theorem whole?_of_holds (hr : r.KeepsWhole) (h : Holds x n) : whole? r x = some n := by
  obtain ⟨negative, m, e, hx, -, hneg, hpos⟩ := h.exact
  simp only [whole?, hx]
  split
  · rename_i he
    rw [hneg he]
    exact congrArg some (hr n (Nat.two_pow_pos _))
  · rename_i he
    rw [hpos (by omega)]
    rfl

/-- Nothing is lost of a number whose digits after the first 53 are zeros. -/
theorem rounded_eq_iff : rounded n = n ↔ ((2 ^ (n.natAbs.log2 - 52) : Nat) : Int) ∣ n := by
  rw [rounded]
  constructor
  · intro h
    exact (dvd_mul_left _ _).trans (dvd_of_eq h)
  · rintro ⟨k, hk⟩
    have hd : 0 < 2 ^ (n.natAbs.log2 - 52) := by positivity
    generalize 2 ^ (n.natAbs.log2 - 52) = d at hd hk
    rw [hk, mul_comm (d : Int) k, Rounding.keepsWhole_nearest k hd]

theorem Holds.rounded_eq (h : Holds x n) : rounded n = n := by
  obtain ⟨negative, m, e, -, hlt, hneg, hpos⟩ := h.exact
  have hsigned : (if negative then -m else m : Int).natAbs = m := by cases negative <;> simp
  rcases lt_or_ge e 0 with he | he
  · have hn : m = n.natAbs * 2 ^ e.natAbs := by rw [← hsigned, hneg he, Int.natAbs_mul, Int.natAbs_natCast]
    have := Nat.le_mul_of_pos_right n.natAbs (show 0 < 2 ^ e.natAbs by positivity)
    exact rounded_of_natAbs_le (by omega)
  · have hn : n.natAbs = m * 2 ^ e.natAbs := by rw [hpos he, Int.natAbs_mul, hsigned, Int.natAbs_natCast]
    rcases eq_or_ne m 0 with rfl | hm
    · obtain rfl : n = 0 := by simpa using hn
      rfl
    · have hlog : m.log2 ≤ 52 := Nat.lt_succ_iff.mp ((Nat.log2_lt hm).mpr hlt)
      rw [rounded_eq_iff, Int.natCast_dvd, hn, log2_mul_two_pow hm]
      exact Dvd.dvd.mul_left (pow_dvd_pow 2 (by omega)) m

/-- The double is left as it is, but for the sign of a zero. -/
theorem holds_roundTo (hr : r.KeepsWhole) (h : Holds x n) (hn : n.natAbs < 2 ^ 64) : Holds (roundTo r x) n := by
  have hwhole := whole?_of_holds hr h
  unfold roundTo
  rw [hwhole]
  split
  · rename_i hzero
    cases hzero
    split
    · exact ⟨rfl, rfl⟩
    · exact ⟨rfl, rfl⟩
  · rename_i hsome _
    cases hsome
    have hofInt := holds_ofInt hn
    rwa [h.rounded_eq] at hofInt
  · rename_i hnone
    cases hnone

theorem value_abs (u : UnpackedFloat) : value u.abs = |value u| := by
  cases u with
  | finite s m e hm =>
    have hpos : (0 : ℚ) ≤ m * 2 ^ e := by positivity
    cases s
    · rw [value_negative, abs_neg, abs_of_nonneg hpos]
      exact value_positive
    · rw [value_positive, abs_of_nonneg hpos]
      exact value_positive
  | _ => exact abs_zero.symm

theorem Holds.abs (h : Holds x n) : Holds x.abs |n| := by
  refine ⟨(isFinite_abs x).trans h.1, ?_⟩
  rw [unpack_abs, value_abs, h.2, Int.cast_abs]

end Whole

/-! ### Whole numbers between doubles -/

section Between

variable {x : Float} {n : Int}

/-- What a finite double stands for is a whole number or is less than `2⁵³`. -/
theorem holds_or_lt (hx : x.isFinite) : (∃ n, Holds x n) ∨ |value x.toModel.unpack| < 2 ^ 53 := by
  have hform := canonical_unpack x
  have hfinite := hx
  rw [isFinite_eq] at hfinite
  simp only [Holds, hx, true_and]
  generalize x.toModel.unpack = u at *
  cases u with
  | notANumber => cases hfinite
  | infinity => cases hfinite
  | zero s => exact .inl ⟨0, Int.cast_zero.symm⟩
  | finite s m e hm =>
    have habs : |(s.apply m : ℚ)| = m := by cases s <;> simp [Sign.apply]
    rcases lt_or_ge e 0 with he | he
    · refine .inr ?_
      calc |value (.finite s m e hm)| = m * 2 ^ e := by rw [value_finite, abs_mul, habs, abs_of_pos (by positivity)]
        _ ≤ m * 1 := by gcongr; exact zpow_le_one_of_nonpos₀ (by norm_num) he.le
        _ < 2 ^ 53 := by rw [mul_one]; exact_mod_cast hform.1
    · lift e to Nat using he
      exact .inl ⟨s.apply m * 2 ^ e, by rw [value_finite]; push_cast; rw [zpow_natCast]⟩

/-- The whole numbers next to a finite double are not rounded. -/
theorem rounded_floor (hx : x.isFinite) : rounded ⌊value x.toModel.unpack⌋ = ⌊value x.toModel.unpack⌋ := by
  rcases holds_or_lt hx with ⟨n, hn⟩ | hlt
  · rw [hn.2, Int.floor_intCast, hn.rounded_eq]
  · obtain ⟨hlow, hhigh⟩ := abs_lt.mp hlt
    have hleast : -2 ^ 53 ≤ ⌊value x.toModel.unpack⌋ := Int.le_floor.mpr (by exact_mod_cast hlow.le)
    have hmost : ⌊value x.toModel.unpack⌋ < 2 ^ 53 := Int.floor_lt.mpr (by exact_mod_cast hhigh)
    exact rounded_of_natAbs_le (by omega)

theorem rounded_ceil (hx : x.isFinite) : rounded ⌈value x.toModel.unpack⌉ = ⌈value x.toModel.unpack⌉ := by
  have h := rounded_floor (x := -x) (by rwa [isFinite_neg])
  rwa [unpack_neg, value_neg, Int.floor_neg, rounded_neg, neg_inj] at h

/-- Rounding takes a whole number to a double at most, and never past it. -/
theorem value_le_rounded_iff (hx : x.isFinite) : value x.toModel.unpack ≤ rounded n ↔
    value x.toModel.unpack ≤ n ∨ value x.toModel.unpack = rounded n := by
  constructor
  · intro h
    refine or_iff_not_imp_left.mpr fun hlt => h.antisymm ?_
    have hfloor := rounded_mono (Int.le_floor.mpr (not_le.mp hlt).le)
    rw [rounded_floor hx] at hfloor
    exact Int.le_floor.mp hfloor
  · rintro (h | h)
    · have hceil := rounded_mono (Int.ceil_le.mpr h)
      rw [rounded_ceil hx] at hceil
      exact Int.ceil_le.mp hceil
    · exact h.le

theorem rounded_le_value_iff (hx : x.isFinite) : rounded n ≤ value x.toModel.unpack ↔
    n ≤ value x.toModel.unpack ∨ rounded n = value x.toModel.unpack := by
  have h := value_le_rounded_iff (x := -x) (n := -n) (by rwa [isFinite_neg])
  rw [unpack_neg, value_neg, rounded_neg] at h
  push_cast at h
  rwa [neg_le_neg_iff, neg_le_neg_iff, neg_inj, eq_comm (b := (rounded n : ℚ))] at h

end Between

end GoalCompiler.Number
