import GoalCompiler.Number.Dyadic
import GoalCompiler.Proofs.Number.Canonical
import Mathlib.Tactic.FieldSimp

/-! Whole numbers as doubles. A double has room for 53 binary digits. Of a longer number the first 53 are kept,
rounded to the nearer neighbour and between two to the even one, so whole numbers up to `2⁵³` are held exactly and
greater ones in their order, but for those that become equal. -/
namespace GoalCompiler.Number

open Float.Model (Format UnpackedFloat totalExponent)
open Float.Model.UnpackedFloat (Sign ExtendedMantissa shiftToTargetExponent roundWithAccuracy)

/-! ### The nearest whole number -/

section Nearest

variable {n q r : Int} {d : Nat}

theorem nearest_eq (hn : n = r + d * q) (h₀ : 0 ≤ r) (hr : r < d) :
    Rounding.nearest n d =
      if 2 * r < d then q else if d < 2 * r then q + 1 else if q % 2 = 0 then q else q + 1 := by
  have hq : n.fdiv d = q := by
    rw [Int.fdiv_eq_ediv_of_nonneg _ (Int.natCast_nonneg d)]
    exact ((Int.ediv_emod_unique (by omega)).mpr ⟨hn.symm, h₀, hr⟩).1
  have htwice : 2 * (n - q * d) = 2 * r := by rw [hn]; ring
  rw [Rounding.nearest]
  simp only [hq, htwice]

theorem nearest_bounds (hn : n = r + d * q) (h₀ : 0 ≤ r) (hr : r < d) :
    q ≤ Rounding.nearest n d ∧ Rounding.nearest n d ≤ q + 1 := by
  rw [nearest_eq hn h₀ hr]
  split
  · omega
  · split
    · omega
    · split <;> omega

theorem exists_quotient (n : Int) (hd : 0 < d) : ∃ q r : Int, n = r + d * q ∧ 0 ≤ r ∧ r < d :=
  ⟨n / d, n % d, (Int.emod_add_mul_ediv n d).symm, Int.emod_nonneg n (by omega), Int.emod_lt_of_pos n (by omega)⟩

theorem nearest_neg (n : Int) (hd : 0 < d) : Rounding.nearest (-n) d = -Rounding.nearest n d := by
  obtain ⟨q, r, hn, h₀, hr⟩ := exists_quotient n hd
  rw [nearest_eq hn h₀ hr]
  rcases h₀.eq_or_lt with rfl | h₀
  · rw [nearest_eq (show -n = 0 + d * -q by rw [hn]; ring) le_rfl hr, if_pos (by omega), if_pos (by omega)]
  · rw [nearest_eq (show -n = (d - r) + d * (-q - 1) by rw [hn]; ring) (by omega) (by omega)]
    split <;> split <;> omega

theorem nearest_mono {m n : Int} (hd : 0 < d) (h : m ≤ n) : Rounding.nearest m d ≤ Rounding.nearest n d := by
  obtain ⟨q, r, hm, h₀, hr⟩ := exists_quotient m hd
  obtain ⟨q', r', hn, h₀', hr'⟩ := exists_quotient n hd
  rcases lt_trichotomy q q' with hq | rfl | hq
  · have hm' := nearest_bounds hm h₀ hr
    have hn' := nearest_bounds hn h₀' hr'
    omega
  · rw [nearest_eq hm h₀ hr, nearest_eq hn h₀' hr']
    split <;> split <;> omega
  · have hle : (d : Int) * (q' + 1) ≤ d * q := by gcongr; omega
    rw [mul_add] at hle
    omega

theorem nearest_one (n : Int) : Rounding.nearest n 1 = n := by
  rw [nearest_eq (show n = 0 + (1 : Nat) * n by simp) le_rfl (by decide), if_pos (by decide)]

theorem nearest_mul_right (m : Nat) (hd : 0 < d) {c : Nat} (hc : 0 < c) :
    Rounding.nearest (m * c : Nat) (d * c) = Rounding.nearest m d := by
  obtain ⟨q, r, hm, h₀, hr⟩ := exists_quotient m hd
  have hc' : (0 : Int) < c := by omega
  rw [nearest_eq hm h₀ hr, nearest_eq (q := q) (r := r * c)]
  · simp only [← mul_assoc, Nat.cast_mul, mul_lt_mul_iff_left₀ hc']
  · push_cast
    rw [hm]
    ring
  · positivity
  · push_cast
    gcongr

end Nearest

/-! ### Digits that are dropped -/

theorem shiftRight_eq (m k : Nat) :
    (⟨m, false, false⟩ : ExtendedMantissa) >>> k =
      ⟨m / 2 ^ k, decide (2 ^ k ≤ 2 * (m % 2 ^ k)), decide (2 * (m % 2 ^ k) % 2 ^ k ≠ 0)⟩ := by
  change Nat.repeat ExtendedMantissa.shiftRightOne k _ = _
  induction k with
  | zero => simp [Nat.repeat, Nat.mod_one]
  | succ k ih =>
    have hr : m % 2 ^ k < 2 ^ k := Nat.mod_lt _ (by positivity)
    have hdigit := Nat.mod_two_eq_zero_or_one (m / 2 ^ k)
    rw [Nat.repeat, ih, ExtendedMantissa.shiftRightOne]
    have hmod : m % 2 ^ (k + 1) = m % 2 ^ k + 2 ^ k * (m / 2 ^ k % 2) := Nat.mod_pow_succ
    simp only [Nat.div_div_eq_div_mul, ← pow_succ, hmod]
    generalize m % 2 ^ k = r at *
    generalize m / 2 ^ k = q at *
    rw [pow_succ]
    generalize 2 ^ k = d at *
    have hsticky : 2 * (r + d * (q % 2)) % (d * 2) = 2 * r := by
      rw [mul_comm d 2, Nat.mul_mod_mul_left, Nat.add_mul_mod_self_left, Nat.mod_eq_of_lt hr]
    rw [hsticky]
    congr 1
    · rcases hdigit with h | h
      · simp [h]
        omega
      · simp [h]
        omega
    · rw [Bool.eq_iff_iff]
      simp only [Bool.or_eq_true, decide_eq_true_eq]
      by_cases h : 2 * r < d
      · rw [Nat.mod_eq_of_lt h]
        omega
      · omega

theorem roundedMantissa_shiftRight (m k : Nat) :
    (((⟨m, false, false⟩ : ExtendedMantissa) >>> k).roundedMantissa : Int) = Rounding.nearest m (2 ^ k) := by
  have hbits (q : Nat) (round sticky : Bool) : (⟨q, round, sticky⟩ : ExtendedMantissa).roundedMantissa =
      if round then if sticky then q + 1 else q + q % 2 else q := by
    cases round <;> cases sticky <;> rfl
  have hm : (m : Int) = (m % 2 ^ k : Nat) + (2 ^ k : Nat) * (m / 2 ^ k : Nat) := by
    exact_mod_cast (Nat.mod_add_div m (2 ^ k)).symm
  have hr : m % 2 ^ k < 2 ^ k := Nat.mod_lt _ (by positivity)
  rw [shiftRight_eq, nearest_eq hm (Int.natCast_nonneg _) (by omega), hbits]
  simp only [decide_eq_true_eq]
  generalize m % 2 ^ k = r at *
  generalize 2 ^ k = d at *
  rcases lt_trichotomy (2 * r) d with h | h | h
  · rw [if_neg h.not_ge, if_pos (by omega)]
  · rw [if_pos h.ge, if_neg (by simp [h]), if_neg (by omega), if_neg (by omega)]
    split <;> omega
  · have hsticky : 2 * r % d = 2 * r - d := by
      rw [Nat.mod_eq_sub_mod h.le, Nat.mod_eq_of_lt (by omega)]
    rw [if_pos h.le, if_pos (by omega), if_neg (by omega), if_pos (by omega)]
    rfl

theorem shiftToTargetExponent_eq {m : Nat} {e : Int} (hm : 52 ≤ m.log2) (he : -1074 ≤ e + (m.log2 - 52)) :
    shiftToTargetExponent .binary64 m e .exact =
      ((⟨m, false, false⟩ : ExtendedMantissa) >>> (m.log2 - 52), e + (m.log2 - 52 : Nat)) := by
  have ht : Format.binary64.targetExponent (totalExponent m e) - e = (m.log2 - 52 : Nat) := by
    change max (m.log2 + 1 + e - 53) (-1074) - e = _
    omega
  unfold shiftToTargetExponent Float.Model.UnpackedFloat.shiftToExponent
  dsimp only
  rw [ht]
  rfl

/-- The first 53 digits of a number, before they are rounded and after. -/
theorem leading_bounds {m : Nat} (hm : 52 ≤ m.log2) :
    2 ^ 52 ≤ Rounding.nearest m (2 ^ (m.log2 - 52)) ∧ Rounding.nearest m (2 ^ (m.log2 - 52)) ≤ 2 ^ 53 := by
  have hne : m ≠ 0 := by
    rintro rfl
    cases hm
  obtain ⟨hlow, hhigh⟩ := (Nat.log2_eq_iff hne).mp rfl
  obtain ⟨k, hk⟩ := Nat.exists_eq_add_of_le hm
  rw [hk] at hlow hhigh ⊢
  rw [Nat.add_sub_cancel_left]
  have hdiv : 2 ^ 52 ≤ m / 2 ^ k ∧ m / 2 ^ k < 2 ^ 53 := by
    rw [Nat.le_div_iff_mul_le (by positivity), Nat.div_lt_iff_lt_mul (by positivity), ← pow_add, ← pow_add]
    exact ⟨hlow, by convert hhigh using 2; omega⟩
  have hbounds := nearest_bounds (q := (m / 2 ^ k : Nat)) (r := (m % 2 ^ k : Nat)) (d := 2 ^ k) (n := m)
    (by exact_mod_cast (Nat.mod_add_div m (2 ^ k)).symm) (Int.natCast_nonneg _)
    (by exact_mod_cast Nat.mod_lt m (show 0 < 2 ^ k by positivity))
  omega

/-- A number of at least 53 digits is rounded to 53. -/
theorem exists_roundWithAccuracy (s : Sign) {m : Nat} {e : Int} (hm : 52 ≤ m.log2)
    (he : -1074 ≤ e + (m.log2 - 52)) :
    ∃ n f, ∃ hn : 0 < n, roundWithAccuracy .binary64 s m e .exact = .finite s n f hn ∧
      2 ^ 52 ≤ n ∧ n < 2 ^ 53 ∧ e + (m.log2 - 52) ≤ f ∧ f ≤ e + (m.log2 - 52) + 1 ∧
      (n * 2 ^ f : ℚ) = Rounding.nearest m (2 ^ (m.log2 - 52)) * 2 ^ (e + (m.log2 - 52)) := by
  obtain ⟨q, hq⟩ : ∃ q, q = ((⟨m, false, false⟩ : ExtendedMantissa) >>> (m.log2 - 52)).roundedMantissa :=
    ⟨_, rfl⟩
  have hnear : (q : Int) = Rounding.nearest m (2 ^ (m.log2 - 52)) := hq ▸ roundedMantissa_shiftRight ..
  have hleading := leading_bounds hm
  -- the one possible result with more digits is a power of two
  obtain ⟨n, k, hn, hlow, hhigh, hlog, hk⟩ :
      ∃ n k, q = n * 2 ^ k ∧ 2 ^ 52 ≤ n ∧ n < 2 ^ 53 ∧ q.log2 = 52 + k ∧ k ≤ 1 := by
    rcases (show q ≤ 2 ^ 53 by omega).lt_or_eq with h | h
    · exact ⟨q, 0, by simp, by omega, h, (Nat.log2_eq_iff (by omega)).mpr ⟨by omega, h⟩, by decide⟩
    · exact ⟨2 ^ 52, 1, h, le_rfl, by decide, h ▸ Nat.log2_two_pow, le_rfl⟩
  have hdigits : q / 2 ^ k = n := by rw [hn, Nat.mul_div_cancel _ (by positivity)]
  refine ⟨n, e + (m.log2 - 52) + k, by omega, ?_, hlow, hhigh, by omega, by omega, ?_⟩
  · unfold roundWithAccuracy
    rw [shiftToTargetExponent_eq hm he]
    dsimp only
    rw [← hq, shiftToTargetExponent_eq (by omega) (by omega), shiftRight_eq]
    have hshift : q.log2 - 52 = k := by omega
    refine (dif_neg ?_).trans (finite_eq ?_ ?_)
    · dsimp only
      rw [hshift, hdigits]
      omega
    · dsimp only
      rw [hshift, hdigits]
    · dsimp only
      omega
  · rw [← hnear, hn, zpow_add₀ two_ne_zero _ (k : Int)]
    push_cast
    rw [zpow_natCast]
    ring

/-! ### Whole numbers of 53 digits -/

/-- The first 53 binary digits of a number, rounded, and zeros in the place of the others. -/
def rounded (n : Int) : Int :=
  let unit := 2 ^ (n.natAbs.log2 - 52)
  Rounding.nearest n unit * unit

theorem rounded_natCast (n : Nat) :
    rounded n = Rounding.nearest n (2 ^ (n.log2 - 52)) * 2 ^ (n.log2 - 52) := by
  simp [rounded]

theorem rounded_neg (n : Int) : rounded (-n) = -rounded n := by
  simp [rounded, nearest_neg]

theorem rounded_of_log2_le {n : Nat} (h : n.log2 ≤ 52) : rounded n = n := by
  rw [rounded_natCast, Nat.sub_eq_zero_of_le h, pow_zero, pow_zero, nearest_one, mul_one]

theorem rounded_of_natAbs_le {n : Int} (h : n.natAbs ≤ 2 ^ 53) : rounded n = n := by
  have hnat {n : Nat} (h : n ≤ 2 ^ 53) : rounded n = n := by
    rcases h.lt_or_eq with h | rfl
    · rcases eq_or_ne n 0 with rfl | hn
      · rfl
      · exact rounded_of_log2_le (Nat.lt_succ_iff.mp ((Nat.log2_lt hn).mpr h))
    · decide
  rcases Int.natAbs_eq n with hn | hn
  · rw [hn, hnat h]
  · rw [hn, rounded_neg, hnat h]

theorem rounded_bounds {n : Nat} (hn : n ≠ 0) : 2 ^ n.log2 ≤ rounded n ∧ rounded n ≤ 2 ^ (n.log2 + 1) := by
  obtain ⟨hlow, hhigh⟩ := (Nat.log2_eq_iff hn).mp rfl
  rcases le_total n.log2 52 with h | h
  · rw [rounded_of_log2_le h]
    exact ⟨by exact_mod_cast hlow, by exact_mod_cast hhigh.le⟩
  · obtain ⟨hleast, hmost⟩ := leading_bounds h
    have hlog : n.log2 = 52 + (n.log2 - 52) := by omega
    rw [rounded_natCast]
    constructor
    · calc (2 : Int) ^ n.log2 = 2 ^ 52 * 2 ^ (n.log2 - 52) := by rw [← pow_add, ← hlog]
        _ ≤ _ := by gcongr
    · calc _ ≤ (2 : Int) ^ 53 * 2 ^ (n.log2 - 52) := by gcongr
        _ = 2 ^ (n.log2 + 1) := by rw [← pow_add]; congr 1; omega

/-- Of two numbers in order the rounded ones are in order, or the same. -/
theorem rounded_mono {m n : Int} (h : m ≤ n) : rounded m ≤ rounded n := by
  have hnonneg (n : Nat) : 0 ≤ rounded n := by
    rcases eq_or_ne n 0 with rfl | hn
    · exact le_rfl
    · exact (rounded_bounds hn).1.trans' (by positivity)
  have hnat {m n : Nat} (h : m ≤ n) : rounded m ≤ rounded n := by
    rcases eq_or_ne m 0 with rfl | hm
    · exact hnonneg n
    · have hn : n ≠ 0 := by omega
      have hlog : m.log2 ≤ n.log2 := (Nat.le_log2 hn).mpr ((Nat.log2_self_le hm).trans h)
      rcases hlog.lt_or_eq with hlog | hlog
      · calc rounded m ≤ 2 ^ (m.log2 + 1) := (rounded_bounds hm).2
          _ ≤ 2 ^ n.log2 := by gcongr <;> omega
          _ ≤ rounded n := (rounded_bounds hn).1
      · rw [rounded_natCast, rounded_natCast, hlog]
        gcongr
        exact nearest_mono (by positivity) (by exact_mod_cast h)
  rcases le_total 0 m with hm | hm
  · lift m to Nat using hm
    lift n to Nat using (Int.natCast_nonneg m).trans h
    exact hnat (by exact_mod_cast h)
  · obtain ⟨m, rfl⟩ := Int.exists_eq_neg_ofNat hm
    rcases le_total 0 n with hn | hn
    · lift n to Nat using hn
      rw [rounded_neg]
      exact (neg_nonpos.mpr (hnonneg m)).trans (hnonneg n)
    · obtain ⟨n, rfl⟩ := Int.exists_eq_neg_ofNat hn
      rw [rounded_neg, rounded_neg]
      exact neg_le_neg (hnat (by omega))

/-! ### Doubles of whole numbers -/

/-- The double stands for the number. -/
def Holds (x : Float) (n : Int) : Prop :=
  x.isFinite ∧ value x.toModel.unpack = n

theorem holds_of_unpack {x : Float} {m : Nat} {f n : Int} (hm : 0 < m)
    (hx : x.toModel.unpack = .finite .positive m f hm) (hvalue : (m * 2 ^ f : ℚ) = n) : Holds x n := by
  rw [Holds, isFinite_eq, hx, value_positive]
  exact ⟨rfl, hvalue⟩

theorem Holds.lt_iff {x y : Float} {m n : Int} (hx : Holds x m) (hy : Holds y n) : x < y ↔ m < n := by
  rw [lt_iff_value hx.1 hy.1, hx.2, hy.2, Int.cast_lt]

theorem Holds.beq_iff {x y : Float} {m n : Int} (hx : Holds x m) (hy : Holds y n) :
    (x == y) = true ↔ m = n := by
  rw [beq_iff_value hx.1 hy.1, hx.2, hy.2, Int.cast_inj]

theorem Holds.of_beq {x y : Float} {n : Int} (hx : Holds x n) (h : (x == y) = true) : Holds y n := by
  obtain ⟨hfinite, hvalue⟩ := hx
  rw [isFinite_eq] at hfinite
  rw [Holds, isFinite_eq]
  rcases eq_of_compare (beq_iff_compare.mp h) with ⟨s, t, hs, ht⟩ | hsame
  · rw [hs] at hvalue
    rw [ht]
    exact ⟨rfl, hvalue⟩
  · rw [← hsame]
    exact ⟨hfinite, hvalue⟩

/-- Zeros at the end do not change what a number is rounded to. -/
theorem nearest_shifted {n j : Nat} (hj : 52 ≤ n.log2 + j) :
    (Rounding.nearest (n * 2 ^ j : Nat) (2 ^ (n.log2 + j - 52)) * 2 ^ ((n.log2 : Int) - 52) : ℚ) = rounded n := by
  rcases le_total 52 n.log2 with h | h
  · rw [show n.log2 + j - 52 = (n.log2 - 52) + j by omega, pow_add,
      nearest_mul_right _ (by positivity) (by positivity), rounded_natCast,
      show (n.log2 : Int) - 52 = (n.log2 - 52 : Nat) by omega, zpow_natCast]
    push_cast
    rfl
  · obtain ⟨k, rfl⟩ := Nat.exists_eq_add_of_le (show 52 - n.log2 ≤ j by omega)
    have hnear := nearest_mul_right (n * 2 ^ (52 - n.log2)) one_pos (show 0 < 2 ^ k by positivity)
    rw [one_mul, nearest_one] at hnear
    rw [show n.log2 + (52 - n.log2 + k) - 52 = k by omega, pow_add, ← mul_assoc, hnear, rounded_of_log2_le h,
      show (n.log2 : Int) - 52 = -(52 - n.log2 : Nat) by omega, zpow_neg, zpow_natCast]
    push_cast
    field_simp

theorem log2_mul_two_pow {n : Nat} (hn : n ≠ 0) (j : Nat) : (n * 2 ^ j).log2 = n.log2 + j := by
  obtain ⟨hlow, hhigh⟩ := (Nat.log2_eq_iff hn).mp rfl
  rw [Nat.log2_eq_iff (by positivity), pow_add, Nat.add_right_comm, pow_add _ _ j]
  exact ⟨Nat.mul_le_mul_right _ hlow, Nat.mul_lt_mul_of_pos_right hhigh (by positivity)⟩

/-- A whole number, written with zeros at the end, is rounded as a double. -/
theorem exists_round_shifted (s : Sign) {n j : Nat} (hn : n ≠ 0) (hj : 52 ≤ n.log2 + j) :
    ∃ m f, ∃ hm : 0 < m, roundWithAccuracy .binary64 s (n * 2 ^ j) (-j) .exact = .finite s m f hm ∧
      2 ^ 52 ≤ m ∧ m < 2 ^ 53 ∧ (n.log2 : Int) - 52 ≤ f ∧ f ≤ n.log2 - 51 ∧
      (m * 2 ^ f : ℚ) = rounded n := by
  have hlog := log2_mul_two_pow hn j
  obtain ⟨m, f, hm, hround, hlow, hhigh, hf, hf', hvalue⟩ :=
    exists_roundWithAccuracy s (m := n * 2 ^ j) (e := -j) (by omega) (by omega)
  rw [hlog] at hf hf' hvalue
  refine ⟨m, f, hm, hround, hlow, hhigh, by omega, by omega, ?_⟩
  rw [hvalue, ← nearest_shifted hj]
  congr 2
  push_cast
  ring

section Conversion

variable {n : Nat}

theorem ofUInt64_eq (hn : n ≠ 0) (h : n < 2 ^ 53) :
    UnpackedFloat.ofUInt64 .binary64 n.toUInt64 =
      roundWithAccuracy .binary64 .positive (n * 2 ^ (52 - n.log2)) (-((52 - n.log2 : Nat) : Int)) .exact := by
  have hlog : n.log2 < 53 := (Nat.log2_lt hn).mpr h
  have hword : n.toUInt64.toNat = n := UInt64.toNat_ofNat_of_lt' (by change n < 2 ^ 64; omega)
  have htarget : Format.binary64.targetExponent (totalExponent n 0) = (-((52 - n.log2 : Nat) : Int)) := by
    change max ((n.log2 : Int) + 1 + 0 - 53) (-1074) = _
    omega
  have hpositive : compare (n : Int) 0 = .gt := by
    rw [Int.compare_eq_gt]
    omega
  unfold UnpackedFloat.ofUInt64 UnpackedFloat.ofNat UnpackedFloat.ofInt UnpackedFloat.normalize
  rw [hword, hpositive]
  dsimp only
  rw [UnpackedFloat.round, Int.toNat_natCast, htarget]
  unfold UnpackedFloat.decreaseExponent
  dsimp only
  rw [zero_sub, neg_neg, Int.toNat_natCast, Nat.shiftLeft_eq, zero_sub]

/-- A number of up to 53 digits is multiplied by one, which rounds it once more. -/
theorem holds_ofNat_of_lt (hn : n ≠ 0) (h : n < 2 ^ 53) : Holds (Float.ofNat n) (rounded n) := by
  have hlog : n.log2 < 53 := (Nat.log2_lt hn).mpr h
  obtain ⟨m, f, hm, hround, hlow, hhigh, hf, hf', hvalue⟩ := exists_round_shifted .positive hn
    (show 52 ≤ n.log2 + (52 - n.log2) by omega)
  have hword : (Float.Model.ofUInt64 n.toUInt64).unpack = .finite .positive m f hm := by
    change (Float.Model.pack _).unpack = _
    rw [ofUInt64_eq hn h, hround]
    exact unpack_pack ⟨hhigh, .inl hlow, by omega, by omega⟩
  have hone : (Float.ofBits 0x3FF0000000000000).toModel.unpack = .finite .positive (2 ^ 52) (-52) (by decide) :=
    rfl
  have hmodel : (Float.ofNat n).toModel =
      Float.Model.pack (roundWithAccuracy .binary64 .positive (m * 2 ^ 52) (f + -52) .exact) := by
    change (Float.ofScientific n false 0).toModel = _
    rw [Float.ofScientific, dif_pos ⟨h, by decide⟩]
    change Float.Model.pack (UnpackedFloat.mul .binary64 (Float.Model.ofUInt64 n.toUInt64).unpack
      (Float.ofBits 0x3FF0000000000000).toModel.unpack) = _
    rw [hword, hone]
    rfl
  have hlog' : (m * 2 ^ 52).log2 = 104 := by
    rw [log2_mul_two_pow hm.ne', (Nat.log2_eq_iff hm.ne').mpr ⟨hlow, hhigh⟩]
  obtain ⟨m', f', hm', hround', hlow', hhigh', hf₁, hf₂, hvalue'⟩ :=
    exists_roundWithAccuracy .positive (m := m * 2 ^ 52) (e := f + -52) (by omega) (by omega)
  rw [hlog'] at hf₁ hf₂ hvalue'
  refine holds_of_unpack hm' (f := f') ?_ ?_
  · rw [hmodel, hround']
    exact unpack_pack ⟨hhigh', .inl hlow', by omega, by omega⟩
  · have hnear := nearest_mul_right m one_pos (show 0 < 2 ^ 52 by decide)
    rw [one_mul, nearest_one] at hnear
    rw [hvalue', ← hvalue, hnear]
    congr 2
    push_cast
    ring

theorem holds_ofNat_of_le (h : 2 ^ 53 ≤ n) (h' : n < 2 ^ 64) : Holds (Float.ofNat n) (rounded n) := by
  have hn : n ≠ 0 := by omega
  have hlog : n.log2 < 64 := (Nat.log2_lt hn).mpr h'
  obtain ⟨m, f, hm, hround, hlow, hhigh, hf, hf', hvalue⟩ := exists_round_shifted .positive hn
    (show 52 ≤ n.log2 + 53 by omega)
  have hmodel : (Float.ofNat n).toModel =
      Float.Model.pack (roundWithAccuracy .binary64 .positive (n * 2 ^ 53) (-53) .exact) := by
    change (Float.ofScientific n false 0).toModel = _
    rw [Float.ofScientific, dif_neg (by omega)]
    change Float.Model.pack (UnpackedFloat.ofScientific .binary64 n 0) = _
    unfold UnpackedFloat.ofScientific
    rw [dif_neg hn, if_neg (by decide), if_neg, if_pos le_rfl]
    · change Float.Model.pack (roundWithAccuracy .binary64 .positive ((n <<< 53) * 1) (-53 + 0) .exact) = _
      rw [Nat.shiftLeft_eq, mul_one]
      rfl
    · change ¬ (0 : Int) < -(2048 + n.log2)
      omega
  refine holds_of_unpack hm ?_ hvalue
  rw [hmodel]
  change (Float.Model.pack (roundWithAccuracy .binary64 .positive (n * 2 ^ 53) (-(53 : Nat)) .exact)).unpack = _
  rw [hround]
  exact unpack_pack ⟨hhigh, .inl hlow, by omega, by omega⟩

theorem holds_ofNat (h : n < 2 ^ 64) : Holds (Float.ofNat n) (rounded n) := by
  rcases eq_or_ne n 0 with rfl | hn
  · exact ⟨rfl, rfl⟩
  · rcases lt_or_ge n (2 ^ 53) with hsmall | hlarge
    · exact holds_ofNat_of_lt hn hsmall
    · exact holds_ofNat_of_le hlarge h

end Conversion

theorem holds_ofInt {n : Int} (h : n.natAbs < 2 ^ 64) : Holds (Float.ofInt n) (rounded n) := by
  cases n with
  | ofNat n => exact holds_ofNat h
  | negSucc n =>
    obtain ⟨hfinite, hvalue⟩ := holds_ofNat (n := n + 1) h
    refine ⟨?_, ?_⟩
    · exact (isFinite_neg _).trans hfinite
    · change value (-Float.ofNat (n + 1)).toModel.unpack = rounded (-((n + 1 : Nat) : Int))
      rw [unpack_neg, value_neg, hvalue, rounded_neg]
      push_cast
      rfl

end GoalCompiler.Number
