import GoalCompiler.Proofs.Number.Order
import Mathlib.Algebra.Order.Field.Power
import Mathlib.Data.Rat.Cast.Order
import Mathlib.Tactic.Positivity
import Mathlib.Tactic.Ring

/-! Doubles and the numbers that they stand for. A double is unpacked into a sign, digits and an exponent, in one
form for each number: 53 digits, or fewer with the least exponent. What has this form is packed without loss, so
signs change nothing else; and finite doubles are in the order of their numbers. -/
namespace GoalCompiler.Number

open Float.Model (Format UnpackedFloat)
open Float.Model.UnpackedFloat (Sign unpack pack packComponents packedInfinity unpackExponent unpackMantissa unpackSign
  unpackExponent_packComponents unpackMantissa_packComponents)

/-! ### The parts of a double -/

theorem finite_eq {s : Sign} {m n : Nat} {e f : Int} {hm : 0 < m} {hn : 0 < n} (hmn : m = n) (hef : e = f) :
    UnpackedFloat.finite s m e hm = .finite s n f hn := by
  subst hmn hef
  rfl

theorem leadingOne_toNat (f : BitVec 52) : (1#1 ++ f).toNat = 2 ^ 52 + f.toNat :=
  (Nat.two_pow_add_eq_or_of_lt f.isLt 1).symm

/-- What a sign, eleven bits for the exponent and 52 digits stand for. -/
def ofParts (s : Sign) (k : BitVec 11) (f : BitVec 52) : UnpackedFloat :=
  if k = -1#11 then if f = 0#52 then .infinity s else .notANumber
  else if k = 0#11 then
    if hf : f = 0#52 then .zero s
    else .finite s f.toNat (-1074) (Nat.pos_of_ne_zero fun h => hf (BitVec.eq_of_toNat_eq h))
  else .finite s (2 ^ 52 + f.toNat) (k.toNat - 1075) (by omega)

theorem unpack_eq (b : BitVec 64) :
    unpack .binary64 b = ofParts (.ofBitVec (@unpackSign .binary64 b)) (@unpackExponent .binary64 b)
      (@unpackMantissa .binary64 b) := by
  unfold unpack ofParts
  dsimp only
  refine ite_congr rfl (fun _ => rfl) fun _ => ite_congr rfl (fun hk => ?_) fun _ => ?_
  · rw [hk]
    rfl
  · exact finite_eq (leadingOne_toNat _) rfl

theorem unpackSign_eq {b : BitVec 64} : @unpackSign .binary64 b = b.extractLsb' 63 1 := rfl

theorem first_append {b : BitVec 1} {k : BitVec 11} {f : BitVec 52} : (b ++ k ++ f).extractLsb' 63 1 = b := by
  calc (b ++ k ++ f).extractLsb' 63 1 = (b ++ k).extractLsb' 11 1 := BitVec.extractLsb'_append_eq_of_le (by decide)
    _ = b.extractLsb' 0 1 := BitVec.extractLsb'_append_eq_of_le le_rfl
    _ = b := BitVec.extractLsb'_eq_self

theorem sign_packComponents {s : Sign} {k : BitVec 11} {f : BitVec 52} :
    Sign.ofBitVec (@unpackSign .binary64 (packComponents .binary64 s k f)) = s := by
  have hsign : @unpackSign .binary64 (packComponents .binary64 s k f) = s.toBitVec := first_append
  rw [hsign]
  cases s <;> rfl

theorem unpack_packComponents (s : Sign) (k : BitVec 11) (f : BitVec 52) :
    unpack .binary64 (packComponents .binary64 s k f) = ofParts s k f := by
  have hk : @unpackExponent .binary64 (packComponents .binary64 s k f) = k := unpackExponent_packComponents
  have hf : @unpackMantissa .binary64 (packComponents .binary64 s k f) = f := unpackMantissa_packComponents
  rw [unpack_eq, sign_packComponents, hk, hf]

/-! ### The form of a double -/

/-- There are 53 digits, or fewer with the least exponent. -/
def Canonical : UnpackedFloat → Prop
  | .finite _ m e _ => m < 2 ^ 53 ∧ (2 ^ 52 ≤ m ∨ e = -1074) ∧ -1074 ≤ e ∧ e ≤ 971
  | _ => True

theorem canonical_ofParts (s : Sign) (k : BitVec 11) (f : BitVec 52) : Canonical (ofParts s k f) := by
  have hf := f.isLt
  rw [ofParts]
  by_cases hmost : k = -1#11
  · rw [if_pos hmost]
    by_cases hnone : f = 0#52
    · exact if_pos hnone ▸ trivial
    · exact if_neg hnone ▸ trivial
  · rw [if_neg hmost]
    by_cases hleast : k = 0#11
    · rw [if_pos hleast]
      by_cases hnone : f = 0#52
      · exact dif_pos hnone ▸ trivial
      · rw [dif_neg hnone]
        exact ⟨by omega, .inr rfl, by decide, by decide⟩
    · rw [if_neg hleast]
      have hmost : k.toNat ≠ 2047 := fun h => hmost (BitVec.eq_of_toNat_eq h)
      have hleast : k.toNat ≠ 0 := fun h => hleast (BitVec.eq_of_toNat_eq h)
      exact ⟨by omega, .inl (by omega), by omega, by omega⟩

theorem canonical_unpack (x : Float) : Canonical x.toModel.unpack := by
  change Canonical (unpack .binary64 x.toModel.toBits.toBitVec)
  rw [unpack_eq]
  exact canonical_ofParts ..

theorem pack_finite {s : Sign} {m : Nat} {e : Int} {hm : 0 < m} :
    pack .binary64 (.finite s m e hm) =
      if 2048 ≤ (e + 1023 + 52).toNat + 1 then packedInfinity .binary64 s
      else if m.log2 + 1 = 53 then packComponents .binary64 s (.ofNat 11 (e + 1023 + 52).toNat) (.ofNat 52 m)
      else packComponents .binary64 s 0#11 (.ofNat 52 m) := rfl

/-- Where the exponent is neither the least nor the greatest, the first of the 53 digits is one that is left out. -/
theorem ofParts_full {s : Sign} {k : BitVec 11} {f : BitVec 52} {m : Nat} {e : Int} {hm : 0 < m}
    (hk : (k.toNat : Int) = e + 1075) (hleast : -1074 ≤ e) (hmost : e ≤ 971) (hf : 2 ^ 52 + f.toNat = m) :
    ofParts s k f = .finite s m e hm := by
  rw [ofParts, if_neg, if_neg]
  · exact finite_eq hf (by omega)
  · rintro rfl
    change ((0 : Nat) : Int) = _ at hk
    omega
  · rintro rfl
    change ((2047 : Nat) : Int) = _ at hk
    omega

theorem ofParts_few {s : Sign} {f : BitVec 52} {m : Nat} {hm : 0 < m} (hf : f.toNat = m) :
    ofParts s 0#11 f = .finite s m (-1074) hm := by
  rw [ofParts, if_neg (by decide), if_pos rfl, dif_neg]
  · exact finite_eq hf rfl
  · rintro rfl
    exact hm.ne hf

theorem unpack_pack {u : UnpackedFloat} (hu : Canonical u) : (Float.Model.pack u).unpack = u := by
  change unpack .binary64 (pack .binary64 u) = u
  cases u with
  | notANumber => exact unpack_packComponents ..
  | infinity s => exact unpack_packComponents ..
  | zero s => exact unpack_packComponents ..
  | finite s m e hm =>
    obtain ⟨hlt, hform, hleast, hmost⟩ := hu
    rw [pack_finite, if_neg (by omega)]
    by_cases hlog : m.log2 + 1 = 53
    · obtain ⟨hfull, -⟩ := (Nat.log2_eq_iff hm.ne').mp (Nat.succ.inj hlog)
      rw [if_pos hlog, unpack_packComponents]
      refine ofParts_full ?_ hleast hmost ?_
      · rw [BitVec.toNat_ofNat]
        omega
      · rw [BitVec.toNat_ofNat]
        omega
    · have hfew : m < 2 ^ 52 := by
        by_contra hfull
        exact hlog (congrArg (· + 1) ((Nat.log2_eq_iff hm.ne').mpr ⟨by omega, hlt⟩))
      obtain rfl : e = -1074 := hform.resolve_left (by omega)
      rw [if_neg hlog, unpack_packComponents]
      exact ofParts_few (Nat.mod_eq_of_lt hfew)

/-! ### Signs -/

theorem canonical_neg {u : UnpackedFloat} (hu : Canonical u) : Canonical u.neg := by
  cases u with
  | finite => exact hu
  | _ => trivial

theorem canonical_abs {u : UnpackedFloat} (hu : Canonical u) : Canonical u.abs := by
  cases u with
  | finite => exact hu
  | _ => trivial

theorem unpack_neg (x : Float) : (-x).toModel.unpack = x.toModel.unpack.neg :=
  unpack_pack (canonical_neg (canonical_unpack x))

theorem unpack_abs (x : Float) : x.abs.toModel.unpack = x.toModel.unpack.abs :=
  unpack_pack (canonical_abs (canonical_unpack x))

theorem isFinite_eq (x : Float) : x.isFinite = x.toModel.unpack.isFinite := rfl

theorem isFinite_neg (x : Float) : (-x).isFinite = x.isFinite := by
  rw [isFinite_eq, isFinite_eq, unpack_neg]
  cases x.toModel.unpack <;> rfl

theorem isFinite_abs (x : Float) : x.abs.isFinite = x.isFinite := by
  rw [isFinite_eq, isFinite_eq, unpack_abs]
  cases x.toModel.unpack <;> rfl

/-! ### The order of doubles -/

/-- The number that a finite double stands for. -/
def value : UnpackedFloat → ℚ
  | .finite s m e _ => s.apply m * 2 ^ e
  | _ => 0

section Value

variable {u v : UnpackedFloat} {m n : Nat} {e f : Int}

theorem value_finite {s : Sign} {hm : 0 < m} : value (.finite s m e hm) = s.apply m * 2 ^ e := rfl

@[simp]
theorem value_positive {hm : 0 < m} : value (.finite .positive m e hm) = m * 2 ^ e := by
  rw [value_finite, Sign.apply, Int.cast_natCast]

@[simp]
theorem value_negative {hm : 0 < m} : value (.finite .negative m e hm) = -(m * 2 ^ e) := by
  rw [value_finite, Sign.apply, Int.cast_neg, Int.cast_natCast, neg_mul]

theorem value_neg (u : UnpackedFloat) : value u.neg = -value u := by
  cases u with
  | finite s m e hm =>
    cases s
    · rw [value_negative, neg_neg]
      exact value_positive
    · rw [value_positive]
      exact value_negative
  | _ => exact neg_zero.symm

/-- The greater exponent decides, as the digits with it fill their places. -/
theorem compare_digits (hm : m < 2 ^ 53) (hme : 2 ^ 52 ≤ m ∨ e = -1074) (he : -1074 ≤ e)
    (hn : n < 2 ^ 53) (hnf : 2 ^ 52 ≤ n ∨ f = -1074) (hf : -1074 ≤ f) :
    (compare e f).then (compare m n) = compare (m * 2 ^ e : ℚ) (n * 2 ^ f) := by
  have hlt {m n : Nat} {e f : Int} (hm : m < 2 ^ 53) (he : -1074 ≤ e) (hnf : 2 ^ 52 ≤ n ∨ f = -1074)
      (hef : e < f) : (m * 2 ^ e : ℚ) < n * 2 ^ f := by
    have hn : 2 ^ 52 ≤ n := hnf.resolve_right (by omega)
    calc (m * 2 ^ e : ℚ) < 2 ^ 53 * 2 ^ e := by gcongr; exact_mod_cast hm
      _ = 2 ^ 52 * 2 ^ (e + 1) := by rw [zpow_add_one₀ two_ne_zero]; ring
      _ ≤ n * 2 ^ f := by
        gcongr
        · exact_mod_cast hn
        · norm_num
        · omega
  rcases lt_trichotomy e f with hef | rfl | hef
  · rw [compare_lt_iff_lt.mpr hef, compare_lt_iff_lt.mpr (hlt hm he hnf hef)]
    rfl
  · have hpos : (0 : ℚ) < 2 ^ e := by positivity
    rw [compare_eq_iff_eq.mpr rfl, Ordering.eq_then, ← cmp_eq_compare, ← cmp_eq_compare,
      cmp_mul_pos_right hpos]
    exact (Nat.strictMono_cast.cmp_map_eq m n).symm
  · rw [compare_gt_iff_gt.mpr hef, compare_gt_iff_gt.mpr (hlt hn hf hme hef)]
    rfl

/-- Finite doubles are in the order of the numbers that they stand for. -/
theorem compare_eq_of_canonical (hu : Canonical u) (hv : Canonical v) (huf : u.isFinite)
    (hvf : v.isFinite) : u.compare v = some (compare (value u) (value v)) := by
  have hpos {m : Nat} {e : Int} (hm : 0 < m) : (0 : ℚ) < m * 2 ^ e := by
    have hm' : (0 : ℚ) < m := by exact_mod_cast hm
    positivity
  have hneg {m : Nat} {e : Int} (hm : 0 < m) : -(m * 2 ^ e : ℚ) < 0 := neg_neg_of_pos (hpos hm)
  cases u with
  | notANumber => cases huf
  | infinity => cases huf
  | zero s =>
    cases v with
    | notANumber => cases hvf
    | infinity => cases hvf
    | zero t => rfl
    | finite t n f hn =>
      cases t
      case positive => exact congrArg some (compare_lt_iff_lt.mpr (value_positive ▸ hpos hn)).symm
      case negative => exact congrArg some (compare_gt_iff_gt.mpr (value_negative ▸ hneg hn)).symm
  | finite s m e hm =>
    obtain ⟨hm₁, hm₂, he, -⟩ := hu
    cases v with
    | notANumber => cases hvf
    | infinity => cases hvf
    | zero t =>
      cases s
      case positive => exact congrArg some (compare_gt_iff_gt.mpr (value_positive ▸ hpos hm)).symm
      case negative => exact congrArg some (compare_lt_iff_lt.mpr (value_negative ▸ hneg hm)).symm
    | finite t n f hn =>
      obtain ⟨hn₁, hn₂, hf, -⟩ := hv
      have hsame := compare_digits hm₁ hm₂ he hn₁ hn₂ hf
      cases s <;> cases t
      case positive.positive =>
        rw [value_positive, value_positive, ← hsame]
        rfl
      case negative.negative =>
        have hswap (p q : ℚ) : compare (-p) (-q) = (compare p q).swap := by
          rw [← cmp_eq_compare, ← cmp_eq_compare, cmp_swap]
          exact StrictAnti.cmp_map_eq (f := fun r : ℚ => -r) (fun _ _ => neg_lt_neg) p q
        rw [value_negative, value_negative, hswap, ← hsame]
        rfl
      case positive.negative =>
        rw [value_positive, value_negative]
        exact congrArg some (compare_gt_iff_gt.mpr ((hneg hn).trans (hpos hm))).symm
      case negative.positive =>
        rw [value_positive, value_negative]
        exact congrArg some (compare_lt_iff_lt.mpr ((hneg hm).trans (hpos hn))).symm

end Value

section Order

variable {x y : Float}

theorem compare_unpack (hx : x.isFinite) (hy : y.isFinite) :
    x.toModel.unpack.compare y.toModel.unpack =
      some (compare (value x.toModel.unpack) (value y.toModel.unpack)) :=
  compare_eq_of_canonical (canonical_unpack x) (canonical_unpack y) hx hy

theorem lt_iff_value (hx : x.isFinite) (hy : y.isFinite) :
    x < y ↔ value x.toModel.unpack < value y.toModel.unpack := by
  rw [lt_iff_compare, compare_unpack hx hy, Option.some_inj, compare_lt_iff_lt]

theorem beq_iff_value (hx : x.isFinite) (hy : y.isFinite) :
    (x == y) = true ↔ value x.toModel.unpack = value y.toModel.unpack := by
  rw [beq_iff_compare, compare_unpack hx hy, Option.some_inj, compare_eq_iff_eq]

end Order

end GoalCompiler.Number
