import GoalCompiler.Embedding.Similarity
import Mathlib.Order.Compare

/-! The order of doubles and singles. Numbers that compare as equal are the same number or both zeros, so they
stand in one order to all others; and what is at most another number is not greater than it. -/
namespace GoalCompiler.Number

open Float.Model (UnpackedFloat)

section Unpacked

variable {a b : UnpackedFloat}

theorem compare_swap (a b : UnpackedFloat) : b.compare a = (a.compare b).map Ordering.swap := by
  cases a with
  | notANumber =>
    cases b with
    | infinity t => cases t <;> rfl
    | finite t n f k => cases t <;> rfl
    | _ => rfl
  | infinity s =>
    cases b with
    | infinity t => cases s <;> cases t <;> rfl
    | _ => cases s <;> rfl
  | zero s =>
    cases b with
    | infinity t => cases t <;> rfl
    | finite t m e h => cases t <;> rfl
    | _ => rfl
  | finite s m e h =>
    cases b with
    | infinity t => cases s <;> cases t <;> rfl
    | notANumber => cases s <;> rfl
    | zero t => cases s <;> rfl
    | finite t n f k =>
      have hthen : (compare f e).then (compare n m) = ((compare e f).then (compare m n)).swap := by
        have he : compare f e = (compare e f).swap := Std.OrientedCmp.eq_swap
        have hm : compare n m = (compare m n).swap := Std.OrientedCmp.eq_swap
        rw [Ordering.swap_then, he, hm]
      cases s <;> cases t
      case positive.positive => exact congrArg some hthen
      case negative.negative => exact congrArg (fun o => some o.swap) hthen
      all_goals rfl

/-- Equal numbers are zeros, whatever their signs, or one number. -/
theorem eq_of_compare (h : a.compare b = some .eq) :
    (∃ s t, a = .zero s ∧ b = .zero t) ∨ a = b := by
  cases a with
  | notANumber => cases h
  | infinity s =>
    cases b with
    | infinity t => cases s <;> cases t <;> first | exact .inr rfl | cases h
    | _ => cases s <;> cases h
  | zero s =>
    cases b with
    | zero t => exact .inl ⟨s, t, rfl, rfl⟩
    | infinity t => cases t <;> cases h
    | finite t m e hm => cases t <;> cases h
    | notANumber => cases h
  | finite s m e hm =>
    cases b with
    | infinity t => cases s <;> cases t <;> cases h
    | notANumber => cases s <;> cases h
    | zero t => cases s <;> cases h
    | finite t n f hn =>
      have hsame : (compare e f).then (compare m n) = .eq → e = f ∧ m = n := by
        simp [Ordering.then_eq_eq]
      cases s <;> cases t
      case positive.positive =>
        obtain ⟨rfl, rfl⟩ := hsame (Option.some.inj h)
        exact .inr rfl
      case negative.negative =>
        obtain ⟨rfl, rfl⟩ := hsame (Ordering.swap_eq_eq.mp (Option.some.inj h))
        exact .inr rfl
      all_goals cases h

theorem compare_congr (h : a.compare b = some .eq) (c : UnpackedFloat) : a.compare c = b.compare c := by
  rcases eq_of_compare h with ⟨s, t, rfl, rfl⟩ | rfl
  · cases c with
    | infinity u => cases u <;> rfl
    | finite u m e hm => cases u <;> rfl
    | _ => rfl
  · rfl

theorem compare_congr_right (h : a.compare b = some .eq) (c : UnpackedFloat) : c.compare a = c.compare b := by
  rw [compare_swap a c, compare_swap b c, compare_congr h]

end Unpacked

theorem not_lt_of_le {x y : Float32} (h : x ≤ y) : ¬ y < x := by
  intro hlt
  have hle : x.toModel ≤ y.toModel := of_decide_eq_true h
  have hgt : y.toModel < x.toModel := of_decide_eq_true hlt
  change x.toModel.unpack.le y.toModel.unpack = true at hle
  change y.toModel.unpack.lt x.toModel.unpack = true at hgt
  rw [UnpackedFloat.lt, compare_swap x.toModel.unpack, beq_iff_eq, Option.map_eq_some_iff] at hgt
  obtain ⟨o, ho, hswap⟩ := hgt
  obtain rfl : o = .gt := by cases o <;> first | rfl | cases hswap
  rw [UnpackedFloat.le, ho] at hle
  cases hle

section Same

variable {x y : Float}

theorem beq_iff_compare : (x == y) = true ↔ x.toModel.unpack.compare y.toModel.unpack = some .eq := by
  change (x.toModel.unpack.compare y.toModel.unpack == some .eq) = true ↔ _
  exact beq_iff_eq

theorem lt_iff_compare : x < y ↔ x.toModel.unpack.compare y.toModel.unpack = some .lt := by
  have hlt : x < y ↔ x.toModel.unpack.lt y.toModel.unpack = true :=
    ⟨fun h => of_decide_eq_true h, fun h => decide_eq_true h⟩
  rw [hlt, UnpackedFloat.lt, beq_iff_eq]

theorem lt_congr_of_beq (h : (x == y) = true) (z : Float) : (x < z ↔ y < z) ∧ (z < x ↔ z < y) := by
  have hxy := beq_iff_compare.mp h
  simp only [lt_iff_compare, compare_congr hxy, compare_congr_right hxy, and_self]

theorem beq_congr_of_beq (h : (x == y) = true) (z : Float) : (z == x) = (z == y) := by
  rw [Bool.eq_iff_iff, beq_iff_compare, beq_iff_compare, compare_congr_right (beq_iff_compare.mp h)]

end Same

end GoalCompiler.Number
