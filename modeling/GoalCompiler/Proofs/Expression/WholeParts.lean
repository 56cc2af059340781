import GoalCompiler.Expression.Function
import GoalCompiler.Proofs.Expression.Ordering
import GoalCompiler.Proofs.Number.Integral

/-! The functions `round`, `floor`, `ceil` and `trunc` on whole numbers. They go by way of doubles: a whole number
comes back as what it is rounded to, or not at all where its double reaches the bound of what a function takes for
a whole number. So those come back as they are that have no digit after the 53rd and stay below that bound. -/
namespace GoalCompiler.Expression

open Number (Holds Rounding rounded rounded_mono rounded_eq_iff rounded_of_natAbs_le holds_roundTo
  whole?_of_holds)

variable {f : Function} {r : Rounding}

theorem holds_wholeBound : Holds Function.wholeBound 9200000000000000000 := by
  refine Number.holds_of_unpack (m := 8984375000000000) (f := 10) (by decide) rfl ?_
  norm_num

theorem whole_of_holds {x : Float} {n : Int} (h : Holds x n) :
    f.whole x =
      if |n| < 9200000000000000000 then .ok (.int (Int64.ofInt n)) else f.fails .overflow := by
  have hless : x.abs < Function.wholeBound ↔ |n| < 9200000000000000000 := h.abs.lt_iff holds_wholeBound
  unfold Function.whole
  simp [h.1, hless, whole?_of_holds Rounding.keepsWhole_towardZero h]

/-- The rounding of a function that gives whole numbers. -/
def Function.rounding? : Function → Option Rounding
  | .round => some .nearest
  | .floor => some .down
  | .ceil => some .up
  | .trunc => some .towardZero
  | _ => none

theorem keepsWhole_of_rounding? (h : f.rounding? = some r) : r.KeepsWhole := by
  cases f <;> cases h
  · exact Rounding.keepsWhole_nearest
  · exact Rounding.keepsWhole_down
  · exact Rounding.keepsWhole_up
  · exact Rounding.keepsWhole_towardZero

theorem call_of_rounding? (h : f.rounding? = some r) (n : Int64) :
    call f.name [.int n] = f.whole (Number.roundTo r (Float.ofInt n.toInt)) := by
  cases f <;> cases h <;> rfl

theorem natAbs_rounded_le (n : Int64) : (rounded n.toInt).natAbs ≤ 2 ^ 63 := by
  have hleast : rounded (-2 ^ 63) = -2 ^ 63 := by decide +kernel
  have hmost : rounded (2 ^ 63) = 2 ^ 63 := by decide +kernel
  have hlow := rounded_mono n.le_toInt
  have hhigh := rounded_mono n.toInt_lt.le
  omega

theorem call_word (h : f.rounding? = some r) (n : Int64) :
    call f.name [.int n] =
      if |rounded n.toInt| < 9200000000000000000 then .ok (.int (Int64.ofInt (rounded n.toInt)))
      else .error (.arithmetic (.inCall f.name .overflow)) := by
  have hfits : (rounded n.toInt).natAbs < 2 ^ 64 := (natAbs_rounded_le n).trans_lt (by decide)
  rw [call_of_rounding? h, whole_of_holds (holds_roundTo (keepsWhole_of_rounding? h) (holds_word n) hfits)]
  rfl

/-- What a rounding function makes of a whole number is what the number is rounded to as a double, or an overflow if
that reaches the bound. The number itself comes back exactly if it has no digit after the 53rd and is below the
bound. -/
theorem word_back_iff (h : f.rounding? = some r) (n : Int64) :
    call f.name [.int n] =
      (if |rounded n.toInt| < 9200000000000000000 then .ok (.int (Int64.ofInt (rounded n.toInt)))
      else .error (.arithmetic (.inCall f.name .overflow))) ∧
    (call f.name [.int n] = .ok (.int n) ↔
      ((2 ^ (n.toInt.natAbs.log2 - 52) : Nat) : Int) ∣ n.toInt ∧ |n.toInt| < 9200000000000000000) := by
  refine ⟨call_word h n, ?_⟩
  rw [call_word h n, ← rounded_eq_iff]
  constructor
  · intro hn
    split at hn
    · rename_i hless
      have hsame : Int64.ofInt (rounded n.toInt) = n := by
        injection hn with hn
        injection hn
      have hrounded : rounded n.toInt = n.toInt := by
        have := abs_lt.mp hless
        rw [← Int64.toInt_ofInt_of_le (n := rounded n.toInt) (by omega) (by omega), hsame]
      exact ⟨hrounded, hrounded ▸ hless⟩
    · cases hn
  · rintro ⟨hrounded, hless⟩
    rw [hrounded, if_pos hless, Int64.ofInt_toInt]

theorem word_back_sparse :
    Function.floor.rounding? = some .down ∧
      call "floor" [.int (-1152921504606847232)] = .ok (.int (-1152921504606847232)) := by
  have h : Function.floor.rounding? = some .down := rfl
  exact ⟨h, (word_back_iff h (-1152921504606847232)).2.mpr (by decide +kernel)⟩

/-- The first number with a digit after the 53rd comes back as its neighbour, and a number at the bound not at all. -/
theorem word_lost :
    ["round", "floor", "ceil", "trunc"].map (call · [.int 9007199254740993]) =
        List.replicate 4 (.ok (.int 9007199254740992)) ∧
      ["round", "floor", "ceil", "trunc"].map (call · [.int 9200000000000000000]) =
        ["round", "floor", "ceil", "trunc"].map fun name => .error (.arithmetic (.inCall name .overflow)) := by
  decide +kernel

/-- Up to `2⁵³` every number comes back. -/
theorem call_word_of_le (h : f.rounding? = some r) {n : Int64} (hn : n.toInt.natAbs ≤ 2 ^ 53) :
    call f.name [.int n] = .ok (.int n) := by
  have hless : |n.toInt| < 9200000000000000000 := by
    rw [Int.abs_eq_natAbs]
    omega
  rw [call_word h, rounded_of_natAbs_le hn, if_pos hless, Int64.ofInt_toInt]

end GoalCompiler.Expression
