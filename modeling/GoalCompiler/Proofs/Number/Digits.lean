import GoalCompiler.Proofs.Number.Whole

/-! Whole numbers in digits. The digits of a number stand for it, and a number with its sign is read back from
its text. -/
namespace GoalCompiler.Number

theorem isDigit_of_mem_toDigits {n : Nat} {c : Char} (h : c ∈ Nat.toDigits 10 n) : isDigit c = true := by
  have hc := Nat.isDigit_of_mem_toDigits (by decide) (by decide) h
  simp only [Char.isDigit, Bool.and_eq_true, decide_eq_true_eq] at hc
  simp only [isDigit, Bool.and_eq_true, decide_eq_true_eq]
  exact hc

theorem ofDigits_toDigits (n : Nat) : ofDigits (Nat.toDigits 10 n) = n :=
  Nat.ofDigitChars_eq_foldl.symm.trans Nat.ofDigitChars_ten_toDigits

theorem ofSigned?_repr (n : Int) : ofSigned? n.repr = some n := by
  have hempty (m : Nat) : (Nat.toDigits 10 m).isEmpty = false := by
    simp [Nat.toDigits_ne_nil]
  have hall (m : Nat) : (Nat.toDigits 10 m).all isDigit = true :=
    List.all_eq_true.mpr fun c => isDigit_of_mem_toDigits
  rw [Int.repr_eq_if]
  split
  · rename_i hn
    have hsign : ∀ cs, Nat.toDigits 10 n.toNat ≠ '-' :: cs ∧ Nat.toDigits 10 n.toNat ≠ '+' :: cs := by
      refine fun cs => ⟨fun h => ?_, fun h => ?_⟩
      all_goals
        have hc := isDigit_of_mem_toDigits (h ▸ List.mem_cons_self)
        exact absurd hc (by decide)
    unfold ofSigned?
    rw [Nat.toList_repr]
    split
    · exact absurd ‹_› (hsign _).1
    · exact absurd ‹_› (hsign _).2
    · simp [hempty, hall, ofDigits_toDigits, Int.toNat_of_nonneg hn]
  · rename_i hn
    have hn' : ((-n).toNat : Int) = -n := Int.toNat_of_nonneg (by omega)
    simp [ofSigned?, hempty, hall, ofDigits_toDigits, hn']

theorem isDigit_or_of_mem_repr {n : Int} {c : Char} (h : c ∈ n.repr.toList) : isDigit c = true ∨ c = '-' := by
  rw [Int.repr_eq_if] at h
  split at h
  · rw [Nat.toList_repr] at h
    exact .inl (isDigit_of_mem_toDigits h)
  · rw [String.toList_append, List.mem_append, Nat.toList_repr] at h
    rcases h with h | h
    · exact .inr (List.mem_singleton.mp h)
    · exact .inl (isDigit_of_mem_toDigits h)

theorem repr_ne_empty (n : Int) : n.repr ≠ "" := by
  intro h
  have hread := ofSigned?_repr n
  rw [h] at hread
  cases hread

theorem word?_toString (w : Int64) : word? (toString w.toInt) = some w := by
  simp [word?, ofSigned?_repr, Whole.fitsWord_toInt]

end GoalCompiler.Number
