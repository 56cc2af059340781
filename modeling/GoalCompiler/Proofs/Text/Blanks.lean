import GoalCompiler.Number.Numeral
import GoalCompiler.Text.Character
import Mathlib.Data.List.DropRight

/-! Blanks, and texts without them at their ends. Digits are no blanks, and neither is what a name is made of, so
trimming a name between blanks leaves the name. -/
namespace GoalCompiler.Text

/-! ### Trimmed texts -/

theorem dropWhile_isBlank {cs : List Char} (h : ∀ c ∈ cs, isBlank c = false) : cs.dropWhile isBlank = cs := by
  rw [List.dropWhile_eq_self_iff]
  intro hl
  simp [h _ (List.getElem_mem hl)]

theorem trimChars_of_forall {cs : List Char} (h : ∀ c ∈ cs, isBlank c = false) : trimChars cs = cs := by
  rw [trimChars, dropWhile_isBlank h, dropWhile_isBlank fun c hc => h c (List.mem_reverse.mp hc),
    List.reverse_reverse]

theorem trimChars_trimChars (cs : List Char) : trimChars (trimChars cs) = trimChars cs := by
  have hfirst : (trimChars cs).dropWhile isBlank = trimChars cs := by
    have hfront : trimChars cs <+: cs.dropWhile isBlank := List.rdropWhile_prefix isBlank _
    rw [List.dropWhile_eq_self_iff]
    intro hl
    rw [hfront.getElem hl]
    exact List.dropWhile_get_zero_not _ cs (hl.trans_le hfront.length_le)
  have hlast : (trimChars cs).reverse.dropWhile isBlank = (trimChars cs).reverse := by
    simp [trimChars, List.dropWhile_idempotent _]
  rw [trimChars, hfirst, hlast, List.reverse_reverse]

/-- A trimmed text is a piece of the text. -/
theorem isInfix_trimChars (cs : List Char) : trimChars cs <:+: cs :=
  (List.rdropWhile_prefix isBlank _).isInfix.trans (List.dropWhile_suffix isBlank).isInfix

theorem length_trimChars_le (cs : List Char) : (trimChars cs).length ≤ cs.length := (isInfix_trimChars cs).length_le

/-- Blanks at the ends are what trimming takes off. -/
theorem trimChars_between {before cs after : List Char} (hbefore : ∀ c ∈ before, isBlank c)
    (hcs : ∀ c ∈ cs, isBlank c = false) (hafter : ∀ c ∈ after, isBlank c) :
    trimChars (before ++ (cs ++ after)) = cs := by
  have hlast : (cs ++ after).reverse.dropWhile isBlank = cs.reverse := by
    rw [List.reverse_append, List.dropWhile_append_of_pos fun c hc => hafter c (List.mem_reverse.mp hc),
      dropWhile_isBlank fun c hc => hcs c (List.mem_reverse.mp hc)]
  rw [trimChars, List.dropWhile_append_of_pos hbefore]
  cases cs with
  | nil => simp [List.dropWhile_eq_nil_iff.mpr hafter]
  | cons c cs =>
    have hc : ¬ isBlank c := by simp [hcs c List.mem_cons_self]
    rw [List.cons_append, List.dropWhile_cons_of_neg hc, ← List.cons_append, hlast, List.reverse_reverse]

/-! ### Blanks and names -/

theorem isBlank_of_isDigit {c : Char} (h : Number.isDigit c = true) : isBlank c = false := by
  simp only [Number.isDigit, Bool.and_eq_true, decide_eq_true_eq, Char.le_def, UInt32.le_iff_toNat_le] at h
  simp only [isBlank, covers, blankSpans]
  simp
  change 48 ≤ c.toNat ∧ c.toNat ≤ 57 at h
  omega

theorem not_continuesName_of_isBlank {c : Char} (h : isBlank c) : continuesName c = false := by
  have hall : ∀ n ∈ blankSpans.flatMap fun s => List.range' s.1 (s.2 - s.1 + 1),
      continuesName (Char.ofNat n) = false := by decide +kernel
  rw [← Char.ofNat_toNat c]
  refine hall _ ?_
  rw [isBlank, covers, List.any_eq_true] at h
  obtain ⟨s, hs, hspan⟩ := h
  rw [Bool.and_eq_true, decide_eq_true_eq, decide_eq_true_eq] at hspan
  exact List.mem_flatMap.mpr ⟨s, hs, List.mem_range'_1.mpr (by omega)⟩

end GoalCompiler.Text
