import GoalCompiler.Expression.Arithmetic
import GoalCompiler.Expression.Function
import GoalCompiler.Proofs.Number.Rounding
import Mathlib.Data.Int.ConditionallyCompleteOrder

/-! The order of whole numbers in expressions. Whole numbers are compared as doubles, so by what they are rounded
to. Two of them are in their order unless they are rounded to the same, which happens only beyond `2⁵³`; and the
least and greatest of a list are those of the rounded numbers, the first where several are. -/
namespace GoalCompiler.Expression

open Number (rounded rounded_mono rounded_of_natAbs_le holds_ofInt)

variable {a b w : Int64} {ws : List Int64}

theorem holds_word (w : Int64) : Number.Holds (Float.ofInt w.toInt) (rounded w.toInt) := by
  have h := w.le_toInt
  have h' := w.toInt_lt
  exact holds_ofInt (by omega)

theorem ofInt_lt_iff : Float.ofInt a.toInt < Float.ofInt b.toInt ↔ rounded a.toInt < rounded b.toInt :=
  (holds_word a).lt_iff (holds_word b)

theorem order?_words (a b : Int64) :
    order? (.int a) (.int b) = some (compare (rounded a.toInt) (rounded b.toInt)) := by
  change floatOrder? (Float.ofInt a.toInt) (Float.ofInt b.toInt) = _
  have hbeq := (holds_word a).beq_iff (holds_word b)
  unfold floatOrder?
  rcases lt_trichotomy (rounded a.toInt) (rounded b.toInt) with h | h | h
  · rw [if_pos (ofInt_lt_iff.mpr h), compare_lt_iff_lt.mpr h]
  · rw [if_neg (by rw [ofInt_lt_iff]; exact h.not_lt), if_pos (hbeq.mpr h), compare_eq_iff_eq.mpr h]
  · rw [if_neg (by rw [ofInt_lt_iff]; exact h.not_gt), if_neg (by rw [hbeq]; exact h.ne'),
      if_pos (ofInt_lt_iff.mpr h), compare_gt_iff_gt.mpr h]

theorem compareBy_words (op : Comparison) (a b : Int64) :
    compareBy op (.int a) (.int b) = .ok (op.holds (compare (rounded a.toInt) (rounded b.toInt))) := by
  rw [compareBy.eq_def, order?_words]
  cases op <;> rfl

theorem compare_rounded_iff :
    compare (rounded a.toInt) (rounded b.toInt) = compare a.toInt b.toInt ↔
      (rounded a.toInt = rounded b.toInt → a = b) := by
  constructor
  · intro h hr
    rw [compare_eq_iff_eq.mpr hr, eq_comm, compare_eq_iff_eq] at h
    exact Int64.toInt_inj.mp h
  · intro h
    have hlt {a b : Int64} (hab : a.toInt < b.toInt) (h : rounded a.toInt = rounded b.toInt → a = b) :
        rounded a.toInt < rounded b.toInt := by
      refine (rounded_mono hab.le).lt_of_ne fun hr => ?_
      rw [h hr] at hab
      exact lt_irrefl _ hab
    rcases lt_trichotomy a.toInt b.toInt with hab | hab | hab
    · rw [compare_lt_iff_lt.mpr hab, compare_lt_iff_lt.mpr (hlt hab h)]
    · rw [hab, compare_eq_iff_eq.mpr rfl, compare_eq_iff_eq.mpr rfl]
    · rw [compare_gt_iff_gt.mpr hab, compare_gt_iff_gt.mpr (hlt hab fun hr => (h hr.symm).symm)]

theorem compareBy_words_iff :
    (∀ op : Comparison, compareBy op (.int a) (.int b) = .ok (op.holds (compare a.toInt b.toInt))) ↔
      (rounded a.toInt = rounded b.toInt → a = b) := by
  simp only [compareBy_words, Except.ok.injEq]
  rw [← compare_rounded_iff]
  constructor
  · intro h
    have hlt := h .lt
    have hgt := h .gt
    revert hlt hgt
    cases compare (rounded a.toInt) (rounded b.toInt) <;> cases compare a.toInt b.toInt <;> decide
  · intro h op
    rw [h]

/-! ### The least and the greatest -/

theorem best_words (f : Function) {better : Float → Float → Bool} {r : Int64 → Int64 → Prop} [DecidableRel r]
    (hr : ∀ a b : Int64, better (Float.ofInt a.toInt) (Float.ofInt b.toInt) = true ↔ r a b) (w : Int64)
    (ws : List Int64) :
    ∃ m, m ∈ ws.foldl (List.argAux r) (some w) ∧
      f.best better (.int w) (Float.ofInt w.toInt) (ws.map .int) = .ok (.int m) := by
  induction ws generalizing w with
  | nil => exact ⟨w, rfl, rfl⟩
  | cons v ws ih =>
    have hstep : List.argAux r (some w) v = if r v w then some v else some w := rfl
    rw [List.foldl_cons, hstep]
    by_cases h : r v w
    · obtain ⟨m, hm, hbest⟩ := ih v
      rw [if_pos h]
      exact ⟨m, hm, (if_pos ((hr v w).mpr h)).trans hbest⟩
    · obtain ⟨m, hm, hbest⟩ := ih w
      rw [if_neg h]
      exact ⟨m, hm, (if_neg (by rwa [hr v w])).trans hbest⟩

theorem call_min_words (hws : ws ≠ []) :
    ∃ m ∈ ws.argmin (fun w => rounded w.toInt), call "min" (ws.map .int) = .ok (.int m) := by
  obtain ⟨w, ws, rfl⟩ := List.exists_cons_of_ne_nil hws
  exact best_words .min (fun a b => by rw [decide_eq_true_eq]; exact ofInt_lt_iff) w ws

theorem call_max_words (hws : ws ≠ []) :
    ∃ m ∈ ws.argmax (fun w => rounded w.toInt), call "max" (ws.map .int) = .ok (.int m) := by
  obtain ⟨w, ws, rfl⟩ := List.exists_cons_of_ne_nil hws
  exact best_words .max (fun a b => by rw [decide_eq_true_eq]; exact ofInt_lt_iff) w ws

theorem least_iff {m : Int64} (hm : m ∈ ws.argmin fun w => rounded w.toInt) :
    (∀ w ∈ ws, m ≤ w) ↔ ∀ w ∈ ws, rounded w.toInt = rounded m.toInt → m ≤ w := by
  refine ⟨fun h w hw _ => h w hw, fun h w hw => ?_⟩
  have hle : rounded m.toInt ≤ rounded w.toInt :=
    List.le_of_mem_argmin (f := fun w : Int64 => rounded w.toInt) hw hm
  by_contra hlt
  rw [Int64.le_iff_toInt_le, not_le] at hlt
  exact hlt.not_ge (Int64.le_iff_toInt_le.mp (h w hw ((rounded_mono hlt.le).antisymm hle)))

theorem greatest_iff {m : Int64} (hm : m ∈ ws.argmax fun w => rounded w.toInt) :
    (∀ w ∈ ws, w ≤ m) ↔ ∀ w ∈ ws, rounded w.toInt = rounded m.toInt → w ≤ m := by
  refine ⟨fun h w hw _ => h w hw, fun h w hw => ?_⟩
  have hle : rounded w.toInt ≤ rounded m.toInt :=
    List.le_of_mem_argmax (f := fun w : Int64 => rounded w.toInt) hw hm
  by_contra hlt
  rw [Int64.le_iff_toInt_le, not_le] at hlt
  exact hlt.not_ge (Int64.le_iff_toInt_le.mp (h w hw (hle.antisymm (rounded_mono hlt.le))))

/-- Two whole numbers are compared by what they are rounded to, so in their order unless they differ and that is
the same. And the least and greatest of a list are the first whose rounded number is, so they are unless another
that is rounded to the same is less or greater. -/
theorem words_by_rounded (a b : Int64) {ws : List Int64} (hws : ws ≠ []) :
    (∀ op : Comparison,
      compareBy op (.int a) (.int b) = .ok (op.holds (compare (rounded a.toInt) (rounded b.toInt)))) ∧
    ((∀ op : Comparison, compareBy op (.int a) (.int b) = .ok (op.holds (compare a.toInt b.toInt))) ↔
      (rounded a.toInt = rounded b.toInt → a = b)) ∧
    (∃ m ∈ ws.argmin (fun w => rounded w.toInt), call "min" (ws.map .int) = .ok (.int m) ∧
      ((∀ w ∈ ws, m ≤ w) ↔ ∀ w ∈ ws, rounded w.toInt = rounded m.toInt → m ≤ w)) ∧
    ∃ m ∈ ws.argmax (fun w => rounded w.toInt), call "max" (ws.map .int) = .ok (.int m) ∧
      ((∀ w ∈ ws, w ≤ m) ↔ ∀ w ∈ ws, rounded w.toInt = rounded m.toInt → w ≤ m) := by
  refine ⟨fun op => compareBy_words op a b, compareBy_words_iff, ?_, ?_⟩
  · obtain ⟨m, hm, hcall⟩ := call_min_words hws
    exact ⟨m, hm, hcall, least_iff hm⟩
  · obtain ⟨m, hm, hcall⟩ := call_max_words hws
    exact ⟨m, hm, hcall, greatest_iff hm⟩

theorem words_by_rounded_three :
    compareBy .lt (.int 1) (.int 2) = .ok true ∧
      ∃ m, call "max" [.int 3, .int 1, .int 2] = .ok (.int m) ∧ ∀ w ∈ [3, 1, 2], w ≤ m := by
  have hne : ([3, 1, 2] : List Int64) ≠ [] := by decide
  obtain ⟨-, hexact, -, m, hm, hcall, hgreatest⟩ := words_by_rounded 1 2 hne
  obtain rfl : m = 3 := Option.some.inj (hm.symm.trans (by decide))
  have hall : [3, 1, 2].all (· ≤ (3 : Int64)) = true := by decide
  refine ⟨hexact.mpr (fun h => absurd h (by decide)) .lt, 3, hcall, hgreatest.mpr fun w hw _ => ?_⟩
  exact of_decide_eq_true (List.all_eq_true.mp hall w hw)

/-- Beyond `2⁵³` two neighbours are equal, and the greater of them is the least of both. -/
theorem neighbours_alike :
    compareBy .eq (.int 9007199254740993) (.int 9007199254740992) = .ok true ∧
      compareBy .gt (.int 9007199254740993) (.int 9007199254740992) = .ok false ∧
      call "min" [.int 9007199254740993, .int 9007199254740992] = .ok (.int 9007199254740993) := by
  refine ⟨?_, ?_, ?_⟩
  · rw [compareBy_words]
    decide
  · rw [compareBy_words]
    decide
  · rfl

/-- Up to `2⁵³` no two numbers are rounded to the same. -/
theorem compareBy_words_of_le (ha : a.toInt.natAbs ≤ 2 ^ 53) (hb : b.toInt.natAbs ≤ 2 ^ 53) (op : Comparison) :
    compareBy op (.int a) (.int b) = .ok (op.holds (compare a.toInt b.toInt)) := by
  rw [compareBy_words, rounded_of_natAbs_le ha, rounded_of_natAbs_le hb]

end GoalCompiler.Expression
