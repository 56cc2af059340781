import GoalCompiler.Proofs.Number.Order
import GoalCompiler.Proofs.Workflow.Acceptance

/-! Forms of a value. Only a double with no fraction is taken in a form of its own, as the whole number that it
holds. The two compare as equal, so the form in which one parameter takes a value is taken by every other
parameter that takes the value itself. -/
namespace GoalCompiler

/-- The whole number that a double holds compares as equal to it. -/
theorem beq_of_wholeNumber? {x : Float} {n : Int} (h : wholeNumber? x = some n) :
    (Float.ofInt n == x) = true := by
  unfold wholeNumber? at h
  split at h
  · rename_i hx
    rw [Bool.and_eq_true] at hx
    have hround := hx.2
    unfold Number.roundTo at hround
    rw [h] at hround
    split at hround
    · -- a zero of either sign is the whole number zero
      rename_i hzero
      obtain rfl := Option.some.inj hzero
      have hneg : ((-0.0 : Float) == Float.ofInt 0) = true := by decide +kernel
      have hpos : ((0.0 : Float) == Float.ofInt 0) = true := by decide +kernel
      have hsame : ∀ z : Float, (z == Float.ofInt 0) = true → (z == x) = true →
          (Float.ofInt 0 == x) = true := by
        intro z hz hzx
        have hcompare := Number.beq_iff_compare.mp hzx
        rw [Number.compare_congr (Number.beq_iff_compare.mp hz)] at hcompare
        exact Number.beq_iff_compare.mpr hcompare
      split at hround
      · exact hsame _ hneg hround
      · exact hsame _ hpos hround
    · rename_i heq _
      obtain rfl := Option.some.inj heq
      exact hround
    · rename_i heq
      cases heq
  · cases h

namespace Parameter

variable {p q : Parameter} {value v : Json}

/-- A double with no fraction is the only value that is taken in a form of its own. -/
theorem eq_or_whole_of_coerce? {t : ValueType} (h : t.coerce? value = some v) :
    v = value ∨ ∃ x n, value = .float x ∧ v = .int n ∧ wholeNumber? x = some n := by
  cases t <;> cases value <;> simp only [ValueType.coerce?, Option.map_eq_some_iff, reduceCtorEq] at h
  case int.float x =>
    obtain ⟨n, hn, rfl⟩ := h
    exact .inr ⟨x, n, rfl, rfl, hn⟩
  all_goals exact .inl (Option.some.inj h).symm

theorem sameValue_whole {x : Float} {n : Int} (h : wholeNumber? x = some n) (a : Json) :
    sameValue a (.int n) = sameValue a (.float x) := by
  cases a with
  | int | float => exact Number.beq_congr_of_beq (beq_of_wholeNumber? h) _
  | _ => simp [sameValue, Json.toFloat?]

theorem inRange_whole {x : Float} {n : Int} (h : wholeNumber? x = some n) :
    q.inRange (.int n) = q.inRange (.float x) := by
  have hlt := Number.lt_congr_of_beq (beq_of_wholeNumber? h)
  unfold inRange
  cases q.range with
  | none => rfl
  | some bounds => simp only [Json.toFloat?, (hlt _).1, (hlt _).2]

/-- What one parameter makes of a value is taken by all that take the value. -/
theorem accepts_form (h : p.accept value = .ok v) (hq : q.accepts value) : q.accepts v := by
  obtain ⟨u, hu⟩ := accepts_iff.mp hq
  obtain ⟨hcoerce, -, -⟩ := accept_eq_ok.mp h
  rcases eq_or_whole_of_coerce? hcoerce with rfl | ⟨x, n, rfl, rfl, hwhole⟩
  · exact hq
  · obtain ⟨hform, hrange, hallowed⟩ := accept_eq_ok.mp hu
    cases htype : q.type with
    | float =>
      obtain rfl : .float x = u := by simpa [htype, ValueType.coerce?] using hform
      refine accepts_iff.mpr ⟨.int n, accept_eq_ok.mpr ⟨by rw [htype]; rfl, ?_, ?_⟩⟩
      · rw [inRange_whole hwhole]
        exact hrange
      · unfold isAllowed at hallowed ⊢
        simpa only [sameValue_whole hwhole] using hallowed
    | int =>
      obtain rfl : .int n = u := by simpa [htype, ValueType.coerce?, hwhole] using hform
      exact accepts_of_accept hu
    | bool => simp [htype, ValueType.coerce?] at hform
    | string => simp [htype, ValueType.coerce?] at hform

end Parameter

end GoalCompiler
