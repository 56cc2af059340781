import GoalCompiler.Proofs.Number.Integral
import GoalCompiler.Proofs.Workflow.Acceptance

/-! Whole numbers as values of parameters. A parameter looks at the double of a number, so at what the number is
rounded to: it takes all numbers between its bounds and on its list, and besides them those that are rounded to
a bound or to a number on the list. Below `2⁵³` there are none of these. -/
namespace GoalCompiler.Parameter

open Number (Holds rounded value)

variable {p : Parameter} {n k : Int} {v : Json}

/-- A parameter of whole numbers, with numbers for bounds and on its list. -/
structure WholeValued (p : Parameter) : Prop where
  type : p.type = .int
  bounds : ∀ least greatest, p.range = some (least, greatest) → least.isFinite ∧ greatest.isFinite
  allowed : ∀ values, p.allowed = some values → ∀ a ∈ values, ∃ k : Int, a = .int k ∧ k.natAbs < 2 ^ 64

/-- The number is between the bounds. -/
def Spans (p : Parameter) (n : Int) : Prop :=
  ∀ least greatest, p.range = some (least, greatest) →
    value least.toModel.unpack ≤ n ∧ n ≤ value greatest.toModel.unpack

/-- The number is on the list. -/
def Lists (p : Parameter) (n : Int) : Prop := ∀ values, p.allowed = some values → .int n ∈ values

theorem inRange_int (hp : p.WholeValued) (hn : n.natAbs < 2 ^ 64) :
    p.inRange (.int n) ↔ p.Spans (rounded n) := by
  have hdouble := Number.holds_ofInt hn
  unfold inRange Spans
  cases hrange : p.range with
  | none => simp
  | some bounds =>
    obtain ⟨least, greatest⟩ := bounds
    obtain ⟨hleast, hgreatest⟩ := hp.bounds least greatest hrange
    simp [Json.toFloat?, Number.lt_iff_value hdouble.1 hleast, Number.lt_iff_value hgreatest hdouble.1, hdouble.2]

theorem sameValue_ints (hk : k.natAbs < 2 ^ 64) (hn : n.natAbs < 2 ^ 64) :
    sameValue (.int k) (.int n) ↔ rounded k = rounded n :=
  (Number.holds_ofInt hk).beq_iff (Number.holds_ofInt hn)

theorem isAllowed_int (hp : p.WholeValued) (hn : n.natAbs < 2 ^ 64) :
    p.isAllowed (.int n) ↔
      ∀ values, p.allowed = some values → ∃ k, .int k ∈ values ∧ rounded k = rounded n := by
  unfold isAllowed
  cases hallowed : p.allowed with
  | none => simp
  | some values =>
    simp only [List.any_eq_true, Option.some.injEq, forall_eq']
    constructor
    · rintro ⟨a, ha, hsame⟩
      obtain ⟨k, rfl, hk⟩ := hp.allowed values hallowed a ha
      exact ⟨k, ha, (sameValue_ints hk hn).mp hsame⟩
    · rintro ⟨k, hk, hsame⟩
      obtain ⟨k', heq, hk'⟩ := hp.allowed values hallowed _ hk
      cases heq
      exact ⟨_, hk, (sameValue_ints hk' hn).mpr hsame⟩

theorem accept_int (hp : p.WholeValued) (hn : n.natAbs < 2 ^ 64) :
    p.accept (.int n) = .ok v ↔ v = .int n ∧ p.Spans (rounded n) ∧
      ∀ values, p.allowed = some values → ∃ k, .int k ∈ values ∧ rounded k = rounded n := by
  have hcoerce : p.type.coerce? (.int n) = some (.int n) := by
    rw [hp.type]
    rfl
  rw [accept_eq_ok, hcoerce, Option.some_inj, eq_comm]
  refine and_congr_right ?_
  rintro rfl
  rw [inRange_int hp hn, isAllowed_int hp hn]

/-- Bounds are passed by numbers that are rounded to them. -/
theorem spans_rounded_iff (hp : p.WholeValued) :
    p.Spans (rounded n) ↔ ∀ least greatest, p.range = some (least, greatest) →
      (value least.toModel.unpack ≤ n ∨ value least.toModel.unpack = rounded n) ∧
        (n ≤ value greatest.toModel.unpack ∨ rounded n = value greatest.toModel.unpack) := by
  refine forall₃_congr fun least greatest hrange => ?_
  obtain ⟨hleast, hgreatest⟩ := hp.bounds least greatest hrange
  rw [Number.value_le_rounded_iff hleast, Number.rounded_le_value_iff hgreatest]

/-- Only a number of `2⁵³` or more is rounded to one. -/
theorem eq_of_rounded_eq (hn : n.natAbs < 2 ^ 53) (h : rounded k = rounded n) : k = n := by
  rw [Number.rounded_of_natAbs_le hn.le] at h
  rcases le_total k.natAbs (2 ^ 53) with hk | hk
  · rwa [Number.rounded_of_natAbs_le hk] at h
  · have hleast : rounded (-2 ^ 53) = -2 ^ 53 := Number.rounded_of_natAbs_le (by decide)
    have hmost : rounded (2 ^ 53) = 2 ^ 53 := Number.rounded_of_natAbs_le (by decide)
    rcases le_total 0 k with hsign | hsign
    · have hmono := Number.rounded_mono (show 2 ^ 53 ≤ k by omega)
      omega
    · have hmono := Number.rounded_mono (show k ≤ -2 ^ 53 by omega)
      omega

/-- A whole number is taken as it is, and exactly if it is between the bounds or rounded to the one that it is
beyond, and rounded to the same as some number on the list. So what is between the bounds and on the list is taken,
and of the numbers below `2⁵³` nothing else. -/
theorem whole_accepted_iff (hp : p.WholeValued) (hn : n.natAbs < 2 ^ 64) :
    (∀ v, p.accept (.int n) = .ok v ↔ v = .int n ∧
      (∀ least greatest, p.range = some (least, greatest) →
        (value least.toModel.unpack ≤ n ∨ value least.toModel.unpack = rounded n) ∧
          (n ≤ value greatest.toModel.unpack ∨ rounded n = value greatest.toModel.unpack)) ∧
      ∀ values, p.allowed = some values → ∃ k, .int k ∈ values ∧ rounded k = rounded n) ∧
    (p.Spans n ∧ p.Lists n → p.accept (.int n) = .ok (.int n)) ∧
    (n.natAbs < 2 ^ 53 → ∀ v, p.accept (.int n) = .ok v → p.Spans n ∧ p.Lists n) := by
  refine ⟨fun v => ?_, ?_, fun hsmall v h => ?_⟩
  · rw [accept_int hp hn, spans_rounded_iff hp]
  · rintro ⟨hspans, hlists⟩
    refine (accept_int hp hn).mpr ⟨rfl, (spans_rounded_iff hp).mpr fun least greatest hrange => ?_, ?_⟩
    · exact (hspans least greatest hrange).imp .inl .inl
    · exact fun values hallowed => ⟨n, hlists values hallowed, rfl⟩
  · obtain ⟨-, hspans, hlisted⟩ := (accept_int hp hn).mp h
    rw [Number.rounded_of_natAbs_le hsmall.le] at hspans
    refine ⟨hspans, fun values hallowed => ?_⟩
    obtain ⟨k, hk, hsame⟩ := hlisted values hallowed
    rwa [eq_of_rounded_eq hsmall hsame] at hk

/-- A number of boards, up to `2⁵³`. -/
def boards : Parameter where
  name := "boards"
  type := .int
  range := some (-0.5, 9007199254740992.0)
  allowed := some [.int 3, .int 9007199254740992]

theorem holds_most : Holds 9007199254740992.0 9007199254740992 := by
  refine Number.holds_of_unpack (m := 4503599627370496) (f := 1) (by decide) rfl ?_
  norm_num

theorem wholeValued_boards : boards.WholeValued where
  type := rfl
  bounds := by
    rintro least greatest ⟨⟩
    exact ⟨by decide +kernel, holds_most.1⟩
  allowed := by
    rintro values ⟨⟩ a ha
    rcases List.mem_cons.mp ha with rfl | ha
    · exact ⟨3, rfl, by decide⟩
    · exact ⟨9007199254740992, List.mem_singleton.mp ha, by decide⟩

/-- Three boards are taken, for they are on the list; four are not. -/
theorem whole_accepted_boards :
    boards.WholeValued ∧ (4 : Int).natAbs < 2 ^ 64 ∧ boards.accept (.int 3) = .ok (.int 3) ∧
      ∀ v, boards.accept (.int 4) ≠ .ok v := by
  refine ⟨wholeValued_boards, by decide, ?_, fun v hv => ?_⟩
  · refine ((whole_accepted_iff wholeValued_boards (by decide)).1 _).mpr ⟨rfl, ?_, ?_⟩
    · rintro least greatest ⟨⟩
      rw [holds_most.2]
      refine ⟨.inl ?_, .inl (by norm_num)⟩
      have hhalf : value (-0.5 : Float).toModel.unpack = -(4503599627370496 * 2 ^ (-53 : Int)) := Number.value_negative
      rw [hhalf]
      norm_num
    · rintro values ⟨⟩
      exact ⟨3, List.mem_cons_self, rfl⟩
  · obtain ⟨-, hlists⟩ := (whole_accepted_iff wholeValued_boards (by decide)).2.2 (by decide) v hv
    have hmem := hlists _ rfl
    simp at hmem

/-- The number after `2⁵³` is beyond the bound, and not on the list, and yet taken. -/
theorem beyond_boards :
    { boards with allowed := none }.accept (.int 9007199254740993) = .ok (.int 9007199254740993) ∧
      ¬ { boards with allowed := none }.Spans 9007199254740993 ∧
    { boards with range := none }.accept (.int 9007199254740993) = .ok (.int 9007199254740993) ∧
      ¬ { boards with range := none }.Lists 9007199254740993 := by
  refine ⟨by decide +kernel, fun hspans => ?_, by decide +kernel, fun hlists => ?_⟩
  · obtain ⟨-, hmost⟩ := hspans _ _ rfl
    rw [holds_most.2] at hmost
    norm_num at hmost
  · have hmem := hlists _ rfl
    simp at hmem

end GoalCompiler.Parameter
