import GoalCompiler.Proofs.Number.Integral
import GoalCompiler.Proofs.Number.Whole
import GoalCompiler.Proofs.Workflow.Forms

/-! The types of values. A parameter takes a value of its type as it is, and where it asks for a whole number also
a double that holds one, as that number. What comes out is always a value of the type, so a second look at it
changes nothing. -/
namespace GoalCompiler

open Number (Holds)

/-! ### Whole numbers in doubles -/

theorem holds_wholeLimit : Holds wholeLimit 9000000000000000 :=
  Number.holds_of_unpack (by decide) Whole.unpack_wholeLimit (by norm_num)

/-- A double counts as a whole number exactly if it holds one below the limit, and then as that one. -/
theorem wholeNumber?_eq_some {x : Float} {n : Int} :
    wholeNumber? x = some n ↔ Holds x n ∧ n.natAbs < 9000000000000000 := by
  constructor
  · intro h
    have hsmall := Whole.natAbs_lt_of_wholeNumber? h
    have hofInt : Holds (Float.ofInt n) n := by
      have hrounded := Number.holds_ofInt (n := n) (by omega)
      rwa [Number.rounded_of_natAbs_le (by omega)] at hrounded
    have hx := hofInt.of_beq (beq_of_wholeNumber? h)
    refine ⟨hx, ?_⟩
    unfold wholeNumber? at h
    split at h
    · rename_i hbelow
      rw [Bool.and_eq_true, decide_eq_true_eq, hx.abs.lt_iff holds_wholeLimit, abs_lt] at hbelow
      omega
    · cases h
  · rintro ⟨hx, hn⟩
    have hround := Number.holds_roundTo Number.Rounding.keepsWhole_towardZero hx (by omega)
    have hbelow : x.abs < wholeLimit := by
      rw [hx.abs.lt_iff holds_wholeLimit, abs_lt]
      omega
    have hsame : (Number.roundTo .towardZero x == x) = true := (hround.beq_iff hx).mpr rfl
    simp only [wholeNumber?, hbelow, hsame, decide_true, Bool.and_self, ↓reduceIte]
    exact Number.whole?_of_holds Number.Rounding.keepsWhole_towardZero hx

/-! ### Values of a type -/

namespace ValueType

variable {t : ValueType} {value v : Json}

/-- The values of each type. A whole number is a number too. -/
inductive Has : ValueType → Json → Prop
  | whole (n : Int) : Has .int (.int n)
  | number (n : Int) : Has .float (.int n)
  | double (x : Float) : Has .float (.float x)
  | truth (b : Bool) : Has .bool (.bool b)
  | text (s : String) : Has .string (.str s)

/-- What a type makes of a value: nothing but the value, or the whole number that a double holds. -/
inductive Form : ValueType → Json → Json → Prop
  | same (t : ValueType) (v : Json) : Form t v v
  | whole {x : Float} {n : Int} : Holds x n → n.natAbs < 9000000000000000 → Form .int (.float x) (.int n)

/-- A value is put into a form exactly if that is of the type. -/
theorem coerce?_eq_some : t.coerce? value = some v ↔ t.Has v ∧ t.Form value v := by
  constructor
  · intro h
    cases t <;> cases value <;> simp only [coerce?, Option.map_eq_some_iff, reduceCtorEq] at h
    case int.float x =>
      obtain ⟨n, hn, rfl⟩ := h
      obtain ⟨hx, hsmall⟩ := wholeNumber?_eq_some.mp hn
      exact ⟨.whole n, .whole hx hsmall⟩
    all_goals
      obtain rfl := Option.some.inj h
      exact ⟨by constructor, .same _ _⟩
  · rintro ⟨hv, hform⟩
    cases hform with
    | same => cases hv <;> rfl
    | whole hx hsmall => rw [coerce?, wholeNumber?_eq_some.mpr ⟨hx, hsmall⟩, Option.map_some]

end ValueType

namespace Parameter

variable {p : Parameter} {v : Json}

/-- Values of the type that are in range and allowed are taken as they are. -/
theorem accept_self_iff : p.accept v = .ok v ↔ p.type.Has v ∧ p.inRange v ∧ p.isAllowed v := by
  rw [accept_eq_ok, ValueType.coerce?_eq_some, and_iff_left (ValueType.Form.same p.type v)]

/-- A value is taken in a form exactly if the form is of the parameter's type, is what the type makes of the value
and is itself taken as it is. -/
theorem accepted_form_iff (p : Parameter) (value v : Json) :
    p.accept value = .ok v ↔ p.accept v = .ok v ∧ p.type.Has v ∧ p.type.Form value v := by
  rw [accept_self_iff, accept_eq_ok, ValueType.coerce?_eq_some]
  tauto

example : ({ name := "legs", type := .int } : Parameter).accept (.float 4.0) = .ok (.int 4) := by decide +kernel

end Parameter

end GoalCompiler
