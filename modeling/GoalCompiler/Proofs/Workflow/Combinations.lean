import GoalCompiler.Workflow.Unrolling
import Mathlib.Algebra.BigOperators.Group.List.Lemmas
import Mathlib.Data.List.Forall2

/-! Combinations of loop variables. The plan of a step reads a number as digits, one for each variable and
the last one fastest; the digits of the numbers below the count run through the Cartesian product of the
values, in its lexicographic order. -/
namespace GoalCompiler

section Product

variable {α β γ : Type}

/-- All ways to choose one element of each list, the first list changing slowest. -/
def combinations : List (List α) → List (List α)
  | [] => [[]]
  | xs :: rest => xs.flatMap fun x => (combinations rest).map (x :: ·)

theorem length_combinations (lists : List (List α)) :
    (combinations lists).length = (lists.map List.length).prod := by
  induction lists with
  | nil => rfl
  | cons xs rest ih =>
    simp only [combinations, List.length_flatMap, List.length_map, ih, List.map_const',
      List.sum_replicate_nat, List.map_cons, List.prod_cons]

/-- In a list made of equal blocks, the quotient says which block and the remainder where in it. -/
theorem getElem?_flatMap_map (f : α → β → γ) (xs : List α) (ys : List β) (k : Nat) :
    (xs.flatMap fun x => ys.map (f x))[k]? =
      xs[k / ys.length]?.bind fun x => ys[k % ys.length]?.map (f x) := by
  rcases Nat.eq_zero_or_pos ys.length with h0 | hpos
  · simp [List.length_eq_zero_iff.mp h0]
  · induction xs generalizing k with
    | nil => simp
    | cons x xs ih =>
      rw [List.flatMap_cons]
      rcases Nat.lt_or_ge k ys.length with hk | hk
      · rw [List.getElem?_append_left (by simpa using hk), Nat.div_eq_of_lt hk, Nat.mod_eq_of_lt hk]
        simp
      · obtain ⟨j, rfl⟩ := Nat.exists_eq_add_of_le hk
        rw [List.getElem?_append_right (by simp), List.length_map, Nat.add_sub_cancel_left, ih,
          Nat.add_div_left _ hpos, Nat.add_mod_left]
        rfl

end Product

namespace Axis

/-- The values of an axis, in order. -/
def elements : Axis → List Json
  | .range first n => (List.range n).map fun (k : Nat) => .int (first + k)
  | .values items => items

theorem length_elements (a : Axis) : a.elements.length = a.size := by
  cases a <;> simp [elements, size]

theorem elements_getElem? {a : Axis} {k : Nat} (h : k < a.size) : a.elements[k]? = some (a.get k) := by
  cases a with
  | range first n =>
    have hk : k < n := h
    simp [elements, get, hk]
  | values items =>
    have hk : k < items.length := h
    simp [elements, get, hk]

/-- The whole numbers from `first` to `last`, both included. -/
def span (first last : Int) : List Json :=
  (List.range (last + 1 - first).toNat).map fun (k : Nat) => .int (first + k)

/-- An axis holds the values, unless there are more of them than its size can say. -/
def Agrees (a : Axis) (values : List Json) : Prop :=
  a.elements = values ∨ a.size = maxCount ∧ maxCount < values.length

theorem agrees_between (first last : Int) : Agrees (between first last) (span first last) := by
  by_cases hlt : last < first
  · have h0 : (last + 1 - first).toNat = 0 := by omega
    left
    simp [between, elements, span, hlt, h0]
  · have hlen : (last - first).toNat + 1 = (last + 1 - first).toNat := by omega
    rcases Nat.lt_or_ge maxCount (last + 1 - first).toNat with hmax | hmax
    · right
      simp only [between, size, span, hlt, hlen, List.length_map, List.length_range, if_false]
      omega
    · left
      simp [between, elements, span, hlt, hlen, Nat.min_eq_right hmax]

end Axis

namespace Plan

theorem foldl_product (sizes : List Nat) (acc : Option Nat) {c : Nat}
    (h : sizes.foldl (fun acc n => acc.bind fun a => if a * n ≤ maxCount then some (a * n) else none)
      acc = some c) :
    ∃ a, acc = some a ∧ a * sizes.prod = c := by
  induction sizes generalizing acc with
  | nil => exact ⟨c, h, by simp⟩
  | cons n rest ih =>
    obtain ⟨b, hb, hc⟩ := ih _ h
    obtain ⟨a, rfl, ha⟩ := Option.bind_eq_some_iff.mp hb
    obtain rfl : a * n = b := by
      split at ha
      · exact Option.some.inj ha
      · simp at ha
    exact ⟨a, rfl, by rw [List.prod_cons, ← Nat.mul_assoc, hc]⟩

/-- A count that is told apart is the product of the sizes. -/
theorem prod_of_product_lt {sizes : List Nat} (h : product sizes < maxCount) :
    sizes.prod = product sizes := by
  unfold product at h ⊢
  cases hf : sizes.foldl (fun acc n => acc.bind fun a =>
      if a * n ≤ maxCount then some (a * n) else none) (some 1) with
  | none => simp [hf] at h
  | some c =>
    obtain ⟨a, ha, hc⟩ := foldl_product _ _ hf
    obtain rfl := Option.some.inj ha
    simpa [hf] using hc

theorem length_combinations_elements (axes : List Axis) :
    (combinations (axes.map Axis.elements)).length = (axes.map Axis.size).prod := by
  rw [length_combinations, List.map_map]
  congr 2
  funext a
  exact a.length_elements

theorem pick_cons (a : Axis) (rest : List Axis) (k : Nat) :
    pick (a :: rest) k = (a.get ((pick rest k).2 % max 1 a.size) :: (pick rest k).1,
      (pick rest k).2 / max 1 a.size) :=
  rfl

/-- The digits of `k` name the combination at the remainder of `k`; the quotient is left over. -/
theorem pick_spec {axes : List Axis} (hpos : ∀ a ∈ axes, 0 < a.size) (k : Nat) :
    (pick axes k).2 = k / (axes.map Axis.size).prod ∧
      (combinations (axes.map Axis.elements))[k % (axes.map Axis.size).prod]? =
        some (pick axes k).1 := by
  induction axes with
  | nil => simp [pick, combinations, Nat.mod_one]
  | cons a rest ih =>
    obtain ⟨hleft, hpick⟩ := ih fun b hb => hpos b (List.mem_cons_of_mem a hb)
    have ha : 0 < a.size := hpos a List.mem_cons_self
    have hmax : max 1 a.size = a.size := by omega
    have hlen := length_combinations_elements rest
    constructor
    · rw [pick_cons, hmax, hleft, Nat.div_div_eq_div_mul, List.map_cons, List.prod_cons, Nat.mul_comm]
    · rw [List.map_cons, List.map_cons, List.prod_cons, combinations, getElem?_flatMap_map, hlen,
        Nat.mod_mul_left_div_self, Nat.mod_mul_left_mod, hpick, ← hleft,
        Axis.elements_getElem? (Nat.mod_lt _ ha), pick_cons, hmax]
      rfl

theorem elements_of_agrees {axes : List Axis} {lists : List (List Json)}
    (hagree : List.Forall₂ Axis.Agrees axes lists) (hlt : ∀ a ∈ axes, a.size < maxCount) :
    axes.map Axis.elements = lists := by
  induction hagree with
  | nil => rfl
  | @cons a values axes lists ha _ ih =>
    have hfew := hlt a List.mem_cons_self
    rw [List.map_cons, ih fun b hb => hlt b (List.mem_cons_of_mem a hb)]
    rcases ha with rfl | ⟨hmax, -⟩
    · rfl
    · omega

theorem prod_lengths_of_agrees {axes : List Axis} {lists : List (List Json)}
    (hagree : List.Forall₂ Axis.Agrees axes lists) (h0 : (axes.map Axis.size).prod = 0) :
    (lists.map List.length).prod = 0 := by
  induction hagree with
  | nil => simp at h0
  | @cons a values axes lists ha _ ih =>
    rw [List.map_cons, List.prod_cons, Nat.mul_eq_zero] at h0 ⊢
    rcases h0 with h0 | h0
    · rcases ha with rfl | ⟨hmax, -⟩
      · left
        rw [a.length_elements, h0]
      · rw [hmax] at h0
        contradiction
    · exact .inr (ih h0)

/-- Axes that agree with lists of values run through the combinations of these, when there are few enough. -/
theorem pick_eq_combination {axes : List Axis} {lists : List (List Json)}
    (hagree : List.Forall₂ Axis.Agrees axes lists) (hlt : product (axes.map Axis.size) < maxCount) :
    (combinations lists).length = product (axes.map Axis.size) ∧
      ∀ k < (combinations lists).length, (combinations lists)[k]? = some (pick axes k).1 := by
  have hprod := prod_of_product_lt hlt
  rw [← hprod] at hlt ⊢
  rcases Nat.eq_zero_or_pos (axes.map Axis.size).prod with h0 | hpos
  · have hlen : (combinations lists).length = 0 := by
      rw [length_combinations, prod_lengths_of_agrees hagree h0]
    rw [hlen, h0]
    exact ⟨rfl, fun k hk => absurd hk (Nat.not_lt_zero k)⟩
  · have hsize : ∀ a ∈ axes, a.size ∣ (axes.map Axis.size).prod := fun a ha =>
      List.dvd_prod (List.mem_map_of_mem ha)
    have hsame := elements_of_agrees hagree fun a ha =>
      Nat.lt_of_le_of_lt (Nat.le_of_dvd hpos (hsize a ha)) hlt
    have hlen := length_combinations_elements axes
    rw [hsame] at hlen
    refine ⟨hlen, fun k hk => ?_⟩
    have hpick := (pick_spec (fun a ha => Nat.pos_of_dvd_of_pos (hsize a ha) hpos) k).2
    rwa [hsame, Nat.mod_eq_of_lt (hlen ▸ hk)] at hpick

end Plan

end GoalCompiler
