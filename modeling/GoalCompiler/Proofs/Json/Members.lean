import GoalCompiler.Json.Shape
import GoalCompiler.Proofs.Dictionary
import GoalCompiler.Proofs.Outcome

/-! Records as they are written and read. A record is written as a list of members, of which the last one with a name
counts, and each field is read by its name. What decoding has left of a value is decoded to the same again. -/
namespace GoalCompiler

/-! ### Members by name -/

namespace Json

variable {α : Type} {field k : String} {f : α → Json} {a : Option α}

theorem get?_present : Dict.get? (present field f a) k = if k = field then a.map f else none := by
  cases a with
  | none => simp [present, Dict.get?]
  | some a => rfl

theorem reverse_present : (present field f a).reverse = present field f a := by
  cases a <;> rfl

end Json

/-! ### Values that decoding leaves -/

namespace Json

mutual

theorem finite_finite (j : Json) : j.finite.finite = j.finite := by
  cases j with
  | float x => by_cases hx : x.isFinite <;> simp [finite, hx]
  | arr items => simp [finite, finiteItems_finiteItems items]
  | obj members => simp [finite, finiteMembers_finiteMembers members]
  | null | bool | int | str => simp [finite]

theorem finiteItems_finiteItems (items : List Json) : finiteItems (finiteItems items) = finiteItems items := by
  match items with
  | [] => rfl
  | j :: rest => simp [finiteItems, finite_finite j, finiteItems_finiteItems rest]

theorem finiteMembers_finiteMembers (members : List (String × Json)) :
    finiteMembers (finiteMembers members) = finiteMembers members := by
  match members with
  | [] => rfl
  | (k, j) :: rest => simp [finiteMembers, finite_finite j, finiteMembers_finiteMembers rest]

end

end Json

namespace Decoder

variable {α : Type} {d : Decoder α}

theorem exists_of_possible {ms : Dict Json} {field : String} {a : α}
    (h : possible ms field d = .ok (some a)) : ∃ j, d j = .ok a := by
  unfold possible defaulted at h
  split at h
  · unfold Decoder.optional at h
    split at h
    · cases h
    · obtain ⟨a', ha, h⟩ := Outcome.map_eq_ok.mp h
      cases h
      exact ⟨_, ha⟩
  · cases h

theorem exists_of_list {j : Json} {as : List α} (h : list d j = .ok as) : ∀ a ∈ as, ∃ i, d i = .ok a := by
  unfold list at h
  split at h
  · intro a ha
    obtain ⟨i, -, hi⟩ := Outcome.exists_of_mem_mapM h ha
    exact ⟨i, hi⟩
  · cases h

/-- A list is read back exactly if each of its members is. -/
theorem list_map_iff {f : α → Json} {as : List α} :
    list d (.arr (as.map f)) = .ok as ↔ ∀ a ∈ as, d (f a) = .ok a := by
  rw [list, Outcome.mapM_eq_ok, List.forall₂_map_left_iff, List.forall₂_same]

/-- A field that is written where there is something to write is read back if its value is. -/
theorem possible_of_get? {ms : Dict Json} {field : String} {f : α → Json} {a : Option α}
    (hget : Dict.get? ms field = a.map f) (hnull : ∀ x, f x ≠ .null) (hback : ∀ x ∈ a, d (f x) = .ok x) :
    possible ms field d = .ok a := by
  unfold possible defaulted
  rw [hget]
  cases a with
  | none => rfl
  | some x =>
    have hitem : Decoder.optional d (f x) = (d (f x)).map some := by
      unfold Decoder.optional
      split
      · exact absurd ‹_› (hnull x)
      · rfl
    exact hitem.trans (by rw [hback x rfl]; rfl)

theorem integer_of_integer {least greatest n : Int} {j : Json} (h : integer least greatest j = .ok n) :
    integer least greatest (.int n) = .ok n := by
  unfold integer at h
  split at h
  · split at h
    · rename_i hrange
      obtain rfl := Except.ok.inj h
      exact if_pos hrange
    · cases h
  · cases h

theorem natural_of_natural {bits n : Nat} {j : Json} (h : natural bits j = .ok n) :
    natural bits (Json.ofNat n) = .ok n := by
  obtain ⟨i, hi, rfl⟩ := Outcome.map_eq_ok.mp h
  have hnonneg : 0 ≤ i := by
    have hi := hi
    unfold integer at hi
    split at hi
    · split at hi
      · rename_i hrange
        obtain rfl := Except.ok.inj hi
        exact hrange.1
      · cases hi
    · cases hi
  refine Outcome.map_eq_ok.mpr ⟨i, ?_, rfl⟩
  rw [Json.ofNat, Int.toNat_of_nonneg hnonneg]
  exact integer_of_integer hi

theorem keys_of_dict {ms : Dict Json} {m : Dict α} (h : dict d (.obj ms) = .ok m) : Dict.keys m = Dict.keys ms := by
  have hkeys : List.Forall₂ (fun e a => e.1 = a.1) ms m := (Outcome.mapM_eq_ok.mp h).imp fun e a hea => by
    obtain ⟨x, -, rfl⟩ := Outcome.map_eq_ok.mp hea
    rfl
  have heq : List.Forall₂ Eq (Dict.keys ms) (Dict.keys m) :=
    List.forall₂_map_left_iff.mpr (List.forall₂_map_right_iff.mpr hkeys)
  rw [List.forall₂_eq_eq_eq] at heq
  exact heq.symm

/-- A dictionary is read back exactly if each of its values is. -/
theorem dict_mapValues_iff {f : α → Json} {m : Dict α} :
    dict d (.obj (Dict.mapValues f m)) = .ok m ↔ ∀ e ∈ m, d (f e.2) = .ok e.2 := by
  rw [dict, Dict.mapValues, Outcome.mapM_eq_ok, List.forall₂_map_left_iff, List.forall₂_same]
  refine forall₂_congr fun e _ => ?_
  rw [Outcome.map_eq_ok]
  constructor
  · rintro ⟨x, hx, hpair⟩
    exact hpair ▸ hx
  · exact fun hx => ⟨e.2, hx, rfl⟩

theorem dict_any_of_dict_any {j : Json} {m : Dict Json} (h : dict any j = .ok m) : dict any (.obj m) = .ok m := by
  have hfinite : ∀ e ∈ m, any (id e.2) = .ok e.2 := by
    unfold dict at h
    split at h
    · intro e he
      obtain ⟨e', -, hread⟩ := Outcome.exists_of_mem_mapM h he
      obtain ⟨v, hv, rfl⟩ := Outcome.map_eq_ok.mp hread
      obtain rfl := Except.ok.inj hv
      exact congrArg Except.ok (Json.finite_finite e'.2)
    · cases h
  have hback := dict_mapValues_iff.mpr hfinite
  rwa [show Dict.mapValues id m = m from List.map_id m] at hback

end Decoder

end GoalCompiler
