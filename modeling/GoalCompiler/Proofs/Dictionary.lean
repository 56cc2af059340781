import GoalCompiler.Dict
import Mathlib.Data.List.Induction
import Mathlib.Data.String.Basic

/-! Dictionaries in the order of their keys. Every dictionary that is built by insertion is ordered, and two
ordered ones with the same bindings are the same list. Sets of names are ordered in the same way. -/
namespace GoalCompiler

namespace Dict

variable {α : Type} {m n : Dict α} {k j : String} {v : α}

/-- Each key is less than all that come after it. -/
def Ordered (m : Dict α) : Prop := m.Pairwise fun e f => e.1 < f.1

instance (m : Dict α) : Decidable (Ordered m) := inferInstanceAs (Decidable (List.Pairwise _ m))

theorem mem_insert {e : String × α} (h : e ∈ insert m k v) : e = (k, v) ∨ e ∈ m := by
  induction m with
  | nil => exact .inl (List.mem_singleton.mp h)
  | cons f rest ih =>
    rw [insert] at h
    split_ifs at h
    · rcases List.mem_cons.mp h with rfl | h
      · exact .inl rfl
      · exact .inr (List.mem_cons_of_mem f h)
    · exact List.mem_cons.mp h
    · rcases List.mem_cons.mp h with rfl | h
      · exact .inr List.mem_cons_self
      · exact (ih h).imp id (List.mem_cons_of_mem f)

theorem ordered_insert (h : Ordered m) : Ordered (insert m k v) := by
  induction m with
  | nil => exact List.pairwise_singleton _ _
  | cons f rest ih =>
    obtain ⟨hf, hrest⟩ := List.pairwise_cons.mp h
    rw [insert]
    split_ifs with heq hlt
    · exact List.pairwise_cons.mpr ⟨fun e he => heq ▸ hf e he, hrest⟩
    · refine List.pairwise_cons.mpr ⟨fun e he => ?_, h⟩
      rcases List.mem_cons.mp he with rfl | he
      · exact hlt
      · exact hlt.trans (hf e he)
    · refine List.pairwise_cons.mpr ⟨fun e he => ?_, ih hrest⟩
      rcases mem_insert he with rfl | he
      · exact lt_of_le_of_ne (not_lt.mp hlt) (Ne.symm heq)
      · exact hf e he

/-- What holds of all that is found and of a new entry holds of all that is found then. -/
theorem forall_get?_insert {P : String → α → Prop} (h : ∀ j u, get? m j = some u → P j u) (hv : P k v) :
    ∀ j u, get? (insert m k v) j = some u → P j u := by
  intro j u hget
  by_cases hj : j = k
  · subst hj
    rw [get?_insert_self] at hget
    obtain rfl := Option.some.inj hget
    exact hv
  · rw [get?_insert_of_ne m v hj] at hget
    exact h j u hget

theorem mem_of_get? (h : get? m k = some v) : (k, v) ∈ m := by
  induction m with
  | nil => simp [get?] at h
  | cons f rest ih =>
    rw [get?] at h
    split_ifs at h with heq
    · obtain rfl := Option.some.inj h
      exact heq ▸ List.mem_cons_self
    · exact List.mem_cons_of_mem f (ih h)

theorem contains_iff : contains m k ↔ k ∈ keys m := by
  unfold contains keys
  induction m with
  | nil => simp [get?]
  | cons f rest ih =>
    by_cases h : k = f.1
    · simp [get?, h]
    · simp [get?, h, ih]

theorem get?_eq_none_iff : get? m k = none ↔ k ∉ keys m := by
  rw [← contains_iff, contains, Bool.not_eq_true, Option.isSome_eq_false_iff, Option.isNone_iff_eq_none]

theorem contains_insert : contains (insert m k v) j ↔ contains m j ∨ k = j := by
  unfold contains
  by_cases h : j = k
  · subst h
    simp [get?_insert_self]
  · simp [get?_insert_of_ne m v h, Ne.symm h]

theorem get?_append (m n : Dict α) (k : String) : get? (m ++ n) k = (get? m k).or (get? n k) := by
  induction m with
  | nil => rfl
  | cons e rest ih =>
    rw [List.cons_append, get?, get?]
    split
    · rfl
    · exact ih

theorem get?_filter {p : String → Bool} : get? (m.filter fun e => p e.1) k = if p k then get? m k else none := by
  induction m with
  | nil => simp [get?]
  | cons e rest ih =>
    rw [List.filter_cons]
    by_cases hk : k = e.1
    · subst hk
      split
      · simp [get?]
      · rename_i h
        simpa [h] using ih
    · have hskip : get? (e :: rest) k = get? rest k := by rw [get?, if_neg hk]
      rw [hskip, ← ih]
      split
      · rw [get?, if_neg hk]
      · rfl

/-- In an ordered dictionary every entry is found by its key. -/
theorem mem_iff_get? (h : Ordered m) : (k, v) ∈ m ↔ get? m k = some v := by
  refine ⟨fun hmem => ?_, mem_of_get?⟩
  induction m with
  | nil => simp at hmem
  | cons f rest ih =>
    obtain ⟨hf, hrest⟩ := List.pairwise_cons.mp h
    rcases List.mem_cons.mp hmem with rfl | hmem
    · simp [get?]
    · rw [get?, if_neg (hf _ hmem).ne', ih hrest hmem]

/-- Where no key comes twice it does not matter which entry counts. -/
theorem get?_reverse (h : Ordered m) (k : String) : get? m.reverse k = get? m k := by
  cases hget : get? m.reverse k with
  | none =>
    have hkey := get?_eq_none_iff.mp hget
    rw [keys, List.map_reverse, List.mem_reverse] at hkey
    exact (get?_eq_none_iff.mpr hkey).symm
  | some v => exact ((mem_iff_get? h).mp (List.mem_reverse.mp (mem_of_get? hget))).symm

/-- Whether a dictionary is ordered is up to its keys. -/
theorem ordered_iff_keys : Ordered m ↔ (keys m).Pairwise (· < ·) := List.pairwise_map.symm

/-- Ordered dictionaries with the same bindings are equal. -/
theorem ext_of_ordered (hm : Ordered m) (hn : Ordered n) (h : ∀ j, get? m j = get? n j) : m = n := by
  have hmem : ∀ e, e ∈ m ↔ e ∈ n := fun e => by rw [mem_iff_get? hm, mem_iff_get? hn, h]
  have hne : ∀ {d : Dict α}, Ordered d → d.Nodup := fun hd =>
    List.Pairwise.imp (fun hef => ne_of_apply_ne Prod.fst hef.ne) hd
  exact ((List.perm_ext_iff_of_nodup (hne hm) (hne hn)).mpr hmem).eq_of_pairwise
    (fun _ _ _ _ hef hfe => absurd hef hfe.not_gt) hm hn

theorem ordered_ofList (entries : List (String × α)) : Ordered (ofList entries) :=
  List.foldlRecOn entries _ List.Pairwise.nil fun _ h _ _ => ordered_insert h

/-- In a dictionary made of a list a key has the last value that the list gives it. -/
theorem get?_ofList (entries : List (String × α)) (k : String) :
    get? (ofList entries) k = get? entries.reverse k := by
  induction entries using List.reverseRecOn with
  | nil => rfl
  | append_singleton entries e ih =>
    have hlast : ofList (entries ++ [e]) = insert (ofList entries) e.1 e.2 := List.foldl_concat ..
    rw [hlast, List.reverse_concat, get?]
    split
    · rename_i h
      rw [h, get?_insert_self]
    · rename_i h
      rw [get?_insert_of_ne _ _ h, ih]

end Dict

namespace NameSet

theorem pairwise_insert {s : NameSet} (h : s.Pairwise (· < ·)) (k : String) : (insert s k).Pairwise (· < ·) := by
  induction s with
  | nil => exact List.pairwise_singleton _ _
  | cons j rest ih =>
    obtain ⟨hj, hrest⟩ := List.pairwise_cons.mp h
    rw [insert]
    split_ifs with heq hlt
    · exact h
    · refine List.pairwise_cons.mpr ⟨fun i hi => ?_, h⟩
      rcases List.mem_cons.mp hi with rfl | hi
      · exact hlt
      · exact hlt.trans (hj i hi)
    · refine List.pairwise_cons.mpr ⟨fun i hi => ?_, ih hrest⟩
      rcases mem_insert.mp hi with rfl | hi
      · exact lt_of_le_of_ne (not_lt.mp hlt) (Ne.symm heq)
      · exact hj i hi

theorem pairwise_ofList (names : List String) : (ofList names).Pairwise (· < ·) :=
  List.foldlRecOn names insert List.Pairwise.nil fun _ h k _ => pairwise_insert h k

end NameSet

end GoalCompiler
