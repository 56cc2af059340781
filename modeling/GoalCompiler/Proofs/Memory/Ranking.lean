import GoalCompiler.Memory.Store
import Mathlib.Data.List.Nodup
import Mathlib.Data.List.Perm.Basic
import Mathlib.Logic.Equiv.Basic

/-! What a search owes to the order of the mappings. Matches are ranked by how near they are and how often they were
used, and by nothing else: the order of the mappings decides between those that tie, and only between them. -/
namespace GoalCompiler

namespace Match

/-- What a match is ranked by. -/
def standing (m : Match) : Float32 × Nat := (m.similarity, m.mapping.usage)

/-- The order of the standings, the highest first. -/
def Ahead (x y : Float32 × Nat) : Prop := rank y.1 < rank x.1 ∨ rank x.1 = rank y.1 ∧ y.2 ≤ x.2

theorem rank_injective : Function.Injective rank := by
  rintro ⟨⟨x, hx⟩⟩ ⟨⟨y, hy⟩⟩ h
  have hbits : x.toNat = y.toNat := by
    change (if x.toNat < 0x80000000 then (x.toNat : Int) else -(x.toNat - 0x80000000 : Int) - 1) =
      if y.toNat < 0x80000000 then (y.toNat : Int) else -(y.toNat - 0x80000000 : Int) - 1 at h
    split_ifs at h <;> omega
  obtain rfl := UInt32.toNat_inj.mp hbits
  rfl

theorem before_iff {a b : Match} : before a b ↔ Ahead a.standing b.standing := by
  simp [before, Ahead, standing]

theorem before_trans (a b c : Match) (hab : before a b) (hbc : before b c) : before a c := by
  rw [before_iff, Ahead] at *
  omega

theorem before_total (a b : Match) : before a b || before b a := by
  rw [Bool.or_eq_true, before_iff, before_iff, Ahead, Ahead]
  omega

theorem Ahead.antisymm {x y : Float32 × Nat} (hxy : Ahead x y) (hyx : Ahead y x) : x = y := by
  rw [Ahead] at hxy hyx
  have hrank : rank x.1 = rank y.1 := by omega
  exact Prod.ext (rank_injective hrank) (by omega)

end Match

namespace Query

variable {q : Query} {rs rs' : Records} {a b : Match}

/-- Nothing that is listed ties with another match. -/
def Decides (q : Query) (rs : Records) : Prop :=
  ∀ a ∈ q.run rs, ∀ b ∈ rs.filterMap q.match?, a.standing = b.standing → a = b

theorem mapping_of_match? {m : Mapping} (h : q.match? m = some a) : a.mapping = m := by
  unfold match? at h
  dsimp only at h
  split_ifs at h
  exact congrArg Match.mapping (Option.some.inj h).symm

theorem mem_matches (h : a ∈ rs.filterMap q.match?) : a.mapping ∈ rs ∧ q.match? a.mapping = some a := by
  obtain ⟨m, hm, hmatch⟩ := List.mem_filterMap.mp h
  rw [mapping_of_match? hmatch]
  exact ⟨hm, hmatch⟩

theorem mem_matches_of_run (h : a ∈ q.run rs) : a ∈ rs.filterMap q.match? :=
  List.mem_mergeSort.mp (List.mem_of_mem_take h)

theorem run_of_pairwise (h : (rs.filterMap q.match?).Pairwise fun a b => Match.before a b) :
    q.run rs = (rs.filterMap q.match?).take q.limit := by
  rw [run, List.mergeSort_of_pairwise h]

/-- In whatever order the mappings are met, the matches at a place have one standing. -/
theorem standing_run_of_perm (h : rs'.Perm rs) :
    (q.run rs').map Match.standing = (q.run rs).map Match.standing := by
  have hsorted : ∀ l : List Match,
      ((l.mergeSort Match.before).map Match.standing).Pairwise Match.Ahead := fun l =>
    List.pairwise_map.mpr ((List.pairwise_mergeSort Match.before_trans Match.before_total l).imp
      Match.before_iff.mp)
  have hperm : ((rs'.filterMap q.match?).mergeSort Match.before).Perm
      ((rs.filterMap q.match?).mergeSort Match.before) :=
    ((List.mergeSort_perm _ _).trans (h.filterMap _)).trans (List.mergeSort_perm _ _).symm
  have heq := (hperm.map Match.standing).eq_of_pairwise (fun _ _ _ _ => Match.Ahead.antisymm)
    (hsorted _) (hsorted _)
  rw [run, run, List.map_take, List.map_take, heq]

theorem run_eq_of_perm (h : rs'.Perm rs) (hdecides : q.Decides rs) : q.run rs' = q.run rs := by
  have hstanding := standing_run_of_perm (q := q) h
  have hlength : (q.run rs').length = (q.run rs).length := by
    simpa using congrArg List.length hstanding
  refine List.ext_getElem hlength fun i hi hi' => ?_
  have hmatch : (q.run rs')[i] ∈ rs.filterMap q.match? :=
    (h.filterMap _).mem_iff.mp (mem_matches_of_run (List.getElem_mem hi))
  refine (hdecides _ (List.getElem_mem hi') _ hmatch ?_).symm
  have hplace := congrArg (·[i]?) hstanding
  simpa [hi, hi'] using hplace.symm

/-- The match of the mapping that takes the place. -/
def moved (f : Mapping → Mapping) (m : Match) : Match := ⟨f m.mapping, m.similarity⟩

/-- Mappings may take each other's places where that changes neither what matches nor a standing. -/
theorem run_map {f : Mapping → Mapping} (hmatch : ∀ m ∈ rs, q.match? (f m) = (q.match? m).map (moved f))
    (husage : ∀ m ∈ rs, (f m).usage = m.usage) : q.run (rs.map f) = (q.run rs).map (moved f) := by
  have hmatches : (rs.map f).filterMap q.match? = (rs.filterMap q.match?).map (moved f) := by
    rw [List.filterMap_map, List.map_filterMap]
    exact List.filterMap_congr hmatch
  have hstanding : ∀ a ∈ rs.filterMap q.match?, (moved f a).standing = a.standing := fun a ha =>
    Prod.ext rfl (husage _ (mem_matches ha).1)
  have hbefore : ∀ a ∈ rs.filterMap q.match?, ∀ b ∈ rs.filterMap q.match?,
      Match.before a b = Match.before (moved f a) (moved f b) := by
    intro a ha b hb
    rw [Bool.eq_iff_iff, Match.before_iff, Match.before_iff, hstanding a ha, hstanding b hb]
  rw [run, hmatches, run, List.map_take, List.map_mergeSort hbefore]

/-- Of matches that tie, the one that is met first comes first. -/
theorem exists_run_ne (hrs : rs.Nodup) (ha : a ∈ q.run rs) (hb : b ∈ rs.filterMap q.match?)
    (hties : a.standing = b.standing) (hne : a ≠ b) : ∃ rs' : Records, rs'.Perm rs ∧ q.run rs' ≠ q.run rs := by
  obtain ⟨hmem, hmatch⟩ := mem_matches (mem_matches_of_run ha)
  obtain ⟨hmem', hmatch'⟩ := mem_matches hb
  obtain ⟨hsimilarity, husage⟩ := Prod.mk.inj hties
  -- the two change places
  let f := Equiv.swap a.mapping b.mapping
  have hcases : ∀ m, m = a.mapping ∧ f m = b.mapping ∨ m = b.mapping ∧ f m = a.mapping ∨ f m = m := by
    intro m
    by_cases h : m = a.mapping
    · exact .inl ⟨h, h ▸ Equiv.swap_apply_left _ _⟩
    · by_cases h' : m = b.mapping
      · exact .inr (.inl ⟨h', h' ▸ Equiv.swap_apply_right _ _⟩)
      · exact .inr (.inr (Equiv.swap_apply_of_ne_of_ne h h'))
  have hperm : (rs.map f).Perm rs := by
    refine (List.perm_ext_iff_of_nodup (hrs.map f.injective) hrs).mpr fun m => ?_
    have hin : ∀ m ∈ rs, f m ∈ rs := by
      intro m hm
      rcases hcases m with ⟨-, h⟩ | ⟨-, h⟩ | h <;> rw [h] <;> assumption
    refine ⟨fun h => ?_, fun h => List.mem_map.mpr ⟨f m, hin m h, Equiv.swap_apply_self _ _ m⟩⟩
    obtain ⟨m', hm', rfl⟩ := List.mem_map.mp h
    exact hin m' hm'
  have hab : moved f a = b := by
    rw [moved, Equiv.swap_apply_left, hsimilarity]
  have hba : moved f b = a := by
    rw [moved, Equiv.swap_apply_right, ← hsimilarity]
  have hrun : q.run (rs.map f) = (q.run rs).map (moved f) := by
    refine run_map (fun m _ => ?_) fun m _ => ?_
    · rcases hcases m with ⟨rfl, h⟩ | ⟨rfl, h⟩ | h
      · rw [h, hmatch, hmatch', Option.map_some, hab]
      · rw [h, hmatch, hmatch', Option.map_some, hba]
      · rw [h]
        cases hm : q.match? m with
        | none => rfl
        | some x => rw [Option.map_some, moved, mapping_of_match? hm, h, ← mapping_of_match? hm]
    · rcases hcases m with ⟨rfl, h⟩ | ⟨rfl, h⟩ | h <;> rw [h]
      · exact husage.symm
      · exact husage
  refine ⟨rs.map f, hperm, fun heq => hne ?_⟩
  obtain ⟨i, hi, rfl⟩ := List.getElem_of_mem ha
  have hplace := congrArg (·[i]?) (hrun.symm.trans heq)
  simp only [List.getElem?_map, List.getElem?_eq_getElem hi, Option.map_some, Option.some.injEq] at hplace
  exact hplace.symm.trans hab

/-- A search gives the same in every order exactly if nothing that it lists ties with another match. -/
theorem run_perm_iff (hrs : rs.Nodup) :
    (∀ rs' : Records, rs'.Perm rs → q.run rs' = q.run rs) ↔ q.Decides rs := by
  refine ⟨fun h a ha b hb hties => ?_, fun h rs' hperm => run_eq_of_perm hperm h⟩
  by_contra hne
  obtain ⟨rs', hperm, hrun⟩ := exists_run_ne hrs ha hb hties hne
  exact hrun (h rs' hperm)

end Query

end GoalCompiler
