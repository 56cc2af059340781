import GoalCompiler.Proofs.Resolution.Answers
import Mathlib.Data.List.MinMax
import Mathlib.Data.Prod.Lex

/-! The values that modifiers assign. Whatever the order in which modifiers were found, each parameter gets the
strongest of the values that reach it and that it takes; of equally strong ones it gets the one that is declared
first. -/
namespace GoalCompiler

/-! ### The first of the strongest -/

/-- What stands before the first maximum of a list is less. -/
theorem exists_split_of_argmax {α β : Type} [DecidableEq α] [LinearOrder β] {f : α → β} {l : List α} {a : α}
    (h : l.argmax f = some a) : ∃ before after, l = before ++ a :: after ∧ (∀ b ∈ before, f b < f a) ∧
      ∀ b ∈ after, f b ≤ f a := by
  obtain ⟨hmem, hle, hfirst⟩ := List.mem_argmax_iff.mp h
  obtain ⟨before, after, rfl, hnew⟩ := List.eq_append_cons_of_mem hmem
  refine ⟨before, after, rfl, fun b hb => ?_, fun b hb => hle b (by simp [hb])⟩
  by_contra hge
  have hidx := hfirst b (by simp [hb]) (not_lt.mp hge)
  rw [List.idxOf_append_of_notMem hnew, List.idxOf_append_of_mem hb] at hidx
  have hlt := List.idxOf_lt_length_of_mem hb
  omega

/-- The first maximum of a list whose places rise is the one with the least place. -/
theorem exists_place_of_argmax {κ α β : Type} [Preorder κ] [DecidableEq α] [LinearOrder β] {f : α → β}
    {l : List (κ × α)} {a : α} (hplaces : l.Pairwise fun x y => x.1 ≤ y.1)
    (h : (l.map Prod.snd).argmax f = some a) :
    ∃ k, (k, a) ∈ l ∧ ∀ k' a', (k', a') ∈ l → f a' < f a ∨ f a' = f a ∧ k ≤ k' := by
  obtain ⟨before, after, hsplit, hbefore, hafter⟩ := exists_split_of_argmax h
  obtain ⟨xs, rest, rfl, rfl, hrest⟩ := List.map_eq_append_iff.mp hsplit
  obtain ⟨⟨k, a⟩, ys, rfl, rfl, rfl⟩ := List.map_eq_cons_iff.mp hrest
  have hlater := (List.pairwise_cons.mp (List.pairwise_append.mp hplaces).2.1).1
  refine ⟨k, by simp, fun k' a' hmem => ?_⟩
  rcases List.mem_append.mp hmem with hmem | hmem
  · exact .inl (hbefore a' (List.mem_map_of_mem hmem))
  · rcases List.mem_cons.mp hmem with heq | hmem
    · obtain ⟨rfl, rfl⟩ := Prod.mk.inj heq
      exact .inr ⟨rfl, le_rfl⟩
    · exact (hafter a' (List.mem_map_of_mem hmem)).lt_or_eq.imp_right fun heq => ⟨heq, hlater _ hmem⟩

namespace Assignment

/-- What one assignment has over another: aligned words, then that its parameter is named. -/
def strength (a : Assignment) : ℕ ×ₗ Bool := toLex (a.aligned, a.direct)

theorem beats_iff {a b : Assignment} : a.beats b ↔ b.strength < a.strength := by
  simp only [strength, Prod.Lex.toLex_lt_toLex, beats, Bool.or_eq_true, Bool.and_eq_true, decide_eq_true_eq,
    beq_iff_eq, Bool.not_eq_true', Bool.lt_iff]
  rw [eq_comm (a := a.aligned)]
  tauto

/-- The offers to one parameter. -/
def offersTo (n : String) (offered : List (String × Assignment)) : List Assignment :=
  (offered.filter fun o => o.1 == n).map Prod.snd

theorem get?_offer {assigned : Dict Assignment} {parameter n : String} {a : Assignment} :
    Dict.get? (offer assigned parameter a) n =
      if parameter = n then List.argAux (fun a b => b.strength < a.strength) (Dict.get? assigned n) a
      else Dict.get? assigned n := by
  unfold offer
  split_ifs with hn
  · subst hn
    cases hb : Dict.get? assigned parameter with
    | none => exact Dict.get?_insert_self _ _ _
    | some b =>
      simp only [List.argAux, beats_iff]
      split_ifs
      · exact Dict.get?_insert_self _ _ _
      · exact hb
  · have hne : n ≠ parameter := Ne.symm hn
    split
    · split_ifs
      · exact Dict.get?_insert_of_ne _ _ hne
      · rfl
    · exact Dict.get?_insert_of_ne _ _ hne

theorem get?_foldl_offer (offered : List (String × Assignment)) (assigned : Dict Assignment) (n : String) :
    Dict.get? (offered.foldl (fun assigned (p, a) => offer assigned p a) assigned) n =
      (offersTo n offered).foldl (List.argAux fun a b => b.strength < a.strength) (Dict.get? assigned n) := by
  induction offered generalizing assigned with
  | nil => rfl
  | cons o rest ih =>
    obtain ⟨p, a⟩ := o
    rw [List.foldl_cons, ih, get?_offer]
    by_cases hp : p = n <;> simp [hp, offersTo]

/-- A parameter ends up with the first of the strongest offers. -/
theorem get?_offers (offered : List (String × Assignment)) (n : String) :
    Dict.get? (offered.foldl (fun assigned (p, a) => offer assigned p a) []) n =
      (offersTo n offered).argmax strength := get?_foldl_offer offered [] n

end Assignment

namespace Workflow

open Assignment (offersTo)

variable {w : Workflow} {found found' : List ModifierMatch}

/-- A modifier that was found reaches a parameter with a value that it has for one of the names. -/
def Reaches (w : Workflow) (found : List ModifierMatch) (t : Parameter) (index : Nat) (name : String)
    (a : Assignment) : Prop :=
  ∃ f ∈ found, f.index = index ∧ ∃ m, w.modifiers[index]? = some m ∧ ∃ value, (name, value) ∈ m.values ∧
    t ∈ w.targets name m.phrase ∧ ∃ v, t.accept value = .ok v ∧ a = ⟨v, m.phrase, f.aligned, t.name == name⟩

/-- Of all that reaches a parameter this is the strongest, and the first that is so strong in the order of the
modifiers and the names. -/
def Wins (w : Workflow) (found : List ModifierMatch) (t : Parameter) (a : Assignment) : Prop :=
  ∃ index name, w.Reaches found t index name a ∧ ∀ index' name' a', w.Reaches found t index' name' a' →
    a'.strength < a.strength ∨ a'.strength = a.strength ∧ toLex (index, name) ≤ toLex (index', name')

/-! ### Offers and where they come from -/

/-- The modifiers found, as they are declared. -/
def foundInOrder (found : List ModifierMatch) : List ModifierMatch :=
  found.mergeSort fun a b => a.index ≤ b.index

/-- What a modifier offers, with the place that each offer has among all of them. -/
def placed (w : Workflow) (f : ModifierMatch) (m : Modifier) : List ((ℕ ×ₗ String) × String × Assignment) :=
  m.values.flatMap fun e => (w.valueOffers m f.aligned e).map fun o => (toLex (f.index, e.1), o)

def allPlaced (w : Workflow) (found : List ModifierMatch) : List ((ℕ ×ₗ String) × String × Assignment) :=
  (foundInOrder found).flatMap fun f => w.modifiers[f.index]?.toList.flatMap (w.placed f)

theorem mem_foundInOrder {f : ModifierMatch} : f ∈ foundInOrder found ↔ f ∈ found := List.mem_mergeSort

theorem pairwise_foundInOrder (found : List ModifierMatch) :
    (foundInOrder found).Pairwise fun f g => f.index ≤ g.index := by
  refine (List.pairwise_mergeSort ?_ ?_ found).imp fun h => by simpa using h
  · intro f g h hfg hgh
    simp only [decide_eq_true_eq] at *
    omega
  · intro f g
    simp only [Bool.or_eq_true, decide_eq_true_eq]
    omega

/-- With distinct indices the order in which modifiers were found is forgotten. -/
theorem foundInOrder_eq_of_perm (hfound : (found.map ModifierMatch.index).Nodup) (h : found'.Perm found) :
    foundInOrder found' = foundInOrder found := by
  have hperm : (foundInOrder found').Perm (foundInOrder found) :=
    (List.mergeSort_perm _ _).trans (h.trans (List.mergeSort_perm _ _).symm)
  refine hperm.eq_of_pairwise (fun f g hf hg hfg hgf => ?_) (pairwise_foundInOrder _) (pairwise_foundInOrder _)
  have hf : f ∈ found := h.subset (mem_foundInOrder.mp hf)
  exact List.inj_on_of_nodup_map hfound hf (mem_foundInOrder.mp hg) (le_antisymm hfg hgf)

theorem assignments_eq (w : Workflow) (found : List ModifierMatch) :
    w.assignments found =
      ((w.allPlaced found).map Prod.snd).foldl (fun assigned (p, a) => Assignment.offer assigned p a) [] := by
  rw [assignments, allPlaced, List.map_flatMap]
  refine congrArg (List.foldl _ []) (List.flatMap_congr fun f _ => ?_)
  cases w.modifiers[f.index]? with
  | none => rfl
  | some m =>
    rw [Option.toList_some, List.flatMap_singleton, placed, List.map_flatMap]
    simp only [List.map_map, Function.comp_def, List.map_id']
    rfl

theorem mem_allPlaced {place : ℕ ×ₗ String} {n : String} {a : Assignment} :
    (place, n, a) ∈ w.allPlaced found ↔
      ∃ t ∈ w.parameters, t.name = n ∧ ∃ index name, place = toLex (index, name) ∧
        w.Reaches found t index name a := by
  simp only [allPlaced, List.mem_flatMap, mem_foundInOrder, Option.mem_toList]
  constructor
  · rintro ⟨f, hf, m, hm, hmem⟩
    obtain ⟨⟨name, value⟩, hvalue, hmem⟩ := List.mem_flatMap.mp hmem
    obtain ⟨o, hoffer, heq⟩ := List.mem_map.mp hmem
    obtain ⟨rfl, rfl⟩ := Prod.mk.inj heq
    obtain ⟨t, ht, hn, v, hv, ha⟩ := mem_valueOffers.mp hoffer
    exact ⟨t, mem_of_targets ht, hn, f.index, name, rfl, f, hf, rfl, m, hm, value, hvalue, ht, v, hv, ha⟩
  · rintro ⟨t, -, hn, index, name, rfl, f, hf, rfl, m, hm, value, hvalue, ht, v, hv, ha⟩
    refine ⟨f, hf, m, hm, List.mem_flatMap.mpr ⟨(name, value), hvalue, List.mem_map.mpr ⟨(n, a), ?_, rfl⟩⟩⟩
    exact mem_valueOffers.mpr ⟨t, ht, hn, v, hv, ha⟩

theorem place_of_mem_placed {f : ModifierMatch} {m : Modifier} {x : (ℕ ×ₗ String) × String × Assignment}
    (h : x ∈ w.placed f m) : (ofLex x.1).1 = f.index := by
  obtain ⟨e, -, hx⟩ := List.mem_flatMap.mp h
  obtain ⟨o, -, rfl⟩ := List.mem_map.mp hx
  rfl

/-- The offers of one modifier are made in the order of the names. -/
theorem pairwise_placed {f : ModifierMatch} {m : Modifier} (hvalues : Dict.Ordered m.values) :
    (w.placed f m).Pairwise fun x y => x.1 ≤ y.1 := by
  refine List.pairwise_flatMap.mpr ⟨fun e _ => ?_, hvalues.imp fun hlt x hx y hy => ?_⟩
  · exact List.pairwise_map.mpr (List.pairwise_of_forall fun _ _ => le_rfl)
  · obtain ⟨-, -, rfl⟩ := List.mem_map.mp hx
    obtain ⟨-, -, rfl⟩ := List.mem_map.mp hy
    exact Prod.Lex.toLex_le_toLex.mpr (.inr ⟨rfl, hlt.le⟩)

/-- Offers are made in the order of the modifiers, and those of one in the order of the names. -/
theorem pairwise_allPlaced (hvalues : ∀ m ∈ w.modifiers, Dict.Ordered m.values)
    (hfound : (found.map ModifierMatch.index).Nodup) :
    (w.allPlaced found).Pairwise fun x y => x.1 ≤ y.1 := by
  have hindices : (foundInOrder found).Pairwise fun f g => f.index < g.index := by
    have hnodup : ((foundInOrder found).map ModifierMatch.index).Nodup :=
      ((List.mergeSort_perm _ _).map _).nodup_iff.mpr hfound
    exact ((pairwise_foundInOrder found).and (List.pairwise_map.mp hnodup)).imp fun h => lt_of_le_of_ne h.1 h.2
  refine List.pairwise_flatMap.mpr ⟨fun f _ => ?_, hindices.imp fun hlt x hx y hy => ?_⟩
  · cases hm : w.modifiers[f.index]? with
    | none => exact List.Pairwise.nil
    | some m =>
      rw [Option.toList_some, List.flatMap_singleton]
      exact pairwise_placed (hvalues m (List.mem_of_getElem? hm))
  · obtain ⟨m, -, hx⟩ := List.mem_flatMap.mp hx
    obtain ⟨m', -, hy⟩ := List.mem_flatMap.mp hy
    refine Prod.Lex.le_iff.mpr (.inl ?_)
    rwa [place_of_mem_placed hx, place_of_mem_placed hy]

/-- At one place there is one candidate for a parameter. -/
theorem Reaches.unique (hvalues : ∀ m ∈ w.modifiers, Dict.Ordered m.values)
    (hfound : (found.map ModifierMatch.index).Nodup) {t : Parameter} {index : Nat} {name : String}
    {a a' : Assignment} (h : w.Reaches found t index name a) (h' : w.Reaches found t index name a') : a = a' := by
  obtain ⟨f, hf, hindex, m, hm, value, hvalue, -, v, hv, rfl⟩ := h
  obtain ⟨f', hf', hindex', m', hm', value', hvalue', -, v', hv', rfl⟩ := h'
  obtain rfl : f = f' := List.inj_on_of_nodup_map hfound hf hf' (hindex.trans hindex'.symm)
  obtain rfl : m = m' := Option.some.inj (hm.symm.trans hm')
  have hordered := hvalues m (List.mem_of_getElem? hm)
  obtain rfl : value = value' := Option.some.inj
    (((Dict.mem_iff_get? hordered).mp hvalue).symm.trans ((Dict.mem_iff_get? hordered).mp hvalue'))
  obtain rfl : v = v' := Except.ok.inj (hv.symm.trans hv')
  rfl

theorem Wins.unique (hvalues : ∀ m ∈ w.modifiers, Dict.Ordered m.values)
    (hfound : (found.map ModifierMatch.index).Nodup) {t : Parameter} {a a' : Assignment}
    (h : w.Wins found t a) (h' : w.Wins found t a') : a = a' := by
  obtain ⟨index, name, hreaches, hbest⟩ := h
  obtain ⟨index', name', hreaches', hbest'⟩ := h'
  rcases hbest _ _ _ hreaches' with hlt | ⟨heq, hle⟩
  · rcases hbest' _ _ _ hreaches with hlt' | ⟨heq', -⟩
    · exact absurd hlt hlt'.not_gt
    · exact absurd hlt heq'.symm.not_lt
  · rcases hbest' _ _ _ hreaches with hlt' | ⟨-, hle'⟩
    · exact absurd hlt' heq.symm.not_lt
    · obtain ⟨rfl, rfl⟩ := Prod.mk.inj (toLex_inj.mp (le_antisymm hle hle'))
      exact hreaches.unique hvalues hfound hreaches'

/-! ### Candidates -/

/-- What is offered to one parameter, with the places. -/
def candidates (w : Workflow) (found : List ModifierMatch) (n : String) : List ((ℕ ×ₗ String) × Assignment) :=
  ((w.allPlaced found).filter fun x => x.2.1 == n).map fun x => (x.1, x.2.2)

theorem get?_assignments (w : Workflow) (found : List ModifierMatch) (n : String) :
    Dict.get? (w.assignments found) n =
      ((w.candidates found n).map Prod.snd).argmax Assignment.strength := by
  rw [assignments_eq, Assignment.get?_offers, offersTo, candidates, List.filter_map, List.map_map, List.map_map]
  rfl

theorem mem_candidates {place : ℕ ×ₗ String} {n : String} {a : Assignment} :
    (place, a) ∈ w.candidates found n ↔
      ∃ t ∈ w.parameters, t.name = n ∧ ∃ index name, place = toLex (index, name) ∧
        w.Reaches found t index name a := by
  rw [← mem_allPlaced, candidates, List.mem_map]
  constructor
  · rintro ⟨⟨place', n', a'⟩, hmem, heq⟩
    obtain ⟨rfl, rfl⟩ := Prod.mk.inj heq
    obtain ⟨hplaced, hn⟩ := List.mem_filter.mp hmem
    rw [← beq_iff_eq.mp hn]
    exact hplaced
  · intro hmem
    exact ⟨(place, n, a), List.mem_filter.mpr ⟨hmem, by simp⟩, rfl⟩

theorem mem_candidates_name (hnames : (w.parameters.map Parameter.name).Nodup) {t : Parameter}
    (ht : t ∈ w.parameters) {index : Nat} {name : String} {a : Assignment} :
    (toLex (index, name), a) ∈ w.candidates found t.name ↔ w.Reaches found t index name a := by
  rw [mem_candidates]
  constructor
  · rintro ⟨t', ht', hname, index', name', hplace, hreaches⟩
    obtain rfl : t' = t := List.inj_on_of_nodup_map hnames ht' ht hname
    obtain ⟨rfl, rfl⟩ := Prod.mk.inj (toLex_inj.mp hplace)
    exact hreaches
  · exact fun hreaches => ⟨t, ht, rfl, index, name, rfl, hreaches⟩

theorem candidates_eq_nil_iff (hnames : (w.parameters.map Parameter.name).Nodup) {t : Parameter}
    (ht : t ∈ w.parameters) :
    w.candidates found t.name = [] ↔ ∀ index name a, ¬ w.Reaches found t index name a := by
  rw [List.eq_nil_iff_forall_not_mem]
  constructor
  · exact fun h index name a hreaches => h _ ((mem_candidates_name hnames ht).mpr hreaches)
  · rintro h ⟨place, a⟩ hmem
    exact h _ _ a ((mem_candidates_name hnames ht).mp hmem)

/-- What is assigned to a parameter wins there. -/
theorem wins_of_get? (hnames : (w.parameters.map Parameter.name).Nodup)
    (hvalues : ∀ m ∈ w.modifiers, Dict.Ordered m.values) (hfound : (found.map ModifierMatch.index).Nodup)
    {n : String} {a : Assignment} (h : Dict.get? (w.assignments found) n = some a) :
    ∃ t ∈ w.parameters, t.name = n ∧ w.Wins found t a := by
  have hplaces : (w.candidates found n).Pairwise fun x y => x.1 ≤ y.1 :=
    List.pairwise_map.mpr ((pairwise_allPlaced hvalues hfound).filter _)
  rw [get?_assignments] at h
  obtain ⟨place, hmem, hbest⟩ := exists_place_of_argmax hplaces h
  obtain ⟨t, ht, rfl, index, name, rfl, hreaches⟩ := mem_candidates.mp hmem
  refine ⟨t, ht, rfl, index, name, hreaches, fun index' name' a' hreaches' => ?_⟩
  exact hbest _ _ ((mem_candidates_name hnames ht).mpr hreaches')

/-- A name is bound to an assignment exactly if it is that of a parameter where the assignment wins, and to none
exactly if nothing reaches the parameter. In what order the modifiers were found makes no difference; the names
that a modifier has values for are in order, as in every dictionary. -/
theorem assignments_exact (hnames : (w.parameters.map Parameter.name).Nodup)
    (hvalues : ∀ m ∈ w.modifiers, Dict.Ordered m.values) (hfound : (found.map ModifierMatch.index).Nodup) :
    (∀ n a, Dict.get? (w.assignments found) n = some a ↔ ∃ t ∈ w.parameters, t.name = n ∧ w.Wins found t a) ∧
    (∀ t ∈ w.parameters, Dict.get? (w.assignments found) t.name = none ↔
      ∀ index name a, ¬ w.Reaches found t index name a) ∧
    ∀ found' : List ModifierMatch, found'.Perm found → w.assignments found' = w.assignments found := by
  have hnone : ∀ t ∈ w.parameters, Dict.get? (w.assignments found) t.name = none ↔
      ∀ index name a, ¬ w.Reaches found t index name a := fun t ht => by
    rw [get?_assignments, List.argmax_eq_none, List.map_eq_nil_iff, candidates_eq_nil_iff hnames ht]
  refine ⟨fun n a => ⟨wins_of_get? hnames hvalues hfound, ?_⟩, hnone, fun found' h => ?_⟩
  · rintro ⟨t, ht, rfl, hwins⟩
    cases hget : Dict.get? (w.assignments found) t.name with
    | none =>
      obtain ⟨index, name, hreaches, -⟩ := hwins
      exact absurd hreaches ((hnone t ht).mp hget index name a)
    | some c =>
      obtain ⟨t', ht', hname, hwins'⟩ := wins_of_get? hnames hvalues hfound hget
      obtain rfl : t' = t := List.inj_on_of_nodup_map hnames ht' ht hname
      rw [hwins'.unique hvalues hfound hwins]
  · rw [assignments_eq, assignments_eq, allPlaced, allPlaced, foundInOrder_eq_of_perm hfound h]

/-- Two legs that share answers, and a modifier for each of them. -/
def stand : Workflow where
  name := "stand"
  parameters :=
    [{ name := "leg_left", type := .int, allowed := some [.int 0, .int 1, .int 2], group := some "legs" },
     { name := "leg_right", type := .int, allowed := some [.int 0, .int 1, .int 2], group := some "legs" }]
  modifiers :=
    [{ phrase := "short legs", values := [("leg_left", .int 1)] },
     { phrase := "long legs", values := [("leg_left", .int 5), ("leg_right", .int 2)] }]

/-- The later modifier was found first. -/
def foundLegs : List ModifierMatch := [⟨1, 2, 2⟩, ⟨0, 2, 2⟩]

/-- Each leg has the value that is meant for it; five is too long for either. -/
theorem assignments_stand :
    (stand.parameters.map Parameter.name).Nodup ∧ (∀ m ∈ stand.modifiers, Dict.Ordered m.values) ∧
      (foundLegs.map ModifierMatch.index).Nodup ∧
      (∃ t ∈ stand.parameters, t.name = "leg_right" ∧ stand.Wins foundLegs t ⟨.int 2, "long legs", 2, true⟩) ∧
      Dict.get? (stand.assignments foundLegs.reverse) "leg_left" = some ⟨.int 1, "short legs", 2, true⟩ := by
  have hnames : (stand.parameters.map Parameter.name).Nodup := by decide
  have hvalues : ∀ m ∈ stand.modifiers, Dict.Ordered m.values := by
    unfold Dict.Ordered
    decide
  have hfound : (foundLegs.map ModifierMatch.index).Nodup := by decide
  obtain ⟨hwins, -, hperm⟩ := assignments_exact hnames hvalues hfound
  have hsorted : foundInOrder foundLegs.reverse = foundLegs.reverse :=
    List.mergeSort_of_pairwise (by decide)
  have hassigned : stand.assignments foundLegs.reverse =
      [("leg_left", ⟨.int 1, "short legs", 2, true⟩), ("leg_right", ⟨.int 2, "long legs", 2, true⟩)] := by
    rw [assignments_eq, allPlaced, hsorted]
    decide +kernel
  refine ⟨hnames, hvalues, hfound, (hwins _ _).mp ?_, ?_⟩
  · rw [← hperm _ foundLegs.reverse_perm, hassigned]
    rfl
  · rw [hassigned]
    rfl

end Workflow

end GoalCompiler
