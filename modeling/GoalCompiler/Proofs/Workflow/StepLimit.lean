import GoalCompiler.Proofs.Workflow.Unrolling
import Mathlib.Algebra.BigOperators.Ring.List
import Mathlib.Algebra.Group.Action.Defs

/-! The limit of steps. The copies of a run are counted before any of them is made, and together with the
steps that came out before they have to fit below the limit. Numbers stop at `maxCount`, which never hides
that there are too many copies; but a loop whose first variables alone have more combinations than that is
refused even if a later variable has no value, so that no copy would come of it. -/
namespace GoalCompiler

/-! ### Counts -/

namespace Plan

/-- The first variables have more combinations than are told apart, and a later one has no value. -/
def Clogged (p : Plan) : Prop :=
  ∃ front back, p.axes = front ++ back ∧ maxCount < (front.map Axis.size).prod ∧ ∃ a ∈ back, a.size = 0

theorem foldl_product_le {sizes : List Nat} {a c : Nat} (ha : a ≤ maxCount)
    (h : sizes.foldl (fun acc n => acc.bind fun a => if a * n ≤ maxCount then some (a * n) else none)
      (some a) = some c) : c ≤ maxCount := by
  induction sizes generalizing a with
  | nil => exact Option.some.inj h ▸ ha
  | cons n rest ih =>
    rw [List.foldl_cons] at h
    obtain ⟨b, hb, -⟩ := foldl_product rest _ h
    rw [hb] at h
    rw [Option.bind_some, Option.ite_none_right_eq_some] at hb
    exact ih (Option.some.inj hb.2 ▸ hb.1) h

/-- A product that stops has run past `maxCount` on the way. -/
theorem exists_front_of_foldl_product {sizes : List Nat} {a : Nat}
    (h : sizes.foldl (fun acc n => acc.bind fun a => if a * n ≤ maxCount then some (a * n) else none)
      (some a) = none) : ∃ front back, sizes = front ++ back ∧ maxCount < a * front.prod := by
  induction sizes generalizing a with
  | nil => cases h
  | cons n rest ih =>
    rw [List.foldl_cons, Option.bind_some] at h
    split at h
    · obtain ⟨front, back, rfl, hfront⟩ := ih h
      exact ⟨n :: front, back, rfl, by rwa [List.prod_cons, ← Nat.mul_assoc]⟩
    · exact ⟨[n], rest, rfl, by simpa using ‹¬ a * n ≤ maxCount›⟩

theorem product_of_front {front back : List Nat} (h : maxCount < front.prod) :
    product (front ++ back) = maxCount := by
  simp only [product, List.foldl_append]
  cases hf : front.foldl _ (some 1) with
  | some c =>
    obtain ⟨a, ha, hc⟩ := foldl_product _ _ hf
    obtain rfl := Option.some.inj ha
    have hle := foldl_product_le (by decide) hf
    omega
  | none =>
    cases hb : back.foldl _ none with
    | none => rfl
    | some c =>
      obtain ⟨a, ha, -⟩ := foldl_product _ _ hb
      cases ha

/-- Counting gives the product of the sizes, or stops where the first of them are past `maxCount`. -/
theorem product_cases (sizes : List Nat) :
    (product sizes = sizes.prod ∧ sizes.prod ≤ maxCount) ∨
      ∃ front back, sizes = front ++ back ∧ maxCount < front.prod ∧ product sizes = maxCount := by
  cases hf : sizes.foldl (fun acc n => acc.bind fun a =>
      if a * n ≤ maxCount then some (a * n) else none) (some 1) with
  | some c =>
    left
    obtain ⟨a, ha, hc⟩ := foldl_product _ _ hf
    obtain rfl := Option.some.inj ha
    rw [Nat.one_mul] at hc
    subst hc
    exact ⟨by simp [product, hf], foldl_product_le (by decide) hf⟩
  | none =>
    right
    obtain ⟨front, back, rfl, hfront⟩ := exists_front_of_foldl_product hf
    rw [Nat.one_mul] at hfront
    exact ⟨front, back, rfl, hfront, product_of_front hfront⟩

theorem count_of_clogged {p : Plan} (h : p.Clogged) : p.count = maxCount := by
  obtain ⟨front, back, haxes, hfront, -⟩ := h
  rw [count, haxes, List.map_append]
  exact product_of_front hfront

theorem prod_sizes_le {axes : List Axis} {lists : List (List Json)}
    (hagree : List.Forall₂ Axis.Agrees axes lists) :
    (axes.map Axis.size).prod ≤ (lists.map List.length).prod := by
  induction hagree with
  | nil => exact Nat.le_refl _
  | @cons a values axes lists ha _ ih =>
    rw [List.map_cons, List.map_cons, List.prod_cons, List.prod_cons]
    refine Nat.mul_le_mul ?_ ih
    rcases ha with rfl | ⟨hmax, hlt⟩
    · exact Nat.le_of_eq a.length_elements.symm
    · omega

/-- Any other loop is counted right up to `maxCount`. -/
theorem count_of_not_clogged {p : Plan} {lists : List (List Json)}
    (hagree : List.Forall₂ Axis.Agrees p.axes lists) (h : ¬ p.Clogged) :
    p.count = min maxCount (lists.map List.length).prod := by
  have hle := prod_sizes_le hagree
  rcases product_cases (p.axes.map Axis.size) with ⟨hcount, hmax⟩ | ⟨front, back, haxes, hfront, hcount⟩
  · rcases Nat.lt_or_eq_of_le hmax with hlt | heq
    · -- few enough, so that the axes are the lists of values
      obtain ⟨hlen, -⟩ := pick_eq_combination hagree (by rwa [hcount])
      rw [length_combinations] at hlen
      rw [count, hlen, Nat.min_eq_right (by omega)]
    · rw [count, hcount, heq, Nat.min_eq_left (by omega)]
  · -- nothing after the first variables makes the product smaller again
    obtain ⟨axes, rest, hsplit, rfl, rfl⟩ := List.map_eq_append_iff.mp haxes
    have hpos : 0 < (rest.map Axis.size).prod := by
      refine Nat.pos_of_ne_zero fun h0 => h ⟨axes, rest, hsplit, hfront, ?_⟩
      obtain ⟨a, ha, h0⟩ := List.mem_map.mp (List.prod_eq_zero_iff.mp h0)
      exact ⟨a, ha, h0⟩
    have hgrow := Nat.le_mul_of_pos_right (axes.map Axis.size).prod hpos
    rw [hsplit, List.map_append, List.prod_append] at hle
    rw [count, hcount, Nat.min_eq_left (by omega)]

end Plan

namespace Unrolling

open Expression (Scope)

variable {scope : Scope}

/-- How many copies a template is held to have: one for each combination of its values, but `maxCount` if
its loop is clogged. -/
def Counts (scope : Scope) (t : Template) (n : Nat) : Prop :=
  ∃ p lists, plan scope t.step = .ok p ∧
    Spans scope t.step.label (t.step.loop.map Loop.iteration) p.names lists ∧
    (p.Clogged ∧ n = maxCount ∨ ¬ p.Clogged ∧ n = (lists.map List.length).prod)

theorem count_of_counts {t : Template} {n : Nat} (h : Counts scope t n) :
    ∃ p, plan scope t.step = .ok p ∧ p.count = min maxCount n := by
  obtain ⟨p, lists, hplan, hspans, hn⟩ := h
  refine ⟨p, hplan, ?_⟩
  rcases hn with ⟨hclogged, rfl⟩ | ⟨hclogged, rfl⟩
  · rw [Plan.count_of_clogged hclogged, Nat.min_self]
  · obtain ⟨lists', hspans', hagree⟩ := plan_spec hplan
    rw [(hspans.unique hspans').2]
    exact Plan.count_of_not_clogged hagree hclogged

theorem counts_of_plan {t : Template} {p : Plan} (h : plan scope t.step = .ok p) (hlt : p.count < maxCount) :
    Counts scope t p.count := by
  obtain ⟨lists, hspans, hlen, -⟩ := combinations_of_plan h hlt
  refine ⟨p, lists, h, hspans, .inr ⟨fun hclogged => ?_, by rw [← hlen, length_combinations]⟩⟩
  rw [Plan.count_of_clogged hclogged] at hlt
  exact absurd hlt (Nat.lt_irrefl _)

/-! ### One run -/

/-- What comes before the copies of a run: the plans of its templates, equally long if they take turns, and
few enough. -/
def vet (scope : Scope) (limit emitted : Nat) (run : List Template) :
    Except Failure (List (Template × Plan)) := do
  let planned ← run.mapM fun t => do return (t, ← plan scope t.step)
  let counts := planned.map fun tp => tp.2.count
  match run.head?.bind fun t => group? t.step with
  | some group => checkGroup group (counts.headD 0) planned
  | none => pure ()
  let attempted := counts.foldl (fun n c => min maxCount (n + c)) emitted
  if limit < attempted then throw (.stepLimit limit attempted)
  return planned

/-- The unrolling of runs with the making of a copy left open. -/
def unrollRunsWith (make : Template → Dict Json → Except Failure Unrolled) (scope : Scope) (limit : Nat)
    (done : List Unrolled) : List (List Template) → Except Failure (List Unrolled)
  | [] => .ok done
  | run :: rest => do
    let planned ← vet scope limit done.length run
    let more ← (turns planned ((planned.map fun tp => tp.2.count).headD 0)).mapM fun tpk =>
      make tpk.1.1 (tpk.1.2.bindings tpk.2)
    unrollRunsWith make scope limit (done ++ more) rest

theorem copies_eq (planned : List (Template × Plan)) (n : Nat) :
    copies scope planned n =
      (turns planned n).mapM fun tpk => instantiate scope tpk.1.1 (tpk.1.2.bindings tpk.2) := by
  change ((List.range n).flatMap fun k => planned.map fun tp => (tp.1, tp.2.bindings k)).mapM _ = _
  rw [← map_turns fun (tp : Template × Plan) k => (tp.1, tp.2.bindings k), List.mapM_map]
  rfl

theorem unrollRun_eq (limit emitted : Nat) (run : List Template) :
    unrollRun scope limit emitted run = vet scope limit emitted run >>= fun planned =>
      copies scope planned ((planned.map fun tp => tp.2.count).headD 0) := by
  simp only [unrollRun, vet, bind_assoc]
  congr 1
  funext planned
  cases run.head?.bind fun t => group? t.step with
  | none =>
    dsimp only
    split <;> rfl
  | some group =>
    simp only [bind_assoc]
    congr 1
    funext _
    split <;> rfl

theorem unrollRuns_eq (limit : Nat) (done : List Unrolled) (rs : List (List Template)) :
    unrollRuns scope limit done rs = unrollRunsWith (instantiate scope) scope limit done rs := by
  induction rs generalizing done with
  | nil => rfl
  | cons run rest ih =>
    simp only [unrollRuns, unrollRunsWith, unrollRun_eq, copies_eq, bind_assoc, ih]

theorem foldl_min (counts : List Nat) (emitted : Nat) :
    min maxCount (counts.foldl (fun n c => min maxCount (n + c)) emitted) =
      min maxCount (emitted + counts.sum) := by
  induction counts generalizing emitted with
  | nil => rfl
  | cons c rest ih =>
    rw [List.foldl_cons, ih, List.sum_cons]
    omega

theorem sum_min (counts : List Nat) (emitted : Nat) :
    min maxCount (emitted + (counts.map (min maxCount)).sum) = min maxCount (emitted + counts.sum) := by
  induction counts generalizing emitted with
  | nil => rfl
  | cons c rest ih =>
    rw [List.map_cons, List.sum_cons, List.sum_cons, ← Nat.add_assoc, ih]
    omega

theorem foldl_min_le {counts : List Nat} {emitted : Nat} (h : emitted ≤ maxCount) :
    counts.foldl (fun n c => min maxCount (n + c)) emitted ≤ maxCount := by
  induction counts generalizing emitted with
  | nil => exact h
  | cons c rest ih => exact ih (Nat.min_le_left _ _)

/-- Numbers that stop on the way have the sum that stops at the end. -/
theorem attempted_eq {counts : List Nat} (hne : counts ≠ []) (emitted : Nat) :
    (counts.map (min maxCount)).foldl (fun n c => min maxCount (n + c)) emitted =
      min maxCount (emitted + counts.sum) := by
  rw [← sum_min, ← foldl_min]
  cases counts with
  | nil => exact absurd rfl hne
  | cons c rest => exact (Nat.min_eq_right (foldl_min_le (Nat.min_le_left _ _))).symm

theorem checkGroup_of_counts {group : String} {n : Nat} {planned : List (Template × Plan)}
    (h : ∀ tp ∈ planned, tp.2.count = n) : checkGroup group n planned = .ok () := by
  induction planned with
  | nil => rfl
  | cons tp rest ih =>
    obtain ⟨hhead, hrest⟩ := List.forall_mem_cons.mp h
    rw [checkGroup, if_pos hhead]
    exact ih hrest

theorem planned_of_counts {run : List Template} {n : Template → Nat}
    (hcounts : ∀ t ∈ run, Counts scope t (n t)) :
    ∃ planned, (run.mapM fun t => do return (t, ← plan scope t.step)) = .ok planned ∧
      (planned.map fun tp => tp.2.count) = (run.map n).map (min maxCount) := by
  induction run with
  | nil => exact ⟨[], rfl, rfl⟩
  | cons t rest ih =>
    obtain ⟨hhead, hrest⟩ := List.forall_mem_cons.mp hcounts
    obtain ⟨p, hplan, hcount⟩ := count_of_counts hhead
    obtain ⟨planned, hplanned, heq⟩ := ih hrest
    refine ⟨(t, p) :: planned, ?_, by rw [List.map_cons, heq, hcount, List.map_cons, List.map_cons]⟩
    rw [List.mapM_cons, hplanned, hplan]
    rfl

/-- A run passes, or is refused for its number of steps alone. -/
theorem vet_of_counts (limit emitted : Nat) {run : List Template} {n : Template → Nat} (hne : run ≠ [])
    (hcounts : ∀ t ∈ run, Counts scope t (n t)) (hequal : ∀ t ∈ run, ∀ u ∈ run, n t = n u) :
    ∃ planned, vet scope limit emitted run =
      if limit < min maxCount (emitted + (run.map n).sum) then
        .error (.stepLimit limit (min maxCount (emitted + (run.map n).sum)))
      else .ok planned := by
  obtain ⟨planned, hplanned, hmap⟩ := planned_of_counts hcounts
  have hall : ∀ tp ∈ planned, tp.2.count = (planned.map fun tp => tp.2.count).headD 0 := by
    intro tp htp
    have hmem := List.mem_map_of_mem (f := fun tp : Template × Plan => tp.2.count) htp
    rw [hmap, List.map_map] at hmem ⊢
    obtain ⟨u, hu, heq⟩ := List.mem_map.mp hmem
    cases run with
    | nil => cases hu
    | cons t rest =>
      rw [← heq, List.map_cons, List.headD_cons, Function.comp_apply, Function.comp_apply,
        hequal u hu t List.mem_cons_self]
  have hattempted := attempted_eq (mt List.map_eq_nil_iff.mp hne : run.map n ≠ []) emitted
  rw [← hmap] at hattempted
  refine ⟨planned, ?_⟩
  rw [vet, hplanned]
  simp only [bind, Except.bind, ← hattempted]
  cases run.head?.bind fun t => group? t.step with
  | none => rfl
  | some group =>
    simp only [checkGroup_of_counts hall]
    rfl

theorem not_stepLimit_of_instantiate {t : Template} {bindings : Dict Json} {limit attempted : Nat} :
    instantiate scope t bindings ≠ .error (.stepLimit limit attempted) := by
  unfold instantiate
  split
  · simp
  · rename_i e _
    cases e <;> simp [Failure.inside]

/-! ### One run after another -/

/-- Among the runs, the first one that asks for more steps than the limit leaves: the runs before it come out
in full, and with them and the exact number of its own copies the limit is passed. -/
structure Exceeds (scope : Scope) (limit : Nat) (n : Template → Nat) (rs before : List (List Template))
    (run : List Template) (attempted : Nat) : Prop where
  place : before ++ [run] <+: rs
  emitted : ∃ out, unrollRuns scope limit [] before = .ok out ∧
    attempted = min maxCount (out.length + (run.map n).sum)
  above : limit < attempted

theorem unrollRunsWith_append (make : Template → Dict Json → Except Failure Unrolled) (limit : Nat)
    (done : List Unrolled) (before rest : List (List Template)) :
    unrollRunsWith make scope limit done (before ++ rest) =
      unrollRunsWith make scope limit done before >>= fun out =>
        unrollRunsWith make scope limit out rest := by
  induction before generalizing done with
  | nil => rfl
  | cons run before ih => simp only [List.cons_append, unrollRunsWith, bind_assoc, ih]

theorem planned_of_vet {limit emitted : Nat} {run : List Template} {planned : List (Template × Plan)}
    (h : vet scope limit emitted run = .ok planned) : run = planned.map Prod.fst := by
  obtain ⟨planned', hplanned, h⟩ := Outcome.bind_eq_ok.mp h
  obtain rfl : planned' = planned := by
    dsimp only at h
    split at h
    · obtain ⟨⟨⟩, -, h⟩ := Outcome.bind_eq_ok.mp h
      exact Except.ok.inj (below_limit h).2
    · exact Except.ok.inj (below_limit h).2
  exact (planned_spec hplanned).1

/-- Copies are made of the templates of the runs only. -/
theorem unrollRunsWith_congr {make make' : Template → Dict Json → Except Failure Unrolled} {limit : Nat}
    {done : List Unrolled} {rs : List (List Template)} (h : ∀ t ∈ rs.flatten, make t = make' t) :
    unrollRunsWith make scope limit done rs = unrollRunsWith make' scope limit done rs := by
  induction rs generalizing done with
  | nil => rfl
  | cons run rest ih =>
    rw [List.flatten_cons, List.forall_mem_append] at h
    rw [unrollRunsWith, unrollRunsWith]
    cases hvet : vet scope limit done.length run with
    | error e => rfl
    | ok planned =>
      have hsame : ∀ tpk ∈ turns planned ((planned.map fun tp => tp.2.count).headD 0),
          make tpk.1.1 (tpk.1.2.bindings tpk.2) = make' tpk.1.1 (tpk.1.2.bindings tpk.2) := by
        intro tpk htpk
        rw [h.1 tpk.1.1 (planned_of_vet hvet ▸ List.mem_map_of_mem (mem_turns.mp htpk).1)]
      simp only [bind, Except.bind, Outcome.mapM_congr hsame, ih h.2]

/-- A run that passes the limit is refused before any of its copies is made: that of the runs before it is
all there is of making copies. -/
theorem stepLimit_of_exceeds {make : Template → Dict Json → Except Failure Unrolled} {limit attempted : Nat}
    {n : Template → Nat} {rs before : List (List Template)} {run : List Template}
    (hne : run ≠ []) (hcounts : ∀ t ∈ run, Counts scope t (n t))
    (hequal : ∀ t ∈ run, ∀ u ∈ run, n t = n u)
    (h : Exceeds scope limit n rs before run attempted) (hmake : ∀ t ∈ before.flatten, make t = instantiate scope t) :
    unrollRunsWith make scope limit [] rs = .error (.stepLimit limit attempted) := by
  obtain ⟨⟨after, rfl⟩, ⟨out, hout, rfl⟩, habove⟩ := h
  obtain ⟨planned, hvet⟩ := vet_of_counts limit out.length hne hcounts hequal
  rw [if_pos habove] at hvet
  rw [unrollRuns_eq, ← unrollRunsWith_congr hmake] at hout
  rw [List.append_assoc, unrollRunsWith_append, hout, List.singleton_append]
  change unrollRunsWith make scope limit out (run :: after) = _
  rw [unrollRunsWith, hvet]
  rfl

theorem exceeds_of_stepLimit {limit limit' attempted : Nat} {n : Template → Nat} {done : List Unrolled}
    {rs : List (List Template)} (hne : ∀ run ∈ rs, run ≠ [])
    (hcounts : ∀ run ∈ rs, ∀ t ∈ run, Counts scope t (n t))
    (hequal : ∀ run ∈ rs, ∀ t ∈ run, ∀ u ∈ run, n t = n u)
    (h : unrollRunsWith (instantiate scope) scope limit done rs = .error (.stepLimit limit' attempted)) :
    limit' = limit ∧ ∃ before run after out, rs = before ++ run :: after ∧
      unrollRuns scope limit done before = .ok out ∧
      attempted = min maxCount (out.length + (run.map n).sum) ∧ limit < attempted := by
  induction rs generalizing done with
  | nil => cases h
  | cons run rest ih =>
    obtain ⟨planned, hvet⟩ := vet_of_counts limit done.length
      (hne run List.mem_cons_self) (hcounts run List.mem_cons_self) (hequal run List.mem_cons_self)
    rcases Outcome.bind_eq_error.mp h with hrefused | ⟨planned', hplanned, hmake⟩
    · rw [hvet] at hrefused
      split at hrefused
      · cases hrefused
        exact ⟨rfl, [], run, rest, done, rfl, rfl, rfl, ‹_›⟩
      · cases hrefused
    · rcases Outcome.bind_eq_error.mp hmake with hmake | ⟨more, hmore, hrest⟩
      · obtain ⟨tpk, -, htpk⟩ := Outcome.exists_of_mapM_eq_error hmake
        exact absurd htpk not_stepLimit_of_instantiate
      · obtain ⟨hlimit, before, run', after, out, rfl, hout, hattempted⟩ :=
          ih (fun r hr => hne r (List.mem_cons_of_mem _ hr))
            (fun r hr => hcounts r (List.mem_cons_of_mem _ hr))
            (fun r hr => hequal r (List.mem_cons_of_mem _ hr)) hrest
        refine ⟨hlimit, run :: before, run', after, out, rfl, ?_, hattempted⟩
        rw [unrollRuns_eq] at hout ⊢
        exact Outcome.bind_eq_ok.mpr ⟨planned', hplanned, Outcome.bind_eq_ok.mpr ⟨more, hmore, hout⟩⟩

theorem length_turns {α : Type} (xs : List α) (n : Nat) : (turns xs n).length = n * xs.length := by
  simp [turns, List.length_flatMap]

theorem length_of_unrollRun {limit emitted : Nat} {run : List Template} {out : List Unrolled}
    (hlimit : limit < maxCount) (hchain : run.IsChain fun x y => joined x y)
    (h : unrollRun scope limit emitted run = .ok out) : emitted + out.length ≤ limit := by
  obtain ⟨planned, hplanned, hgroup, hattempted, hcopies⟩ := unrollRun_eq_ok h
  have hcount := counts_of_checked hchain (planned_spec hplanned).1 hgroup
  have hsum : (planned.map fun tp => tp.2.count).sum = out.length := by
    rw [← (copies_eq_ok hcopies).length_eq, length_turns, List.sum_eq_card_nsmul _ _
      (List.forall_mem_map.mpr hcount), List.length_map, smul_eq_mul, Nat.mul_comm]
  have hmin := foldl_min (planned.map fun tp => tp.2.count) emitted
  omega

theorem length_of_unrollRuns {limit : Nat} {done out : List Unrolled} {rs : List (List Template)}
    (hlimit : limit < maxCount) (hchain : ∀ run ∈ rs, run.IsChain fun x y => joined x y)
    (hdone : done.length ≤ limit) (h : unrollRuns scope limit done rs = .ok out) : out.length ≤ limit := by
  induction rs generalizing done with
  | nil => exact Except.ok.inj h ▸ hdone
  | cons run rest ih =>
    obtain ⟨more, hmore, h⟩ := Outcome.bind_eq_ok.mp h
    obtain ⟨hhead, htail⟩ := List.forall_mem_cons.mp hchain
    refine ih htail ?_ h
    rw [List.length_append]
    exact length_of_unrollRun hlimit hhead hmore

/-- Unrolling stops for the limit exactly where a run passes it, before any copy of that run is made, and what
comes out is never longer than the limit. The numbers of copies are exact but for clogged loops. -/
theorem stepLimit_iff {limit : Nat} {steps : List Step} {n : Template → Nat}
    (hcounts : ∀ t ∈ templates steps, Counts scope t (n t))
    (hequal : ∀ run ∈ (templates steps).splitBy joined, ∀ t ∈ run, ∀ u ∈ run, n t = n u) :
    (∀ limit' attempted, unroll scope limit steps = .error (.stepLimit limit' attempted) ↔
      limit' = limit ∧ ∃ before run,
        Exceeds scope limit n ((templates steps).splitBy joined) before run attempted) ∧
    (∀ before run attempted,
      Exceeds scope limit n ((templates steps).splitBy joined) before run attempted →
      ∀ make, (∀ t ∈ before.flatten, make t = instantiate scope t) →
        unrollRunsWith make scope limit [] ((templates steps).splitBy joined) =
          .error (.stepLimit limit attempted)) ∧
    (limit < maxCount → ∀ out, unroll scope limit steps = .ok out → out.length ≤ limit) := by
  have hne : ∀ run ∈ (templates steps).splitBy joined, run ≠ [] :=
    fun run hrun => List.ne_nil_of_mem_splitBy hrun
  have hall : ∀ run ∈ (templates steps).splitBy joined, ∀ t ∈ run, Counts scope t (n t) := by
    intro run hrun t ht
    refine hcounts t ?_
    rw [← List.flatten_splitBy joined (templates steps)]
    exact List.mem_flatten.mpr ⟨run, hrun, ht⟩
  have hunroll : unroll scope limit steps =
      unrollRunsWith (instantiate scope) scope limit [] ((templates steps).splitBy joined) := by
    rw [← unrollRuns_eq, ← runs_eq_splitBy]
    rfl
  have hstops : ∀ before run attempted,
      Exceeds scope limit n ((templates steps).splitBy joined) before run attempted →
      ∀ make, (∀ t ∈ before.flatten, make t = instantiate scope t) →
        unrollRunsWith make scope limit [] ((templates steps).splitBy joined) =
          .error (.stepLimit limit attempted) := by
    intro before run attempted h make hmake
    have hrun : run ∈ (templates steps).splitBy joined := h.place.subset (by simp)
    exact stepLimit_of_exceeds (hne run hrun) (hall run hrun) (hequal run hrun) h hmake
  refine ⟨fun limit' attempted => ⟨fun h => ?_, ?_⟩, hstops, fun hlimit out h => ?_⟩
  · obtain ⟨rfl, before, run, after, out, heq, hout, hattempted, habove⟩ :=
      exceeds_of_stepLimit hne hall hequal (hunroll ▸ h)
    exact ⟨rfl, before, run, ⟨after, by rw [heq, List.append_assoc]; rfl⟩, ⟨out, hout, hattempted⟩, habove⟩
  · rintro ⟨rfl, before, run, h⟩
    exact hunroll ▸ hstops before run attempted h _ fun _ _ => rfl
  · rw [hunroll, ← unrollRuns_eq] at h
    exact length_of_unrollRuns hlimit (fun _ hrun => List.isChain_of_mem_splitBy hrun) (Nat.zero_le _) h

/-- Two copies, and then six. -/
def flights : List Step :=
  [{ tool := "paint", params := [("color", .str "\x7bc\x7d")]
     loop := some ⟨.values "c" [.str "red", .str "blue"], none⟩ },
   { tool := "drill"
     loop := some ⟨.product ["i", "j"] [⟨.literal 1, .literal 3⟩, ⟨.literal 1, .literal 2⟩], none⟩ }]

def copiesOfFlights (t : Template) : Nat := if t.origin = 0 then 2 else 6

theorem stepLimit_flights :
    (∀ t ∈ templates flights, Counts (fun _ => none) t (copiesOfFlights t)) ∧
      (∀ run ∈ (templates flights).splitBy joined, ∀ t ∈ run, ∀ u ∈ run,
        copiesOfFlights t = copiesOfFlights u) ∧
      unroll (fun _ => none) 5 flights = .error (.stepLimit 5 8) := by
  have hcounts : ∀ t ∈ templates flights, Counts (fun _ => none) t (copiesOfFlights t) :=
    List.forall_mem_cons.mpr
      ⟨counts_of_plan (p := ⟨["c"], [.values [.str "red", .str "blue"]]⟩) rfl (by decide),
        List.forall_mem_cons.mpr
          ⟨counts_of_plan (p := ⟨["i", "j"], [.range 1 3, .range 1 2]⟩) rfl (by decide), by simp⟩⟩
  have hequal : ∀ run ∈ (templates flights).splitBy joined, ∀ t ∈ run, ∀ u ∈ run,
      copiesOfFlights t = copiesOfFlights u := by
    decide
  have hpaint : unrollRuns (fun _ => none) 5 [] [(templates flights).take 1] = .ok
      [{ step := { tool := "paint", params := [("color", .str "red")] }
         bindings := [("c", .str "red")], referenced := ["c"], origin := 0 },
       { step := { tool := "paint", params := [("color", .str "blue")] }
         bindings := [("c", .str "blue")], referenced := ["c"], origin := 0 }] := by
    decide +kernel
  exact ⟨hcounts, hequal, ((stepLimit_iff hcounts hequal).1 5 8).mpr
    ⟨rfl, [(templates flights).take 1], (templates flights).drop 1, ⟨[], rfl⟩, ⟨_, hpaint, rfl⟩, by decide⟩⟩

/-- The first two variables have more combinations than are told apart, and the third has no value. -/
def clog : Step :=
  { tool := "drill"
    loop := some ⟨.product ["i", "j", "k"] [⟨.literal 1, .literal 5000000000⟩,
      ⟨.literal 1, .literal 5000000000⟩, ⟨.literal 1, .literal 0⟩], none⟩ }

/-- No copy would come of the step, but it is refused for its number of copies. -/
theorem stepLimit_clog :
    (∃ names lists, Spans (fun _ => none) clog.label (clog.loop.map Loop.iteration) names lists ∧
      (lists.map List.length).prod = 0) ∧
      unroll (fun _ => none) defaultStepLimit [clog] = .error (.stepLimit defaultStepLimit maxCount) := by
  refine ⟨?_, by decide +kernel⟩
  obtain ⟨lists, hspans, hagree⟩ := plan_spec (show plan (fun _ => none) clog = .ok _ from rfl)
  exact ⟨_, lists, hspans, Plan.prod_lengths_of_agrees hagree (by decide +kernel)⟩

end Unrolling

end GoalCompiler
