import GoalCompiler.Proofs.Memory.History
import GoalCompiler.Proofs.Memory.Ranking
import GoalCompiler.Proofs.Memory.Records
import GoalCompiler.Proofs.Number.Order
import GoalCompiler.Resolution.Tier

/-! What a parameter gets from the memory. The matches have their order, and only the first few of it are looked at:
the first of them with a value that the parameter takes is the answer, and its use is counted. So answers that no
longer count can stand before one that does, and if there are too many of them it is not found. -/
namespace GoalCompiler

variable {σ : Type} {view : σ → Records}

/-! ### One use -/

namespace Records

variable {rs : Records} {id : Identifier} {now : Moment}

/-- The use is counted in the first record with the identifier. -/
theorem exists_use?_eq (h : id ∈ rs.map Mapping.id) : ∃ front r back, rs = front ++ r :: back ∧ r.id = id ∧
    id ∉ front.map Mapping.id ∧ use? rs id now = some ((r.use now).usage, front ++ r.use now :: back) := by
  induction rs with
  | nil => cases h
  | cons r rest ih =>
    rw [use?]
    by_cases hid : r.id = id
    · exact ⟨[], r, rest, rfl, hid, List.not_mem_nil, if_pos hid⟩
    · have hrest : id ∈ rest.map Mapping.id := (List.mem_cons.mp h).resolve_left (Ne.symm hid)
      obtain ⟨front, r', back, rfl, hid', hfront, huse⟩ := ih hrest
      refine ⟨r :: front, r', back, rfl, hid', ?_, ?_⟩
      · exact List.not_mem_cons_of_ne_of_not_mem (Ne.symm hid) hfront
      · rw [if_neg hid, huse]
        rfl

end Records

/-- A search tells all that matches, in whatever order the records are met, and a use is counted in the records. -/
structure Memory.Tells (memory : Memory σ) (view : σ → Records) : Prop where
  search : ∀ s q, ∃ met : Records, met.Perm (view s) ∧ memory.search s q = .ok (q.run met)
  recordUsage : ∀ s id now, view (memory.recordUsage s id now).2 =
    ((Records.use? (view s) id now).map Prod.snd).getD (view s)

theorem Memory.Shows.tells {memory : Memory σ} (h : memory.Shows view) : memory.Tells view where
  search s q := ⟨view s, .refl _, h.search s q⟩
  recordUsage := h.recordUsage

theorem HeldStore.memory_tells {arrange : Records → Records} (harrange : ∀ rs, (arrange rs).Perm rs) :
    (HeldStore.memory arrange).Tells HeldStore.entries where
  search s q := ⟨arrange s.entries, harrange _, rfl⟩
  recordUsage s id now := by
    cases hget : Records.get? s.entries id with
    | some r =>
      obtain ⟨hr, rfl⟩ := (Records.get?_eq_some s.distinct).mp hget
      simp only [memory, hget, change, Records.use?_of_mem s.distinct hr, Option.map_some, Option.getD_some]
    | none =>
      have hid : id ∉ s.entries.map Mapping.id := by
        rintro hid
        obtain ⟨r, hr, rfl⟩ := List.mem_map.mp hid
        exact absurd (hget.symm.trans ((Records.get?_eq_some s.distinct).mpr ⟨hr, rfl⟩)) nofun
      simp only [memory, hget, Records.use?_of_not_mem hid, Option.map_none, Option.getD_none]

/-! ### The order of the matches -/

/-- These are all that matches among the records, the nearest first, and of equally near ones those that were used
more often. -/
structure Query.Ranks (q : Query) (rs : Records) (ranked : List Match) : Prop where
  mappings : (ranked.map Match.mapping).Perm
    (rs.filter fun r => q.speaksOf r && q.least ≤ Embedding.similarity r.embedding q.embedding)
  similarity : ∀ m ∈ ranked, m.similarity = Embedding.similarity m.mapping.embedding q.embedding
  sorted : (ranked.map Match.standing).Pairwise Match.Ahead

namespace Query

variable {q : Query} {rs met : Records} {ranked : List Match} {m : Match}

theorem map_mapping_matches : (rs.filterMap q.match?).map Match.mapping =
    rs.filter fun r => q.speaksOf r && q.least ≤ Embedding.similarity r.embedding q.embedding := by
  rw [List.map_filterMap, ← List.filterMap_eq_filter]
  refine List.filterMap_congr fun r _ => ?_
  simp only [match?, Option.guard]
  split <;> rfl

theorem similarity_of_match? (h : q.match? m.mapping = some m) :
    m.similarity = Embedding.similarity m.mapping.embedding q.embedding := by
  unfold match? at h
  dsimp only at h
  split_ifs at h
  exact congrArg Match.similarity (Option.some.inj h).symm

/-- What is found are the first few of the matches in their order. -/
theorem exists_ranks (h : met.Perm rs) : ∃ ranked, q.Ranks rs ranked ∧ q.run met = ranked.take q.limit := by
  have hperm : ((met.filterMap q.match?).mergeSort Match.before).Perm (rs.filterMap q.match?) :=
    (List.mergeSort_perm _ _).trans (h.filterMap _)
  refine ⟨(met.filterMap q.match?).mergeSort Match.before, ⟨?_, fun m hm => ?_, ?_⟩, rfl⟩
  · exact map_mapping_matches ▸ hperm.map Match.mapping
  · exact similarity_of_match? (mem_matches (hperm.mem_iff.mp hm)).2
  · exact List.pairwise_map.mpr
      ((List.pairwise_mergeSort Match.before_trans Match.before_total _).imp Match.before_iff.mp)

theorem Ranks.mapping_mem (h : q.Ranks rs ranked) (hm : m ∈ ranked) :
    m.mapping ∈ rs ∧ q.least ≤ m.similarity := by
  have hmapping := h.mappings.mem_iff.mp (List.mem_map_of_mem hm)
  simp only [List.mem_filter, Bool.and_eq_true, decide_eq_true_eq] at hmapping
  exact ⟨hmapping.1, h.similarity m hm ▸ hmapping.2.2⟩

end Query

/-! ### The answer -/

namespace Case

variable {c : Case} {env : Services σ} {settings : ResolverSettings} {s : Session σ} {least : Float32}
  {before rest : List Match} {m : Match} {v : Json}

/-- Matches whose values the parameter does not take are passed over. -/
theorem firstValid?_append (h : ∀ x ∈ before, ¬ c.parameter.accepts x.mapping.value) :
    c.firstValid? least (before ++ rest) = c.firstValid? least rest := by
  induction before with
  | nil => rfl
  | cons x before ih =>
    obtain ⟨hx, hbefore⟩ := List.forall_mem_cons.mp h
    rw [List.cons_append, firstValid?, ih hbefore]
    split
    · rfl
    · split
      · next v hv => exact absurd (Parameter.accepts_iff.mpr ⟨v, hv⟩) hx
      · rfl

theorem firstValid?_of_accept (hnear : least ≤ m.similarity) (hv : c.parameter.accept m.mapping.value = .ok v) :
    c.firstValid? least (m :: rest) = some (m, v) := by
  rw [firstValid?, if_neg (Number.not_lt_of_le hnear), hv]

theorem settle_learned_of_search {found : List Match}
    (h : env.memory.search s.memory (c.query settings) = .ok found) : Tier.learned.settle env settings c s =
      match c.firstValid? settings.memory found with
      | none => (.ok none, s)
      | some (m, v) => (.ok (some (c.settled v .learned)), { s with
          memory := (env.memory.recordUsage s.memory m.mapping.id (env.stamp s.made).moment).2 }) := by
  simp only [Tier.settle, byMemory, h]
  cases c.firstValid? settings.memory found <;> rfl

/-- The records are as they were, but for one use more of a mapping. It is counted in the first record that has its
identifier, which is the mapping itself where no identifier is there twice; after the greatest number of 64 bits the
count goes back to zero. -/
def UsedOnce (m : Mapping) (now : Moment) (rs rs' : Records) : Prop :=
  ∃ front r back, rs = front ++ r :: back ∧ r.id = m.id ∧ m.id ∉ front.map Mapping.id ∧
    rs' = front ++ r.use now :: back ∧ (r.use now).usage = (r.usage + 1) % UInt64.size ∧
    ((rs.map Mapping.id).Nodup → r = m)

theorem usedOnce_recordUsage {memory : Memory σ} (hm : memory.Tells view) {s : σ} {m : Mapping} {now : Moment}
    (h : m ∈ view s) : UsedOnce m now (view s) (view (memory.recordUsage s m.id now).2) := by
  obtain ⟨front, r, back, hview, hid, hfront, huse⟩ := Records.exists_use?_eq (List.mem_map_of_mem h)
  refine ⟨front, r, back, hview, hid, hfront, ?_, Mapping.usage_use r now, fun hids => ?_⟩
  · rw [hm.recordUsage, huse]
    rfl
  · have hr : r ∈ view s := hview ▸ List.mem_append_right front List.mem_cons_self
    exact List.inj_on_of_nodup_map hids hr h hid

/-- The tier looks at the first matches, as many as the limit says. The first whose value the parameter takes is the
answer, as the parameter takes it, and its use is counted. Where none of them is taken, the parameter is left to the
next tier and nothing changes, even if one that would be taken comes after them. -/
theorem settle_learned (hm : env.memory.Tells view) : ∃ ranked, (c.query settings).Ranks (view s.memory) ranked ∧
    ((∀ x ∈ ranked.take recallLimit, ¬ c.parameter.accepts x.mapping.value) →
      Tier.learned.settle env settings c s = (.ok none, s)) ∧
    ∀ before m after, ranked = before ++ m :: after → before.length < recallLimit →
      (∀ x ∈ before, ¬ c.parameter.accepts x.mapping.value) → c.parameter.accepts m.mapping.value →
      ∃ v memory, c.parameter.accept m.mapping.value = .ok v ∧
        Tier.learned.settle env settings c s = (.ok (some (c.settled v .learned)), { s with memory }) ∧
        UsedOnce m.mapping (env.stamp s.made).moment (view s.memory) (view memory) := by
  obtain ⟨met, hmet, hsearch⟩ := hm.search s.memory (c.query settings)
  obtain ⟨ranked, hranks, hrun⟩ := Query.exists_ranks (q := c.query settings) hmet
  have hfound : env.memory.search s.memory (c.query settings) = .ok (ranked.take recallLimit) :=
    hsearch.trans (congrArg Except.ok hrun)
  refine ⟨ranked, hranks, fun hnone => ?_, ?_⟩
  · have hfirst : c.firstValid? settings.memory (ranked.take recallLimit) = none := by
      rw [← List.append_nil (ranked.take recallLimit), firstValid?_append hnone, firstValid?]
    rw [settle_learned_of_search hfound, hfirst]
  · rintro before m after rfl hlimit hbefore hm'
    obtain ⟨v, hv⟩ := Parameter.accepts_iff.mp hm'
    obtain ⟨hmem, hleast⟩ := hranks.mapping_mem (m := m) (by simp)
    have hnear : settings.memory ≤ m.similarity := hleast
    -- the match is still among those that are looked at
    obtain ⟨rest, htake⟩ : ∃ rest, (before ++ m :: after).take recallLimit = before ++ m :: rest := by
      obtain ⟨n, hn⟩ : ∃ n, recallLimit = before.length + (n + 1) := ⟨recallLimit - before.length - 1, by omega⟩
      exact ⟨after.take n, by rw [hn, List.take_length_add_append, List.take_succ_cons]⟩
    have hfirst : c.firstValid? settings.memory ((before ++ m :: after).take recallLimit) = some (m, v) := by
      rw [htake, firstValid?_append hbefore, firstValid?_of_accept hnear hv]
    refine ⟨v, (env.memory.recordUsage s.memory m.mapping.id (env.stamp s.made).moment).2, hv, ?_,
      usedOnce_recordUsage hm hmem⟩
    rw [settle_learned_of_search hfound, hfirst]

/-- A table that is at most ten high. -/
def lowTable : Workflow where
  name := "table"
  parameters := [{ name := "height", type := .int, range := some (1.0, 10.0), default := .int 1 }]

/-- An answer for its height, which was used so often. -/
def tableHeight (n : Nat) (context : String) (v : Int) (usage : Nat) : Mapping where
  id := ⟨n⟩
  workflow := "table"
  parameter := "height"
  value := .int v
  context
  embedding := [1.0]
  counter := .ofNat usage
  created := ⟨"2025-01-01T12:00:00Z"⟩

/-- An answer for the height of a bench. -/
def benchHeight (n : Nat) : Mapping := { tableHeight n "a low bench" 1 3 with workflow := "bench" }

def heightCase : Case := ⟨lowTable, lowTable.parameters[0], ⟨"a table", [], [], [], [1.0]⟩, []⟩

def nextDay : Moment := ⟨"2025-01-02T12:00:00Z"⟩

/-- Answers are kept in a file, and nobody can be asked. -/
def fileServices : Services FileStore where
  embedder := .oneByOne "none" "none" fun _ => .ok [1.0]
  memory := FileStore.memory
  handler := none
  stamp := fun _ => ⟨⟨0⟩, nextDay⟩

def kept (rs : Records) : Session FileStore := ⟨⟨"memory.json", rs, []⟩, [], 0⟩

theorem settle_learned_lowTable :
    FileStore.memory.Tells FileStore.records ∧ (HeldStore.memory List.reverse).Tells HeldStore.entries ∧
    ∃ memory, Tier.learned.settle fileServices {} heightCase (kept [benchHeight 2, tableHeight 1 "a low table" 2 0]) =
        (.ok (some (heightCase.settled (.int 2) .learned)), ⟨memory, [], 0⟩) ∧
      memory.records = [benchHeight 2, (tableHeight 1 "a low table" 2 0).use nextDay] := by
  have htells : FileStore.memory.Tells FileStore.records := FileStore.memory_shows.tells
  obtain ⟨ranked, hranks, -, hanswer⟩ := @settle_learned FileStore FileStore.records heightCase fileServices {}
    (kept [benchHeight 2, tableHeight 1 "a low table" 2 0]) htells
  have hfilter : ([benchHeight 2, tableHeight 1 "a low table" 2 0].filter fun r => (heightCase.query {}).speaksOf r &&
      (heightCase.query {}).least ≤ Embedding.similarity r.embedding [1.0]) = [tableHeight 1 "a low table" 2 0] := by
    decide +kernel
  obtain ⟨m, rfl, hm⟩ := List.map_eq_singleton_iff.mp
    (List.perm_singleton.mp ((congrArg (List.Perm _) hfilter).mp hranks.mappings))
  obtain ⟨v, memory, hv, hsettle, front, r, back, hview, hid, hfront, hused, -, -⟩ :=
    hanswer [] m [] rfl (by decide) (by simp) (by rw [hm]; decide +kernel)
  rw [hm] at hv hid hfront
  obtain rfl : v = .int 2 := Except.ok.inj (hv.symm.trans (by decide +kernel))
  refine ⟨htells, HeldStore.memory_tells List.reverse_perm, memory, hsettle, ?_⟩
  -- the bench comes before the record of the table
  match front with
  | [] =>
    obtain ⟨rfl, -⟩ := List.cons.inj hview
    exact absurd hid (by decide)
  | [x] =>
    obtain ⟨rfl, hrest⟩ := List.cons.inj hview
    obtain ⟨rfl, rfl⟩ := List.cons.inj hrest
    exact hused
  | x :: y :: front =>
    obtain ⟨-, hrest⟩ := List.cons.inj hview
    obtain ⟨rfl, -⟩ := List.cons.inj hrest
    exact absurd (List.mem_cons_of_mem _ List.mem_cons_self) hfront

/-- Five of the answers are too high by now. -/
def sixHeights : Records :=
  [tableHeight 1 "a bar table" 90 1, tableHeight 2 "a counter" 91 1, tableHeight 3 "a desk to stand at" 92 1,
    tableHeight 4 "a workbench" 93 1, tableHeight 5 "a lectern" 94 1, tableHeight 6 "a low table" 2 0]

/-- Answers with the same identifier. -/
def twinHeights : Records := [benchHeight 1, tableHeight 1 "a low table" 2 0]

/-- The one answer was used as often as can be counted. -/
def wornHeights : Records := [tableHeight 1 "a low table" 2 (UInt64.size - 1)]

/-- Five answers that are too high hide one that is not; where two have the same identifier, the use of the one is
counted in the other; and where there is no greater count, it goes back to zero. -/
theorem hidden_lowTable :
    (tableHeight 6 "a low table" 2 0 ∈ sixHeights ∧ (heightCase.query {}).speaksOf (tableHeight 6 "a low table" 2 0) ∧
      (heightCase.query {}).least ≤ Embedding.similarity [1.0] heightCase.goal.vector ∧
      heightCase.parameter.accept (.int 2) = .ok (.int 2)) ∧
    Tier.learned.settle fileServices {} heightCase (kept sixHeights) = (.ok none, kept sixHeights) ∧
    (∃ memory, Tier.learned.settle fileServices {} heightCase (kept twinHeights) =
        (.ok (some (heightCase.settled (.int 2) .learned)), ⟨memory, [], 0⟩) ∧
      memory.records = [(benchHeight 1).use nextDay, tableHeight 1 "a low table" 2 0]) ∧
    ∃ memory, Tier.learned.settle fileServices {} heightCase (kept wornHeights) =
        (.ok (some (heightCase.settled (.int 2) .learned)), ⟨memory, [], 0⟩) ∧
      wornHeights.map Mapping.usage = [UInt64.size - 1] ∧ memory.records.map Mapping.usage = [0] := by
  have hsix : fileServices.memory.search (kept sixHeights).memory (heightCase.query {}) =
      .ok ((sixHeights.take 5).map (⟨·, 1.0⟩)) :=
    congrArg Except.ok ((Query.run_of_pairwise (by decide +kernel)).trans (by decide +kernel))
  have hnone : heightCase.firstValid? 0.85 ((sixHeights.take 5).map (⟨·, 1.0⟩)) = none := by decide +kernel
  have htwo : fileServices.memory.search (kept twinHeights).memory (heightCase.query {}) =
      .ok [⟨tableHeight 1 "a low table" 2 0, 1.0⟩] :=
    congrArg Except.ok ((Query.run_of_pairwise (by decide +kernel)).trans (by decide +kernel))
  have hworn : fileServices.memory.search (kept wornHeights).memory (heightCase.query {}) =
      .ok [⟨tableHeight 1 "a low table" 2 (UInt64.size - 1), 1.0⟩] :=
    congrArg Except.ok ((Query.run_of_pairwise (by decide +kernel)).trans (by decide +kernel))
  have hnear : (0.85 : Float32) ≤ 1.0 := by decide +kernel
  have hvalid : heightCase.parameter.accept (.int 2) = .ok (.int 2) := by decide +kernel
  have hsome : ∀ usage, heightCase.firstValid? 0.85 [⟨tableHeight 1 "a low table" 2 usage, 1.0⟩] =
      some (⟨tableHeight 1 "a low table" 2 usage, 1.0⟩, .int 2) := fun _ => firstValid?_of_accept hnear hvalid
  refine ⟨by decide +kernel, ?_, ⟨(FileStore.memory.recordUsage (kept twinHeights).memory ⟨1⟩ nextDay).2, ?_, ?_⟩,
    (FileStore.memory.recordUsage (kept wornHeights).memory ⟨1⟩ nextDay).2, ?_, by decide +kernel, ?_⟩
  · rw [settle_learned_of_search hsix]
    exact hnone ▸ rfl
  · rw [settle_learned_of_search htwo]
    exact hsome 0 ▸ rfl
  · exact FileStore.memory_shows.recordUsage _ _ _
  · rw [settle_learned_of_search hworn]
    exact hsome (UInt64.size - 1) ▸ rfl
  · exact (congrArg (List.map Mapping.usage) (FileStore.memory_shows.recordUsage _ _ _)).trans (by decide +kernel)

end Case

end GoalCompiler
