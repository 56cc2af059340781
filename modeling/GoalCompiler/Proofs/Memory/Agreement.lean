import GoalCompiler.Proofs.Memory.Ranking
import GoalCompiler.Proofs.Memory.Writing

/-! The stores against each other. The store in a file and the store that is held do what the plain store does with
the same operations, as long as what is to be stored has marks of its own and can be written. They differ in one
thing: of matches that tie, the one lists those first that came first, and the other as it happens to meet them. -/
namespace GoalCompiler

open Memory

/-! ### Held -/

/-- The calls agree, but for which of the matches that tie come first. -/
inductive Memory.Call.Agree : Call → Call → Prop
  | same (c : Call) : Agree c c
  | found {q : Query} {ms ms' : List Match} (h : ms.map Match.standing = ms'.map Match.standing) :
    Agree ⟨.search q, .found (.ok ms)⟩ ⟨.search q, .found (.ok ms')⟩

namespace HeldStore

variable {arrange : Records → Records} {s : HeldStore} {rs : Records} {m r : Mapping} {i : Identifier}
  {now : Moment} {op : Operation} {ops : List Operation} {history : List Call}

theorem arranged_perm (harrange : ∀ rs, (arrange rs).Perm rs) (hs : s.entries = rs.reverse) :
    (arrange s.entries).Perm rs :=
  (harrange _).trans (hs ▸ List.reverse_perm rs)

theorem alter_reverse {f : Mapping → Mapping} : Records.alter rs.reverse i f = (rs.alter i f).reverse :=
  List.map_reverse

theorem get?_reverse (hids : (rs.map Mapping.id).Nodup) : Records.get? rs.reverse i = rs.get? i := by
  have hreverse : (rs.reverse.map Mapping.id).Nodup := ((List.reverse_perm rs).map _).nodup_iff.mpr hids
  refine Option.ext fun r => ?_
  rw [Records.get?_eq_some hreverse, Records.get?_eq_some hids, List.mem_reverse]

/-- The entries are the records of the plain store, the newest first. -/
theorem upsert_spec (harrange : ∀ rs, (arrange rs).Perm rs) (hs : s.entries = rs.reverse)
    (h : Accounts history rs) (hfresh : m.id ∉ rs.map Mapping.id) :
    ((HeldStore.memory arrange).upsert s m).1 = .ok (rs.upsert m).1 ∧
      ((HeldStore.memory arrange).upsert s m).2.entries = (rs.upsert m).2.reverse := by
  have hperm := arranged_perm harrange hs
  cases hfind : (arrange s.entries).find? (·.sameKey m) with
  | some r =>
    have hr : r ∈ rs := hperm.mem_iff.mp (List.mem_of_find?_eq_some hfind)
    have hkey : m.key = r.key := (Mapping.sameKey_iff.mp (by simpa using List.find?_some hfind)).symm
    rw [Records.upsert_of_mem h.keys h.ids hr hkey, ← alter_reverse, ← hs]
    simp only [memory, hfind, change, and_self]
  | none =>
    have hkey : m.key ∉ rs.map Mapping.key := by
      intro hkey
      obtain ⟨r, hr, heq⟩ := List.mem_map.mp hkey
      exact List.find?_eq_none.mp hfind r (hperm.mem_iff.mpr hr) (Mapping.sameKey_iff.mpr heq)
    have hfilter : s.entries.filter (·.id != m.id) = s.entries := by
      refine List.filter_eq_self.mpr fun r hr => ?_
      rw [hs, List.mem_reverse] at hr
      exact bne_iff_ne.mpr fun heq => hfresh (heq ▸ List.mem_map_of_mem hr)
    rw [Records.upsert_of_not_mem hkey, List.reverse_append, ← hs]
    simp only [memory, hfind, insert, hfilter, List.reverse_singleton, List.singleton_append, and_self]

theorem recordUsage_spec (hs : s.entries = rs.reverse) (hids : (rs.map Mapping.id).Nodup) :
    ((HeldStore.memory arrange).recordUsage s i now).1 = (Records.memory.recordUsage rs i now).1 ∧
      ((HeldStore.memory arrange).recordUsage s i now).2.entries =
        (Records.memory.recordUsage rs i now).2.reverse := by
  have hget : Records.get? s.entries i = rs.get? i := hs ▸ get?_reverse hids
  cases hr : rs.get? i with
  | some r =>
    obtain ⟨hr', rfl⟩ := (Records.get?_eq_some hids).mp hr
    rw [Records.recordUsage_of_mem hids hr', ← alter_reverse, ← hs]
    simp only [memory, hget, hr, change, and_self]
  | none =>
    have hid : i ∉ rs.map Mapping.id := by
      intro hid
      obtain ⟨r, hr', heq⟩ := List.mem_map.mp hid
      exact absurd (hr.symm.trans ((Records.get?_eq_some hids).mpr ⟨hr', heq⟩)) nofun
    rw [Records.recordUsage_of_not_mem hid, ← hs]
    simp only [memory, hget, hr, and_self]

/-- An operation does what it does to the plain store. -/
theorem perform_spec (harrange : ∀ rs, (arrange rs).Perm rs) (hs : s.entries = rs.reverse)
    (h : Accounts history rs) (hfresh : ∀ m, op.mapping? = some m → m.id ∉ rs.map Mapping.id) :
    Call.Agree ((HeldStore.memory arrange).perform entries s op).1 (Records.memory.perform id rs op).1 ∧
      ((HeldStore.memory arrange).perform entries s op).2.entries =
        (Records.memory.perform id rs op).2.reverse := by
  cases op with
  | upsert m =>
    obtain ⟨hreply, hentries⟩ := upsert_spec harrange hs h (hfresh m rfl)
    refine ⟨?_, hentries⟩
    simp only [Memory.perform, hreply]
    exact .same _
  | recordUsage id now =>
    obtain ⟨hreply, hentries⟩ := recordUsage_spec hs h.ids
    refine ⟨?_, hentries⟩
    simp only [Memory.perform, hreply]
    exact .same _
  | search q => exact ⟨.found (Query.standing_run_of_perm (arranged_perm harrange hs)), hs⟩
  | get id =>
    refine ⟨?_, hs⟩
    simp only [Memory.perform, hs, get?_reverse h.ids]
    exact .same _
  | count =>
    refine ⟨?_, hs⟩
    simp only [Memory.perform, hs, List.length_reverse]
    exact .same _

/-- Nothing is written. -/
theorem isWritten_perform : ((HeldStore.memory arrange).perform entries s op).1.reply.isWritten := by
  cases op with
  | upsert m =>
    simp only [Memory.perform, memory]
    split <;> rfl
  | recordUsage id now =>
    simp only [Memory.perform, memory]
    split <;> rfl
  | search q => rfl
  | get id => rfl
  | count => rfl

theorem isWritten_run : ∀ c ∈ ((HeldStore.memory arrange).run entries s ops).1, c.reply.isWritten := by
  induction ops using List.reverseRecOn with
  | nil => exact List.forall_mem_nil _
  | append_singleton ops op ih =>
    rw [run_concat]
    simp only [List.mem_append, List.mem_singleton]
    rintro c (hc | rfl)
    · exact ih c hc
    · exact isWritten_perform

/-- All operations do what they do to the plain store. -/
theorem run_spec (harrange : ∀ rs, (arrange rs).Perm rs) (hfresh : Fresh ops) :
    List.Forall₂ Call.Agree ((HeldStore.memory arrange).run entries .empty ops).1
        (Records.memory.run id [] ops).1 ∧
      ((HeldStore.memory arrange).run entries .empty ops).2.entries =
        (Records.memory.run id [] ops).2.reverse := by
  induction ops using List.reverseRecOn with
  | nil => exact ⟨.nil, rfl⟩
  | append_singleton ops op ih =>
    obtain ⟨hhistory, hentries⟩ := ih hfresh.of_concat
    have hrecords := accounts_run hfresh.of_concat
    obtain ⟨hcall, hnext⟩ := perform_spec harrange hentries hrecords fun m hm =>
      hrecords.id_not_mem operations_run hfresh hm
    rw [run_concat, run_concat]
    exact ⟨List.rel_append hhistory (.cons hcall .nil), hnext⟩

/-- Any order of the mappings that are held is one in which they may be met. -/
theorem search_eq_iff {q : Query} (hfresh : Fresh ops) :
    (∀ arrange : Records → Records, (∀ rs, (arrange rs).Perm rs) →
      (HeldStore.memory arrange).search ((HeldStore.memory arrange).run entries .empty ops).2 q =
        .ok (q.run (Records.memory.run id [] ops).2)) ↔ q.Decides (Records.memory.run id [] ops).2 := by
  have hnodup := (accounts_run hfresh).ids.of_map
  rw [← Query.run_perm_iff hnodup]
  generalize hrs : (Records.memory.run id [] ops).2 = rs
  have hentries : ∀ {arrange : Records → Records}, (∀ rs, (arrange rs).Perm rs) →
      ((HeldStore.memory arrange).run entries .empty ops).2.entries = rs.reverse := fun harrange =>
    hrs ▸ (run_spec harrange hfresh).2
  constructor
  · intro h rs' hperm
    let arrange : Records → Records := fun l => if l = rs.reverse then rs' else l
    have harrange : ∀ l, (arrange l).Perm l := by
      intro l
      by_cases hl : l = rs.reverse
      · simpa only [arrange, hl, if_true] using hperm.trans (List.reverse_perm rs).symm
      · simp only [arrange, hl, if_false, List.Perm.refl]
    have hsearch := Except.ok.inj (h arrange harrange)
    rw [hentries harrange] at hsearch
    simpa only [arrange, if_true] using hsearch
  · intro h arrange harrange
    exact congrArg Except.ok (h _ (arranged_perm harrange (hentries harrange)))

end HeldStore

/-! ### Histories that agree -/

namespace Memory

variable {c c' : Call} {history history' : List Call} {rs : Records}

theorem Call.Agree.operation (h : Agree c c') : c.operation = c'.operation := by
  cases h <;> rfl

theorem Call.Agree.use? {id : Identifier} (h : Agree c c') : c.use? id = c'.use? id := by
  cases h <;> rfl

theorem operations_of_agree (hagree : List.Forall₂ Call.Agree history history') :
    history.map Call.operation = history'.map Call.operation := by
  induction hagree with
  | nil => rfl
  | cons hc _ ih => rw [List.map_cons, List.map_cons, hc.operation, ih]

theorem uses_of_agree {id : Identifier} (hagree : List.Forall₂ Call.Agree history history') :
    uses id history = uses id history' := by
  induction hagree with
  | nil => rfl
  | cons hc _ ih =>
    simp only [uses] at ih ⊢
    rw [List.filterMap_cons, List.filterMap_cons, hc.use?, ih]

/-- The records that one history tells of are those that the other tells of. -/
theorem Accounts.agree (h : Accounts history' rs) (hagree : List.Forall₂ Call.Agree history history') :
    Accounts history rs where
  keys := h.keys
  ids := h.ids
  kept := operations_of_agree hagree ▸ h.kept
  told r hr := by
    have habout : about r.key history = about r.key history' := by
      rw [about, operations_of_agree hagree, about]
    rw [Told, habout, uses_of_agree hagree]
    exact h.told r hr
  unused id hid := (uses_of_agree hagree).trans (h.unused id hid)

theorem Accounts.counted (h : Accounts history rs) {r first : Mapping} (hr : r ∈ rs)
    (hfirst : first ∈ (about r.key history).head?) :
    r.counter = first.counter + .ofNat (uses r.id history).length ∧
      (first.usage + (uses r.id history).length < UInt64.size → r.usage = first.usage + (uses r.id history).length) := by
  obtain ⟨first', last, hfirst', -, hgrown⟩ := h.told r hr
  obtain rfl : first' = first := Option.some.inj (hfirst'.symm.trans hfirst)
  refine ⟨congrArg Mapping.counter hgrown, fun hfits => ?_⟩
  calc r.usage = (first'.usage + (uses r.id history).length) % UInt64.size :=
        (congrArg Mapping.usage hgrown).trans Mapping.usage_grown
    _ = first'.usage + (uses r.id history).length := Nat.mod_eq_of_lt hfits

/-- The store keeps what its history tells of, and knows its records by their marks. -/
structure Keeps {σ : Type} (memory : Memory σ) (view : σ → Records) (history : List Call) (s : σ) : Prop
    extends Accounts history (view s) where
  /-- All uses are added to the counter of the first answer, and the usage is the sum as long as 64 bits hold it. -/
  counted : ∀ r ∈ view s, ∀ first ∈ (about r.key history).head?,
    r.counter = first.counter + .ofNat (uses r.id history).length ∧
      (first.usage + (uses r.id history).length < UInt64.size → r.usage = first.usage + (uses r.id history).length)
  known : ∀ r ∈ view s, ∀ now, (Reply.used (memory.recordUsage s r.id now).1).isWritten →
    (memory.recordUsage s r.id now).1 = .ok ((r.usage + 1) % UInt64.size)
  unknown : ∀ id ∉ (view s).map Mapping.id, ∀ now,
    memory.recordUsage s id now = (.error (Records.unknown id), s)

end Memory

namespace HeldStore

variable {arrange : Records → Records} {s : HeldStore} {rs : Records} {history history' : List Call}

theorem accounts (hs : s.entries = rs.reverse) (h : Accounts history' rs)
    (hagree : List.Forall₂ Call.Agree history history') : Accounts history s.entries :=
  (h.agree hagree).perm (hs ▸ List.reverse_perm rs)

theorem keeps (hs : s.entries = rs.reverse) (h : Accounts history' rs)
    (hagree : List.Forall₂ Call.Agree history history') : Keeps (HeldStore.memory arrange) entries history s where
  toAccounts := accounts hs h hagree
  counted _ hr _ := (accounts hs h hagree).counted hr
  known r hr now _ := by
    have hr' : r ∈ rs := by rwa [hs, List.mem_reverse] at hr
    rw [(recordUsage_spec hs h.ids).1, Records.recordUsage_of_mem h.ids hr', Mapping.usage_use]
  unknown id hid now := by
    have hget : Records.get? s.entries id = none :=
      List.find?_eq_none.mpr fun r hr heq => hid (beq_iff_eq.mp heq ▸ List.mem_map_of_mem hr)
    simp only [HeldStore.memory, hget]

end HeldStore

namespace FileStore

variable {s : FileStore} {history : List Call} {ops : List Operation}

theorem accounts_run {path : String} {files : FileTree} (hfresh : Fresh ops)
    (h : ∀ c ∈ (FileStore.memory.run records ⟨path, [], files⟩ ops).1, c.reply.isWritten) :
    Accounts (FileStore.memory.run records ⟨path, [], files⟩ ops).1
      (FileStore.memory.run records ⟨path, [], files⟩ ops).2.records := by
  obtain ⟨hhistory, hrecords⟩ := run_of_written h
  rw [hhistory, hrecords]
  exact Memory.accounts_run hfresh

/-- A use of a mapping that is not recorded fails and changes nothing. -/
theorem recordUsage_of_not_mem {id : Identifier} {now : Moment} (h : id ∉ s.records.map Mapping.id) :
    FileStore.memory.recordUsage s id now = (.error (Records.unknown id), s) :=
  recordUsage_of_none (Records.use?_of_not_mem h)

theorem keeps (h : Accounts history s.records) : Keeps FileStore.memory records history s where
  toAccounts := h
  counted _ hr _ := h.counted hr
  known r hr now hwritten := by
    have hcall : (FileStore.memory.perform records s (.recordUsage r.id now)).1 = _ := perform_of_written hwritten
    simpa only [Memory.perform, Records.recordUsage_of_mem h.ids hr, Call.mk.injEq, Reply.used.injEq, true_and,
      Mapping.usage_use] using hcall
  unknown _ hid _ := recordUsage_of_not_mem hid

end FileStore

/-! ### Both stores -/

namespace Memory

section

variable {ops : List Operation}

/-- At every point of every history, both stores keep each answer and each use that they were told of: the store
that is held in whatever order it meets its mappings, and the store in a file as long as it can be written. -/
theorem stores_keep (hfresh : Fresh ops) :
    (∀ arrange : Records → Records, (∀ rs, (arrange rs).Perm rs) →
      let (history, s) := (HeldStore.memory arrange).run HeldStore.entries .empty ops
      (∀ c ∈ history, c.reply.isWritten) ∧ Keeps (HeldStore.memory arrange) HeldStore.entries history s) ∧
    ∀ path files,
      let (history, s) := FileStore.memory.run FileStore.records ⟨path, [], files⟩ ops
      (∀ c ∈ history, c.reply.isWritten) → Keeps FileStore.memory FileStore.records history s := by
  constructor
  · intro arrange harrange
    obtain ⟨hagree, hentries⟩ := HeldStore.run_spec harrange hfresh
    exact ⟨HeldStore.isWritten_run, HeldStore.keeps hentries (accounts_run hfresh) hagree⟩
  · intro path files hwritten
    exact FileStore.keeps (FileStore.accounts_run hfresh hwritten)

end

def heightQuery : Query := ⟨"table", "height", [1.0], 0.85, 1⟩

def noon : Moment := ⟨"2025-01-01T12:00:00Z"⟩

/-- Two clients take turns. The second answer for the tall table replaces the first and gets no record, so a use
of its mark fails. -/
def turns : List Operation :=
  [.upsert (height 1 "a tall table" 2), .recordUsage ⟨1⟩ noon, .upsert (height 2 "a tall table" 3),
    .upsert (height 3 "a low table" 1), .recordUsage ⟨2⟩ noon, .recordUsage ⟨1⟩ noon,
    .search heightQuery, .get ⟨1⟩, .count]

theorem fresh_turns : Fresh turns := by
  unfold Fresh
  decide

theorem isWritten_turns : ∀ c ∈ (FileStore.memory.run FileStore.records ⟨"memory.json", [], []⟩ turns).1,
    c.reply.isWritten := by
  decide +kernel

theorem stores_keep_turns :
    Fresh turns ∧
    ((HeldStore.memory List.reverse).run HeldStore.entries .empty turns).2.entries =
      [height 3 "a low table" 1, (height 1 "a tall table" 2).grown (height 2 "a tall table" 3) [noon, noon]] ∧
    (let (history, s) := (HeldStore.memory List.reverse).run HeldStore.entries .empty turns
     (∀ c ∈ history, c.reply.isWritten) ∧ Keeps (HeldStore.memory List.reverse) HeldStore.entries history s) ∧
    (∀ c ∈ (FileStore.memory.run FileStore.records ⟨"memory.json", [], []⟩ turns).1, c.reply.isWritten) ∧
    let (history, s) := FileStore.memory.run FileStore.records ⟨"memory.json", [], []⟩ turns
    Keeps FileStore.memory FileStore.records history s := by
  obtain ⟨hheld, hfile⟩ := stores_keep fresh_turns
  exact ⟨fresh_turns, by decide +kernel, hheld List.reverse List.reverse_perm, isWritten_turns,
    hfile _ _ isWritten_turns⟩

section

variable {ops : List Operation} {path : String} {files : FileTree} {history : List Call} {s : FileStore}

/-- The stores agree on everything but the order of matches that tie. A search in the same mappings gives the same
in both, in whatever order those that are held are met, exactly if nothing that it lists ties with another match. -/
theorem stores_agree_iff (hfresh : Fresh ops)
    (hrun : FileStore.memory.run FileStore.records ⟨path, [], files⟩ ops = (history, s))
    (hwritten : ∀ c ∈ history, c.reply.isWritten) :
    (∀ arrange : Records → Records, (∀ rs, (arrange rs).Perm rs) →
      List.Forall₂ Call.Agree ((HeldStore.memory arrange).run HeldStore.entries .empty ops).1 history) ∧
    ∀ q : Query,
      (∀ arrange : Records → Records, (∀ rs, (arrange rs).Perm rs) →
        (HeldStore.memory arrange).search ((HeldStore.memory arrange).run HeldStore.entries .empty ops).2 q =
          FileStore.memory.search s q) ↔ q.Decides s.records := by
  have hall : ∀ c ∈ (FileStore.memory.run FileStore.records ⟨path, [], files⟩ ops).1, c.reply.isWritten := by
    rwa [hrun]
  have hplain := FileStore.run_of_written hall
  rw [hrun] at hplain
  obtain ⟨rfl, hrecords⟩ := hplain
  refine ⟨fun arrange harrange => (HeldStore.run_spec harrange hfresh).1, fun q => ?_⟩
  have hsearch : FileStore.memory.search s q = .ok (q.run (Records.memory.run id [] ops).2) :=
    congrArg (Except.ok <| q.run ·) hrecords
  rw [hsearch, HeldStore.search_eq_iff hfresh]
  exact hrecords ▸ Iff.rfl

end

/-- The best match is the one for the tall table, which was used, and nothing ties with it. -/
theorem stores_agree_turns :
    ∃ history s, Fresh turns ∧ FileStore.memory.run FileStore.records ⟨"memory.json", [], []⟩ turns = (history, s) ∧
      (∀ c ∈ history, c.reply.isWritten) ∧
      List.Forall₂ Call.Agree ((HeldStore.memory List.reverse).run HeldStore.entries .empty turns).1 history ∧
      heightQuery.Decides s.records ∧
      (HeldStore.memory List.reverse).search
          ((HeldStore.memory List.reverse).run HeldStore.entries .empty turns).2 heightQuery =
        FileStore.memory.search s heightQuery := by
  have hdecides : heightQuery.Decides
      (FileStore.memory.run FileStore.records ⟨"memory.json", [], []⟩ turns).2.records := by
    rw [(FileStore.run_of_written isWritten_turns).2, Query.Decides, Query.run_of_pairwise (by decide +kernel)]
    decide +kernel
  obtain ⟨hagree, hsearch⟩ := stores_agree_iff fresh_turns rfl isWritten_turns
  exact ⟨_, _, fresh_turns, rfl, isWritten_turns, hagree _ List.reverse_perm, hdecides,
    (hsearch heightQuery).mpr hdecides _ List.reverse_perm⟩

/-- Neither table was used, and both are as near. -/
def tied : List Operation := [.upsert (height 1 "a tall table" 2), .upsert (height 2 "a low table" 1)]

/-- The best match in a file is the older one, and may be the newer one where they are held. -/
theorem found_differently_tied :
    Fresh tied ∧ (∀ c ∈ (FileStore.memory.run FileStore.records ⟨"memory.json", [], []⟩ tied).1, c.reply.isWritten) ∧
    (∀ rs : Records, (id rs).Perm rs) ∧
    FileStore.memory.search (FileStore.memory.run FileStore.records ⟨"memory.json", [], []⟩ tied).2 heightQuery =
      .ok [⟨height 1 "a tall table" 2, 1.0⟩] ∧
    (HeldStore.memory id).search ((HeldStore.memory id).run HeldStore.entries .empty tied).2 heightQuery =
      .ok [⟨height 2 "a low table" 1, 1.0⟩] := by
  refine ⟨by unfold Fresh; decide, by decide +kernel, List.Perm.refl, congrArg Except.ok ?_, congrArg Except.ok ?_⟩
  · exact (Query.run_of_pairwise (by decide +kernel)).trans (by decide +kernel)
  · exact (Query.run_of_pairwise (by decide +kernel)).trans (by decide +kernel)

end Memory

end GoalCompiler
