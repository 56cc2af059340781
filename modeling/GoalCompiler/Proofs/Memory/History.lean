import GoalCompiler.Memory.HeldStore
import Mathlib.Data.List.Induction
import Mathlib.Data.List.Nodup

/-! The life of a store. Clients take turns, each with one operation at a time; the operations in the order of the
turns and the replies to them are the history of the store. At every point of it the records are those that the
history tells of: one for each key, with the first mark, the last answer, and every use counted. -/
namespace GoalCompiler

variable {σ α β : Type}

/-- Takes steps one after another and keeps what each of them gives. -/
def follow (step : σ → α → β × σ) (s : σ) : List α → List β × σ
  | [] => ([], s)
  | a :: rest =>
    let (b, s) := step s a
    let (bs, s) := follow step s rest
    (b :: bs, s)

theorem follow_append {step : σ → α → β × σ} {s : σ} {l l' : List α} : follow step s (l ++ l') =
    ((follow step s l).1 ++ (follow step (follow step s l).2 l').1, (follow step (follow step s l).2 l').2) := by
  induction l generalizing s with
  | nil => rfl
  | cons a rest ih => simp only [List.cons_append, follow, ih]

theorem follow_concat {step : σ → α → β × σ} {s : σ} {l : List α} {a : α} : follow step s (l ++ [a]) =
    ((follow step s l).1 ++ [(step (follow step s l).2 a).1], (step (follow step s l).2 a).2) :=
  follow_append

namespace Memory

/-- What a client asks of a store. -/
inductive Operation where
  | upsert (m : Mapping)
  | recordUsage (id : Identifier) (now : Moment)
  | search (q : Query)
  | get (id : Identifier)
  | count

/-- What it is told. -/
inductive Reply where
  | stored (r : Except ServiceError Mapping)
  | used (r : Except ServiceError Nat)
  | found (r : Except ServiceError (List Match))
  | held (m : Option Mapping)
  | number (n : Nat)

structure Call where
  operation : Operation
  reply : Reply

/-- An operation on a store that shows its records. -/
def perform (memory : Memory σ) (view : σ → Records) (s : σ) (op : Operation) : Call × σ :=
  match op with
  | .upsert m => (⟨op, .stored (memory.upsert s m).1⟩, (memory.upsert s m).2)
  | .recordUsage id now => (⟨op, .used (memory.recordUsage s id now).1⟩, (memory.recordUsage s id now).2)
  | .search q => (⟨op, .found (memory.search s q)⟩, s)
  | .get id => (⟨op, .held (Records.get? (view s) id)⟩, s)
  | .count => (⟨op, .number (view s).length⟩, s)

/-- The history of a store and what becomes of it. -/
def run (memory : Memory σ) (view : σ → Records) : σ → List Operation → List Call × σ :=
  follow (perform memory view)

def Operation.mapping? : Operation → Option Mapping
  | .upsert m => some m
  | _ => none

/-- The mappings that are to be stored. -/
def answers (ops : List Operation) : Records := ops.filterMap Operation.mapping?

/-- When the mapping was used, if this call counts a use of it. -/
def Call.use? (id : Identifier) : Call → Option Moment
  | ⟨.recordUsage id' now, .used (.ok _)⟩ => if id' = id then some now else none
  | _ => none

end Memory

/-- What no two records have in common. -/
def Mapping.key (m : Mapping) : String × String × String := (m.workflow, m.parameter, m.context)

theorem Mapping.sameKey_iff {a b : Mapping} : a.sameKey b ↔ a.key = b.key := by
  simp [sameKey, key, and_assoc]

/-- The record of a first and a last answer and of uses since. -/
def Mapping.grown (first last : Mapping) (uses : List Moment) : Mapping :=
  { first with
    value := last.value
    embedding := last.embedding
    counter := first.counter + .ofNat uses.length
    lastUsed := uses.getLast?.or first.lastUsed }

/-- The uses are added to those of the first answer, as far as 64 bits hold the sum. -/
theorem Mapping.usage_grown {first last : Mapping} {uses : List Moment} :
    (first.grown last uses).usage = (first.usage + uses.length) % UInt64.size := by
  rw [usage, grown, UInt64.toNat_add, UInt64.toNat_ofNat', Nat.add_mod_mod, usage]

theorem Mapping.grown_nil {m : Mapping} : m.grown m [] = m := by
  simp [grown]

namespace Records

variable {rs : Records} {r m : Mapping} {id : Identifier} {f : Mapping → Mapping} {now : Moment}

theorem mem_alter {x : Mapping} : x ∈ rs.alter id f ↔ ∃ r ∈ rs, (if r.id = id then f r else r) = x := List.mem_map

theorem alter_of_not_mem (h : id ∉ rs.map Mapping.id) : rs.alter id f = rs := by
  induction rs with
  | nil => rfl
  | cons r rest ih =>
    rw [List.map_cons, List.mem_cons, not_or] at h
    rw [alter, List.map_cons, if_neg (Ne.symm h.1)]
    exact congrArg (r :: ·) (ih h.2)

theorem alter_cons_self (h : r.id ∉ rs.map Mapping.id) : alter (r :: rs) r.id f = f r :: rs := by
  rw [alter, List.map_cons, if_pos rfl]
  exact congrArg (f r :: ·) (alter_of_not_mem h)

theorem alter_cons_of_ne {r' : Mapping} (h : r'.id ≠ id) : alter (r' :: rs) id f = r' :: rs.alter id f := by
  rw [alter, List.map_cons, if_neg h]
  rfl

/-- A newer answer goes to the record with its key. -/
theorem upsert_of_mem (hkeys : (rs.map Mapping.key).Nodup) (hids : (rs.map Mapping.id).Nodup) (hr : r ∈ rs)
    (hkey : m.key = r.key) : upsert rs m = (r.absorb m, rs.alter r.id (·.absorb m)) := by
  induction rs with
  | nil => cases hr
  | cons r' rest ih =>
    rw [List.map_cons, List.nodup_cons] at hkeys hids
    rw [upsert]
    rcases List.mem_cons.mp hr with rfl | hr
    · rw [if_pos (Mapping.sameKey_iff.mpr hkey.symm), alter_cons_self hids.1]
    · have hkey' : ¬ r'.sameKey m := fun h =>
        hkeys.1 (List.mem_map.mpr ⟨r, hr, ((Mapping.sameKey_iff.mp h).trans hkey).symm⟩)
      have hid : r'.id ≠ r.id := fun h => hids.1 (List.mem_map.mpr ⟨r, hr, h.symm⟩)
      rw [if_neg hkey', ih hkeys.2 hids.2 hr, alter_cons_of_ne hid]

theorem upsert_of_not_mem (h : m.key ∉ rs.map Mapping.key) : upsert rs m = (m, rs ++ [m]) := by
  induction rs with
  | nil => rfl
  | cons r rest ih =>
    rw [List.map_cons, List.mem_cons, not_or] at h
    have hkey : ¬ r.sameKey m := fun h' => h.1 (Mapping.sameKey_iff.mp h').symm
    rw [upsert, if_neg hkey, ih h.2]
    rfl

theorem use?_of_mem (hids : (rs.map Mapping.id).Nodup) (hr : r ∈ rs) :
    use? rs r.id now = some ((r.use now).usage, rs.alter r.id (·.use now)) := by
  induction rs with
  | nil => cases hr
  | cons r' rest ih =>
    rw [List.map_cons, List.nodup_cons] at hids
    rw [use?]
    rcases List.mem_cons.mp hr with rfl | hr
    · rw [if_pos rfl, alter_cons_self hids.1]
    · have hid : r'.id ≠ r.id := fun h => hids.1 (List.mem_map.mpr ⟨r, hr, h.symm⟩)
      rw [if_neg hid, ih hids.2 hr, alter_cons_of_ne hid]
      rfl

theorem use?_eq_none_iff : use? rs id now = none ↔ id ∉ rs.map Mapping.id := by
  induction rs with
  | nil => simp [use?]
  | cons r rest ih =>
    by_cases h : r.id = id
    · simp [use?, h]
    · simp [use?, h, ih, Ne.symm h]

theorem use?_of_not_mem (h : id ∉ rs.map Mapping.id) : use? rs id now = none := use?_eq_none_iff.mpr h

theorem recordUsage_of_mem (hids : (rs.map Mapping.id).Nodup) (hr : r ∈ rs) :
    memory.recordUsage rs r.id now = (.ok (r.use now).usage, rs.alter r.id (·.use now)) := by
  simp only [memory, use?_of_mem hids hr]

theorem recordUsage_of_not_mem (h : id ∉ rs.map Mapping.id) :
    memory.recordUsage rs id now = (.error (unknown id), rs) := by
  simp only [memory, use?_of_not_mem h]

theorem get?_eq_some (hids : (rs.map Mapping.id).Nodup) : get? rs id = some r ↔ r ∈ rs ∧ r.id = id := by
  constructor
  · intro h
    exact ⟨List.mem_of_find?_eq_some h, by simpa using List.find?_some h⟩
  · rintro ⟨hr, rfl⟩
    cases h : get? rs r.id with
    | none => exact absurd (List.find?_eq_none.mp h r hr) (by simp)
    | some r' =>
      have hid : r'.id = r.id := by simpa using List.find?_some h
      rw [List.inj_on_of_nodup_map hids (List.mem_of_find?_eq_some h) hr hid]

end Records

namespace Memory

variable {history : List Call} {r m : Mapping} {c : Call}

/-- When a mapping was used. -/
def uses (id : Identifier) (history : List Call) : List Moment := history.filterMap (Call.use? id)

/-- The answers with a key, in their order. -/
def about (key : String × String × String) (history : List Call) : Records :=
  (answers (history.map Call.operation)).filter (·.key = key)

/-- The record is what its history makes of it: the first answer with its key has grown into it, by taking the
last one and by its uses. -/
def Told (history : List Call) (r : Mapping) : Prop :=
  ∃ first last, (about r.key history).head? = some first ∧ (about r.key history).getLast? = some last ∧
    r = first.grown last (uses r.id history)

/-- What the records are at a point of the history. -/
structure Accounts (history : List Call) (rs : Records) : Prop where
  keys : (rs.map Mapping.key).Nodup
  ids : (rs.map Mapping.id).Nodup
  /-- No answer is lost. -/
  kept : ∀ m ∈ answers (history.map Call.operation), m.key ∈ rs.map Mapping.key
  told : ∀ r ∈ rs, Told history r
  /-- Only uses of records are counted. -/
  unused : ∀ id ∉ rs.map Mapping.id, uses id history = []

theorem uses_concat {id : Identifier} : uses id (history ++ [c]) = uses id history ++ (c.use? id).toList := by
  rw [uses, List.filterMap_append]
  cases h : c.use? id <;> simp [uses, h]

theorem answers_concat : answers ((history ++ [c]).map Call.operation) =
    answers (history.map Call.operation) ++ c.operation.mapping?.toList := by
  rw [answers, List.map_append, List.filterMap_append]
  cases h : c.operation.mapping? <;> simp [answers, h]

theorem about_concat {key : String × String × String} : about key (history ++ [c]) =
    about key history ++ c.operation.mapping?.toList.filter (·.key = key) := by
  rw [about, answers_concat, List.filter_append, about]

/-- Calls about other records change nothing. -/
theorem Told.other (h : Told history r) (hkey : ∀ m, c.operation.mapping? = some m → m.key ≠ r.key)
    (huse : c.use? r.id = none) : Told (history ++ [c]) r := by
  have habout : about r.key (history ++ [c]) = about r.key history := by
    rw [about_concat]
    cases hm : c.operation.mapping? with
    | none => simp
    | some m => simp [hkey m hm]
  have huses : uses r.id (history ++ [c]) = uses r.id history := by simp [uses_concat, huse]
  rwa [Told, habout, huses]

theorem Told.answer {reply : Reply} (h : Told history r) (hkey : m.key = r.key) :
    Told (history ++ [⟨.upsert m, reply⟩]) (r.absorb m) := by
  obtain ⟨first, last, hfirst, -, hr⟩ := h
  refine ⟨first, m, ?_, ?_, ?_⟩
  · change (about r.key _).head? = _
    rw [about_concat, List.head?_append, hfirst, Option.some_or]
  · change (about r.key _).getLast? = _
    rw [about_concat]
    simp [Operation.mapping?, hkey]
  · have huses : uses r.id (history ++ [⟨.upsert m, reply⟩]) = uses r.id history := by
      simp [uses_concat, Call.use?]
    calc r.absorb m = (first.grown last (uses r.id history)).absorb m := congrArg (·.absorb m) hr
      _ = first.grown m (uses r.id history) := rfl
      _ = first.grown m (uses r.id (history ++ [⟨.upsert m, reply⟩])) := by rw [huses]

theorem Told.use {now : Moment} {n : Nat} (h : Told history r) :
    Told (history ++ [⟨.recordUsage r.id now, .used (.ok n)⟩]) (r.use now) := by
  obtain ⟨first, last, hfirst, hlast, hr⟩ := h
  have huses : uses r.id (history ++ [⟨.recordUsage r.id now, .used (.ok n)⟩]) = uses r.id history ++ [now] := by
    simp [uses_concat, Call.use?]
  have habout : about r.key (history ++ [⟨.recordUsage r.id now, .used (.ok n)⟩]) = about r.key history := by
    simp [about_concat, Operation.mapping?]
  refine ⟨first, last, habout ▸ hfirst, habout ▸ hlast, ?_⟩
  calc r.use now = (first.grown last (uses r.id history)).use now := congrArg (·.use now) hr
    _ = first.grown last (uses r.id history ++ [now]) := by
      simp [Mapping.use, Mapping.grown, UInt64.add_assoc]
    _ = first.grown last (uses r.id (history ++ [⟨.recordUsage r.id now, .used (.ok n)⟩])) := by rw [huses]

/-- The first answer with its key is recorded as it is. -/
theorem told_first {reply : Reply} (hkey : about m.key history = []) (hid : uses m.id history = []) :
    Told (history ++ [⟨.upsert m, reply⟩]) m := by
  have habout : about m.key (history ++ [⟨.upsert m, reply⟩]) = [m] := by
    simp [about_concat, Operation.mapping?, hkey]
  have huses : uses m.id (history ++ [⟨.upsert m, reply⟩]) = [] := by
    simp [uses_concat, Call.use?, hid]
  exact ⟨m, m, by rw [habout]; rfl, by rw [habout]; rfl, by rw [huses, Mapping.grown_nil]⟩

namespace Accounts

variable {rs rs' : Records}

theorem nil : Accounts [] [] where
  keys := List.nodup_nil
  ids := List.nodup_nil
  kept := by simp [answers]
  told := by simp
  unused := fun _ _ => rfl

theorem perm (h : Accounts history rs) (hperm : rs'.Perm rs) : Accounts history rs' where
  keys := (hperm.map _).nodup_iff.mpr h.keys
  ids := (hperm.map _).nodup_iff.mpr h.ids
  kept m hm := (hperm.map _).mem_iff.mpr (h.kept m hm)
  told r hr := h.told r (hperm.mem_iff.mp hr)
  unused id hid := h.unused id fun h => hid ((hperm.map _).mem_iff.mpr h)

/-- A key that no record has was never answered for. -/
theorem about_of_not_mem (h : Accounts history rs) {key : String × String × String}
    (hkey : key ∉ rs.map Mapping.key) : about key history = [] := by
  refine List.filter_eq_nil_iff.mpr fun m hm => ?_
  simp only [decide_eq_true_eq]
  rintro rfl
  exact hkey (h.kept m hm)

/-- The mark of a record is that of an answer. -/
theorem id_mem (h : Accounts history rs) (hr : r ∈ rs) :
    r.id ∈ (answers (history.map Call.operation)).map Mapping.id := by
  obtain ⟨first, last, hfirst, -, heq⟩ := h.told r hr
  rw [heq]
  exact List.mem_map.mpr ⟨first, (List.mem_filter.mp (List.mem_of_head? hfirst)).1, rfl⟩

/-- Calls that neither answer nor count. -/
theorem idle (h : Accounts history rs) (hanswer : c.operation.mapping? = none) (huse : ∀ id, c.use? id = none) :
    Accounts (history ++ [c]) rs where
  keys := h.keys
  ids := h.ids
  kept m hm := by
    rw [answers_concat, hanswer, Option.toList_none, List.append_nil] at hm
    exact h.kept m hm
  told r hr := (h.told r hr).other (by simp [hanswer]) (huse r.id)
  unused id hid := by rw [uses_concat, huse, h.unused id hid]; rfl

/-- A call about one record changes that record. -/
theorem alter (h : Accounts history rs) (hr : r ∈ rs) {f : Mapping → Mapping} (hkey : ∀ m, (f m).key = m.key)
    (hid : ∀ m, (f m).id = m.id) (hanswer : ∀ m, c.operation.mapping? = some m → m.key = r.key)
    (huse : ∀ id ≠ r.id, c.use? id = none) (htold : Told (history ++ [c]) (f r)) :
    Accounts (history ++ [c]) (rs.alter r.id f) where
  keys := by rw [Records.map_alter hkey]; exact h.keys
  ids := by rw [Records.map_alter hid]; exact h.ids
  kept m hm := by
    rw [Records.map_alter hkey]
    rw [answers_concat, List.mem_append] at hm
    rcases hm with hm | hm
    · exact h.kept m hm
    · rw [hanswer m (by simpa using hm)]
      exact List.mem_map_of_mem hr
  told x hx := by
    obtain ⟨r', hr', rfl⟩ := Records.mem_alter.mp hx
    split_ifs with heq
    · obtain rfl := List.inj_on_of_nodup_map h.ids hr' hr heq
      exact htold
    · refine (h.told r' hr').other (fun m hm hkey' => heq ?_) (huse r'.id heq)
      have hsame := hkey'.symm.trans (hanswer m hm)
      exact congrArg Mapping.id (List.inj_on_of_nodup_map h.keys hr' hr hsame)
  unused id hnone := by
    rw [Records.map_alter hid] at hnone
    have hne : id ≠ r.id := fun heq => hnone (heq ▸ List.mem_map_of_mem hr)
    rw [uses_concat, h.unused id hnone, huse id hne]
    rfl

theorem answer (h : Accounts history rs) {reply : Reply} (hr : r ∈ rs) (hkey : m.key = r.key) :
    Accounts (history ++ [⟨.upsert m, reply⟩]) (rs.alter r.id (·.absorb m)) :=
  h.alter hr (fun _ => rfl) (fun _ => rfl) (by simp [Operation.mapping?, hkey]) (fun _ _ => rfl)
    ((h.told r hr).answer hkey)

theorem use (h : Accounts history rs) {now : Moment} {n : Nat} (hr : r ∈ rs) :
    Accounts (history ++ [⟨.recordUsage r.id now, .used (.ok n)⟩]) (rs.alter r.id (·.use now)) :=
  h.alter hr (fun _ => rfl) (fun _ => rfl) (by simp [Operation.mapping?])
    (fun _ hne => if_neg (Ne.symm hne)) (h.told r hr).use

/-- An answer with a key of its own becomes a record. -/
theorem first (h : Accounts history rs) {reply : Reply} (hkey : m.key ∉ rs.map Mapping.key)
    (hid : m.id ∉ rs.map Mapping.id) : Accounts (history ++ [⟨.upsert m, reply⟩]) (m :: rs) where
  keys := List.nodup_cons.mpr ⟨hkey, h.keys⟩
  ids := List.nodup_cons.mpr ⟨hid, h.ids⟩
  kept m' hm' := by
    rw [answers_concat, List.mem_append] at hm'
    rcases hm' with hm' | hm'
    · exact List.mem_cons_of_mem _ (h.kept m' hm')
    · obtain rfl : m' = m := by simpa [Operation.mapping?] using hm'
      exact List.mem_cons_self
  told x hx := by
    rcases List.mem_cons.mp hx with rfl | hx
    · exact told_first (h.about_of_not_mem hkey) (h.unused _ hid)
    · refine (h.told x hx).other (fun m' hm' heq => hkey ?_) rfl
      obtain rfl : m = m' := by simpa [Operation.mapping?] using hm'
      exact heq ▸ List.mem_map_of_mem hx
  unused id hnone := by
    rw [List.map_cons, List.mem_cons, not_or] at hnone
    rw [uses_concat, h.unused id hnone.2]
    rfl

end Accounts

/-! ### Runs -/

variable {memory : Memory σ} {view : σ → Records} {s : σ} {rs : Records} {op : Operation} {ops : List Operation}

theorem operation_perform : (memory.perform view s op).1.operation = op := by
  cases op <;> rfl

theorem run_concat : memory.run view s (ops ++ [op]) =
    ((memory.run view s ops).1 ++ [(memory.perform view (memory.run view s ops).2 op).1],
      (memory.perform view (memory.run view s ops).2 op).2) :=
  follow_concat

theorem operations_run : (memory.run view s ops).1.map Call.operation = ops := by
  induction ops using List.reverseRecOn with
  | nil => rfl
  | append_singleton ops op ih => rw [run_concat, List.map_append, ih, List.map_singleton, operation_perform]

/-- The mappings that are to be stored have different marks. -/
def Fresh (ops : List Operation) : Prop := ((answers ops).map Mapping.id).Nodup

theorem Fresh.of_concat (h : Fresh (ops ++ [op])) : Fresh ops := by
  rw [Fresh, answers, List.filterMap_append, List.map_append] at h
  exact (List.nodup_append.mp h).1

theorem Accounts.id_not_mem (h : Accounts history rs) (hops : history.map Call.operation = ops)
    (hfresh : Fresh (ops ++ [op])) (hm : op.mapping? = some m) : m.id ∉ rs.map Mapping.id := by
  intro hid
  obtain ⟨r, hr, heq⟩ := List.mem_map.mp hid
  have hold := h.id_mem hr
  rw [hops, heq] at hold
  have hnew : m.id ∈ (answers [op]).map Mapping.id := List.mem_map_of_mem (by simp [answers, hm])
  rw [Fresh, answers, List.filterMap_append, List.map_append] at hfresh
  exact (List.nodup_append.mp hfresh).2.2 _ hold _ hnew rfl

/-- One operation on the plain store, with a mapping that has a mark of its own. -/
theorem Accounts.perform (h : Accounts history rs)
    (hfresh : ∀ m, op.mapping? = some m → m.id ∉ rs.map Mapping.id) :
    Accounts (history ++ [(Records.memory.perform id rs op).1]) (Records.memory.perform id rs op).2 := by
  cases op with
  | upsert m =>
    change Accounts (history ++ [⟨.upsert m, .stored (.ok (rs.upsert m).1)⟩]) (rs.upsert m).2
    by_cases hkey : m.key ∈ rs.map Mapping.key
    · obtain ⟨r, hr, hkey⟩ := List.mem_map.mp hkey
      rw [Records.upsert_of_mem h.keys h.ids hr hkey.symm]
      exact h.answer hr hkey.symm
    · rw [Records.upsert_of_not_mem hkey]
      exact (h.first hkey (hfresh m rfl)).perm (List.perm_append_singleton m rs)
  | recordUsage id now =>
    rw [Memory.perform]
    by_cases hid : id ∈ rs.map Mapping.id
    · obtain ⟨r, hr, rfl⟩ := List.mem_map.mp hid
      rw [Records.recordUsage_of_mem h.ids hr]
      exact h.use hr
    · rw [Records.recordUsage_of_not_mem hid]
      exact h.idle rfl fun _ => rfl
  | search q => exact h.idle rfl fun _ => rfl
  | get id => exact h.idle rfl fun _ => rfl
  | count => exact h.idle rfl fun _ => rfl

theorem accounts_run (hfresh : Fresh ops) :
    Accounts (Records.memory.run id [] ops).1 (Records.memory.run id [] ops).2 := by
  induction ops using List.reverseRecOn with
  | nil => exact .nil
  | append_singleton ops op ih =>
    rw [run_concat]
    have h := ih hfresh.of_concat
    exact h.perform fun m hm => h.id_not_mem operations_run hfresh hm

end Memory

end GoalCompiler
