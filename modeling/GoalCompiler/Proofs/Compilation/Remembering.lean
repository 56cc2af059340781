import GoalCompiler.Compilation.Compiler
import GoalCompiler.Proofs.Memory.Writing
import GoalCompiler.Proofs.Resolution.Course

/-! What is left behind when an answer is remembered. Its values are stored one after another, and what is stored
stays: an answer that cannot be stored to its end is remembered up to the value that failed, and all other records
are as they were. -/
namespace GoalCompiler

variable {σ : Type} {view : σ → Records} {byId : Prop}

/-! ### One value -/

/-- The records have the answer of the mapping where its key says, and are otherwise as they were. -/
structure Records.Updated (m : Mapping) (before after : Records) : Prop where
  told : ∃ r ∈ after, r.key = m.key ∧ r.value = m.value ∧ r.embedding = m.embedding
  others : after.filter (·.key ≠ m.key) = before.filter (·.key ≠ m.key)
  /-- No other identifier is new. -/
  ids : ∀ r ∈ after, r.id = m.id ∨ r.id ∈ before.map Mapping.id

namespace Records

variable {rs : Records} {m : Mapping}

theorem told_upsert : ∃ r ∈ (upsert rs m).2, r.key = m.key ∧ r.value = m.value ∧ r.embedding = m.embedding := by
  induction rs with
  | nil => exact ⟨m, List.mem_singleton_self m, rfl, rfl, rfl⟩
  | cons r rest ih =>
    rw [upsert]
    split
    · next hkey => exact ⟨r.absorb m, List.mem_cons_self, Mapping.sameKey_iff.mp hkey, rfl, rfl⟩
    · obtain ⟨r', hr', htold⟩ := ih
      exact ⟨r', List.mem_cons_of_mem r hr', htold⟩

theorem others_upsert : (upsert rs m).2.filter (·.key ≠ m.key) = rs.filter (·.key ≠ m.key) := by
  induction rs with
  | nil => simp [upsert]
  | cons r rest ih =>
    rw [upsert]
    split
    · next hkey =>
      have hold : r.key = m.key := Mapping.sameKey_iff.mp hkey
      have hnew : (r.absorb m).key = m.key := hold
      rw [List.filter_cons_of_neg (by simp [hnew]), List.filter_cons_of_neg (by simp [hold])]
    · simp only [List.filter_cons, ih]

theorem updated_upsert : Updated m rs (upsert rs m).2 where
  told := told_upsert
  others := others_upsert
  ids r hr := by
    rcases mem_upsert hr with hr | rfl | ⟨r', hr', -, rfl⟩
    · exact .inr (List.mem_map_of_mem hr)
    · exact .inl rfl
    · exact .inr (List.mem_map.mpr ⟨r', hr', rfl⟩)

theorem filter_alter {id : Identifier} {f : Mapping → Mapping} {p : Mapping → Bool}
    (h : ∀ r ∈ rs, r.id = id → p r = false ∧ p (f r) = false) : (rs.alter id f).filter p = rs.filter p := by
  induction rs with
  | nil => rfl
  | cons r rest ih =>
    obtain ⟨hr, hrest⟩ := List.forall_mem_cons.mp h
    have hcons : alter (r :: rest) id f = (if r.id = id then f r else r) :: alter rest id f := rfl
    rw [hcons]
    split_ifs with hid
    · rw [List.filter_cons_of_neg (by simp [hr hid]), List.filter_cons_of_neg (by simp [hr hid]), ih hrest]
    · rw [List.filter_cons, List.filter_cons, ih hrest]

end Records

/-- A store takes an answer, or it fails and shows the records as they were or with the answer. One that keeps its
mappings `byId` needs a new identifier for a new mapping. -/
structure Memory.Stores (memory : Memory σ) (view : σ → Records) (byId : Prop) : Prop where
  stored : ∀ s m r s', (byId → m.id ∉ (view s).map Mapping.id) → memory.upsert s m = (.ok r, s') →
    Records.Updated m (view s) (view s')
  failed : ∀ s m e s', (byId → m.id ∉ (view s).map Mapping.id) → memory.upsert s m = (.error e, s') →
    view s' = view s ∨ Records.Updated m (view s) (view s')

/-- A store that behaves as its records shows an answer that it fails to write down. -/
theorem Memory.Shows.stores {memory : Memory σ} (h : memory.Shows view) : memory.Stores view False where
  stored s m r s' _ hupsert := by
    have hview := h.upsert s m
    rw [hupsert] at hview
    exact hview ▸ Records.updated_upsert
  failed s m e s' _ hupsert := by
    have hview := h.upsert s m
    rw [hupsert] at hview
    exact .inr (hview ▸ Records.updated_upsert)

namespace HeldStore

variable {arrange : Records → Records} {s : HeldStore} {m r : Mapping}

theorem updated_insert (hnew : m.id ∉ s.entries.map Mapping.id) (hkey : ∀ r ∈ s.entries, r.key ≠ m.key) :
    Records.Updated m s.entries (s.insert m).entries := by
  have hentries : (s.insert m).entries = m :: s.entries := by
    refine congrArg (m :: ·) (List.filter_eq_self.mpr fun r hr => bne_iff_ne.mpr fun hid => hnew ?_)
    exact hid ▸ List.mem_map_of_mem hr
  rw [hentries]
  refine ⟨⟨m, List.mem_cons_self, rfl, rfl, rfl⟩, List.filter_cons_of_neg (by simp), fun r hr => ?_⟩
  rcases List.mem_cons.mp hr with rfl | hr
  · exact .inl rfl
  · exact .inr (List.mem_map_of_mem hr)

theorem updated_change (hr : r ∈ s.entries) (hkey : r.key = m.key) :
    Records.Updated m s.entries (s.change r.id (·.absorb m) fun _ => rfl).entries where
  told := ⟨r.absorb m, Records.mem_alter.mpr ⟨r, hr, if_pos rfl⟩, hkey, rfl, rfl⟩
  others := by
    refine Records.filter_alter fun r' hr' hid => ?_
    obtain rfl := List.inj_on_of_nodup_map s.distinct hr' hr hid
    have hnew : (r'.absorb m).key = m.key := hkey
    simp [hkey, hnew]
  ids x hx := by
    have hids : ((s.entries.alter r.id (·.absorb m)).map Mapping.id) = s.entries.map Mapping.id :=
      Records.map_alter fun _ => rfl
    exact .inr (hids ▸ List.mem_map_of_mem hx)

/-- A store that holds its mappings by their identifiers never fails to take an answer. -/
theorem memory_stores (harrange : ∀ rs, (arrange rs).Perm rs) :
    (HeldStore.memory arrange).Stores entries True where
  stored s m r s' hnew hupsert := by
    simp only [memory] at hupsert
    split at hupsert
    · next r' hfind =>
      obtain ⟨-, rfl⟩ := Prod.mk.inj hupsert
      have hr' : r' ∈ s.entries := (harrange _).mem_iff.mp (List.mem_of_find?_eq_some hfind)
      exact updated_change hr' (Mapping.sameKey_iff.mp (by simpa using List.find?_some hfind))
    · next hfind =>
      obtain ⟨-, rfl⟩ := Prod.mk.inj hupsert
      refine updated_insert (hnew trivial) fun r' hr' hkey => ?_
      exact List.find?_eq_none.mp hfind r' ((harrange _).mem_iff.mpr hr') (Mapping.sameKey_iff.mpr hkey)
  failed s m e s' _ hupsert := by
    simp only [memory] at hupsert
    split at hupsert <;> cases (Prod.mk.inj hupsert).1

end HeldStore

/-! ### All values of an answer -/

/-- These values were remembered in a context: each parameter has the value that is listed last for it, with the
vector of the context, and what is not listed is as it was. -/
structure Remembers (workflow context : String) (v : Embedding) (values : List (String × Json))
    (before after : Records) : Prop where
  told : ∀ n x, values.reverse.lookup n = some x →
    ∃ r ∈ after, r.key = (workflow, n, context) ∧ r.value = x ∧ r.embedding = v
  others : (after.filter fun r => ∀ n ∈ values.map Prod.fst, r.key ≠ (workflow, n, context)) =
    before.filter fun r => ∀ n ∈ values.map Prod.fst, r.key ≠ (workflow, n, context)

namespace Remembers

variable {workflow context : String} {v : Embedding} {values : List (String × Json)} {entry : String × Json}
  {before between after : Records} {m : Mapping}

theorem nil : Remembers workflow context v [] before before where
  told n x h := by cases h
  others := rfl

theorem nil_iff : Remembers workflow context v [] before after ↔ after = before := by
  refine ⟨fun h => ?_, fun h => h ▸ nil⟩
  simpa using h.others

/-- One more value. -/
theorem concat (h : Remembers workflow context v values before between)
    (hkey : m.key = (workflow, entry.1, context)) (hvalue : m.value = entry.2) (hv : m.embedding = v)
    (hm : Records.Updated m between after) : Remembers workflow context v (values ++ [entry]) before after where
  told n x hn := by
    rw [List.reverse_append, List.reverse_singleton, List.singleton_append, List.lookup_cons] at hn
    split at hn
    · next heq =>
      obtain rfl : n = entry.1 := eq_of_beq heq
      obtain rfl : entry.2 = x := Option.some.inj hn
      obtain ⟨r, hr, hrkey, hrvalue, hrv⟩ := hm.told
      exact ⟨r, hr, hrkey.trans hkey, hrvalue.trans hvalue, hrv.trans hv⟩
    · next hne =>
      obtain ⟨r, hr, hrkey, hrest⟩ := h.told n x hn
      -- the record is none of those that the new value is for
      have hother : r.key ≠ m.key := by
        rw [hrkey, hkey]
        simp only [ne_eq, Prod.mk.injEq, true_and, and_true]
        exact fun heq => by simp [heq] at hne
      have hmem : r ∈ after.filter (·.key ≠ m.key) :=
        hm.others ▸ List.mem_filter.mpr ⟨hr, by simpa using hother⟩
      exact ⟨r, (List.mem_filter.mp hmem).1, hrkey, hrest⟩
  others := by
    have hsplit : ∀ rs : Records,
        (rs.filter fun r => ∀ n ∈ (values ++ [entry]).map Prod.fst, r.key ≠ (workflow, n, context)) =
          (rs.filter (·.key ≠ m.key)).filter
            fun r => ∀ n ∈ values.map Prod.fst, r.key ≠ (workflow, n, context) := by
      intro rs
      rw [List.filter_filter]
      refine List.filter_congr fun r _ => ?_
      simp only [List.map_append, List.map_singleton, List.forall_mem_append, List.forall_mem_singleton, hkey]
      simp
    calc _ = (after.filter (·.key ≠ m.key)).filter _ := hsplit after
      _ = (between.filter (·.key ≠ m.key)).filter _ := by rw [hm.others]
      _ = (between.filter _).filter (·.key ≠ m.key) := List.filter_comm ..
      _ = (before.filter _).filter (·.key ≠ m.key) := by rw [h.others]
      _ = (before.filter (·.key ≠ m.key)).filter _ := List.filter_comm ..
      _ = _ := (hsplit before).symm

end Remembers

namespace Services

variable {env : Services σ} {s s' : Session σ} {workflow context : String} {v : Embedding}
  {done values : List (String × Json)} {entry : String × Json} {before : Records} {e : ServiceError}
  {made count : Nat} {rs rs' : Records}

/-- The mapping that is made for a value. -/
def mapping (env : Services σ) (made : Nat) (workflow context : String) (v : Embedding)
    (entry : String × Json) : Mapping where
  id := (env.stamp made).id
  workflow
  parameter := entry.1
  value := entry.2
  context
  embedding := v
  created := (env.stamp made).moment

theorem store_eq : env.store s workflow context v entry =
    ((env.memory.upsert s.memory (env.mapping s.made workflow context v entry)).1,
      { s with
        memory := (env.memory.upsert s.memory (env.mapping s.made workflow context v entry)).2
        made := s.made + 1 }) := rfl

/-- The identifiers of the mappings that are made next. -/
def nextIds (env : Services σ) (made count : Nat) : List Identifier :=
  (List.range' made count).map fun n => (env.stamp n).id

/-- The mappings that are made next get identifiers that differ and that no record has. -/
structure Fresh (env : Services σ) (made count : Nat) (rs : Records) : Prop where
  distinct : (env.nextIds made count).Nodup
  unused : ∀ id ∈ env.nextIds made count, id ∉ rs.map Mapping.id

theorem Fresh.first (h : env.Fresh made (count + 1) rs) : (env.stamp made).id ∉ rs.map Mapping.id :=
  h.unused _ (by simp [nextIds, List.range'_succ])

theorem Fresh.next (h : env.Fresh made (count + 1) rs)
    (hm : Records.Updated (env.mapping made workflow context v entry) rs rs') :
    env.Fresh (made + 1) count rs' := by
  have hids : env.nextIds made (count + 1) = (env.stamp made).id :: env.nextIds (made + 1) count := rfl
  obtain ⟨hdistinct, hunused⟩ := h
  rw [hids, List.nodup_cons] at hdistinct
  refine ⟨hdistinct.2, fun id hid hmem => ?_⟩
  obtain ⟨r, hr, rfl⟩ := List.mem_map.mp hmem
  rcases hm.ids r hr with hfirst | hold
  · have hmade : r.id = (env.stamp made).id := hfirst
    exact hdistinct.1 (hmade ▸ hid)
  · exact hunused r.id (hids ▸ List.mem_cons_of_mem _ hid) hold

/-- A value that is stored is remembered after those before it. -/
theorem remembers_store (hm : env.memory.Stores view byId)
    (hnew : byId → (env.stamp s.made).id ∉ (view s.memory).map Mapping.id)
    (hdone : Remembers workflow context v done before (view s.memory)) {m : Mapping}
    (h : env.store s workflow context v entry = (.ok m, s')) :
    s'.made = s.made + 1 ∧
      Records.Updated (env.mapping s.made workflow context v entry) (view s.memory) (view s'.memory) ∧
      Remembers workflow context v (done ++ [entry]) before (view s'.memory) := by
  obtain ⟨hresult, rfl⟩ := Prod.mk.inj (store_eq.symm.trans h)
  have hupdated := hm.stored s.memory (env.mapping s.made workflow context v entry) m _ hnew (Prod.ext hresult rfl)
  exact ⟨rfl, hupdated, hdone.concat rfl rfl rfl hupdated⟩

theorem remembers_store_error (hm : env.memory.Stores view byId)
    (hnew : byId → (env.stamp s.made).id ∉ (view s.memory).map Mapping.id)
    (hdone : Remembers workflow context v done before (view s.memory))
    (h : env.store s workflow context v entry = (.error e, s')) :
    Remembers workflow context v done before (view s'.memory) ∨
      Remembers workflow context v (done ++ [entry]) before (view s'.memory) := by
  obtain ⟨hresult, rfl⟩ := Prod.mk.inj (store_eq.symm.trans h)
  rcases hm.failed s.memory (env.mapping s.made workflow context v entry) e _ hnew (Prod.ext hresult rfl) with
    hsame | hupdated
  · exact .inl (hsame ▸ hdone)
  · exact .inr (hdone.concat rfl rfl rfl hupdated)

/-- The values after those that are done are stored to their end, or up to one that fails. -/
theorem remembers_storeAll (hm : env.memory.Stores view byId)
    (hfresh : byId → env.Fresh s.made values.length (view s.memory))
    (hdone : Remembers workflow context v done before (view s.memory)) :
    match env.storeAll s workflow context v values with
    | (none, s') => Remembers workflow context v (done ++ values) before (view s'.memory)
    | (some e, s') => ∃ more entry rest s₁, values = more ++ entry :: rest ∧
        Remembers workflow context v (done ++ more) before (view s₁.memory) ∧
        env.store s₁ workflow context v entry = (.error e, s') ∧
        (Remembers workflow context v (done ++ more) before (view s'.memory) ∨
          Remembers workflow context v (done ++ more ++ [entry]) before (view s'.memory)) := by
  induction values generalizing s done with
  | nil => simpa [storeAll] using hdone
  | cons entry rest ih =>
    have hnew : byId → (env.stamp s.made).id ∉ (view s.memory).map Mapping.id := fun h => (hfresh h).first
    rw [storeAll]
    cases hstore : env.store s workflow context v entry with
    | mk result s₁ =>
      cases result with
      | ok m =>
        obtain ⟨hmade, hupdated, hnext⟩ := remembers_store hm hnew hdone hstore
        have hrest := ih (fun h => hmade ▸ (hfresh h).next hupdated) hnext
        dsimp only
        split at hrest
        · simpa using hrest
        · obtain ⟨more, entry', rest', s₂, rfl, hrest⟩ := hrest
          exact ⟨entry :: more, entry', rest', s₂, rfl, by simpa using hrest⟩
      | error e =>
        refine ⟨[], entry, rest, s, rfl, ?_, hstore, ?_⟩
        · rwa [List.append_nil]
        · rw [List.append_nil]
          exact remembers_store_error hm hnew hdone hstore

theorem remember_of_embed (hv : env.embedder.embed context = .ok v) :
    env.remember s workflow context values = env.storeAll s workflow context v values := by
  simp only [remember, hv]

theorem remember_of_embed_error (he : env.embedder.embed context = .error e) :
    env.remember s workflow context values = (some e, s) := by
  simp only [remember, he]

theorem remembers_remember (hm : env.memory.Stores view byId)
    (hfresh : byId → env.Fresh s.made values.length (view s.memory))
    (h : env.remember s workflow context values = (none, s')) :
    ∃ v, env.embedder.embed context = .ok v ∧
      Remembers workflow context v values (view s.memory) (view s'.memory) := by
  cases hv : env.embedder.embed context with
  | error e => cases (remember_of_embed_error hv).symm.trans h
  | ok v =>
    have hstored := remembers_storeAll hm hfresh
      (.nil : Remembers workflow context v [] (view s.memory) (view s.memory))
    rw [← remember_of_embed hv, h] at hstored
    exact ⟨v, rfl, hstored⟩

theorem remembers_remember_error (hm : env.memory.Stores view byId)
    (hfresh : byId → env.Fresh s.made values.length (view s.memory))
    (h : env.remember s workflow context values = (some e, s')) :
    (env.embedder.embed context = .error e ∧ s' = s) ∨
      ∃ v done entry rest s₁, env.embedder.embed context = .ok v ∧ values = done ++ entry :: rest ∧
        Remembers workflow context v done (view s.memory) (view s₁.memory) ∧
        env.store s₁ workflow context v entry = (.error e, s') ∧
        (Remembers workflow context v done (view s.memory) (view s'.memory) ∨
          Remembers workflow context v (done ++ [entry]) (view s.memory) (view s'.memory)) := by
  cases hv : env.embedder.embed context with
  | error e' =>
    obtain ⟨he, rfl⟩ := Prod.mk.inj ((remember_of_embed_error hv).symm.trans h)
    exact .inl ⟨congrArg Except.error (Option.some.inj he), rfl⟩
  | ok v =>
    have hstored := remembers_storeAll hm hfresh
      (.nil : Remembers workflow context v [] (view s.memory) (view s.memory))
    rw [← remember_of_embed hv, h] at hstored
    obtain ⟨done, entry, rest, s₁, hvalues, hstored⟩ := hstored
    exact .inr ⟨v, done, entry, rest, s₁, rfl, hvalues, hstored⟩

end Services

namespace Compiler

/-- The answer of a caller fails in a service exactly if its values cannot be remembered. -/
theorem clarify_eq_service {c : Compiler σ} {workflow : String} {answer : Clarification} {s s' : Session σ}
    {e : ServiceError} : c.clarify workflow answer s = (.error (.service e), s') ↔
      ∃ w p v, c.registry.get? workflow = some w ∧ w.parameter? answer.parameter = some p ∧
        p.accept answer.value = .ok v ∧
        c.resolver.services.remember s w.name answer.context (w.targetValues p.name answer.context v) =
          (some e, s') := by
  unfold clarify
  constructor
  · intro h
    split at h
    · cases (Prod.mk.inj h).1
    · next w hw =>
      split at h
      · cases (Prod.mk.inj h).1
      · next p hp =>
        split at h
        · cases (Prod.mk.inj h).1
        · next v hv =>
          dsimp only at h
          split at h
          · cases (Prod.mk.inj h).1
          · next e' s₁ hremember =>
            obtain ⟨he, rfl⟩ := Prod.mk.inj h
            obtain rfl : e' = e := Failure.service.inj (Except.error.inj he)
            exact ⟨w, p, v, hw, hp, hv, hremember⟩
  · rintro ⟨w, p, v, hw, hp, hv, hremember⟩
    simp only [hw, hp, hv, hremember]

/-- An answer that is remembered gives every listed parameter its value. One that is not was either not looked into
at all, and the session is as it was, or it is remembered up to the value whose storing failed, and perhaps with it.
What it fails with is what the caller is told. -/
theorem remembered_until_failure (c : Compiler σ) (hm : c.resolver.services.memory.Stores view byId)
    (s : Session σ) (workflow context : String) (values : List (String × Json))
    (hfresh : byId → c.resolver.services.Fresh s.made values.length (view s.memory)) :
    let env := c.resolver.services
    (∀ s', env.remember s workflow context values = (none, s') →
      ∃ v, env.embedder.embed context = .ok v ∧
        Remembers workflow context v values (view s.memory) (view s'.memory)) ∧
    (∀ e s', env.remember s workflow context values = (some e, s') →
      (env.embedder.embed context = .error e ∧ s' = s) ∨
      ∃ v done entry rest s₁, env.embedder.embed context = .ok v ∧ values = done ++ entry :: rest ∧
        Remembers workflow context v done (view s.memory) (view s₁.memory) ∧
        env.store s₁ workflow context v entry = (.error e, s') ∧
        (Remembers workflow context v done (view s.memory) (view s'.memory) ∨
          Remembers workflow context v (done ++ [entry]) (view s.memory) (view s'.memory))) ∧
    ∀ name answer e s', c.clarify name answer s = (.error (.service e), s') ↔
      ∃ w p v, c.registry.get? name = some w ∧ w.parameter? answer.parameter = some p ∧
        p.accept answer.value = .ok v ∧
        env.remember s w.name answer.context (w.targetValues p.name answer.context v) = (some e, s') := by
  exact ⟨fun _ => Services.remembers_remember hm hfresh, fun _ _ => Services.remembers_remember_error hm hfresh,
    fun _ _ _ _ => clarify_eq_service⟩

/-- What a full device says. -/
def deviceFull : ServiceError :=
  .storage "Failed to write memory.json.tmp: No space left on device (os error 28)"

/-- The device has room for a file with so many mappings. -/
def room (n : Nat) (s : FileStore) : Except ServiceError FileTree :=
  if s.records.length ≤ n then .ok s.files else .error deviceFull

/-- A compiler with this memory and nobody to ask. -/
def legCompiler (memory : Memory σ) : Compiler σ where
  registry := ⟨[Resolver.tallTable]⟩
  resolver :=
    { services :=
        { embedder := .oneByOne "table" "table" fun _ => .ok [1.0]
          memory
          handler := none
          stamp := fun n => ⟨⟨n + 2⟩, ⟨"2025-01-02T12:00:00Z"⟩⟩ } }

/-- A file on a device with room for one mapping. -/
def crampedMemory : Memory FileStore := FileStore.memoryBy (room 1 :: FileStore.writing)

/-- An answer for the left leg. -/
def leftLeg (v : Int) : Mapping where
  id := ⟨1⟩
  workflow := "table"
  parameter := "left_leg"
  value := .int v
  context := "a table"
  embedding := [1.0]
  created := ⟨"2025-01-01T12:00:00Z"⟩

/-- The left leg was answered before. -/
def oneLegSession : Session FileStore := ⟨⟨"memory.json", [leftLeg 1], []⟩, [], 0⟩

def bothLegs : List (String × Json) := [("left_leg", .int 2), ("right_leg", .int 2)]

/-- The file has no room for the right leg. -/
theorem remember_bothLegs : ∃ s',
    (legCompiler crampedMemory).resolver.services.remember oneLegSession "table" "a table" bothLegs =
      (some deviceFull, s') ∧
    s'.memory.records ≠ [leftLeg 1] ∧ s'.memory.content? = some (FileStore.encode [leftLeg 2]) := by
  refine ⟨((legCompiler crampedMemory).resolver.services.remember oneLegSession "table" "a table" bothLegs).2,
    Prod.ext ?_ rfl, ?_, ?_⟩ <;> decide +kernel

/-- With a full device the left leg has its new value, though the answer failed. A store that holds its mappings by
their identifiers takes the same answer for both legs. -/
theorem remembered_until_failure_legs :
    (∃ s', crampedMemory.Stores FileStore.records False ∧
      (legCompiler crampedMemory).resolver.services.remember oneLegSession "table" "a table" bothLegs =
        (some deviceFull, s') ∧
      ∃ r ∈ s'.memory.records, r.key = ("table", "left_leg", "a table") ∧ r.value = .int 2 ∧
        r.embedding = [1.0]) ∧
    ∃ s', (HeldStore.memory List.reverse).Stores HeldStore.entries True ∧
      (legCompiler (HeldStore.memory List.reverse)).resolver.services.Fresh 0 2 [] ∧
      (legCompiler (HeldStore.memory List.reverse)).resolver.services.remember ⟨.empty, [], 0⟩ "table" "a table"
        bothLegs = (none, s') ∧
      ∃ r ∈ s'.memory.entries, r.key = ("table", "right_leg", "a table") ∧ r.value = .int 2 ∧
        r.embedding = [1.0] := by
  refine ⟨?_, ?_⟩
  · have hm : crampedMemory.Stores FileStore.records False := FileStore.memoryBy_shows.stores
    obtain ⟨s', hremember, hchanged, -⟩ := remember_bothLegs
    refine ⟨s', hm, hremember, ?_⟩
    rcases (remembered_until_failure (legCompiler crampedMemory) hm oneLegSession "table" "a table" bothLegs
      False.elim).2.1 _ _ hremember with ⟨he, -⟩ | ⟨v, done, entry, rest, s₁, hv, hvalues, -, -, hleft⟩
    · cases he
    · obtain rfl : [1.0] = v := Except.ok.inj hv
      match done with
      | [] =>
        obtain ⟨rfl, -⟩ := List.cons.inj hvalues
        rcases hleft with hleft | hleft
        · exact absurd (Remembers.nil_iff.mp hleft) hchanged
        · exact hleft.told _ _ rfl
      | [_] =>
        obtain ⟨rfl, hrest⟩ := List.cons.inj hvalues
        obtain ⟨rfl, -⟩ := List.cons.inj hrest
        exact hleft.elim (fun h => h.told _ _ rfl) fun h => h.told _ _ rfl
      | _ :: _ :: done =>
        simp [bothLegs] at hvalues
  · have hm : (HeldStore.memory List.reverse).Stores HeldStore.entries True :=
      HeldStore.memory_stores List.reverse_perm
    have hfresh : (legCompiler (HeldStore.memory List.reverse)).resolver.services.Fresh 0 2 [] :=
      ⟨by decide, by simp⟩
    obtain ⟨s', hs'⟩ : ∃ s', s' = ((legCompiler (HeldStore.memory List.reverse)).resolver.services.remember
      ⟨.empty, [], 0⟩ "table" "a table" bothLegs).2 := ⟨_, rfl⟩
    have hremember : (legCompiler (HeldStore.memory List.reverse)).resolver.services.remember
        ⟨.empty, [], 0⟩ "table" "a table" bothLegs = (none, s') := Prod.ext rfl hs'.symm
    obtain ⟨v, hv, hvalues⟩ := (remembered_until_failure (legCompiler (HeldStore.memory List.reverse)) hm
      ⟨.empty, [], 0⟩ "table" "a table" bothLegs fun _ => hfresh).1 s' hremember
    obtain rfl : [1.0] = v := Except.ok.inj hv
    exact ⟨s', hm, hfresh, hremember, hvalues.told _ _ rfl⟩

/-- The answer is for both legs, and cannot be stored for the right one. The caller is told so, and the left leg has
the new value, also in the file. And of two values that are listed for one leg only the last is left. -/
theorem half_remembered :
    (∃ s', Resolver.tallTable.targetValues "left_leg" "a table" (.int 2) = bothLegs ∧
      (legCompiler crampedMemory).resolver.services.remember oneLegSession "table" "a table" bothLegs =
        (some deviceFull, s') ∧
      (legCompiler crampedMemory).clarify "table" ⟨"left_leg", .int 2, "a table"⟩ oneLegSession =
        (.error (.service deviceFull), s') ∧
      s'.memory.records ≠ oneLegSession.memory.records ∧
      s'.memory.content? = some (FileStore.encode [leftLeg 2])) ∧
    ∃ s', (legCompiler crampedMemory).resolver.services.remember oneLegSession "table" "a table"
        [("left_leg", .int 3), ("left_leg", .int 2)] = (none, s') ∧ s'.memory.records = [leftLeg 2] := by
  have hvalues : Resolver.tallTable.targetValues "left_leg" "a table" (.int 2) = bothLegs := by decide +kernel
  obtain ⟨s', hremember, hchanged, hfile⟩ := remember_bothLegs
  refine ⟨⟨s', hvalues, hremember, ?_, hchanged, hfile⟩, _, Prod.ext ?_ rfl, ?_⟩
  · exact clarify_eq_service.mpr ⟨Resolver.tallTable, Resolver.tallTable.parameters[0], .int 2, rfl,
      by decide +kernel, by decide +kernel, hvalues ▸ hremember⟩
  · decide +kernel
  · decide +kernel

end Compiler

end GoalCompiler
