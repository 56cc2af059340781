import GoalCompiler.Memory.FileStore
import GoalCompiler.Proofs.Workflow.Acceptance

/-! What a store remembers. Storing an answer adds its parameter to those that there is an answer for, and counting
a use changes no answer. A search finds an answer exactly where one is near enough. -/
namespace GoalCompiler

variable {σ : Type}

/-! ### Stores as records -/

/-- The store behaves as the records that it shows, apart from failures to write them down. -/
structure Memory.Shows (memory : Memory σ) (view : σ → Records) : Prop where
  search : ∀ s q, memory.search s q = .ok (q.run (view s))
  upsert : ∀ s m, view (memory.upsert s m).2 = (Records.upsert (view s) m).2
  recordUsage : ∀ s id now, view (memory.recordUsage s id now).2 =
    ((Records.use? (view s) id now).map Prod.snd).getD (view s)

theorem Records.memory_shows : Records.memory.Shows id where
  search _ _ := rfl
  upsert _ _ := rfl
  recordUsage rs id now := by
    simp only [memory, id_eq]
    cases use? rs id now <;> rfl

namespace FileStore

variable {s : FileStore} {steps : List (FileStore → Except ServiceError FileTree)}

theorem records_perform : (s.perform steps).2.records = s.records := by
  induction steps generalizing s with
  | nil => rfl
  | cons step rest ih =>
    rw [perform]
    split
    · exact ih
    · rfl

theorem records_settle {α : Type} {result : α} : (s.settle steps result).2.records = s.records := by
  have hperform : (s.perform steps).2.records = s.records := records_perform
  unfold settle
  split <;> next h => rw [← hperform, h]

/-- A store in a file shows what is held, whether or not it could be written. -/
theorem memoryBy_shows : (memoryBy steps).Shows records where
  search _ _ := rfl
  upsert _ _ := records_settle
  recordUsage s id now := by
    simp only [memoryBy]
    split
    · next h =>
      rw [h]
      exact records_settle
    · next h => simp [h]

theorem memory_shows : FileStore.memory.Shows records := memoryBy_shows

end FileStore

namespace Records

variable {rs rs' : Records} {m x : Mapping} {n : String}

theorem parameter_upsert : n ∈ (upsert rs x).2.map Mapping.parameter ↔
    n = x.parameter ∨ n ∈ rs.map Mapping.parameter := by
  induction rs with
  | nil => simp [upsert]
  | cons r rest ih =>
    rw [upsert]
    split
    · next hkey =>
      have hparameter : r.parameter = x.parameter := by
        simp only [Mapping.sameKey, Bool.and_eq_true, beq_iff_eq] at hkey
        exact hkey.1.2
      simp [Mapping.absorb, hparameter]
    · simp only [List.map_cons, List.mem_cons, ih]
      exact or_left_comm

/-- A stored answer is new, or takes the place of one with the same key. -/
theorem mem_upsert (h : m ∈ (upsert rs x).2) : m ∈ rs ∨ m = x ∨ ∃ r ∈ rs, r.sameKey x ∧ m = r.absorb x := by
  induction rs with
  | nil => exact .inr (.inl (List.mem_singleton.mp h))
  | cons r rest ih =>
    rw [upsert] at h
    split at h
    · next hkey =>
      rcases List.mem_cons.mp h with rfl | h
      · exact .inr (.inr ⟨r, List.mem_cons_self, hkey, rfl⟩)
      · exact .inl (List.mem_cons_of_mem r h)
    · rcases List.mem_cons.mp h with rfl | h
      · exact .inl List.mem_cons_self
      · rcases ih h with h | h | ⟨r', hr', h⟩
        · exact .inl (List.mem_cons_of_mem r h)
        · exact .inr (.inl h)
        · exact .inr (.inr ⟨r', List.mem_cons_of_mem r hr', h⟩)

theorem parameter_use? {id : Identifier} {now : Moment} {count : Nat} (h : use? rs id now = some (count, rs')) :
    rs'.map Mapping.parameter = rs.map Mapping.parameter := by
  induction rs generalizing rs' count with
  | nil => cases h
  | cons r rest ih =>
    rw [use?] at h
    split at h
    · obtain ⟨-, rfl⟩ := Prod.mk.inj (Option.some.inj h)
      rfl
    · obtain ⟨⟨k, rest'⟩, hrest, heq⟩ := Option.map_eq_some_iff.mp h
      obtain ⟨-, rfl⟩ := Prod.mk.inj heq
      simp [ih hrest]

theorem mem_use? {id : Identifier} {now : Moment} {count : Nat} (h : use? rs id now = some (count, rs'))
    (hm : m ∈ rs') : m ∈ rs ∨ ∃ r ∈ rs, m = r.use now := by
  induction rs generalizing rs' count with
  | nil => cases h
  | cons r rest ih =>
    rw [use?] at h
    split at h
    · obtain ⟨-, rfl⟩ := Prod.mk.inj (Option.some.inj h)
      rcases List.mem_cons.mp hm with rfl | hm
      · exact .inr ⟨r, List.mem_cons_self, rfl⟩
      · exact .inl (List.mem_cons_of_mem r hm)
    · obtain ⟨⟨k, rest'⟩, hrest, heq⟩ := Option.map_eq_some_iff.mp h
      obtain ⟨-, rfl⟩ := Prod.mk.inj heq
      rcases List.mem_cons.mp hm with rfl | hm
      · exact .inl List.mem_cons_self
      · rcases ih hrest hm with hm | ⟨r', hr', hm⟩
        · exact .inl (List.mem_cons_of_mem r hm)
        · exact .inr ⟨r', List.mem_cons_of_mem r hr', hm⟩

end Records

/-! ### Searching -/

namespace Query

variable {q : Query} {rs : Records}

theorem mem_run {m : Match} (h : m ∈ q.run rs) :
    m.mapping ∈ rs ∧ q.speaksOf m.mapping ∧ q.least ≤ m.similarity := by
  obtain ⟨x, hx, hmatch⟩ := List.mem_filterMap.mp (List.mem_mergeSort.mp (List.mem_of_mem_take h))
  unfold match? at hmatch
  dsimp only at hmatch
  split_ifs at hmatch with hcond
  obtain rfl := Option.some.inj hmatch
  simp only [Bool.and_eq_true, decide_eq_true_eq] at hcond
  exact ⟨hx, hcond⟩

theorem run_eq_nil_iff (hlimit : 0 < q.limit) :
    q.run rs = [] ↔ ∀ m ∈ rs, q.speaksOf m → ¬ q.least ≤ Embedding.similarity m.embedding q.embedding := by
  have hlength : q.run rs = [] ↔ rs.filterMap q.match? = [] := by
    rw [run, List.take_eq_nil_iff, ← List.length_eq_zero_iff, List.length_mergeSort, List.length_eq_zero_iff]
    exact or_iff_right (Nat.pos_iff_ne_zero.mp hlimit)
  rw [hlength, List.filterMap_eq_nil_iff]
  refine forall₂_congr fun m _ => ?_
  simp [match?]

end Query

/-! ### Answers learned in one context -/

/-- The records are answers for one workflow, all learned in a context with this vector, and these are the names
of the parameters that there is an answer for. -/
structure Learned (w : Workflow) (v : Embedding) (names : List String) (rs : Records) : Prop where
  sound : ∀ m ∈ rs, m.workflow = w.name ∧ m.embedding = v ∧ w.Takes m.parameter m.value
  names : ∀ n, n ∈ rs.map Mapping.parameter ↔ n ∈ names

namespace Learned

variable {w : Workflow} {v : Embedding} {names : List String} {rs : Records}

theorem nil : Learned w v [] [] where
  sound := by simp
  names := by simp

/-- One more answer. -/
theorem upsert (h : Learned w v names rs) {x : Mapping} {n : String} (hworkflow : x.workflow = w.name)
    (hparameter : x.parameter = n) (hv : x.embedding = v) (htakes : w.Takes n x.value) :
    Learned w v (n :: names) (Records.upsert rs x).2 where
  sound m hm := by
    subst hparameter
    rcases Records.mem_upsert hm with hm | rfl | ⟨r, hr, hkey, rfl⟩
    · exact h.sound m hm
    · exact ⟨hworkflow, hv, htakes⟩
    · simp only [Mapping.sameKey, Bool.and_eq_true, beq_iff_eq] at hkey
      exact ⟨(h.sound r hr).1, hv, hkey.1.2 ▸ htakes⟩
  names n' := by rw [Records.parameter_upsert, h.names, List.mem_cons, hparameter]

/-- One more use. -/
theorem use (h : Learned w v names rs) {id : Identifier} {now : Moment} :
    Learned w v names (((Records.use? rs id now).map Prod.snd).getD rs) := by
  cases huse : Records.use? rs id now with
  | none => exact h
  | some result =>
    obtain ⟨count, rs'⟩ := result
    refine ⟨fun m hm => ?_, fun n => ?_⟩
    · rcases Records.mem_use? huse hm with hm | ⟨r, hr, rfl⟩
      · exact h.sound m hm
      · exact h.sound r hr
    · rw [← h.names, ← Records.parameter_use? huse]
      rfl

/-- Where the vector is near enough to itself, a search finds something exactly for the names that there is an
answer for. -/
theorem run_eq_nil_iff (h : Learned w v names rs) {q : Query} (hworkflow : q.workflow = w.name)
    (hv : q.embedding = v) (hlimit : 0 < q.limit) (hnear : q.least ≤ Embedding.similarity v v) :
    q.run rs = [] ↔ q.parameter ∉ names := by
  rw [Query.run_eq_nil_iff hlimit, ← h.names, List.mem_map]
  constructor
  · rintro hnone ⟨m, hm, hparameter⟩
    obtain ⟨hm', hvector, -⟩ := h.sound m hm
    refine hnone m hm (by simp [Query.speaksOf, hm', hworkflow, hparameter]) ?_
    rwa [hvector, hv]
  · intro hnone m hm hspeaks
    simp only [Query.speaksOf, Bool.and_eq_true, beq_iff_eq] at hspeaks
    exact absurd ⟨m, hm, hspeaks.2⟩ hnone

end Learned

end GoalCompiler
