import GoalCompiler.Proofs.FileTree
import GoalCompiler.Proofs.Memory.History
import GoalCompiler.Proofs.Memory.Records

/-! What a store in a file writes. A change is done first and then written; a change that cannot be written stays
in the store, while the file is as it was. -/
namespace GoalCompiler

open Memory

/-- The operation is a change that has to be written. -/
def Memory.Operation.Changes (rs : Records) : Operation → Prop
  | .upsert _ => True
  | .recordUsage id _ => id ∈ rs.map Mapping.id
  | _ => False

theorem Memory.Shows.perform {σ : Type} {memory : Memory σ} {view : σ → Records} {s : σ} {op : Operation}
    (h : memory.Shows view) : view (memory.perform view s op).2 = (Records.memory.perform id (view s) op).2 := by
  cases op with
  | upsert m => exact h.upsert s m
  | recordUsage i now => exact (h.recordUsage s i now).trans (Records.memory_shows.recordUsage (view s) i now).symm
  | search q => rfl
  | get i => rfl
  | count => rfl

/-- The reply tells of no failure to write. -/
def Memory.Reply.isWritten : Reply → Bool
  | .stored (.error _) => false
  | .used (.error (.storage _)) => false
  | _ => true

namespace FileStore

variable {s : FileStore} {steps : List (FileStore → Except ServiceError FileTree)} {α : Type} {x : α}
  {e : ServiceError} {op : Operation} {ops : List Operation}

theorem settle_fst : (s.settle steps x).1 = (s.perform steps).1.elim (.ok x) .error := by
  unfold settle
  split <;> next h => rw [h]; rfl

theorem settle_snd : (s.settle steps x).2 = (s.perform steps).2 := by
  unfold settle
  split <;> next h => rw [h]

theorem storage_of_perform (hsteps : ∀ step ∈ steps, ∀ s e, step s = .error e → ∃ message, e = .storage message)
    (h : (s.perform steps).1 = some e) : ∃ message, e = .storage message := by
  induction steps generalizing s with
  | nil => cases h
  | cons step rest ih =>
    rw [perform] at h
    split at h
    · exact ih (fun step hstep => hsteps step (List.mem_cons_of_mem _ hstep)) h
    · next he =>
      obtain rfl := Option.some.inj h
      exact hsteps step List.mem_cons_self _ _ he

theorem storage_of_failed {action path : String} {x : Except FileFault FileTree}
    (h : x.mapError (failed action path) = .error e) : ∃ message, e = .storage message := by
  cases x with
  | ok t => cases h
  | error fault => exact ⟨_, (Except.error.inj h).symm⟩

theorem storage_of_writing : ∀ step ∈ writing, ∀ s e, step s = .error e → ∃ message, e = .storage message := by
  intro step hstep s e h
  simp only [writing, List.mem_cons, List.not_mem_nil, or_false] at hstep
  rcases hstep with rfl | rfl | rfl
  · unfold makeDirectory at h
    dsimp only at h
    split at h
    · cases h
    · exact storage_of_failed h
  · unfold writeBeside at h
    exact storage_of_failed h
  · unfold replace at h
    exact storage_of_failed h

theorem upsert_eq {m : Mapping} : (memoryBy steps).upsert s m =
    settle steps { s with records := (s.records.upsert m).2 } (s.records.upsert m).1 := rfl

theorem recordUsage_of_some {id : Identifier} {now : Moment} {n : Nat} {rs : Records}
    (h : s.records.use? id now = some (n, rs)) :
    (memoryBy steps).recordUsage s id now = settle steps { s with records := rs } n := by
  simp only [memoryBy, h]

theorem recordUsage_of_none {id : Identifier} {now : Moment} (h : s.records.use? id now = none) :
    (memoryBy steps).recordUsage s id now = (.error (Records.unknown id), s) := by
  simp only [memoryBy, h]

/-- An operation that could be written has done what it does to the plain store. -/
theorem perform_of_written (h : (FileStore.memory.perform records s op).1.reply.isWritten) :
    (FileStore.memory.perform records s op).1 = (Records.memory.perform id s.records op).1 := by
  cases op with
  | upsert m =>
    simp only [Memory.perform, memory, upsert_eq, settle_fst] at h ⊢
    generalize FileStore.perform _ writing = result at h ⊢
    obtain ⟨_ | e, s'⟩ := result
    · rfl
    · cases h
  | recordUsage id now =>
    cases huse : s.records.use? id now with
    | none => simp only [Memory.perform, memory, Records.memory, recordUsage_of_none huse, huse]
    | some result =>
      obtain ⟨n, rs⟩ := result
      simp only [Memory.perform, memory, Records.memory, recordUsage_of_some huse, huse, settle_fst] at h ⊢
      cases he : (FileStore.perform { s with records := rs } writing).1 with
      | none => rfl
      | some e =>
        obtain ⟨message, rfl⟩ := storage_of_perform storage_of_writing he
        rw [he] at h
        cases h
  | search q => rfl
  | get id => rfl
  | count => rfl

theorem run_of_written (h : ∀ c ∈ (FileStore.memory.run records s ops).1, c.reply.isWritten) :
    (FileStore.memory.run records s ops).1 = (Records.memory.run id s.records ops).1 ∧
      (FileStore.memory.run records s ops).2.records = (Records.memory.run id s.records ops).2 := by
  induction ops using List.reverseRecOn with
  | nil => exact ⟨rfl, rfl⟩
  | append_singleton ops op ih =>
    rw [run_concat] at h ⊢
    simp only [List.mem_append, List.mem_singleton] at h
    obtain ⟨hhistory, hrecords⟩ := ih fun c hc => h c (.inl hc)
    rw [run_concat, hhistory, perform_of_written (h _ (.inr rfl)), memory_shows.perform, hrecords]
    exact ⟨rfl, rfl⟩

/-! ### What is in the file -/

/-- The text in the file, if it can be read. -/
def content? (s : FileStore) : Option String := s.files.content? s.path

/-- A step that leaves the file as it is. -/
def Leaves (path : String) (step : FileStore → Except ServiceError FileTree) : Prop :=
  ∀ s files, s.path = path → step s = .ok files → files.content? path = s.files.content? path

theorem path_perform : (s.perform steps).2.path = s.path := by
  induction steps generalizing s with
  | nil => rfl
  | cons step rest ih =>
    rw [perform]
    split
    · exact ih
    · rfl

theorem content?_perform (h : ∀ step ∈ steps, Leaves s.path step) : (s.perform steps).2.content? = s.content? := by
  induction steps generalizing s with
  | nil => rfl
  | cons step rest ih =>
    rw [perform]
    split
    · next files hstep =>
      have hrest := ih (s := { s with files }) fun step hstep => h step (List.mem_cons_of_mem _ hstep)
      exact hrest.trans (h step List.mem_cons_self s files rfl hstep)
    · rfl

theorem leaves_makeDirectory {path : String} : Leaves path makeDirectory := by
  rintro s files rfl h
  unfold makeDirectory at h
  dsimp only at h
  split at h
  · exact Except.ok.inj h ▸ rfl
  · exact FileTree.content?_createDirectories (Outcome.mapError_eq_ok.mp h)

theorem write_of_writeBeside {files : FileTree} (h : writeBeside s = .ok files) :
    s.files.write (Path.withExtension s.path "json.tmp") (encode s.records) = .ok files := by
  unfold writeBeside at h
  exact Outcome.mapError_eq_ok.mp h

theorem rename_of_replace {files : FileTree} (h : replace s = .ok files) :
    s.files.rename (Path.withExtension s.path "json.tmp") s.path = .ok files := by
  unfold replace at h
  exact Outcome.mapError_eq_ok.mp h

theorem leaves_writeBeside {path : String} : Leaves path writeBeside := by
  rintro s files rfl h
  exact FileTree.content?_write_apart (write_of_writeBeside h) Path.beside_apart

/-- Writing that succeeds puts the mappings into the file, and writing that fails leaves it. -/
theorem content?_perform_writing : (s.perform writing).2.content? =
    if (s.perform writing).1 = none then some (encode s.records) else s.content? := by
  cases hmade : makeDirectory s with
  | error e => simp [writing, perform, hmade]
  | ok made =>
    have hmadeContent := leaves_makeDirectory s made rfl hmade
    cases hwritten : writeBeside { s with files := made } with
    | error e => simpa [writing, perform, hmade, hwritten, content?] using hmadeContent
    | ok written =>
      have hwrittenContent := (leaves_writeBeside _ written rfl hwritten).trans hmadeContent
      have hbeside := FileTree.content?_write (write_of_writeBeside hwritten)
      cases hreplaced : replace { s with files := written } with
      | error e => simpa [writing, perform, hmade, hwritten, hreplaced, content?] using hwrittenContent
      | ok replaced =>
        have hcontent := FileTree.content?_rename (rename_of_replace hreplaced) Path.beside_apart
        simpa [writing, perform, hmade, hwritten, hreplaced, content?] using hcontent.trans hbeside

/-! ### When writing goes wrong -/

/-- Something goes wrong with writing: after so many of its steps there is an error. What else is done before it
leaves the file as it is. -/
structure Mishap (path : String) where
  done : Fin 3
  leftover : FileTree → FileTree
  intact : ∀ files, (leftover files).content? path = files.content? path
  message : String

/-- An operation, and what goes wrong if it writes. -/
structure Attempt (path : String) where
  operation : Operation
  mishap : Option (Mishap path)

variable {path : String} {a : Attempt path} {as : List (Attempt path)} {m : Mishap path}

def Mishap.course (m : Mishap path) : List (FileStore → Except ServiceError FileTree) :=
  writing.take m.done ++ [fun s => .ok (m.leftover s.files), fun _ => .error (.storage m.message)]

def Attempt.course (a : Attempt path) : List (FileStore → Except ServiceError FileTree) :=
  match a.mishap with
  | some m => m.course
  | none => writing

def attempt (s : FileStore) (a : Attempt path) : Call × FileStore :=
  (memoryBy a.course).perform records s a.operation

/-- The call has changed the store and could be written. -/
def Saves : Call → Prop
  | ⟨_, .stored (.ok _)⟩ => True
  | ⟨_, .used (.ok _)⟩ => True
  | _ => False

theorem Saves.isWritten {c : Call} (h : Saves c) : c.reply.isWritten := by
  match c, h with
  | ⟨_, .stored (.ok _)⟩, _ => rfl
  | ⟨_, .used (.ok _)⟩, _ => rfl

theorem records_attempt : (attempt s a).2.records = (Records.memory.perform id s.records a.operation).2 :=
  memoryBy_shows.perform

theorem records_attempts : (follow attempt s as).2.records =
    (Records.memory.run id s.records (as.map Attempt.operation)).2 := by
  induction as using List.reverseRecOn with
  | nil => rfl
  | append_singleton as a ih =>
    rw [follow_concat, List.map_append, List.map_singleton, run_concat, records_attempt, ih]

theorem perform_concat_error (s : FileStore) (steps : List (FileStore → Except ServiceError FileTree))
    (e : ServiceError) : ∃ e', (s.perform (steps ++ [fun _ => .error e])).1 = some e' := by
  induction steps generalizing s with
  | nil => exact ⟨e, rfl⟩
  | cons step rest ih =>
    rw [List.cons_append, perform]
    split
    · exact ih _
    · exact ⟨_, rfl⟩

theorem mem_course {step : FileStore → Except ServiceError FileTree} (h : step ∈ m.course) :
    step = makeDirectory ∨ step = writeBeside ∨ step = (fun s => .ok (m.leftover s.files)) ∨
      step = fun _ => .error (.storage m.message) := by
  rw [Mishap.course, List.mem_append] at h
  rcases h with h | h
  · have hbefore := List.take_subset_take_left writing (Nat.le_of_lt_succ m.done.isLt) h
    rcases (by simpa [writing] using hbefore : step = makeDirectory ∨ step = writeBeside) with rfl | rfl
    · exact .inl rfl
    · exact .inr (.inl rfl)
  · exact .inr (.inr (by simpa using h))

theorem leaves_of_mem_course {step : FileStore → Except ServiceError FileTree} (h : step ∈ m.course) :
    Leaves path step := by
  rcases mem_course h with rfl | rfl | rfl | rfl
  · exact leaves_makeDirectory
  · exact leaves_writeBeside
  · rintro s files - h
    exact Except.ok.inj h ▸ m.intact s.files
  · rintro s files - h
    cases h

theorem storage_of_mem_course {step : FileStore → Except ServiceError FileTree} (h : step ∈ m.course)
    (he : step s = .error e) : ∃ message, e = .storage message := by
  rcases mem_course h with rfl | rfl | rfl | rfl
  · exact storage_of_writing _ (by simp [writing]) s e he
  · exact storage_of_writing _ (by simp [writing]) s e he
  · cases he
  · exact ⟨_, (Except.error.inj he).symm⟩

/-- Writing that goes wrong fails, and does nothing to the file. -/
theorem perform_mishap (hs : s.path = path) :
    (∃ message, (s.perform m.course).1 = some (.storage message)) ∧
      (s.perform m.course).2.content? = s.content? := by
  refine ⟨?_, content?_perform fun step hstep => hs ▸ leaves_of_mem_course hstep⟩
  obtain ⟨e, he⟩ := perform_concat_error s (writing.take m.done ++ [fun s => .ok (m.leftover s.files)])
    (.storage m.message)
  rw [List.append_assoc, List.singleton_append] at he
  obtain ⟨message, rfl⟩ := storage_of_perform (fun _ hstep _ _ => storage_of_mem_course hstep) he
  exact ⟨message, he⟩

/-- Writing succeeds and puts the records into the file, or fails and leaves it. -/
theorem perform_course (a : Attempt path) (hs : s.path = path) :
    (s.perform a.course).1 = none ∧ (s.perform a.course).2.content? = some (encode s.records) ∨
      (∃ e, (s.perform a.course).1 = some e) ∧ (s.perform a.course).2.content? = s.content? := by
  rw [Attempt.course]
  cases a.mishap with
  | some m =>
    obtain ⟨⟨message, hfails⟩, hcontent⟩ := perform_mishap (m := m) hs
    exact .inr ⟨⟨_, hfails⟩, hcontent⟩
  | none =>
    have hcontent := content?_perform_writing (s := s)
    dsimp only
    cases he : (s.perform writing).1 with
    | none => exact .inl ⟨rfl, hcontent.trans (if_pos he)⟩
    | some e => exact .inr ⟨⟨e, rfl⟩, hcontent.trans (if_neg (he ▸ nofun))⟩

/-- The reply to a change, from what writing has come to. -/
def Tells (outcome : Option ServiceError) (c : Call) : Prop :=
  (Saves c ↔ outcome = none) ∧ ∀ message, outcome = some (.storage message) → c.reply.isWritten = false

theorem tells_stored {x : Mapping} : Tells (s.perform steps).1 ⟨op, .stored (s.settle steps x).1⟩ := by
  rw [settle_fst]
  cases (s.perform steps).1 <;> simp [Tells, Saves, Reply.isWritten]

theorem tells_used {n : Nat} : Tells (s.perform steps).1 ⟨op, .used (s.settle steps n).1⟩ := by
  rw [settle_fst]
  cases (s.perform steps).1 <;> simp +contextual [Tells, Saves, Reply.isWritten]

/-- An operation changes the records and has them written, or it changes nothing. -/
theorem attempt_cases (s : FileStore) (a : Attempt path) :
    (∃ rs, Tells (perform { s with records := rs } a.course).1 (attempt s a).1 ∧
      (attempt s a).2 = (perform { s with records := rs } a.course).2) ∨
    ¬ a.operation.Changes s.records ∧ ¬ Saves (attempt s a).1 ∧ (attempt s a).2 = s := by
  obtain ⟨op, mishap⟩ := a
  cases op with
  | upsert m => exact .inl ⟨(s.records.upsert m).2, tells_stored, settle_snd⟩
  | recordUsage id now =>
    cases huse : s.records.use? id now with
    | some result =>
      refine .inl ⟨result.2, ?_⟩
      simp only [attempt, Memory.perform, recordUsage_of_some huse]
      exact ⟨tells_used, settle_snd⟩
    | none =>
      refine .inr ⟨Records.use?_eq_none_iff.mp huse, ?_⟩
      simp only [attempt, Memory.perform, recordUsage_of_none huse, Saves, not_false_eq_true, and_self]
  | search q => exact .inr ⟨id, id, rfl⟩
  | get i => exact .inr ⟨id, id, rfl⟩
  | count => exact .inr ⟨id, id, rfl⟩

theorem path_attempt : (attempt s a).2.path = s.path := by
  rcases attempt_cases s a with ⟨rs, -, h⟩ | ⟨-, -, h⟩
  · rw [h, path_perform]
  · rw [h]

/-- A change that could be written is in the file with all that the store shows. Any other call leaves the file. -/
theorem content?_attempt (a : Attempt path) (hs : s.path = path) :
    Saves (attempt s a).1 ∧ (attempt s a).2.content? = some (encode (attempt s a).2.records) ∨
      ¬ Saves (attempt s a).1 ∧ (attempt s a).2.content? = s.content? := by
  rcases attempt_cases s a with ⟨rs, htells, h⟩ | ⟨-, hidle, h⟩
  · rw [htells.1, h, records_perform]
    rcases perform_course (s := { s with records := rs }) a hs with ⟨houtcome, hcontent⟩ | ⟨⟨e, houtcome⟩, hcontent⟩
    · exact .inl ⟨houtcome, hcontent⟩
    · exact .inr ⟨houtcome ▸ nofun, hcontent⟩
  · exact .inr ⟨hidle, congrArg content? h⟩

/-- A change with a mishap fails. -/
theorem isWritten_mishap {op : Operation} (hs : s.path = path) (hop : op.Changes s.records) :
    (attempt s ⟨op, some m⟩).1.reply.isWritten = false := by
  rcases attempt_cases s ⟨op, some m⟩ with ⟨rs, htells, -⟩ | ⟨hidle, -⟩
  · obtain ⟨⟨message, hfails⟩, -⟩ := perform_mishap (s := { s with records := rs }) (m := m) hs
    exact htells.2 message hfails
  · exact absurd hop hidle

theorem path_attempts : (follow attempt s as).2.path = s.path := by
  induction as using List.reverseRecOn with
  | nil => rfl
  | append_singleton as a ih => rw [follow_concat, path_attempt, ih]

/-- The file holds what the store showed when a change could last be written. -/
theorem content?_attempts (hs : s.path = path) : ∃ saved lost, as = saved ++ lost ∧
    (∀ c ∈ (follow attempt (follow attempt s saved).2 lost).1, ¬ Saves c) ∧
    (follow attempt s as).2.content? =
      if saved = [] then s.content? else some (encode (follow attempt s saved).2.records) := by
  induction as using List.reverseRecOn with
  | nil => exact ⟨[], [], rfl, List.forall_mem_nil _, rfl⟩
  | append_singleton as a ih =>
    obtain ⟨saved, lost, rfl, hlost, hcontent⟩ := ih
    rcases content?_attempt a (path_attempts.trans hs : (follow attempt s (saved ++ lost)).2.path = path) with
      ⟨hsaves, hnext⟩ | ⟨hsaves, hnext⟩
    · refine ⟨saved ++ lost ++ [a], [], (List.append_nil _).symm, List.forall_mem_nil _, ?_⟩
      rw [if_neg (by simp), follow_concat]
      exact hnext
    · refine ⟨saved, lost ++ [a], List.append_assoc .., ?_, ?_⟩
      · rw [follow_concat]
        simp only [List.mem_append, List.mem_singleton]
        rintro c (hc | rfl)
        · exact hlost c hc
        · rwa [follow_append] at hsaves
      · rw [follow_concat]
        exact hnext.trans hcontent

/-- Whatever goes wrong, and whenever: the store shows all changes, also those that fail because they cannot be
written, while the file holds them up to the last one that could be. -/
theorem store_ahead_of_file (s : FileStore) (as : List (Attempt s.path)) :
    let s' := (follow attempt s as).2
    s'.records = (Records.memory.run id s.records (as.map Attempt.operation)).2 ∧
    (∃ saved lost, as = saved ++ lost ∧
      (∀ c ∈ (follow attempt (follow attempt s saved).2 lost).1, ¬ Saves c) ∧
      s'.content? = if saved = [] then s.content? else some (encode (follow attempt s saved).2.records)) ∧
    ∀ (op : Operation) (m : Mishap s.path), op.Changes s'.records →
      (attempt s' ⟨op, some m⟩).1.reply.isWritten = false ∧
      (attempt s' ⟨op, some m⟩).2.records = (Records.memory.perform id s'.records op).2 ∧
      (attempt s' ⟨op, some m⟩).2.content? = s'.content? := by
  refine ⟨records_attempts, content?_attempts rfl, fun op m hop => ?_⟩
  have hpath : (follow attempt s as).2.path = s.path := path_attempts
  have hfails := isWritten_mishap (m := m) hpath hop
  refine ⟨hfails, records_attempt, ?_⟩
  rcases content?_attempt ⟨op, some m⟩ hpath with ⟨hsaves, -⟩ | ⟨-, hcontent⟩
  · exact absurd hsaves.isWritten (by simp [hfails])
  · exact hcontent

end FileStore

/-- A height that was answered in a context. -/
def Memory.height (mark : Nat) (context : String) (value : Int) : Mapping where
  id := ⟨mark⟩
  workflow := "table"
  parameter := "height"
  value := .int value
  context
  embedding := [1.0]
  created := ⟨"2025-01-01T00:00:00Z"⟩

namespace FileStore

/-- A directory is in the way of what is to be written beside the file. -/
def obstructed : FileTree := [(["memory.json.tmp"], .directory)]

/-- The answer is refused and yet shown, until the file is opened again. -/
theorem shown_but_unwritten : ∃ s s', FileStore.open obstructed "memory.json" = .ok s ∧ s.records = [] ∧
    FileStore.memory.upsert s (height 1 "a tall table" 2) =
      (.error (.storage "Failed to write memory.json.tmp: Is a directory (os error 21)"), s') ∧
    s'.records = [height 1 "a tall table" 2] ∧ FileStore.load s'.files s'.path = .ok [] := by
  refine ⟨⟨"memory.json", [], obstructed⟩, ⟨"memory.json", [height 1 "a tall table" 2], obstructed⟩, ?_⟩
  decide +kernel

end FileStore

end GoalCompiler
