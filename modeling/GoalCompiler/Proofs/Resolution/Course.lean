import GoalCompiler.Proofs.Resolution.Turns

/-! The course of a resolution. Each turn keeps what is settled and adds what it comes to, so that after all turns
a value is either the parameter's own or a reply that was meant for it. A modifier therefore counts unless a reply
about an earlier parameter was meant for its parameter; and a parameter is settled or left open, once, unless what
was replied about it, and about all others, was meant for others. -/
namespace GoalCompiler

variable {σ : Type}

/-! ### What is recorded -/

namespace Resolution

variable {r : Resolution} {n name : String} {b : Binding} {entries : List (String × Json)} {source : Source}

theorem isSettled_iff : r.isSettled n ↔ ∃ b, Dict.get? r.bindings n = some b ∧ b.source ≠ .default := by
  unfold isSettled Bindings.source?
  cases Dict.get? r.bindings n with
  | none => simp
  | some b =>
    obtain ⟨value, source⟩ := b
    cases source <;> simp

theorem isSettled_congr {r' : Resolution} (h : Dict.get? r'.bindings n = Dict.get? r.bindings n) :
    r'.isSettled n = r.isSettled n := by
  simp only [isSettled, Bindings.source?, h]

theorem get?_record_of_ne (h : n ≠ name) :
    Dict.get? (r.record name b).bindings n = Dict.get? r.bindings n := by
  unfold record
  split
  · rfl
  · exact Dict.get?_insert_of_ne _ _ h

theorem get?_record_of_settled (h : r.isSettled n) :
    Dict.get? (r.record name b).bindings n = Dict.get? r.bindings n := by
  by_cases hn : n = name
  · subst hn
    rw [record, if_pos h]
  · exact get?_record_of_ne hn

theorem get?_record_self (h : ¬ r.isSettled name) : Dict.get? (r.record name b).bindings name = some b := by
  rw [record, if_neg h]
  exact Dict.get?_insert_self _ _ _

/-- Values recorded one after another. -/
def recordAll (r : Resolution) (entries : List (String × Json)) (source : Source) : Resolution :=
  entries.foldl (fun r (name, value) => r.record name ⟨value, source⟩) r

@[simp] theorem unresolved_recordAll : (r.recordAll entries source).unresolved = r.unresolved := by
  induction entries generalizing r with
  | nil => rfl
  | cons e rest ih =>
    have hrecord : (r.record e.1 ⟨e.2, source⟩).unresolved = r.unresolved := by
      unfold record
      split <;> rfl
    exact ih.trans hrecord

theorem get?_recordAll_of_settled (h : r.isSettled n) :
    Dict.get? (r.recordAll entries source).bindings n = Dict.get? r.bindings n := by
  induction entries generalizing r with
  | nil => rfl
  | cons e rest ih =>
    have hrecord : Dict.get? (r.record e.1 ⟨e.2, source⟩).bindings n = Dict.get? r.bindings n :=
      get?_record_of_settled h
    exact (ih (isSettled_congr hrecord ▸ h)).trans hrecord

/-- What was not settled takes the first value that there is for it. -/
theorem get?_recordAll (hsource : source ≠ .default) (h : ¬ r.isSettled n) :
    Dict.get? (r.recordAll entries source).bindings n =
      ((Dict.get? entries n).map fun v => ⟨v, source⟩).or (Dict.get? r.bindings n) := by
  induction entries generalizing r with
  | nil => rfl
  | cons e rest ih =>
    have hstep : r.recordAll (e :: rest) source = (r.record e.1 ⟨e.2, source⟩).recordAll rest source := rfl
    rw [hstep]
    by_cases hn : n = e.1
    · subst hn
      have hself := get?_record_self (b := ⟨e.2, source⟩) h
      rw [get?_recordAll_of_settled (isSettled_iff.mpr ⟨_, hself, hsource⟩), hself]
      simp [Dict.get?]
    · have hrecord := get?_record_of_ne (r := r) (b := ⟨e.2, source⟩) hn
      rw [ih (isSettled_congr hrecord ▸ h), hrecord, Dict.get?, if_neg hn]

theorem contains_recordAll (h : Dict.contains r.bindings n) :
    Dict.contains (r.recordAll entries source).bindings n := by
  induction entries generalizing r with
  | nil => exact h
  | cons e rest ih =>
    suffices hrecord : Dict.contains (r.record e.1 ⟨e.2, source⟩).bindings n from ih hrecord
    by_cases hn : n = e.1
    · subst hn
      by_cases hs : r.isSettled e.1
      · rw [record, if_pos hs]
        exact h
      · rw [Dict.contains, get?_record_self hs]
        rfl
    · rwa [Dict.contains, get?_record_of_ne hn]

theorem add_values {given : Bindings} :
    r.add given (.values entries source) =
      r.recordAll (entries.filter fun e => !given.isExplicit e.1) source := rfl

end Resolution

/-- The parameter is neither given by the caller nor computed. -/
def Parameter.Free (p : Parameter) (given : Bindings) : Prop := ¬ p.isComputed ∧ ¬ given.isExplicit p.name

/-! ### One turn -/

/-- What a turn of `p`, in which `ys` was asked and replied, may do to a resolution. -/
structure Resolution.Step (w : Workflow) (given : Bindings) (handler : Option Handler) (p : Parameter)
    (ys : List (Inquiry × Reply)) (r r' : Resolution) : Prop where
  kept : ∀ n, r.isSettled n → Dict.get? r'.bindings n = Dict.get? r.bindings n
  grown : ∀ n, Dict.contains r.bindings n → Dict.contains r'.bindings n
  met : ∀ t v, ¬ given.isExplicit t.name → Meant w ys [p] t v → r'.isSettled t.name
  origin : ∀ n b, Dict.get? r'.bindings n = some b → Dict.get? r.bindings n = some b ∨
    (b.source = .clarified ∧ ∃ t ∈ w.parameters, t.name = n ∧ Meant w ys [p] t b.value) ∨
    (b.source ≠ .clarified ∧ n = p.name ∧ ∀ context v, ¬ Replied ys p context v)
  said : p.Free given → Dict.contains r'.bindings p.name ∨ p.name ∈ r'.unresolved.map Unresolved.name ∨
    ∃ context v, Replied ys p context v
  leftOpen : r'.unresolved = r.unresolved ∨ ∃ u, u.name = p.name ∧ handler = none ∧ ys = [] ∧
    r' = { r with unresolved := r.unresolved ++ [u] }

namespace Resolution.Step

variable {w : Workflow} {given : Bindings} {handler : Option Handler} {p : Parameter}
  {ys : List (Inquiry × Reply)} {r : Resolution}

theorem not_meant (h : ∀ context v, ¬ Replied ys p context v) {t : Parameter} {v : Json} :
    ¬ Meant w ys [p] t v := by
  rintro ⟨q, hq, context, u, hreplied, -⟩
  obtain rfl := List.mem_singleton.mp hq
  exact h context u hreplied

/-- A parameter is passed over when it is fixed or settled. -/
theorem skip (h : p.Free given → r.isSettled p.name) : Step w given handler p [] r r where
  kept _ _ := rfl
  grown _ := id
  met _ _ _ hmeant := absurd hmeant (not_meant (by simp [Replied]))
  origin _ _ := .inl
  said hfree := by
    obtain ⟨b, hb, -⟩ := isSettled_iff.mp (h hfree)
    exact .inl (by simp [Dict.contains, hb])
  leftOpen := .inl rfl

/-- A value for the parameter alone. -/
theorem own {v : Json} {source : Source} (hfree : p.Free given) (hnew : ¬ r.isSettled p.name)
    (hsource : source ≠ .clarified) (hnone : ∀ context u, ¬ Replied ys p context u) :
    Step w given handler p ys r (r.add given (.values [(p.name, v)] source)) := by
  have hadd : r.add given (.values [(p.name, v)] source) = r.recordAll [(p.name, v)] source := by
    simp [add_values, hfree.2]
  have hself : Dict.get? (r.recordAll [(p.name, v)] source).bindings p.name = some ⟨v, source⟩ :=
    get?_record_self hnew
  rw [hadd]
  refine ⟨fun n hn => get?_recordAll_of_settled hn, fun n hn => contains_recordAll hn,
    fun _ _ _ hmeant => absurd hmeant (not_meant hnone), fun n b hb => ?_, fun _ => .inl ?_,
    .inl unresolved_recordAll⟩
  · by_cases hn : n = p.name
    · subst hn
      obtain rfl := Option.some.inj (hself.symm.trans hb)
      exact .inr (.inr ⟨hsource, rfl, hnone⟩)
    · exact .inl ((get?_record_of_ne hn).symm.trans hb)
  · simp [Dict.contains, hself]

/-- A reply, for all that it is meant for. -/
theorem shared {context : String} {u : Json}
    (honly : ∀ context' u', Replied ys p context' u' ↔ context' = context ∧ u' = u) :
    Step w given handler p ys r (r.add given (.values (w.targetValues p.name context u) .clarified)) := by
  have hmeant : ∀ {t : Parameter} {v : Json}, Meant w ys [p] t v ↔
      t ∈ w.targets p.name context ∧ t.accept u = .ok v := by
    intro t v
    simp only [Meant, List.mem_singleton, exists_eq_left, honly]
    constructor
    · rintro ⟨_, _, ⟨rfl, rfl⟩, h⟩
      exact h
    · exact fun h => ⟨context, u, ⟨rfl, rfl⟩, h⟩
  obtain ⟨entries, hentries⟩ : ∃ entries, entries =
      (w.targetValues p.name context u).filter fun e => !given.isExplicit e.1 := ⟨_, rfl⟩
  have hget : ∀ n, ¬ r.isSettled n → Dict.get? (r.recordAll entries .clarified).bindings n =
      ((Dict.get? entries n).map fun v => ⟨v, .clarified⟩).or (Dict.get? r.bindings n) :=
    fun n h => get?_recordAll (by decide) h
  rw [add_values, ← hentries]
  refine ⟨fun n hn => get?_recordAll_of_settled hn, fun n hn => contains_recordAll hn, fun t v ht hv => ?_,
    fun n b hb => ?_, fun _ => .inr (.inr ⟨context, u, (honly _ _).mpr ⟨rfl, rfl⟩⟩), .inl unresolved_recordAll⟩
  · by_cases hs : r.isSettled t.name
    · exact isSettled_congr (get?_recordAll_of_settled hs) ▸ hs
    · obtain ⟨htarget, haccept⟩ := hmeant.mp hv
      have hmem : (t.name, v) ∈ entries := hentries ▸
        List.mem_filter.mpr ⟨Workflow.mem_targetValues.mpr ⟨t, htarget, rfl, haccept⟩, by simpa using ht⟩
      have hkey : t.name ∈ Dict.keys entries := List.mem_map_of_mem hmem
      obtain ⟨v', hv'⟩ := Option.isSome_iff_exists.mp (Dict.contains_iff.mpr hkey)
      exact isSettled_iff.mpr ⟨⟨v', .clarified⟩, by rw [hget _ hs, hv']; rfl, nofun⟩
  · by_cases hs : r.isSettled n
    · rw [get?_recordAll_of_settled hs] at hb
      exact .inl hb
    · rw [hget _ hs, Option.or_eq_some_iff] at hb
      rcases hb with hb | ⟨-, hb⟩
      · obtain ⟨v, hv, rfl⟩ := Option.map_eq_some_iff.mp hb
        obtain ⟨t, ht, hname, haccept⟩ :=
          Workflow.mem_targetValues.mp (List.mem_of_mem_filter (hentries ▸ Dict.mem_of_get? hv))
        exact .inr (.inl ⟨rfl, t, Workflow.mem_of_targets ht, hname, hmeant.mpr ⟨ht, haccept⟩⟩)
      · exact .inl hb

/-- A parameter left open, for want of anybody to ask. -/
theorem unsettled {u : Unresolved} (hname : u.name = p.name) (hhandler : handler = none) (hys : ys = []) :
    Step w given handler p ys r (r.add given (.unsettled u)) where
  kept _ _ := rfl
  grown _ := id
  met _ _ _ hmeant := absurd hmeant (not_meant (by simp [Replied, hys]))
  origin _ _ := .inl
  said _ := .inr (.inl (by simp [add, hname]))
  leftOpen := .inr ⟨u, hname, hhandler, hys, rfl⟩

theorem of_turn {c : Case} {env : Services σ} {a : Settlement} {s s' : Session σ}
    (hfree : c.parameter.Free given) (hnew : ¬ r.isSettled c.parameter.name) (h : c.Turn env (env.exchanges s s') a) :
    Step c.workflow given env.handler c.parameter (env.exchanges s s') r (r.add given a) := by
  cases h with
  | own hsource hnone => exact own hfree hnew hsource hnone
  | shared honly => exact shared honly
  | unsettled hhandler => exact unsettled rfl hhandler (Services.exchanges_of_no_handler hhandler)

end Resolution.Step

/-! ### All turns -/

/-- Where a resolution has come to once the parameters `seen` had their turns. -/
structure Course (r : Resolver σ) (w : Workflow) (given : Bindings) (start : Session σ) (seen : List Parameter)
    (done : Resolution) (s : Session σ) : Prop where
  asks : r.services.Asks start s seen
  met : ∀ t v, ¬ given.isExplicit t.name → Meant w (r.services.exchanges start s) seen t v →
    done.isSettled t.name
  origin : ∀ n b, Dict.get? done.bindings n = some b →
    (b.source = .clarified ∧
      ∃ t ∈ w.parameters, t.name = n ∧ Meant w (r.services.exchanges start s) seen t b.value) ∨
    (b.source ≠ .clarified ∧
      ∃ q ∈ seen, q.name = n ∧ ∀ context v, ¬ Replied (r.services.exchanges start s) q context v)
  said : ∀ p ∈ seen, p.Free given → Dict.contains done.bindings p.name ∨
    p.name ∈ done.unresolved.map Unresolved.name ∨
    ∃ context v, Replied (r.services.exchanges start s) p context v
  once : (done.unresolved.map Unresolved.name).Nodup
  unbound : ∀ u ∈ done.unresolved, r.services.handler = none ∧ u.name ∈ seen.map Parameter.name ∧
    ¬ Dict.contains done.bindings u.name

namespace Course

variable {r : Resolver σ} {w : Workflow} {given : Bindings} {start s s' : Session σ} {seen : List Parameter}
  {done done' : Resolution} {p : Parameter}

theorem initial : Course r w given s [] {} s where
  asks := .of_asked_eq rfl
  met _ _ _ h := by simp [Meant] at h
  origin _ _ h := by simp [Dict.get?] at h
  said _ h := by simp at h
  once := List.nodup_nil
  unbound _ h := by simp at h

/-- What is bound at a parameter's turn is a reply that was meant for it. -/
theorem clarified_of_get? (h : Course r w given start seen done s) (hp : ∀ q ∈ seen, q.name ≠ p.name)
    {b : Binding} (hb : Dict.get? done.bindings p.name = some b) : b.source = .clarified ∧
      ∃ t ∈ w.parameters, t.name = p.name ∧ Meant w (r.services.exchanges start s) seen t b.value := by
  rcases h.origin _ _ hb with h | ⟨-, q, hq, hname, -⟩
  · exact h
  · exact absurd hname (hp q hq)

/-- What is bound is not left open. -/
theorem not_mem_unresolved (h : Course r w given start seen done s) {n : String}
    (hn : Dict.contains done.bindings n) : n ∉ done.unresolved.map Unresolved.name := by
  intro hmem
  obtain ⟨u, hu, rfl⟩ := List.mem_map.mp hmem
  exact (h.unbound u hu).2.2 hn

/-- A reply that is meant for a parameter leaves it bound. -/
theorem get?_of_meant (h : Course r w given start seen done s) (hp : ¬ given.isExplicit p.name) {v : Json}
    (hv : Meant w (r.services.exchanges start s) seen p v) :
    ∃ b, Dict.get? done.bindings p.name = some b := by
  obtain ⟨b, hb, -⟩ := Resolution.isSettled_iff.mp (h.met p v hp hv)
  exact ⟨b, hb⟩

/-- What is bound to a parameter after a reply about it is a reply that was meant for it. -/
theorem clarified_of_replied (h : Course r w given start w.parameters done s)
    (hd : (w.parameters.map Parameter.name).Nodup) (hp : p ∈ w.parameters) {context : String} {v : Json}
    (hreplied : Replied (r.services.exchanges start s) p context v) {b : Binding}
    (hb : Dict.get? done.bindings p.name = some b) :
    b.source = .clarified ∧ Meant w (r.services.exchanges start s) w.parameters p b.value := by
  rcases h.origin _ _ hb with ⟨hsource, t, ht, hname, hv⟩ | ⟨-, q, hq, hname, hnone⟩
  · obtain rfl := Workflow.eq_of_name hd ht hp hname
    exact ⟨hsource, hv⟩
  · obtain rfl := Workflow.eq_of_name hd hq hp hname
    exact absurd hreplied (hnone context v)

/-- Where there is nobody to ask, nothing but its own turn binds a name. -/
theorem unbound_step
    (hstep : Resolution.Step w given r.services.handler p (r.services.exchanges s s') done done')
    (hhandler : r.services.handler = none) {n : String} (hn : n ≠ p.name)
    (hcontains : ¬ Dict.contains done.bindings n) : ¬ Dict.contains done'.bindings n := by
  intro hcontains'
  obtain ⟨b, hb⟩ := Option.isSome_iff_exists.mp hcontains'
  rcases hstep.origin n b hb with hb | ⟨-, t, -, -, hv⟩ | ⟨-, hn', -⟩
  · exact hcontains (by simp [Dict.contains, hb])
  · exact hv.handler_ne hhandler
  · exact hn hn'

section Step

variable (h : Course r w given start seen done s) (hp : ∀ q ∈ seen, q.name ≠ p.name)
  (hasks : r.services.Asks s s' [p])
include h hp hasks

theorem meant_step {t : Parameter} {v : Json} :
    Meant w (r.services.exchanges start s') (seen ++ [p]) t v ↔
      Meant w (r.services.exchanges start s) seen t v ∨ Meant w (r.services.exchanges s s') [p] t v := by
  rw [Services.exchanges_trans h.asks.since hasks.since]
  exact meant_append h.asks.about hasks.about fun q hq q' hq' => List.mem_singleton.mp hq' ▸ hp q hq

theorem replied_step_of_seen {q : Parameter} (hq : q ∈ seen) {context : String} {v : Json} :
    Replied (r.services.exchanges start s') q context v ↔
      Replied (r.services.exchanges start s) q context v := by
  rw [Services.exchanges_trans h.asks.since hasks.since]
  exact replied_append_of_about hasks.about fun q' hq' => List.mem_singleton.mp hq' ▸ (hp q hq).symm

theorem replied_step_self {context : String} {v : Json} :
    Replied (r.services.exchanges start s') p context v ↔ Replied (r.services.exchanges s s') p context v := by
  rw [Services.exchanges_trans h.asks.since hasks.since, replied_append, or_iff_right]
  exact h.asks.about.not_replied hp

variable (hstep : Resolution.Step w given r.services.handler p (r.services.exchanges s s') done done')
include hstep

theorem origin_step {n : String} {b : Binding} (hb : Dict.get? done'.bindings n = some b) :
    (b.source = .clarified ∧
      ∃ t ∈ w.parameters, t.name = n ∧ Meant w (r.services.exchanges start s') (seen ++ [p]) t b.value) ∨
    (b.source ≠ .clarified ∧ ∃ q ∈ seen ++ [p], q.name = n ∧
      ∀ context v, ¬ Replied (r.services.exchanges start s') q context v) := by
  rcases hstep.origin n b hb with hb | ⟨hsource, t, ht, hn, hv⟩ | ⟨hsource, rfl, hnone⟩
  · rcases h.origin n b hb with ⟨hsource, t, ht, hn, hv⟩ | ⟨hsource, q, hq, hn, hnone⟩
    · exact .inl ⟨hsource, t, ht, hn, (meant_step h hp hasks).mpr (.inl hv)⟩
    · exact .inr ⟨hsource, q, List.mem_append_left _ hq, hn, fun context v =>
        mt (replied_step_of_seen h hp hasks hq).mp (hnone context v)⟩
  · exact .inl ⟨hsource, t, ht, hn, (meant_step h hp hasks).mpr (.inr hv)⟩
  · exact .inr ⟨hsource, p, by simp, rfl, fun context v =>
      mt (replied_step_self h hp hasks).mp (hnone context v)⟩

theorem said_step {q : Parameter} (hq : q ∈ seen ++ [p]) (hfree : q.Free given) :
    Dict.contains done'.bindings q.name ∨ q.name ∈ done'.unresolved.map Unresolved.name ∨
      ∃ context v, Replied (r.services.exchanges start s') q context v := by
  rcases List.mem_append.mp hq with hq | hq
  · rcases h.said q hq hfree with hs | hs | ⟨context, v, hs⟩
    · exact .inl (hstep.grown _ hs)
    · refine .inr (.inl ?_)
      rcases hstep.leftOpen with heq | ⟨u, -, -, -, rfl⟩
      · rwa [heq]
      · rw [List.map_append]
        exact List.mem_append_left _ hs
    · exact .inr (.inr ⟨context, v, (replied_step_of_seen h hp hasks hq).mpr hs⟩)
  · obtain rfl := List.mem_singleton.mp hq
    rcases hstep.said hfree with hs | hs | ⟨context, v, hs⟩
    · exact .inl hs
    · exact .inr (.inl hs)
    · exact .inr (.inr ⟨context, v, (replied_step_self h hp hasks).mpr hs⟩)

theorem step : Course r w given start (seen ++ [p]) done' s' := by
  have hname : ∀ u ∈ done.unresolved, u.name ≠ p.name := by
    intro u hu heq
    obtain ⟨q, hq, hqu⟩ := List.mem_map.mp (h.unbound u hu).2.1
    exact hp q hq (hqu.trans heq)
  have hkept : ∀ u ∈ done.unresolved, r.services.handler = none ∧
      u.name ∈ (seen ++ [p]).map Parameter.name ∧ ¬ Dict.contains done'.bindings u.name := by
    intro u hu
    obtain ⟨hhandler, hseen, hcontains⟩ := h.unbound u hu
    exact ⟨hhandler, by rw [List.map_append]; exact List.mem_append_left _ hseen,
      unbound_step hstep hhandler (hname u hu) hcontains⟩
  refine ⟨h.asks.trans hasks, fun t v ht hv => ?_, fun _ _ => origin_step h hp hasks hstep,
    fun _ => said_step h hp hasks hstep, ?_, ?_⟩
  · rcases (meant_step h hp hasks).mp hv with hv | hv
    · have hs := h.met t v ht hv
      exact Resolution.isSettled_congr (hstep.kept _ hs) ▸ hs
    · exact hstep.met t v ht hv
  · rcases hstep.leftOpen with heq | ⟨u, hu, -, -, rfl⟩
    · rw [heq]
      exact h.once
    · rw [List.map_append, List.nodup_append]
      refine ⟨h.once, List.nodup_singleton _, fun n hn m hm => ?_⟩
      obtain ⟨u', hu', rfl⟩ := List.mem_map.mp hn
      obtain rfl := List.mem_singleton.mp hm
      rw [hu]
      exact hname u' hu'
  · rcases hstep.leftOpen with heq | ⟨u, hu, hhandler, -, rfl⟩
    · rw [heq]
      exact hkept
    · refine List.forall_mem_append.mpr ⟨hkept, List.forall_mem_singleton.mpr ⟨hhandler, by simp [hu], ?_⟩⟩
      intro hcontains
      obtain ⟨b, hb⟩ := Option.isSome_iff_exists.mp hcontains
      obtain ⟨-, t, -, -, hv⟩ := h.clarified_of_get? hp (hu ▸ hb)
      exact hv.handler_ne hhandler

end Step

end Course

/-! ### A whole resolution -/

namespace Resolver

variable {r : Resolver σ} {w : Workflow} {goal : Goal} {assignments : Dict Assignment} {given : Bindings}
  {start s s' : Session σ} {done resolution : Resolution} {seen ps qs : List Parameter} {p : Parameter}

theorem resolveFrom_append : r.resolveFrom w goal assignments given done s (ps ++ qs) =
    match r.resolveFrom w goal assignments given done s ps with
    | (.error e, s) => (.error e, s)
    | (.ok done, s) => r.resolveFrom w goal assignments given done s qs := by
  induction ps generalizing done s with
  | nil => rfl
  | cons p rest ih =>
    rw [List.cons_append, resolveFrom, resolveFrom]
    split
    · exact ih
    · split
      · rfl
      · exact ih
      · exact ih

/-- A parameter's turn is a step: it is passed over, or takes the first answer of the tiers. -/
theorem resolveFrom_cons (htiers : r.tiers = Tier.standard)
    (h : r.resolveFrom w goal assignments given done s (p :: ps) = (.ok resolution, s')) :
    ∃ done₁ s₁, r.resolveFrom w goal assignments given done₁ s₁ ps = (.ok resolution, s') ∧
      r.services.Asks s s₁ [p] ∧
      Resolution.Step w given r.services.handler p (r.services.exchanges s s₁) done done₁ := by
  rw [resolveFrom] at h
  split at h
  · next hfixed =>
    refine ⟨done, s, h, .of_asked_eq rfl, ?_⟩
    rw [Services.exchanges_of_asked_eq rfl]
    refine .skip fun hfree => ?_
    simpa [hfree.1, hfree.2] using hfixed
  · next hopen =>
    simp only [Bool.or_eq_true, not_or, Bool.not_eq_true] at hopen
    obtain ⟨⟨hcomputed, hgiven⟩, hnew⟩ := hopen
    rw [htiers] at h
    split at h
    · cases (Prod.mk.inj h).1
    · next s₁ hanswer =>
      obtain ⟨a, ha, -⟩ := Case.turn_of_firstAnswer hanswer
      cases ha
    · next answer s₁ hanswer =>
      obtain ⟨a, ha, hasks, hturn⟩ := Case.turn_of_firstAnswer hanswer
      obtain rfl := Option.some.inj ha
      exact ⟨_, s₁, h, hasks, .of_turn ⟨by simp [hcomputed], by simp [hgiven]⟩ (by simp [hnew]) hturn⟩

theorem course_resolveFrom (htiers : r.tiers = Tier.standard) (hd : ((seen ++ ps).map Parameter.name).Nodup)
    (hcourse : Course r w given start seen done s)
    (h : r.resolveFrom w goal assignments given done s ps = (.ok resolution, s')) :
    Course r w given start (seen ++ ps) resolution s' := by
  induction ps generalizing seen done s with
  | nil =>
    obtain ⟨hok, rfl⟩ := Prod.mk.inj h
    obtain rfl := Except.ok.inj hok
    rwa [List.append_nil]
  | cons p rest ih =>
    have hp : ∀ q ∈ seen, q.name ≠ p.name := by
      rw [List.map_append, List.nodup_append] at hd
      exact fun q hq => hd.2.2 _ (List.mem_map_of_mem hq) _ (by simp)
    obtain ⟨done₁, s₁, h, hasks, hstep⟩ := resolveFrom_cons htiers h
    rw [List.append_cons] at hd ⊢
    exact ih hd (hcourse.step hp hasks hstep) h

theorem course_of_resolveFrom (htiers : r.tiers = Tier.standard) (hd : (ps.map Parameter.name).Nodup)
    (h : r.resolveFrom w goal assignments given {} s ps = (.ok resolution, s')) :
    Course r w given s ps resolution s' :=
  course_resolveFrom htiers (by rwa [List.nil_append]) .initial h

/-- The handler is asked about nothing but the parameters that have their turns. -/
theorem asks_resolveFrom (htiers : r.tiers = Tier.standard)
    (h : r.resolveFrom w goal assignments given done s ps = (.ok resolution, s')) :
    r.services.Asks s s' ps := by
  induction ps generalizing done s with
  | nil =>
    obtain ⟨-, rfl⟩ := Prod.mk.inj h
    exact .of_asked_eq rfl
  | cons p rest ih =>
    obtain ⟨done₁, s₁, h, hasks, -⟩ := resolveFrom_cons htiers h
    exact hasks.trans (ih h)

/-- What is settled stays. -/
theorem kept_resolveFrom (htiers : r.tiers = Tier.standard) {n : String} (hn : done.isSettled n)
    (h : r.resolveFrom w goal assignments given done s ps = (.ok resolution, s')) :
    Dict.get? resolution.bindings n = Dict.get? done.bindings n := by
  induction ps generalizing done s with
  | nil =>
    obtain ⟨hok, -⟩ := Prod.mk.inj h
    obtain rfl := Except.ok.inj hok
    rfl
  | cons p rest ih =>
    obtain ⟨done₁, s₁, h, -, hstep⟩ := resolveFrom_cons htiers h
    have hkept := hstep.kept n hn
    exact (ih (Resolution.isSettled_congr hkept ▸ hn) h).trans hkept

theorem resolve_eq_ok {outcomes : List ModifierOutcome}
    (houtcomes : w.modifierOutcomes goal r.services.embedder r.settings.word = .ok outcomes) :
    r.resolve w goal given s =
      r.resolveFrom w goal (w.assignments (outcomes.filterMap ModifierOutcome.match?)) given {} s
        w.parameters := by
  rw [resolve, houtcomes]

/-- A resolution up to a parameter's turn, and from it on. What is replied later was not about those before. -/
theorem resolveFrom_split (htiers : r.tiers = Tier.standard) (hd : ((ps ++ qs).map Parameter.name).Nodup)
    (h : r.resolveFrom w goal assignments given {} s (ps ++ qs) = (.ok resolution, s')) :
    ∃ mid s₁, Course r w given s ps mid s₁ ∧
      r.resolveFrom w goal assignments given mid s₁ qs = (.ok resolution, s') ∧
      ∀ {t v}, Meant w (r.services.exchanges s s') ps t v ↔ Meant w (r.services.exchanges s s₁) ps t v := by
  rw [List.map_append, List.nodup_append] at hd
  rw [resolveFrom_append] at h
  split at h
  · cases (Prod.mk.inj h).1
  · next mid s₁ hmid =>
    have hcourse : Course r w given s ps mid s₁ := course_of_resolveFrom htiers hd.1 hmid
    have hrest := asks_resolveFrom htiers h
    refine ⟨mid, s₁, hcourse, h, fun {t v} => ?_⟩
    rw [Services.exchanges_trans hcourse.asks.since hrest.since]
    exact meant_append_of_about hrest.about fun q hq q' hq' =>
      hd.2.2 _ (List.mem_map_of_mem hq) _ (List.mem_map_of_mem hq')

/-- A modifier of the goal counts for its parameter, unless a reply about a parameter declared before it was meant
for it: then the reply counts. -/
theorem modifier_counts_iff {before after : List Parameter} {outcomes : List ModifierOutcome} {a : Assignment}
    (htiers : r.tiers = Tier.standard) (hd : (w.parameters.map Parameter.name).Nodup)
    (hw : w.parameters = before ++ p :: after) (hfree : p.Free given)
    (houtcomes : w.modifierOutcomes goal r.services.embedder r.settings.word = .ok outcomes)
    (ha : Dict.get? (w.assignments (outcomes.filterMap ModifierOutcome.match?)) p.name = some a)
    (h : r.resolve w goal given s = (.ok resolution, s')) :
    (Dict.get? resolution.bindings p.name = some ⟨a.value, .modifier⟩ ↔
      ¬ ∃ v, Meant w (r.services.exchanges s s') before p v) ∧
    ((∃ v, Meant w (r.services.exchanges s s') before p v) →
      ∃ v, Meant w (r.services.exchanges s s') before p v ∧
        Dict.get? resolution.bindings p.name = some ⟨v, .clarified⟩) ∧
    p.name ∉ resolution.unresolved.map Unresolved.name := by
  rw [resolve_eq_ok houtcomes] at h
  have hopen : Dict.contains resolution.bindings p.name → p.name ∉ resolution.unresolved.map Unresolved.name :=
    fun hbinds => (course_of_resolveFrom htiers hd h).not_mem_unresolved hbinds
  rw [hw] at h
  obtain ⟨mid, s₁, hcourse, h, hmeant⟩ := resolveFrom_split htiers (hw ▸ hd) h
  by_cases hs : mid.isSettled p.name
  · -- a reply that was meant for the parameter came before the modifier
    have hbefore : ∀ q ∈ before, q.name ≠ p.name := by
      rw [hw, List.map_append, List.nodup_append] at hd
      exact fun q hq => hd.2.2 _ (List.mem_map_of_mem hq) _ (by simp)
    obtain ⟨b, hb, -⟩ := Resolution.isSettled_iff.mp hs
    obtain ⟨hsource, t, ht, hname, hv⟩ := hcourse.clarified_of_get? hbefore hb
    obtain rfl := Workflow.eq_of_name hd ht (by simp [hw]) hname
    have hclarified : Dict.get? resolution.bindings t.name = some ⟨b.value, .clarified⟩ := by
      rw [kept_resolveFrom htiers hs h, hb, ← hsource]
    refine ⟨⟨fun hmodifier => ?_, fun hnone => absurd ⟨_, hmeant.mpr hv⟩ hnone⟩,
      fun _ => ⟨b.value, hmeant.mpr hv, hclarified⟩, hopen (by simp [Dict.contains, hclarified])⟩
    exact absurd (hmodifier.symm.trans hclarified) (by simp)
  · have hnone : ¬ ∃ v, Meant w (r.services.exchanges s s') before p v := by
      rintro ⟨v, hv⟩
      exact hs (hcourse.met p v hfree.2 (hmeant.mp hv))
    rw [resolveFrom, if_neg (by simp [hfree.1, hfree.2, hs]), htiers, Case.firstAnswer_of_assigned ha] at h
    have hself : Dict.get? (mid.add given (.values [(p.name, a.value)] .modifier)).bindings p.name =
        some ⟨a.value, .modifier⟩ := by
      rw [Resolution.add_values, List.filter_cons_of_pos (by simp [hfree.2])]
      exact Resolution.get?_record_self hs
    have hget := (kept_resolveFrom htiers (Resolution.isSettled_iff.mpr ⟨_, hself, by simp⟩) h).trans hself
    exact ⟨iff_of_true hget hnone, fun hsome => absurd hsome hnone, hopen (by simp [Dict.contains, hget])⟩

/-- A table with a higher right leg where the goal says that it is tall. Its legs are asked for together. -/
def tallTable : Workflow where
  name := "table"
  parameters :=
    [{ name := "left_leg", type := .int, range := some (1.0, 2.0), default := .int 1, group := some "legs",
       hints := ["leg", "legs"] },
     { name := "right_leg", type := .int, default := .int 1, group := some "legs", hints := ["leg", "legs"] }]
  modifiers := [{ phrase := "tall", values := [("right_leg", .int 5)] }]

/-- A resolver that knows no vectors and remembers nothing, with the replies of its handler. -/
def interview (replies : List Reply) : Resolver Records where
  services :=
    { embedder := .oneByOne "none" "none" fun _ => .ok []
      memory := Records.memory
      handler := some (Handler.scripted replies)
      stamp := fun _ => ⟨⟨0⟩, ⟨""⟩⟩ }

/-- The goal as it is taken apart for that resolver. -/
def plainGoal (text : String) : Goal :=
  ⟨text, Text.tokens text, Text.phrases (Text.tokens text),
    (Text.phrases (Text.tokens text)).map fun _ => [], []⟩

theorem analyse_interview (replies : List Reply) (text : String) :
    Goal.analyse (interview replies).services.embedder text = .ok (plainGoal text) := by
  have hall : ∀ texts : List String,
      (interview replies).services.embedder.embedAll texts = .ok (texts.map fun _ => []) := by
    intro texts
    refine Outcome.mapM_eq_ok.mpr ?_
    rw [List.forall₂_map_right_iff]
    exact List.forall₂_same.mpr fun _ _ => rfl
  exact Outcome.bind_eq_ok.mpr ⟨_, hall _, rfl⟩

def evenLegs : Resolution where
  bindings := [("left_leg", ⟨.int 2, .clarified⟩), ("right_leg", ⟨.int 2, .clarified⟩)]

/-- One reply for both legs comes before the modifier, whose leg is declared after the one that is asked for. -/
theorem clarified_tallTable :
    Goal.analyse (interview [.value (.int 2)]).services.embedder "tall legs" = .ok (plainGoal "tall legs") ∧
    tallTable.modifierOutcomes (plainGoal "tall legs") (interview [.value (.int 2)]).services.embedder
      (interview [.value (.int 2)]).settings.word = .ok [.found ⟨0, 1, 1⟩] ∧
    Dict.get? (tallTable.assignments [⟨0, 1, 1⟩]) "right_leg" = some ⟨.int 5, "tall", 1, true⟩ ∧
    ((interview [.value (.int 2)]).resolve tallTable (plainGoal "tall legs") [] ⟨[], [], 0⟩).1 = .ok evenLegs ∧
    Dict.get? evenLegs.bindings "right_leg" ≠ some ⟨.int 5, .modifier⟩ :=
  ⟨analyse_interview _ _, by decide +kernel, by decide +kernel, by decide +kernel, by decide +kernel⟩

def unevenLegs : Resolution where
  bindings := [("left_leg", ⟨.int 2, .clarified⟩), ("right_leg", ⟨.int 5, .modifier⟩)]

/-- Where the goal speaks of the left leg only, the reply about it leaves the right one to the modifier. -/
theorem modifier_counts_tallTable :
    ((tallTable.parameters.map Parameter.name).Nodup ∧ tallTable.parameters[1].Free [] ∧
      tallTable.modifierOutcomes (plainGoal "tall left leg") (interview [.value (.int 2)]).services.embedder
        (interview [.value (.int 2)]).settings.word = .ok [.found ⟨0, 1, 1⟩] ∧
      Dict.get? (tallTable.assignments [⟨0, 1, 1⟩]) "right_leg" = some ⟨.int 5, "tall", 1, true⟩) ∧
    ∃ s', (interview [.value (.int 2)]).resolve tallTable (plainGoal "tall left leg") [] ⟨[], [], 0⟩ =
        (.ok unevenLegs, s') ∧
      ¬ (∃ v, Meant tallTable ((interview [.value (.int 2)]).services.exchanges ⟨[], [], 0⟩ s')
        [tallTable.parameters[0]] tallTable.parameters[1] v) ∧
      "right_leg" ∉ unevenLegs.unresolved.map Unresolved.name := by
  have hd : (tallTable.parameters.map Parameter.name).Nodup := by decide
  have hfree : tallTable.parameters[1].Free [] := ⟨by decide, by decide⟩
  have houtcomes : tallTable.modifierOutcomes (plainGoal "tall left leg")
      (interview [.value (.int 2)]).services.embedder (interview [.value (.int 2)]).settings.word =
        .ok [.found ⟨0, 1, 1⟩] := by decide +kernel
  have ha : Dict.get? (tallTable.assignments [⟨0, 1, 1⟩]) "right_leg" = some ⟨.int 5, "tall", 1, true⟩ := by
    decide +kernel
  have hok : ((interview [.value (.int 2)]).resolve tallTable (plainGoal "tall left leg") []
      ⟨[], [], 0⟩).1 = .ok unevenLegs := by decide +kernel
  have hw : tallTable.parameters = [tallTable.parameters[0]] ++ tallTable.parameters[1] :: [] := rfl
  obtain ⟨s', hresolve⟩ : ∃ s', (interview [.value (.int 2)]).resolve tallTable (plainGoal "tall left leg") []
      ⟨[], [], 0⟩ = (.ok unevenLegs, s') := ⟨_, Prod.ext hok rfl⟩
  obtain ⟨hcounts, -, hopen⟩ := modifier_counts_iff rfl hd hw hfree houtcomes ha hresolve
  exact ⟨⟨hd, hfree, houtcomes, ha⟩, s', hresolve, hcounts.mp (by decide +kernel), hopen⟩

/-- A parameter that is neither given nor computed is bound or left open, once, unless replies about it were meant
for others and no other reply was meant for it. -/
theorem bound_or_open_iff (htiers : r.tiers = Tier.standard) (hd : (w.parameters.map Parameter.name).Nodup)
    (h : r.resolve w goal given s = (.ok resolution, s')) :
    (resolution.unresolved.map Unresolved.name).Nodup ∧
    ∀ p ∈ w.parameters, p.Free given →
      (Xor (Dict.contains resolution.bindings p.name = true)
          (p.name ∈ resolution.unresolved.map Unresolved.name) ↔
        ((∃ context v, Replied (r.services.exchanges s s') p context v) →
          ∃ v, Meant w (r.services.exchanges s s') w.parameters p v)) ∧
      ∀ context v, Replied (r.services.exchanges s s') p context v → ¬ w.Elsewhere p context →
        ∃ u, Dict.get? resolution.bindings p.name = some ⟨u, .clarified⟩ := by
  unfold resolve at h
  split at h
  · cases (Prod.mk.inj h).1
  · have hcourse : Course r w given s w.parameters resolution s' := course_of_resolveFrom htiers hd h
    refine ⟨hcourse.once, fun p hp hfree => ?_⟩
    have hcontains : ∀ {b}, Dict.get? resolution.bindings p.name = some b →
        Dict.contains resolution.bindings p.name := by
      intro b hb
      simp [Dict.contains, hb]
    refine ⟨⟨fun hone => ?_, fun hmeant => ?_⟩, fun context v hreplied helsewhere => ?_⟩
    · rintro ⟨context, v, hreplied⟩
      rcases hone with ⟨hbinds, -⟩ | ⟨hmem, -⟩
      · obtain ⟨b, hb⟩ := Option.isSome_iff_exists.mp hbinds
        exact ⟨b.value, (hcourse.clarified_of_replied hd hp hreplied hb).2⟩
      · -- what is left open was not asked about
        obtain ⟨u, hu, -⟩ := List.mem_map.mp hmem
        exact absurd (hcourse.unbound u hu).1 hreplied.handler_ne
    · rcases hcourse.said p hp hfree with hbinds | hmem | hreplied
      · exact .inl ⟨hbinds, hcourse.not_mem_unresolved hbinds⟩
      · exact .inr ⟨hmem, fun hbinds => hcourse.not_mem_unresolved hbinds hmem⟩
      · obtain ⟨v, hv⟩ := hmeant hreplied
        obtain ⟨b, hb⟩ := hcourse.get?_of_meant hfree.2 hv
        exact .inl ⟨hcontains hb, hcourse.not_mem_unresolved (hcontains hb)⟩
    · have hmeant : Meant w (r.services.exchanges s s') w.parameters p v :=
        ⟨p, hp, context, v, hreplied, (Workflow.mem_targets_self hd hp).mpr helsewhere, hreplied.accept⟩
      obtain ⟨b, hb⟩ := hcourse.get?_of_meant hfree.2 hmeant
      exact ⟨b.value, by rw [hb, ← (hcourse.clarified_of_replied hd hp hreplied hb).1]⟩

def leftLegAlone : Resolution where
  bindings := [("left_leg", ⟨.int 2, .clarified⟩)]

/-- The goal speaks of the left leg. The right one is asked for too, but the reply is taken for the left one. -/
theorem neither_bound_nor_open_tallTable :
    Goal.analyse (interview [.value (.int 2), .value (.int 3)]).services.embedder "the left leg" =
      .ok (plainGoal "the left leg") ∧
    (tallTable.parameters.map Parameter.name).Nodup ∧ tallTable.parameters[1].Free [] ∧
    ((interview [.value (.int 2), .value (.int 3)]).resolve tallTable (plainGoal "the left leg") []
      ⟨[], [], 0⟩).1 = .ok leftLegAlone ∧
    ¬ Dict.contains leftLegAlone.bindings "right_leg" ∧
    "right_leg" ∉ leftLegAlone.unresolved.map Unresolved.name :=
  ⟨analyse_interview _ _, by decide, ⟨by decide, by decide⟩, by decide +kernel, by decide +kernel,
    by decide +kernel⟩

theorem bound_or_open_tallTable :
    (tallTable.parameters.map Parameter.name).Nodup ∧
    ∃ s', (interview [.value (.int 2), .value (.int 3)]).resolve tallTable (plainGoal "the left leg") []
        ⟨[], [], 0⟩ = (.ok leftLegAlone, s') ∧
      ((∃ context v, Replied ((interview [.value (.int 2), .value (.int 3)]).services.exchanges
          ⟨[], [], 0⟩ s') tallTable.parameters[1] context v) ∧
        ¬ ∃ v, Meant tallTable ((interview [.value (.int 2), .value (.int 3)]).services.exchanges
          ⟨[], [], 0⟩ s') tallTable.parameters tallTable.parameters[1] v) := by
  have hd : (tallTable.parameters.map Parameter.name).Nodup := by decide
  have hok : ((interview [.value (.int 2), .value (.int 3)]).resolve tallTable (plainGoal "the left leg") []
      ⟨[], [], 0⟩).1 = .ok leftLegAlone := by decide +kernel
  obtain ⟨s', hresolve⟩ : ∃ s', (interview [.value (.int 2), .value (.int 3)]).resolve tallTable
      (plainGoal "the left leg") [] ⟨[], [], 0⟩ = (.ok leftLegAlone, s') := ⟨_, Prod.ext hok rfl⟩
  obtain ⟨-, hparameters⟩ := bound_or_open_iff rfl hd hresolve
  obtain ⟨hright, -⟩ := hparameters tallTable.parameters[1] (by simp [tallTable]) ⟨by decide, by decide⟩
  refine ⟨hd, s', hresolve, ?_⟩
  -- the right leg is neither bound nor open
  have hneither := mt hright.mpr (by decide +kernel)
  simpa only [Classical.not_imp] using hneither

end Resolver

end GoalCompiler
