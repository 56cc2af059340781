import GoalCompiler.Proofs.Resolution.Groups

/-! One parameter's turn. With the three tiers it always comes to something: to a value for the parameter alone,
to a reply that is given to all that it is meant for, or to a parameter left open where there is nobody to ask.
The handler is asked about no other parameter, and the reply that is taken is the only one that is valid. -/
namespace GoalCompiler

variable {σ : Type}

/-! ### What passes between a resolution and its handler -/

/-- Inquiries made one after another, each with its reply. -/
def Handler.replies (handler : Handler) (before : List Inquiry) : List Inquiry → List (Inquiry × Reply)
  | [] => []
  | i :: rest => (i, handler (before ++ [i])) :: replies handler (before ++ [i]) rest

theorem Handler.mem_of_replies {handler : Handler} {before is : List Inquiry} {x : Inquiry × Reply}
    (h : x ∈ handler.replies before is) : x.1 ∈ is := by
  induction is generalizing before with
  | nil => simp [replies] at h
  | cons i rest ih =>
    rcases List.mem_cons.mp h with rfl | h
    · exact List.mem_cons_self
    · exact List.mem_cons_of_mem i (ih h)

theorem Handler.replies_append {handler : Handler} {before is js : List Inquiry} :
    handler.replies before (is ++ js) = handler.replies before is ++ handler.replies (before ++ is) js := by
  induction is generalizing before with
  | nil => simp [replies]
  | cons i rest ih => simp [replies, ih]

namespace Services

variable {env : Services σ} {s s' s'' : Session σ} {new : List Inquiry}

/-- What was asked between two moments, and the replies. -/
def exchanges (env : Services σ) (s s' : Session σ) : List (Inquiry × Reply) :=
  match env.handler with
  | none => []
  | some handler => handler.replies s.asked (s'.asked.drop s.asked.length)

theorem exchanges_of_handler {handler : Handler} (hh : env.handler = some handler)
    (h : s'.asked = s.asked ++ new) : env.exchanges s s' = handler.replies s.asked new := by
  simp [exchanges, hh, h]

theorem exchanges_of_no_handler (h : env.handler = none) : env.exchanges s s' = [] := by
  simp [exchanges, h]

theorem exchanges_of_asked_eq (h : s'.asked = s.asked) : env.exchanges s s' = [] := by
  unfold exchanges
  split <;> simp [h, Handler.replies]

theorem exchanges_trans (h : s.asked <+: s'.asked) (h' : s'.asked <+: s''.asked) :
    env.exchanges s s'' = env.exchanges s s' ++ env.exchanges s' s'' := by
  obtain ⟨is, his⟩ := h
  obtain ⟨js, hjs⟩ := h'
  cases hh : env.handler with
  | none => simp [exchanges_of_no_handler hh]
  | some handler =>
    have hall : s''.asked = s.asked ++ (is ++ js) := by rw [← hjs, ← his, List.append_assoc]
    rw [exchanges_of_handler hh hall, exchanges_of_handler hh his.symm, exchanges_of_handler hh hjs.symm,
      Handler.replies_append, his]

end Services

/-! ### The memory -/

namespace Services

variable {env : Services σ} {s : Session σ} {workflow context : String}

/-- Nothing is asked when answers are stored. -/
theorem asked_storeAll {v : Embedding} {entries : List (String × Json)} :
    (env.storeAll s workflow context v entries).2.asked = s.asked := by
  induction entries generalizing s with
  | nil => rfl
  | cons entry rest ih =>
    rw [storeAll]
    split
    · next s'' hstore =>
      rw [ih]
      exact congrArg (fun x => x.2.asked) hstore.symm
    · next s'' hstore => exact congrArg (fun x => x.2.asked) hstore.symm

theorem asked_remember {values : List (String × Json)} :
    (env.remember s workflow context values).2.asked = s.asked := by
  unfold remember
  split
  · rfl
  · exact asked_storeAll

end Services

/-! ### Replies -/

/-- A value was replied to a question about the parameter in this context, and the parameter takes it in this
form. -/
def Replied (xs : List (Inquiry × Reply)) (p : Parameter) (context : String) (v : Json) : Prop :=
  ∃ i value, (i, .value value) ∈ xs ∧ i.question.parameter = p.name ∧ i.question.context = context ∧
    p.accept value = .ok v

/-- What was replied about one of the parameters `qs` is meant for `t`, which takes it in this form. -/
def Meant (w : Workflow) (xs : List (Inquiry × Reply)) (qs : List Parameter) (t : Parameter) (v : Json) : Prop :=
  ∃ q ∈ qs, ∃ context u, Replied xs q context u ∧ t ∈ w.targets q.name context ∧ t.accept u = .ok v

section Replied

variable {xs ys : List (Inquiry × Reply)} {p t : Parameter} {context : String} {u v : Json}

theorem replied_append : Replied (xs ++ ys) p context v ↔ Replied xs p context v ∨ Replied ys p context v := by
  simp only [Replied, List.mem_append]
  constructor
  · rintro ⟨i, value, hmem | hmem, h⟩
    · exact .inl ⟨i, value, hmem, h⟩
    · exact .inr ⟨i, value, hmem, h⟩
  · rintro (⟨i, value, hmem, h⟩ | ⟨i, value, hmem, h⟩)
    · exact ⟨i, value, .inl hmem, h⟩
    · exact ⟨i, value, .inr hmem, h⟩

/-- The exchanges are about these parameters. -/
def About (xs : List (Inquiry × Reply)) (qs : List Parameter) : Prop :=
  ∀ x ∈ xs, ∃ q ∈ qs, x.1.question.parameter = q.name

theorem About.mono {qs rs : List Parameter} (h : About xs qs) (hsub : qs ⊆ rs) : About xs rs := by
  intro x hx
  obtain ⟨q, hq, hname⟩ := h x hx
  exact ⟨q, hsub hq, hname⟩

theorem About.append {qs : List Parameter} (hx : About xs qs) (hy : About ys qs) : About (xs ++ ys) qs :=
  fun x h => (List.mem_append.mp h).elim (hx x) (hy x)

theorem About.not_replied {qs : List Parameter} (h : About xs qs) (hp : ∀ q ∈ qs, q.name ≠ p.name) :
    ¬ Replied xs p context v := by
  rintro ⟨i, value, hmem, hname, -⟩
  obtain ⟨q, hq, hq'⟩ := h _ hmem
  exact hp q hq (hq'.symm.trans hname)

theorem replied_append_of_about {qs : List Parameter} (hy : About ys qs) (hp : ∀ q ∈ qs, q.name ≠ p.name) :
    Replied (xs ++ ys) p context v ↔ Replied xs p context v := by
  rw [replied_append, or_iff_left (hy.not_replied hp)]

/-- From one moment to the other the handler was asked about these parameters only. -/
structure Services.Asks (env : Services σ) (s s' : Session σ) (qs : List Parameter) : Prop where
  since : s.asked <+: s'.asked
  about : About (env.exchanges s s') qs

namespace Services.Asks

variable {env : Services σ} {s s' s'' : Session σ} {qs rs : List Parameter}

theorem of_asked_eq (h : s'.asked = s.asked) : env.Asks s s' qs :=
  ⟨h ▸ List.prefix_refl _, by simp [About, exchanges_of_asked_eq h]⟩

theorem trans (h : env.Asks s s' qs) (h' : env.Asks s' s'' rs) : env.Asks s s'' (qs ++ rs) := by
  refine ⟨h.since.trans h'.since, ?_⟩
  rw [exchanges_trans h.since h'.since]
  exact (h.about.mono (List.subset_append_left qs rs)).append (h'.about.mono (List.subset_append_right qs rs))

end Services.Asks

/-- The replies about the parameters of a list are those about its two parts, where the names are distinct. -/
theorem meant_append {w : Workflow} {qs rs : List Parameter} (hx : About xs qs) (hy : About ys rs)
    (hne : ∀ q ∈ qs, ∀ r ∈ rs, q.name ≠ r.name) :
    Meant w (xs ++ ys) (qs ++ rs) t v ↔ Meant w xs qs t v ∨ Meant w ys rs t v := by
  constructor
  · rintro ⟨q, hq, context, u, hreplied, h⟩
    rcases List.mem_append.mp hq with hq | hq <;> rcases replied_append.mp hreplied with hreplied | hreplied
    · exact .inl ⟨q, hq, context, u, hreplied, h⟩
    · exact absurd hreplied (hy.not_replied fun r hr => (hne q hq r hr).symm)
    · exact absurd hreplied (hx.not_replied fun r hr => hne r hr q hq)
    · exact .inr ⟨q, hq, context, u, hreplied, h⟩
  · rintro (⟨q, hq, context, u, hreplied, h⟩ | ⟨q, hq, context, u, hreplied, h⟩)
    · exact ⟨q, List.mem_append_left _ hq, context, u, replied_append.mpr (.inl hreplied), h⟩
    · exact ⟨q, List.mem_append_right _ hq, context, u, replied_append.mpr (.inr hreplied), h⟩

/-- Nothing is meant for anybody by what is said of others. -/
theorem meant_append_of_about {w : Workflow} {qs rs : List Parameter} (hy : About ys rs)
    (hne : ∀ q ∈ qs, ∀ r ∈ rs, q.name ≠ r.name) : Meant w (xs ++ ys) qs t v ↔ Meant w xs qs t v := by
  have hreplied : ∀ q ∈ qs, ∀ context u, Replied (xs ++ ys) q context u ↔ Replied xs q context u :=
    fun q hq context u => replied_append_of_about hy fun r hr => (hne q hq r hr).symm
  constructor
  · rintro ⟨q, hq, context, u, h, hrest⟩
    exact ⟨q, hq, context, u, (hreplied q hq context u).mp h, hrest⟩
  · rintro ⟨q, hq, context, u, h, hrest⟩
    exact ⟨q, hq, context, u, (hreplied q hq context u).mpr h, hrest⟩

/-- A reply in the form in which it was taken is taken as it is. -/
theorem Replied.accept (h : Replied xs p context v) : p.accept v = .ok v := by
  obtain ⟨_, _, -, -, -, haccept⟩ := h
  exact Parameter.accept_idem haccept

theorem Replied.handler_ne {env : Services σ} {s s' : Session σ}
    (h : Replied (env.exchanges s s') p context v) : env.handler ≠ none := by
  obtain ⟨i, value, hi, -⟩ := h
  intro hnone
  simp [Services.exchanges_of_no_handler hnone] at hi

theorem Meant.handler_ne {env : Services σ} {s s' : Session σ} {w : Workflow} {qs : List Parameter}
    (h : Meant w (env.exchanges s s') qs t v) : env.handler ≠ none := by
  obtain ⟨q, -, context, u, hreplied, -⟩ := h
  exact hreplied.handler_ne

end Replied

/-! ### A turn -/

namespace Case

variable {c : Case} {env : Services σ} {settings : ResolverSettings} {s s' : Session σ}

/-- What a turn comes to, with what was asked in it. -/
inductive Turn (c : Case) (env : Services σ) (xs : List (Inquiry × Reply)) : Settlement → Prop
  | own {v : Json} {source : Source} (hsource : source ≠ .clarified)
    (hnone : ∀ context u, ¬ Replied xs c.parameter context u) : Turn c env xs (c.settled v source)
  | shared {context : String} {u : Json}
    (honly : ∀ context' u', Replied xs c.parameter context' u' ↔ context' = context ∧ u' = u) :
    Turn c env xs (.values (c.workflow.targetValues c.parameter.name context u) .clarified)
  | unsettled {context : String} {relevance : Float32} (hhandler : env.handler = none) :
    Turn c env xs (.unsettled ⟨c.parameter.name, context, relevance⟩)

theorem firstQuestion_parameter {context : String} :
    (c.firstQuestion context).parameter = c.parameter.name := by
  unfold firstQuestion
  split
  · rfl
  · dsimp only
    split <;> rfl

theorem firstQuestion_context {context : String} : (c.firstQuestion context).context = context := by
  unfold firstQuestion
  split
  · rfl
  · dsimp only
    split <;> rfl

/-- Asking goes on until a reply is valid, so that the last reply is valid or none is. -/
theorem clarify_spec {handler : Handler} {attempt : Nat} {q : Question} {left : Nat} {result : Clarified}
    (h : c.clarify handler attempt q s left = (result, s')) :
    ∃ new, s'.asked = s.asked ++ new ∧
      (∀ i ∈ new, ∃ rejected, i.question = { q with rejected }) ∧
      ∀ v, (∃ i value, (i, .value value) ∈ handler.replies s.asked new ∧ c.parameter.accept value = .ok v) ↔
        result = .answer v := by
  induction left generalizing attempt q s with
  | zero =>
    obtain ⟨rfl, rfl⟩ := Prod.mk.inj h
    exact ⟨[], by simp, by simp, by simp [Handler.replies]⟩
  | succ left ih =>
    obtain ⟨i, hi⟩ : ∃ i : Inquiry, i = ⟨c.workflow.name, q, attempt⟩ := ⟨_, rfl⟩
    have hone : ∀ j ∈ [i], ∃ rejected, j.question = { q with rejected } := by
      simp only [List.mem_singleton, forall_eq, hi]
      exact ⟨q.rejected, rfl⟩
    simp only [clarify, Session.ask, ← hi] at h
    cases hreply : handler (s.asked ++ [i]) with
    | timedOut | declined | failed =>
      simp only [hreply] at h
      obtain ⟨rfl, rfl⟩ := Prod.mk.inj h
      exact ⟨[i], rfl, hone, by simp [Handler.replies, hreply]⟩
    | value value =>
      simp only [hreply] at h
      split at h
      · next u hu =>
        obtain ⟨rfl, rfl⟩ := Prod.mk.inj h
        exact ⟨[i], rfl, hone, by simp [Handler.replies, hreply, hu]⟩
      · next e he =>
        -- a reply that is refused counts for nothing, and the same question is put again
        obtain ⟨new, hasked, habout, hvalid⟩ := ih h
        refine ⟨i :: new, by simpa using hasked, ?_, fun v => ?_⟩
        · exact List.forall_mem_cons.mpr ⟨hone i (List.mem_singleton_self i), habout⟩
        · rw [← hvalid v]
          simp [Handler.replies, hreply, or_and_right, exists_or, he]

theorem asked_byMemory : (c.byMemory env settings s).2.asked = s.asked := by
  unfold byMemory
  split
  · rfl
  · split <;> rfl

theorem settled_of_byMemory {a : Settlement} (h : (c.byMemory env settings s).1 = some a) :
    ∃ v, a = c.settled v .learned := by
  unfold byMemory at h
  split at h
  · cases h
  · split at h
    · cases h
    · exact ⟨_, (Option.some.inj h).symm⟩

theorem turn_byAsking {handler : Handler} {context : String} {a : Settlement} (hh : env.handler = some handler)
    (h : c.byAsking env settings handler context s = (.ok a, s')) :
    env.Asks s s' [c.parameter] ∧ c.Turn env (env.exchanges s s') a := by
  obtain ⟨result, s₁, hclarify⟩ :
      ∃ result s₁, c.clarify handler 1 (c.firstQuestion context) s (max 1 settings.attempts) = (result, s₁) :=
    ⟨_, _, rfl⟩
  obtain ⟨new, hnew, hquestions, hvalid⟩ := clarify_spec hclarify
  have habout : ∀ i ∈ new, i.question.parameter = c.parameter.name ∧ i.question.context = context := by
    intro i hi
    obtain ⟨rejected, hq⟩ := hquestions i hi
    rw [hq]
    exact ⟨firstQuestion_parameter, firstQuestion_context⟩
  unfold byAsking at h
  rw [hclarify] at h
  have hasked : s'.asked = s.asked ++ new := by
    cases result with
    | answer v =>
      rw [← (Prod.mk.inj h).2, ← hnew]
      exact Services.asked_remember
    | nothing => rw [← (Prod.mk.inj h).2, hnew]
    | timedOut =>
      dsimp only at h
      split_ifs at h <;> rw [← (Prod.mk.inj h).2, hnew]
  have hexchanges := Services.exchanges_of_handler hh hasked
  have hreplied : ∀ context' u', Replied (env.exchanges s s') c.parameter context' u' ↔
      context' = context ∧ result = .answer u' := by
    intro context' u'
    rw [hexchanges, ← hvalid u']
    constructor
    · rintro ⟨i, value, hi, -, rfl, hu⟩
      exact ⟨(habout i (Handler.mem_of_replies hi)).2, i, value, hi, hu⟩
    · rintro ⟨rfl, i, value, hi, hu⟩
      exact ⟨i, value, hi, (habout i (Handler.mem_of_replies hi)).1, (habout i (Handler.mem_of_replies hi)).2, hu⟩
  refine ⟨⟨⟨new, hasked.symm⟩, ?_⟩, ?_⟩
  · rw [hexchanges]
    exact fun x hx => ⟨c.parameter, List.mem_singleton_self _, (habout x.1 (Handler.mem_of_replies hx)).1⟩
  · cases result with
    | answer v =>
      obtain rfl := Except.ok.inj (Prod.mk.inj h).1
      exact .shared fun context' u' => by simp [hreplied, eq_comm]
    | nothing =>
      obtain rfl := Except.ok.inj (Prod.mk.inj h).1
      exact .own (by decide) fun context' u' => by simp [hreplied]
    | timedOut =>
      dsimp only at h
      split_ifs at h
      · obtain rfl := Except.ok.inj (Prod.mk.inj h).1
        exact .own (by decide) fun context' u' => by simp [hreplied]
      · cases (Prod.mk.inj h).1

theorem turn_byFallback {a : Settlement} (h : c.byFallback env settings s = (.ok a, s')) :
    env.Asks s s' [c.parameter] ∧ c.Turn env (env.exchanges s s') a := by
  have hsilent : ∀ {a : Settlement}, c.Turn env [] a →
      env.Asks s s [c.parameter] ∧ c.Turn env (env.exchanges s s) a := by
    intro a ha
    rw [Services.exchanges_of_asked_eq rfl]
    exact ⟨.of_asked_eq rfl, ha⟩
  unfold byFallback at h
  split at h
  · cases (Prod.mk.inj h).1
  · split at h
    · obtain ⟨ha, rfl⟩ := Prod.mk.inj h
      obtain rfl := Except.ok.inj ha
      exact hsilent (.own (by decide) (by simp [Replied]))
    · split at h
      · cases (Prod.mk.inj h).1
      · split at h
        · next hnone =>
          obtain ⟨ha, rfl⟩ := Prod.mk.inj h
          obtain rfl := Except.ok.inj ha
          exact hsilent (.unsettled hnone)
        · next handler hh => exact turn_byAsking hh h

/-- A modifier in the goal leaves nothing for the other tiers to do. -/
theorem firstAnswer_of_assigned {a : Assignment} (ha : Dict.get? c.assignments c.parameter.name = some a) :
    Tier.firstAnswer env settings c s Tier.standard = (.ok (some (c.settled a.value .modifier)), s) := by
  simp [Tier.firstAnswer, Tier.standard, Tier.settle, byModifier, ha]

theorem turn_of_firstAnswer {answer : Option Settlement}
    (h : Tier.firstAnswer env settings c s Tier.standard = (.ok answer, s')) :
    ∃ a, answer = some a ∧ env.Asks s s' [c.parameter] ∧ c.Turn env (env.exchanges s s') a := by
  have hquiet : ∀ {v : Json} {source : Source}, source ≠ .clarified → s'.asked = s.asked →
      env.Asks s s' [c.parameter] ∧ c.Turn env (env.exchanges s s') (c.settled v source) := by
    intro v source hsource hasked
    rw [Services.exchanges_of_asked_eq hasked]
    exact ⟨.of_asked_eq hasked, .own hsource (by simp [Replied])⟩
  cases hassigned : Dict.get? c.assignments c.parameter.name with
  | some assignment =>
    rw [firstAnswer_of_assigned hassigned] at h
    obtain ⟨ha, rfl⟩ := Prod.mk.inj h
    exact ⟨_, (Except.ok.inj ha).symm, hquiet (by decide) rfl⟩
  | none =>
    obtain ⟨found, s₁, hmemory⟩ : ∃ found s₁, c.byMemory env settings s = (found, s₁) := ⟨_, _, rfl⟩
    have hasked : s₁.asked = s.asked := by
      rw [← show (c.byMemory env settings s).2 = s₁ by rw [hmemory]]
      exact asked_byMemory
    simp only [Tier.firstAnswer, Tier.standard, Tier.settle, byModifier, hassigned, Option.map_none, hmemory] at h
    cases found with
    | some a =>
      obtain ⟨ha, rfl⟩ := Prod.mk.inj h
      obtain ⟨v, rfl⟩ := settled_of_byMemory (congrArg Prod.fst hmemory)
      exact ⟨_, (Except.ok.inj ha).symm, hquiet (by decide) hasked⟩
    | none =>
      obtain ⟨result, s₂, hfallback⟩ : ∃ result s₂, c.byFallback env settings s₁ = (result, s₂) := ⟨_, _, rfl⟩
      simp only [hfallback] at h
      cases result with
      | error e => simp [Except.map] at h
      | ok a =>
        obtain ⟨ha, rfl⟩ := Prod.mk.inj h
        obtain ⟨hasks, hturn⟩ := turn_byFallback hfallback
        have hexchanges : env.exchanges s₁ s₂ = env.exchanges s s₂ := by
          simp only [Services.exchanges, hasked]
        rw [hexchanges] at hturn
        exact ⟨a, (Except.ok.inj ha).symm, ⟨hasked ▸ hasks.since, hexchanges ▸ hasks.about⟩, hturn⟩

end Case

end GoalCompiler
