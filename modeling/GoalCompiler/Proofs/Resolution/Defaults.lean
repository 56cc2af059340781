import GoalCompiler.Proofs.Resolution.Course

/-! Defaults in a resolution. Whatever tiers there are, a value that is recorded as a default is the parameter's own,
and that is what every question about the parameter shows. A parameter that was asked about in vain falls back to
it, unless what was replied about others was meant for it too. -/
namespace GoalCompiler

variable {σ : Type}

/-! ### What the tiers say -/

/-- What may be said of a parameter: its default, that it is left open, or a value, which comes from a reply if
anybody was asked. -/
inductive Case.Says (c : Case) (s s' : Session σ) : Settlement → Prop
  | default : Says c s s' c.byDefault
  | unsettled (u : Unresolved) : Says c s s' (.unsettled u)
  | value {entries : List (String × Json)} {source : Source} (hsource : source ≠ .default)
    (hasked : source ≠ .clarified → s'.asked = s.asked) : Says c s s' (.values entries source)

section

variable {c : Case} {env : Services σ} {settings : ResolverSettings} {s s' : Session σ} {a : Settlement}

theorem Case.says_of_byAsking {handler : Handler} {context : String}
    (h : (c.byAsking env settings handler context s).1 = .ok a) : c.Says s s' a := by
  unfold byAsking at h
  split at h
  · obtain rfl := Except.ok.inj h
    exact .value (by decide) fun hsource => absurd rfl hsource
  · obtain rfl := Except.ok.inj h
    exact .default
  · split at h
    · obtain rfl := Except.ok.inj h
      exact .default
    · cases h

theorem Case.says_of_byFallback (h : (c.byFallback env settings s).1 = .ok a) : c.Says s s' a := by
  unfold byFallback at h
  split at h
  · cases h
  · split at h
    · obtain rfl := Except.ok.inj h
      exact .default
    · split at h
      · cases h
      · split at h
        · obtain rfl := Except.ok.inj h
          exact .unsettled _
        · exact says_of_byAsking h

/-- A tier that says nothing has asked nobody. -/
theorem Tier.asked_of_settle {t : Tier} (h : t.settle env settings c s = (.ok none, s')) : s'.asked = s.asked := by
  cases t with
  | modifier =>
    obtain ⟨-, rfl⟩ := Prod.mk.inj h
    rfl
  | learned =>
    obtain ⟨-, rfl⟩ := Prod.mk.inj h
    exact Case.asked_byMemory
  | fallback =>
    obtain ⟨answer, -, hanswer⟩ := Outcome.map_eq_ok.mp (congrArg Prod.fst h)
    cases hanswer

theorem Tier.says_of_settle {t : Tier} (h : t.settle env settings c s = (.ok (some a), s')) : c.Says s s' a := by
  cases t with
  | modifier =>
    obtain ⟨hanswer, rfl⟩ := Prod.mk.inj h
    obtain ⟨assignment, -, rfl⟩ := Option.map_eq_some_iff.mp (Except.ok.inj hanswer)
    exact .value (by decide) fun _ => rfl
  | learned =>
    obtain ⟨hanswer, rfl⟩ := Prod.mk.inj h
    obtain ⟨v, rfl⟩ := Case.settled_of_byMemory (Except.ok.inj hanswer)
    exact .value (by decide) fun _ => Case.asked_byMemory
  | fallback =>
    obtain ⟨answer, hanswer, heq⟩ := Outcome.map_eq_ok.mp (congrArg Prod.fst h)
    obtain rfl := Option.some.inj heq
    exact Case.says_of_byFallback hanswer

theorem Tier.says_of_firstAnswer {tiers : List Tier}
    (h : firstAnswer env settings c s tiers = (.ok (some a), s')) : c.Says s s' a := by
  induction tiers generalizing s with
  | nil => cases (Prod.mk.inj h).1
  | cons t rest ih =>
    rw [firstAnswer] at h
    split at h
    · next s₁ hnone =>
      have hasked := asked_of_settle hnone
      cases ih h with
      | default => exact .default
      | unsettled u => exact .unsettled u
      | value hsource hreply => exact .value hsource fun hne => (hreply hne).trans hasked
    · exact says_of_settle h

end

/-! ### What questions show -/

/-- Since then nothing was asked but about these parameters, and each question shows the parameter's own default. -/
def Session.ShowsOwn (s s' : Session σ) (ps : List Parameter) : Prop :=
  ∃ new, s'.asked = s.asked ++ new ∧
    ∀ i ∈ new, ∃ p ∈ ps, i.question.parameter = p.name ∧ i.question.default = p.default

namespace Session.ShowsOwn

variable {s s' s'' : Session σ} {ps qs : List Parameter}

theorem of_asked_eq (h : s'.asked = s.asked) : s.ShowsOwn s' ps := ⟨[], by simp [h], by simp⟩

theorem trans (h : s.ShowsOwn s' ps) (h' : s'.ShowsOwn s'' qs) : s.ShowsOwn s'' (ps ++ qs) := by
  obtain ⟨is, his, hown⟩ := h
  obtain ⟨js, hjs, hown'⟩ := h'
  refine ⟨is ++ js, by rw [hjs, his, List.append_assoc], List.forall_mem_append.mpr ⟨fun i hi => ?_, fun i hi => ?_⟩⟩
  · obtain ⟨p, hp, h⟩ := hown i hi
    exact ⟨p, List.mem_append_left _ hp, h⟩
  · obtain ⟨p, hp, h⟩ := hown' i hi
    exact ⟨p, List.mem_append_right _ hp, h⟩

theorem mono (h : s.ShowsOwn s' ps) (hsub : ps ⊆ qs) : s.ShowsOwn s' qs := by
  obtain ⟨is, his, hown⟩ := h
  refine ⟨is, his, fun i hi => ?_⟩
  obtain ⟨p, hp, h⟩ := hown i hi
  exact ⟨p, hsub hp, h⟩

/-- What the handler was asked about a parameter shows its default. -/
theorem default_eq (h : s.ShowsOwn s' ps) (hd : (ps.map Parameter.name).Nodup) {p : Parameter} (hp : p ∈ ps)
    {env : Services σ} {x : Inquiry × Reply} (hx : x ∈ env.exchanges s s')
    (hname : x.1.question.parameter = p.name) : x.1.question.default = p.default := by
  obtain ⟨new, hasked, hown⟩ := h
  have hmem : x.1 ∈ new := by
    cases hh : env.handler with
    | none => simp [Services.exchanges_of_no_handler hh] at hx
    | some handler =>
      rw [Services.exchanges_of_handler hh hasked] at hx
      exact Handler.mem_of_replies hx
  obtain ⟨q, hq, hqname, hdefault⟩ := hown x.1 hmem
  rw [hdefault, List.inj_on_of_nodup_map hd hq hp (hqname.symm.trans hname)]

end Session.ShowsOwn

namespace Case

variable {c : Case} {env : Services σ} {settings : ResolverSettings} {s : Session σ}

theorem firstQuestion_default {context : String} : (c.firstQuestion context).default = c.parameter.default := by
  unfold firstQuestion
  split
  · rfl
  · dsimp only
    split <;> rfl

theorem showsOwn_byAsking {handler : Handler} {context : String} :
    s.ShowsOwn (c.byAsking env settings handler context s).2 [c.parameter] := by
  obtain ⟨result, s₁, hclarify⟩ :
      ∃ result s₁, c.clarify handler 1 (c.firstQuestion context) s (max 1 settings.attempts) = (result, s₁) :=
    ⟨_, _, rfl⟩
  have hshown : s.ShowsOwn s₁ [c.parameter] := by
    obtain ⟨new, hasked, hquestions, -⟩ := clarify_spec hclarify
    refine ⟨new, hasked, fun i hi => ⟨c.parameter, List.mem_singleton_self _, ?_⟩⟩
    obtain ⟨rejected, hq⟩ := hquestions i hi
    rw [hq]
    exact ⟨firstQuestion_parameter, firstQuestion_default⟩
  unfold byAsking
  rw [hclarify]
  cases result with
  | answer v =>
    have hquiet : s₁.ShowsOwn (c.adopt env context v s₁).2 [] := .of_asked_eq Services.asked_remember
    exact (hshown.trans hquiet).mono (by simp)
  | nothing => exact hshown
  | timedOut =>
    dsimp only
    split <;> exact hshown

theorem showsOwn_byFallback : s.ShowsOwn (c.byFallback env settings s).2 [c.parameter] := by
  unfold byFallback
  split
  · exact .of_asked_eq rfl
  · split
    · exact .of_asked_eq rfl
    · split
      · exact .of_asked_eq rfl
      · split
        · exact .of_asked_eq rfl
        · exact showsOwn_byAsking

end Case

section

variable {c : Case} {env : Services σ} {settings : ResolverSettings} {s : Session σ}

theorem Tier.showsOwn_settle {t : Tier} : s.ShowsOwn (t.settle env settings c s).2 [c.parameter] := by
  cases t with
  | modifier => exact .of_asked_eq rfl
  | learned => exact .of_asked_eq Case.asked_byMemory
  | fallback => exact Case.showsOwn_byFallback

theorem Tier.showsOwn_firstAnswer {tiers : List Tier} :
    s.ShowsOwn (firstAnswer env settings c s tiers).2 [c.parameter] := by
  induction tiers generalizing s with
  | nil => exact .of_asked_eq rfl
  | cons t rest ih =>
    have hfirst : s.ShowsOwn (t.settle env settings c s).2 [c.parameter] := showsOwn_settle
    rw [firstAnswer]
    split
    · next s₁ hnone =>
      rw [hnone] at hfirst
      exact (hfirst.trans ih).mono (by simp)
    · exact hfirst

end

namespace Resolver

variable {r : Resolver σ} {w : Workflow} {goal : Goal} {assignments : Dict Assignment} {given : Bindings}
  {done : Resolution} {s : Session σ}

theorem showsOwn_resolveFrom {ps : List Parameter} :
    s.ShowsOwn (r.resolveFrom w goal assignments given done s ps).2 ps := by
  induction ps generalizing done s with
  | nil => exact .of_asked_eq rfl
  | cons p rest ih =>
    have hturn : s.ShowsOwn (Tier.firstAnswer r.services r.settings ⟨w, p, goal, assignments⟩ s r.tiers).2 [p] :=
      Tier.showsOwn_firstAnswer (c := ⟨w, p, goal, assignments⟩)
    rw [resolveFrom]
    split
    · exact ih.mono (List.subset_cons_self p rest)
    · split
      · next s₁ hanswer =>
        rw [hanswer] at hturn
        exact hturn.mono (by simp)
      · next s₁ hanswer =>
        rw [hanswer] at hturn
        exact hturn.trans ih
      · next answer s₁ hanswer =>
        rw [hanswer] at hturn
        exact hturn.trans ih

/-- Every question that a resolution puts shows the default of its parameter. -/
theorem showsOwn_resolve : s.ShowsOwn (r.resolve w goal given s).2 w.parameters := by
  unfold resolve
  split
  · exact .of_asked_eq rfl
  · exact showsOwn_resolveFrom

end Resolver

/-! ### What is recorded as a default -/

/-- What is recorded as a default is that of a parameter whose turn it was. -/
structure Resolution.OwnDefaults (w : Workflow) (given : Bindings) (r : Resolution) : Prop where
  ordered : Dict.Ordered r.bindings
  own : ∀ n b, Dict.get? r.bindings n = some b → b.source = .default →
    ∃ p ∈ w.parameters, p.name = n ∧ p.Free given ∧ b.value = p.default

namespace Resolution.OwnDefaults

variable {w : Workflow} {given : Bindings} {r : Resolution} {n : String} {b : Binding}

theorem nil : OwnDefaults w given {} where
  ordered := List.Pairwise.nil
  own := nofun

theorem record (h : OwnDefaults w given r) (hb : b.source = .default →
    ∃ p ∈ w.parameters, p.name = n ∧ p.Free given ∧ b.value = p.default) : OwnDefaults w given (r.record n b) := by
  unfold Resolution.record
  split
  · exact h
  · exact ⟨Dict.ordered_insert h.ordered, Dict.forall_get?_insert h.own hb⟩

theorem recordAll (h : OwnDefaults w given r) {entries : List (String × Json)} {source : Source}
    (hsource : source ≠ .default) : OwnDefaults w given (r.recordAll entries source) := by
  induction entries generalizing r with
  | nil => exact h
  | cons e rest ih => exact ih (h.record fun heq => absurd heq hsource)

theorem add {c : Case} {s s' : Session σ} {a : Settlement} (h : OwnDefaults c.workflow given r)
    (hp : c.parameter ∈ c.workflow.parameters) (hfree : c.parameter.Free given) (ha : c.Says s s' a) :
    OwnDefaults c.workflow given (r.add given a) := by
  cases ha with
  | default =>
    have hadd : r.add given c.byDefault = r.record c.parameter.name ⟨c.parameter.default, .default⟩ := by
      simp [Case.byDefault, Case.settled, Resolution.add, hfree.2]
    rw [hadd]
    exact h.record fun _ => ⟨c.parameter, hp, rfl, hfree, rfl⟩
  | unsettled u => exact ⟨h.ordered, h.own⟩
  | value hsource _ => exact h.recordAll hsource

end Resolution.OwnDefaults

namespace Resolver

variable {r : Resolver σ} {w : Workflow} {goal : Goal} {assignments : Dict Assignment} {given : Bindings}
  {done resolution : Resolution} {s s' : Session σ}

theorem ownDefaults_resolveFrom {ps : List Parameter} (hps : ps ⊆ w.parameters)
    (hdone : done.OwnDefaults w given)
    (h : r.resolveFrom w goal assignments given done s ps = (.ok resolution, s')) :
    resolution.OwnDefaults w given := by
  induction ps generalizing done s with
  | nil =>
    obtain rfl := Except.ok.inj (congrArg Prod.fst h)
    exact hdone
  | cons p rest ih =>
    obtain ⟨hp, hrest⟩ := List.cons_subset.mp hps
    rw [resolveFrom] at h
    split at h
    · exact ih hrest hdone h
    · next hopen =>
      simp only [Bool.or_eq_true, not_or] at hopen
      split at h
      · cases congrArg Prod.fst h
      · exact ih hrest hdone h
      · next answer s₁ hanswer =>
        exact ih hrest (Resolution.OwnDefaults.add (c := ⟨w, p, goal, assignments⟩) hdone hp hopen.1
          (Tier.says_of_firstAnswer hanswer)) h

theorem ownDefaults_resolve (h : r.resolve w goal given s = (.ok resolution, s')) :
    resolution.OwnDefaults w given := by
  unfold resolve at h
  split at h
  · cases congrArg Prod.fst h
  · exact ownDefaults_resolveFrom (List.Subset.refl _) .nil h

end Resolver

/-! ### Asked in vain -/

section

variable {xs ys : List (Inquiry × Reply)} {p t : Parameter} {context : String} {v : Json}

theorem Replied.mono (h : Replied xs p context v) (hsub : xs ⊆ ys) : Replied ys p context v := by
  obtain ⟨i, value, hi, h⟩ := h
  exact ⟨i, value, hsub hi, h⟩

theorem Meant.mono {w : Workflow} {qs rs : List Parameter} (h : Meant w xs qs t v) (hsub : xs ⊆ ys)
    (hqs : qs ⊆ rs) : Meant w ys rs t v := by
  obtain ⟨q, hq, context, u, hreplied, h⟩ := h
  exact ⟨q, hqs hq, context, u, hreplied.mono hsub, h⟩

end

/-- What is about others is not about this parameter. -/
theorem About.ne {xs : List (Inquiry × Reply)} {qs : List Parameter} {n : String} (h : About xs qs)
    (hn : ∀ q ∈ qs, q.name ≠ n) : ∀ x ∈ xs, x.1.question.parameter ≠ n := by
  intro x hx heq
  obtain ⟨q, hq, hname⟩ := h x hx
  exact hn q hq (hname.symm.trans heq)

/-- A turn that has asked and got no valid reply comes to the default. -/
theorem Case.default_of_unanswered {c : Case} {env : Services σ} {settings : ResolverSettings} {s s' : Session σ}
    {a : Settlement} (h : Tier.firstAnswer env settings c s Tier.standard = (.ok (some a), s'))
    (hasked : env.exchanges s s' ≠ []) (hnone : ∀ context u, ¬ Replied (env.exchanges s s') c.parameter context u) :
    a = c.byDefault := by
  obtain ⟨a', ha', -, hturn⟩ := turn_of_firstAnswer h
  obtain rfl := Option.some.inj ha'
  have hsays := Tier.says_of_firstAnswer h
  cases hturn with
  | own hsource _ =>
    cases hsays with
    | default => rfl
    | value hne hquiet => exact absurd (Services.exchanges_of_asked_eq (hquiet hsource)) hasked
  | shared honly => exact absurd ((honly _ _).mpr ⟨rfl, rfl⟩) (hnone _ _)
  | unsettled hhandler => exact absurd (Services.exchanges_of_no_handler hhandler) hasked

/-- A turn of another parameter leaves what is recorded, unless a reply was meant for the name. -/
theorem Resolution.Step.get?_eq {w : Workflow} {given : Bindings} {handler : Option Handler} {p : Parameter}
    {ys : List (Inquiry × Reply)} {r r' : Resolution} {n : String} (h : Step w given handler p ys r r')
    (hn : p.name ≠ n) (hmeant : ∀ t ∈ w.parameters, t.name = n → ∀ v, ¬ Meant w ys [p] t v) :
    Dict.get? r'.bindings n = Dict.get? r.bindings n := by
  have horigin : ∀ b, Dict.get? r'.bindings n = some b → Dict.get? r.bindings n = some b := by
    intro b hb
    rcases h.origin n b hb with hb | ⟨-, t, ht, hname, hv⟩ | ⟨-, hname, -⟩
    · exact hb
    · exact absurd hv (hmeant t ht hname _)
    · exact absurd hname.symm hn
  cases hget : Dict.get? r'.bindings n with
  | some b => exact (horigin b hget).symm
  | none =>
    cases hget' : Dict.get? r.bindings n with
    | none => rfl
    | some b =>
      have hgrown := h.grown n (by simp [Dict.contains, hget'])
      simp [Dict.contains, hget] at hgrown

/-- All other parameters come before it or after it. -/
theorem Parameter.exists_split {ps : List Parameter} {p : Parameter} (hd : (ps.map Parameter.name).Nodup)
    (hp : p ∈ ps) : ∃ before after, ps = before ++ p :: after ∧ (∀ q ∈ before, q.name ≠ p.name) ∧
      ∀ q ∈ after, q.name ≠ p.name := by
  obtain ⟨before, after, rfl⟩ := List.append_of_mem hp
  rw [List.map_append, List.map_cons, List.nodup_append, List.nodup_cons] at hd
  obtain ⟨-, ⟨hafter, -⟩, hapart⟩ := hd
  refine ⟨before, after, rfl, fun q hq => ?_, fun q hq heq => ?_⟩
  · exact hapart _ (List.mem_map_of_mem hq) _ List.mem_cons_self
  · exact hafter (heq ▸ List.mem_map_of_mem hq)

namespace Resolver

variable {r : Resolver σ} {w : Workflow} {goal : Goal} {assignments : Dict Assignment} {given : Bindings}
  {done resolution : Resolution} {s s' : Session σ} {p : Parameter}

theorem get?_resolveFrom {ps : List Parameter} {n : String} (htiers : r.tiers = Tier.standard)
    (hn : ∀ q ∈ ps, q.name ≠ n)
    (hmeant : ∀ t ∈ w.parameters, t.name = n → ∀ v, ¬ Meant w (r.services.exchanges s s') ps t v)
    (h : r.resolveFrom w goal assignments given done s ps = (.ok resolution, s')) :
    Dict.get? resolution.bindings n = Dict.get? done.bindings n := by
  induction ps generalizing done s with
  | nil =>
    obtain rfl := Except.ok.inj (congrArg Prod.fst h)
    rfl
  | cons q rest ih =>
    obtain ⟨hq, hrest⟩ := List.forall_mem_cons.mp hn
    obtain ⟨done₁, s₁, h, hasks, hstep⟩ := resolveFrom_cons htiers h
    have hexchanges := r.services.exchanges_trans hasks.since (asks_resolveFrom htiers h).since
    rw [hexchanges] at hmeant
    refine (ih hrest (fun t ht hname v hv => ?_) h).trans (hstep.get?_eq hq fun t ht hname v hv => ?_)
    · exact hmeant t ht hname v (hv.mono (List.subset_append_right _ _) (List.subset_cons_self q rest))
    · exact hmeant t ht hname v (hv.mono (List.subset_append_left _ _) (by simp))

/-- A parameter that was asked about had its turn, and nobody was asked about it before or after that. -/
theorem turn_of_asked (htiers : r.tiers = Tier.standard) (hd : (w.parameters.map Parameter.name).Nodup)
    (hp : p ∈ w.parameters)
    (h : r.resolveFrom w goal assignments given {} s w.parameters = (.ok resolution, s'))
    (hasked : ∃ x ∈ r.services.exchanges s s', x.1.question.parameter = p.name) :
    ∃ (after : List Parameter) (mid : Resolution) (s₁ : Session σ) (a : Settlement) (s₂ : Session σ),
      after ⊆ w.parameters ∧ (∀ q ∈ after, q.name ≠ p.name) ∧
      ¬ given.isExplicit p.name ∧ ¬ mid.isSettled p.name ∧
      Tier.firstAnswer r.services r.settings ⟨w, p, goal, assignments⟩ s₁ Tier.standard = (.ok (some a), s₂) ∧
      r.resolveFrom w goal assignments given (mid.add given a) s₂ after = (.ok resolution, s') ∧
      r.services.exchanges s₁ s₂ ≠ [] ∧
      r.services.exchanges s s' =
        r.services.exchanges s s₁ ++ (r.services.exchanges s₁ s₂ ++ r.services.exchanges s₂ s') := by
  obtain ⟨x, hx, hname⟩ := hasked
  obtain ⟨before, after, hw, hbefore, hafter⟩ := Parameter.exists_split hd hp
  have hsub : after ⊆ w.parameters := fun q hq => hw ▸ List.mem_append_right _ (List.mem_cons_of_mem _ hq)
  rw [hw] at h
  obtain ⟨mid, s₁, hcourse, h, -⟩ := resolveFrom_split htiers (hw ▸ hd) h
  have hfirst := hcourse.asks
  rw [resolveFrom] at h
  split at h
  · -- a parameter that is passed over is not asked about
    have hrest := asks_resolveFrom htiers h
    rw [Services.exchanges_trans hfirst.since hrest.since, List.mem_append] at hx
    exact absurd hname (hx.elim (hfirst.about.ne hbefore x) (hrest.about.ne hafter x))
  · next hopen =>
    simp only [Bool.or_eq_true, not_or] at hopen
    rw [htiers] at h
    split at h
    · cases congrArg Prod.fst h
    · next hanswer =>
      obtain ⟨a, ha, -⟩ := Case.turn_of_firstAnswer hanswer
      cases ha
    · next a s₂ hanswer =>
      obtain ⟨-, -, hturn, -⟩ := Case.turn_of_firstAnswer hanswer
      have hrest := asks_resolveFrom htiers h
      have hexchanges := r.services.exchanges_trans hfirst.since (hturn.since.trans hrest.since)
      rw [Services.exchanges_trans hturn.since hrest.since] at hexchanges
      refine ⟨after, mid, s₁, a, s₂, hsub, hafter, hopen.1.2, hopen.2, hanswer, h, ?_, hexchanges⟩
      rw [hexchanges, List.mem_append, List.mem_append] at hx
      rcases hx with hx | hx | hx
      · exact absurd hname (hfirst.about.ne hbefore x hx)
      · exact List.ne_nil_of_mem hx
      · exact absurd hname (hrest.about.ne hafter x hx)

/-- A parameter that was asked about, but got no valid reply and none that was meant for it, takes its default. -/
theorem default_of_unanswered (htiers : r.tiers = Tier.standard) (hd : (w.parameters.map Parameter.name).Nodup)
    (hp : p ∈ w.parameters) (h : r.resolve w goal given s = (.ok resolution, s'))
    (hasked : ∃ x ∈ r.services.exchanges s s', x.1.question.parameter = p.name)
    (hnone : ∀ context v, ¬ Replied (r.services.exchanges s s') p context v)
    (hmeant : ∀ v, ¬ Meant w (r.services.exchanges s s') w.parameters p v) :
    Dict.get? resolution.bindings p.name = some ⟨p.default, .default⟩ := by
  unfold resolve at h
  split at h
  · cases congrArg Prod.fst h
  · obtain ⟨after, mid, s₁, a, s₂, hsub, hafter, hgiven, hnew, hanswer, h, hturn, hexchanges⟩ :=
      turn_of_asked htiers hd hp h hasked
    rw [hexchanges] at hnone hmeant
    obtain rfl := Case.default_of_unanswered hanswer hturn fun context u hu =>
      hnone context u (hu.mono fun y hy => List.mem_append_right _ (List.mem_append_left _ hy))
    refine (get?_resolveFrom htiers hafter (fun t ht htname v hv => ?_) h).trans ?_
    · -- what is replied later is not meant for the parameter
      obtain rfl := Workflow.eq_of_name hd ht hp htname
      exact hmeant v (hv.mono (fun y hy => List.mem_append_right _ (List.mem_append_right _ hy)) hsub)
    · rw [Case.byDefault, Case.settled, Resolution.add_values, List.filter_cons_of_pos (by simp [hgiven])]
      exact Resolution.get?_record_self hnew

end Resolver

end GoalCompiler
