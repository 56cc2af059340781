import GoalCompiler.Proofs.Memory.Records
import GoalCompiler.Proofs.Resolution.Course

/-! A goal resolved twice with nobody to ask, at first with an empty memory and then with one that has learned
answers in between. The second resolution leaves open what the first one did, apart from the parameters that
there are answers for. -/
namespace GoalCompiler

variable {σ : Type} {view : σ → Records}

/-! ### A short goal -/

/-- A short goal without blanks at its ends is an excerpt of itself, whatever the term. -/
theorem Excerpt.of?_of_short {goal : String} {maxChars window : Nat} (htrim : Text.trim goal = goal)
    (hshort : goal.length ≤ maxChars) (term : Option String) :
    Excerpt.of? goal term maxChars window = some goal := by
  have hchars : Text.trimChars goal.toList = goal.toList := by
    rw [← String.toList_ofList (l := Text.trimChars goal.toList)]
    exact congrArg String.toList htrim
  have hlength : goal.toList.length ≤ maxChars := by rwa [String.length_toList]
  unfold Excerpt.of? Excerpt.ofChars?
  simp only [hchars, if_pos hlength, Option.map_some, String.ofList_toList]

/-! ### The tiers without a handler -/

namespace Case

variable {c : Case} {env : Services σ} {settings : ResolverSettings} {s s' : Session σ} {names : List String}

/-- What the fallback says does not depend on the session when nobody can be asked. -/
theorem byFallback_of_no_handler {a : Settlement} (hhandler : env.handler = none)
    (hwhole : ∀ term, Excerpt.of? c.goal.text term settings.snippetMaxChars settings.snippetWindow =
      some c.goal.text)
    (h : c.byFallback env settings s = (.ok a, s')) :
    s' = s ∧ (∀ s, c.byFallback env settings s = (.ok a, s)) ∧
      (a = c.byDefault ∨ ∃ degree, a = .unsettled ⟨c.parameter.name, c.goal.text, degree⟩) := by
  unfold byFallback at h ⊢
  cases hrelevance : c.relevance env.embedder with
  | error e =>
    rw [hrelevance] at h
    cases (Prod.mk.inj h).1
  | ok relevance =>
    simp only [hrelevance, hwhole, hhandler] at h ⊢
    split at h
    · next hlow =>
      obtain ⟨ha, rfl⟩ := Prod.mk.inj h
      obtain rfl := Except.ok.inj ha
      exact ⟨rfl, fun s => by rw [if_pos hlow], .inl rfl⟩
    · next hhigh =>
      obtain ⟨ha, rfl⟩ := Prod.mk.inj h
      obtain rfl := Except.ok.inj ha
      exact ⟨rfl, fun s => by rw [if_neg hhigh], .inr ⟨_, rfl⟩⟩

theorem run_query_eq_nil_iff (hl : Learned c.workflow c.goal.vector names (view s.memory))
    (hnear : settings.memory ≤ Embedding.similarity c.goal.vector c.goal.vector) :
    (c.query settings).run (view s.memory) = [] ↔ c.parameter.name ∉ names := by
  have hlimit : 0 < recallLimit := by decide
  exact hl.run_eq_nil_iff (q := c.query settings) rfl rfl hlimit hnear

theorem byMemory_of_not_mem (hm : env.memory.Shows view)
    (hl : Learned c.workflow c.goal.vector names (view s.memory))
    (hnear : settings.memory ≤ Embedding.similarity c.goal.vector c.goal.vector)
    (hn : c.parameter.name ∉ names) : c.byMemory env settings s = (none, s) := by
  have hnil : (c.query settings).run (view s.memory) = [] :=
    (run_query_eq_nil_iff hl hnear).mpr hn
  unfold byMemory
  rw [hm.search, hnil]
  rfl

/-- An answer that was learned is found, and its use is counted. -/
theorem byMemory_of_mem (hm : env.memory.Shows view)
    (hl : Learned c.workflow c.goal.vector names (view s.memory)) (hp : c.parameter ∈ c.workflow.parameters)
    (hnear : settings.memory ≤ Embedding.similarity c.goal.vector c.goal.vector)
    (hn : c.parameter.name ∈ names) :
    ∃ v s', c.byMemory env settings s = (some (c.settled v .learned), s') ∧
      Learned c.workflow c.goal.vector names (view s'.memory) := by
  cases hrun : (c.query settings).run (view s.memory) with
  | nil => exact absurd hn ((run_query_eq_nil_iff hl hnear).mp hrun)
  | cons m rest =>
    obtain ⟨hmem, hspeaks, hleast⟩ := Query.mem_run (hrun ▸ List.mem_cons_self)
    simp only [Query.speaksOf, Bool.and_eq_true, beq_iff_eq] at hspeaks
    obtain ⟨v, hv⟩ := Parameter.accepts_iff.mp ((hl.sound _ hmem).2.2 c.parameter hp hspeaks.2.symm)
    have hnot : ¬ m.similarity < settings.memory := Number.not_lt_of_le hleast
    have hfirst : c.firstValid? settings.memory (m :: rest) = some (m, v) := by
      rw [firstValid?, if_neg hnot, hv]
    unfold byMemory
    rw [hm.search, hrun]
    simp only [hfirst]
    exact ⟨v, _, rfl, by rw [hm.recordUsage]; exact hl.use⟩

theorem firstAnswer_of_byFallback {a : Settlement} (h : c.byFallback env settings s = (.ok a, s')) :
    Tier.firstAnswer env settings c s [.fallback] = (.ok (some a), s') := by
  simp [Tier.firstAnswer, Tier.settle, h, Except.map]

theorem byFallback_of_firstAnswer {answer : Option Settlement}
    (h : Tier.firstAnswer env settings c s [.fallback] = (.ok answer, s')) :
    ∃ a, answer = some a ∧ c.byFallback env settings s = (.ok a, s') := by
  obtain ⟨result, s'', hfallback⟩ : ∃ result s'', c.byFallback env settings s = (result, s'') := ⟨_, _, rfl⟩
  cases result with
  | error e => simp [Tier.firstAnswer, Tier.settle, hfallback, Except.map] at h
  | ok a =>
    rw [firstAnswer_of_byFallback hfallback] at h
    obtain ⟨ha, rfl⟩ := Prod.mk.inj h
    exact ⟨a, (Except.ok.inj ha).symm, hfallback⟩

/-- A turn taken twice. What settles the parameter at first settles it again; what leaves it open does so again,
unless there is an answer for it. -/
inductive Again (c : Case) (env : Services σ) (settings : ResolverSettings) (view : σ → Records)
    (names : List String) (s : Session σ) : Settlement → Prop
  | settled {v v' : Json} {source source' : Source} {s' : Session σ}
    (h : Tier.firstAnswer env settings c s Tier.standard = (.ok (some (c.settled v' source')), s'))
    (hl : Learned c.workflow c.goal.vector names (view s'.memory)) :
    Again c env settings view names s (c.settled v source)
  | answered {degree : Float32} {v : Json} {source : Source} {s' : Session σ} (hn : c.parameter.name ∈ names)
    (h : Tier.firstAnswer env settings c s Tier.standard = (.ok (some (c.settled v source)), s'))
    (hl : Learned c.workflow c.goal.vector names (view s'.memory)) :
    Again c env settings view names s (.unsettled ⟨c.parameter.name, c.goal.text, degree⟩)
  | unsettled {degree : Float32} (hn : c.parameter.name ∉ names)
    (h : Tier.firstAnswer env settings c s Tier.standard =
      (.ok (some (.unsettled ⟨c.parameter.name, c.goal.text, degree⟩)), s)) :
    Again c env settings view names s (.unsettled ⟨c.parameter.name, c.goal.text, degree⟩)

theorem again_of_firstAnswer {s₁ s₁' s₂ : Session σ} {answer : Option Settlement}
    (hhandler : env.handler = none) (hm : env.memory.Shows view)
    (hwhole : ∀ term, Excerpt.of? c.goal.text term settings.snippetMaxChars settings.snippetWindow =
      some c.goal.text)
    (hnear : settings.memory ≤ Embedding.similarity c.goal.vector c.goal.vector)
    (hp : c.parameter ∈ c.workflow.parameters) (hempty : view s₁.memory = [])
    (hl : Learned c.workflow c.goal.vector names (view s₂.memory))
    (h : Tier.firstAnswer env settings c s₁ Tier.standard = (.ok answer, s₁')) :
    s₁' = s₁ ∧ ∃ a, answer = some a ∧ c.Again env settings view names s₂ a := by
  cases hassigned : Dict.get? c.assignments c.parameter.name with
  | some assignment =>
    rw [firstAnswer_of_assigned hassigned] at h
    obtain ⟨ha, rfl⟩ := Prod.mk.inj h
    exact ⟨rfl, _, (Except.ok.inj ha).symm, .settled (firstAnswer_of_assigned hassigned) hl⟩
  | none =>
    have hunassigned : ∀ s, Tier.firstAnswer env settings c s Tier.standard =
        Tier.firstAnswer env settings c s [.learned, .fallback] := by
      intro s
      simp [Tier.firstAnswer, Tier.standard, Tier.settle, byModifier, hassigned]
    have hforgotten : ∀ {s}, c.byMemory env settings s = (none, s) →
        Tier.firstAnswer env settings c s Tier.standard =
          Tier.firstAnswer env settings c s [.fallback] := by
      intro s hs
      rw [hunassigned]
      simp [Tier.firstAnswer, Tier.settle, hs]
    have hnothing : c.byMemory env settings s₁ = (none, s₁) :=
      byMemory_of_not_mem hm (hempty ▸ Learned.nil) hnear List.not_mem_nil
    rw [hforgotten hnothing] at h
    obtain ⟨a, rfl, hfallback⟩ := byFallback_of_firstAnswer h
    obtain ⟨rfl, hsame, hdefault⟩ := byFallback_of_no_handler hhandler hwhole hfallback
    refine ⟨rfl, a, rfl, ?_⟩
    by_cases hn : c.parameter.name ∈ names
    · obtain ⟨v, s', hfound, hl'⟩ := byMemory_of_mem (s := s₂) hm hl hp hnear hn
      have hanswer : Tier.firstAnswer env settings c s₂ Tier.standard =
          (.ok (some (c.settled v .learned)), s') := by
        rw [hunassigned]
        simp [Tier.firstAnswer, Tier.settle, hfound]
      rcases hdefault with rfl | ⟨degree, rfl⟩
      · exact .settled hanswer hl'
      · exact .answered hn hanswer hl'
    · have hanswer : Tier.firstAnswer env settings c s₂ Tier.standard = (.ok (some a), s₂) := by
        rw [hforgotten (byMemory_of_not_mem hm hl hnear hn)]
        exact firstAnswer_of_byFallback (hsame s₂)
      rcases hdefault with rfl | ⟨degree, rfl⟩
      · exact .settled hanswer hl
      · exact .unsettled hn hanswer

end Case

/-! ### Two resolutions -/

namespace Resolution

variable {r : Resolution} {given : Bindings} {p : Parameter} {v : Json} {source : Source}

theorem isSettled_add_own {n : String} (hn : n ≠ p.name) :
    (r.add given (.values [(p.name, v)] source)).isSettled n = r.isSettled n := by
  rw [add_values]
  by_cases hgiven : given.isExplicit p.name
  · simp [hgiven, recordAll]
  · rw [List.filter_cons_of_pos (by simp [hgiven])]
    exact isSettled_congr (get?_record_of_ne hn)

theorem unresolved_add_own : (r.add given (.values [(p.name, v)] source)).unresolved = r.unresolved := by
  rw [add_values]
  exact unresolved_recordAll

end Resolution

/-- Two resolutions with the parameters `ps` to come: the first has an empty memory, the second one with answers for
`names`, and it leaves open what the first does, apart from these. -/
structure Resolution.Again (w : Workflow) (goal : Goal) (view : σ → Records) (names : List String)
    (ps : List Parameter) (r₁ r₂ : Resolution) (s₁ s₂ : Session σ) : Prop where
  empty : view s₁.memory = []
  learned : Learned w goal.vector names (view s₂.memory)
  fresh₁ : ∀ p ∈ ps, ¬ r₁.isSettled p.name
  fresh₂ : ∀ p ∈ ps, ¬ r₂.isSettled p.name
  context : ∀ u ∈ r₁.unresolved, u.context = goal.text ∧ ∃ p ∈ w.parameters, p.name = u.name
  unresolved : r₂.unresolved = r₁.unresolved.filter fun u => u.name ∉ names

namespace Resolution.Again

variable {w : Workflow} {goal : Goal} {names : List String} {p : Parameter} {ps : List Parameter}
  {r₁ r₂ : Resolution} {s₁ s₂ : Session σ}

theorem tail (h : Again w goal view names (p :: ps) r₁ r₂ s₁ s₂) : Again w goal view names ps r₁ r₂ s₁ s₂ where
  empty := h.empty
  learned := h.learned
  fresh₁ q hq := h.fresh₁ q (List.mem_cons_of_mem p hq)
  fresh₂ q hq := h.fresh₂ q (List.mem_cons_of_mem p hq)
  context := h.context
  unresolved := h.unresolved

/-- Both resolutions go on with what the turn comes to. -/
theorem turn {c : Case} {env : Services σ} {settings : ResolverSettings} {a : Settlement} (given : Bindings)
    (h : Again c.workflow c.goal view names (c.parameter :: ps) r₁ r₂ s₁ s₂)
    (hp : c.parameter ∈ c.workflow.parameters) (hne : ∀ q ∈ ps, q.name ≠ c.parameter.name)
    (ha : c.Again env settings view names s₂ a) :
    ∃ b s₂', Tier.firstAnswer env settings c s₂ Tier.standard = (.ok (some b), s₂') ∧
      Again c.workflow c.goal view names ps (r₁.add given a) (r₂.add given b) s₁ s₂' := by
  have hown : ∀ {r : Resolution} {v source}, (∀ q ∈ ps, ¬ r.isSettled q.name) →
      ∀ q ∈ ps, ¬ (r.add given (c.settled v source)).isSettled q.name := by
    intro r v source hr q hq
    rw [Case.settled, isSettled_add_own (hne q hq)]
    exact hr q hq
  have hcontext : ∀ degree, ∀ u ∈ r₁.unresolved ++ [⟨c.parameter.name, c.goal.text, degree⟩],
      u.context = c.goal.text ∧ ∃ p ∈ c.workflow.parameters, p.name = u.name := fun degree =>
    List.forall_mem_append.mpr ⟨h.context, List.forall_mem_singleton.mpr ⟨rfl, _, hp, rfl⟩⟩
  cases ha with
  | settled hsecond hl =>
    refine ⟨_, _, hsecond, ⟨h.empty, hl, hown h.tail.fresh₁, hown h.tail.fresh₂, ?_, ?_⟩⟩
    · rw [Case.settled, unresolved_add_own]
      exact h.context
    · rw [Case.settled, Case.settled, unresolved_add_own, unresolved_add_own]
      exact h.unresolved
  | answered hn hsecond hl =>
    refine ⟨_, _, hsecond, ⟨h.empty, hl, h.tail.fresh₁, hown h.tail.fresh₂, hcontext _, ?_⟩⟩
    rw [Case.settled, unresolved_add_own, h.unresolved]
    simp [add, hn]
  | unsettled hn hsecond =>
    refine ⟨_, _, hsecond, ⟨h.empty, h.learned, h.tail.fresh₁, h.tail.fresh₂, hcontext _, ?_⟩⟩
    simp [add, h.unresolved, hn]

end Resolution.Again

namespace Resolver

variable {r : Resolver σ} {w : Workflow} {goal : Goal} {assignments : Dict Assignment} {given : Bindings}
  {names : List String} {ps : List Parameter} {r₁ r₂ resolution : Resolution} {s₁ s₂ s' : Session σ}

section

variable (htiers : r.tiers = Tier.standard) (hhandler : r.services.handler = none)
  (hm : r.services.memory.Shows view)
  (hwhole : ∀ term, Excerpt.of? goal.text term r.settings.snippetMaxChars r.settings.snippetWindow =
    some goal.text)
  (hnear : r.settings.memory ≤ Embedding.similarity goal.vector goal.vector)
include htiers hhandler hm hwhole hnear

theorem again_resolveFrom (hd : (ps.map Parameter.name).Nodup) (hps : ps ⊆ w.parameters)
    (h : Resolution.Again w goal view names ps r₁ r₂ s₁ s₂)
    (hfirst : r.resolveFrom w goal assignments given r₁ s₁ ps = (.ok resolution, s')) :
    ∃ again s'', r.resolveFrom w goal assignments given r₂ s₂ ps = (.ok again, s'') ∧
      Resolution.Again w goal view names [] resolution again s' s'' := by
  induction ps generalizing r₁ r₂ s₁ s₂ with
  | nil =>
    obtain ⟨hok, rfl⟩ := Prod.mk.inj hfirst
    obtain rfl := Except.ok.inj hok
    exact ⟨r₂, s₂, rfl, h⟩
  | cons p rest ih =>
    obtain ⟨hp, hrest⟩ := List.nodup_cons.mp hd
    have hne : ∀ q ∈ rest, q.name ≠ p.name := fun q hq heq => hp (heq ▸ List.mem_map_of_mem hq)
    have hsub : rest ⊆ w.parameters := fun q hq => hps (List.mem_cons_of_mem p hq)
    have hmem : p ∈ w.parameters := hps List.mem_cons_self
    rw [resolveFrom] at hfirst ⊢
    by_cases hfixed : p.isComputed || given.isExplicit p.name
    · simp only [hfixed, Bool.true_or, if_true] at hfirst ⊢
      exact ih hrest hsub h.tail hfirst
    · have hnew₁ := h.fresh₁ p List.mem_cons_self
      have hnew₂ := h.fresh₂ p List.mem_cons_self
      simp only [hfixed, hnew₁, hnew₂, Bool.or_self, Bool.false_eq_true, if_false, htiers] at hfirst ⊢
      have hturn : ∀ {answer s₁'},
          Tier.firstAnswer r.services r.settings ⟨w, p, goal, assignments⟩ s₁ Tier.standard =
            (.ok answer, s₁') →
          s₁' = s₁ ∧ ∃ a, answer = some a ∧
            Case.Again ⟨w, p, goal, assignments⟩ r.services r.settings view names s₂ a :=
        Case.again_of_firstAnswer hhandler hm hwhole hnear hmem h.empty h.learned
      split at hfirst
      · cases (Prod.mk.inj hfirst).1
      · next s₁' hanswer =>
        obtain ⟨-, a, ha, -⟩ := hturn hanswer
        cases ha
      · next answer s₁' hanswer =>
        obtain ⟨rfl, a, ha, hagain⟩ := hturn hanswer
        obtain rfl := Option.some.inj ha
        obtain ⟨b, s₂', hsecond, hnext⟩ :=
          Resolution.Again.turn (c := ⟨w, p, goal, assignments⟩) given h hmem hne hagain
        rw [hsecond]
        exact ih hrest hsub hnext hfirst

/-- The second resolution leaves open what the first one did, apart from what was answered in between. -/
theorem again_resolve (hd : (w.parameters.map Parameter.name).Nodup) (hempty : view s₁.memory = [])
    (hl : Learned w goal.vector names (view s₂.memory))
    (hfirst : r.resolve w goal given s₁ = (.ok resolution, s')) :
    ∃ again s'', r.resolve w goal given s₂ = (.ok again, s'') ∧ view s'.memory = [] ∧
      (∀ u ∈ resolution.unresolved, u.context = goal.text ∧ ∃ p ∈ w.parameters, p.name = u.name) ∧
      again.unresolved = resolution.unresolved.filter fun u => u.name ∉ names := by
  unfold resolve at hfirst ⊢
  split at hfirst
  · cases (Prod.mk.inj hfirst).1
  · have hstart : Resolution.Again w goal view names w.parameters {} {} s₁ s₂ :=
      ⟨hempty, hl, by simp [Resolution.isSettled, Bindings.source?, Dict.get?],
        by simp [Resolution.isSettled, Bindings.source?, Dict.get?], by simp, by simp⟩
    obtain ⟨again, s'', hsecond, hend⟩ := again_resolveFrom htiers hhandler hm hwhole hnear hd
      (List.Subset.refl _) hstart hfirst
    exact ⟨again, s'', hsecond, hend.empty, hend.context, hend.unresolved⟩

end

end Resolver

end GoalCompiler
