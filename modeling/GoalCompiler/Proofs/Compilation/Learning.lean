import GoalCompiler.Proofs.Compilation.Reached
import GoalCompiler.Proofs.Resolution.Asking
import GoalCompiler.Proofs.Resolution.Recall

/-! Questions that are put again. A caller replies to questions and compiles the same request once more: a parameter
that was replied for is asked for again exactly when none of the replies was meant for it, which takes a goal that
speaks of the side of others. -/
namespace GoalCompiler

variable {σ : Type}

/-! ### The workflow of a request -/

namespace Registry

variable {r : Registry} {w : Workflow}

theorem load_spec {before workflows : List Workflow} (hnames : (before.map Workflow.name).Nodup)
    (hvalid : ∀ w ∈ before, w.validate = .ok ()) (h : load before workflows = .ok r) :
    (r.workflows.map Workflow.name).Nodup ∧ ∀ w ∈ r.workflows, w.validate = .ok () := by
  induction workflows generalizing before with
  | nil =>
    obtain rfl := Except.ok.inj h
    exact ⟨hnames, hvalid⟩
  | cons w rest ih =>
    rw [load] at h
    obtain ⟨⟨⟩, hw, h⟩ := Outcome.bind_eq_ok.mp h
    dsimp only at h
    split at h
    · simp [Outcome.bind_eq_ok] at h
    · next hnew =>
      refine ih ?_ (List.forall_mem_append.mpr ⟨hvalid, List.forall_mem_singleton.mpr hw⟩) h
      rw [List.map_append, List.nodup_append]
      refine ⟨hnames, List.nodup_singleton _, fun n hn m hm => ?_⟩
      obtain ⟨w', hw', rfl⟩ := List.mem_map.mp hn
      obtain rfl := List.mem_singleton.mp hm
      intro heq
      exact hnew (List.any_eq_true.mpr ⟨w', hw', by simp [heq]⟩)

/-- A registry holds valid workflows under distinct names. -/
theorem ofList_spec {workflows : List Workflow} (h : ofList workflows = .ok r) :
    (r.workflows.map Workflow.name).Nodup ∧ ∀ w ∈ r.workflows, w.validate = .ok () :=
  load_spec (by simp) (by simp) h

theorem get?_of_mem (hnames : (r.workflows.map Workflow.name).Nodup) (hw : w ∈ r.workflows) :
    r.get? w.name = some w := by
  cases h : r.get? w.name with
  | none => simpa using List.find?_eq_none.mp h w hw
  | some w' =>
    have hname : w'.name = w.name := by simpa using List.find?_some h
    rw [List.inj_on_of_nodup_map hnames (List.mem_of_find?_eq_some h) hw hname]

end Registry

theorem Embedding.mem_of_nearest? {α : Type} {query : Embedding} {candidates : List (α × Embedding)} {a : α}
    {s : Float32} (h : nearest? query candidates = some (a, s)) : ∃ v, (a, v) ∈ candidates := by
  unfold nearest? at h
  suffices hbest : ∀ best : Option (α × Float32), candidates.foldl _ best = some (a, s) →
      (∃ s', best = some (a, s')) ∨ ∃ v, (a, v) ∈ candidates by
    rcases hbest none h with ⟨s', hs'⟩ | hmem
    · cases hs'
    · exact hmem
  clear h
  induction candidates with
  | nil => exact fun best h => .inl ⟨s, h⟩
  | cons e rest ih =>
    intro best h
    rw [List.foldl_cons] at h
    rcases ih _ h with ⟨s', hs'⟩ | ⟨v, hv⟩
    · dsimp only at hs'
      split at hs'
      · obtain ⟨rfl, -⟩ := Prod.mk.inj (Option.some.inj hs')
        exact .inr ⟨e.2, List.mem_cons_self⟩
      · split_ifs at hs'
        · obtain ⟨rfl, -⟩ := Prod.mk.inj (Option.some.inj hs')
          exact .inr ⟨e.2, List.mem_cons_self⟩
        · obtain ⟨rfl, rfl⟩ := Prod.mk.inj (Option.some.inj hs')
          exact .inl ⟨_, rfl⟩
    · exact .inr ⟨v, List.mem_cons_of_mem e hv⟩

namespace Compiler

variable {c : Compiler σ} {goal : Goal} {w : Workflow}

theorem mem_of_choose {workflow : Option String} (h : c.choose goal workflow = .ok (some w)) :
    w ∈ c.registry.workflows := by
  unfold choose at h
  split at h
  · split at h
    · next hget =>
      obtain rfl := Option.some.inj (Except.ok.inj h)
      exact List.mem_of_find?_eq_some hget
    · cases h
  · split at h
    · next chosen hselect =>
      obtain ⟨⟨w', reason⟩, hchosen, rfl⟩ := Option.map_eq_some_iff.mp (Except.ok.inj h)
      subst hchosen
      unfold Registry.select at hselect
      split at hselect
      · next htriggered =>
        obtain ⟨rfl, -⟩ := Prod.mk.inj (Option.some.inj (Except.ok.inj hselect))
        exact List.mem_of_find?_eq_some htriggered
      · obtain ⟨candidates, hcandidates, hselect⟩ := Outcome.bind_eq_ok.mp hselect
        split at hselect
        · next w'' s hnearest =>
          obtain ⟨v, hv⟩ := Embedding.mem_of_nearest? hnearest
          have hmem : w'' ∈ c.registry.workflows := by
            obtain ⟨w₀, hw₀, hembed⟩ := Outcome.exists_of_mem_mapM hcandidates hv
            obtain ⟨_, _, heq⟩ := Outcome.map_eq_ok.mp hembed
            exact (Prod.mk.inj heq).1 ▸ hw₀
          split_ifs at hselect
          · obtain ⟨rfl, -⟩ := Prod.mk.inj (Option.some.inj (Except.ok.inj hselect))
            exact hmem
          · cases Except.ok.inj hselect
        · cases hselect
    · cases h

/-- Of a registry that was loaded, the chosen workflow is the one under its name, and is valid. -/
theorem eq_of_choose {workflows : List Workflow} {workflow : Option String} {w' : Workflow}
    (hregistry : Registry.ofList workflows = .ok c.registry) (h : c.choose goal workflow = .ok (some w))
    (hw : c.registry.get? w.name = some w') : w = w' ∧ (w.parameters.map Parameter.name).Nodup := by
  obtain ⟨hdistinct, hvalid⟩ := Registry.ofList_spec hregistry
  have hmem := mem_of_choose h
  exact ⟨Option.some.inj ((Registry.get?_of_mem hdistinct hmem).symm.trans hw),
    (Workflow.fit_of_validate (hvalid w hmem)).distinct⟩

end Compiler

theorem Goal.analyse_eq_ok {embedder : Embedder} {text : String} {goal : Goal}
    (h : Goal.analyse embedder text = .ok goal) :
    goal.text = text ∧ embedder.embed text = .ok goal.vector := by
  obtain ⟨vectors, -, h⟩ := Outcome.bind_eq_ok.mp h
  obtain ⟨vector, hvector, h⟩ := Outcome.bind_eq_ok.mp h
  obtain rfl := Except.ok.inj h
  exact ⟨rfl, hvector⟩

/-! ### Replies of the caller -/

section Store

variable {view : σ → Records} {env : Services σ} {w : Workflow} {v : Embedding} {names : List String}
  {s s' : Session σ} {context : String}

theorem Learned.congr {rs : Records} {names' : List String} (h : Learned w v names rs)
    (hnames : ∀ n, n ∈ names ↔ n ∈ names') : Learned w v names' rs :=
  ⟨h.sound, fun n => (h.names n).trans (hnames n)⟩

theorem Services.learned_storeAll {entries : List (String × Json)} (hm : env.memory.Shows view)
    (htakes : ∀ e ∈ entries, w.Takes e.1 e.2) (hl : Learned w v names (view s.memory))
    (h : env.storeAll s w.name context v entries = (none, s')) :
    Learned w v (Dict.keys entries ++ names) (view s'.memory) := by
  induction entries generalizing s names with
  | nil =>
    obtain ⟨-, rfl⟩ := Prod.mk.inj h
    exact hl
  | cons e rest ih =>
    obtain ⟨he, hrest⟩ := List.forall_mem_cons.mp htakes
    rw [storeAll] at h
    split at h
    · next s'' hstore =>
      have hstored : Learned w v (e.1 :: names) (view s''.memory) := by
        rw [← show (env.store s w.name context v e).2 = s'' by rw [hstore]]
        unfold store
        rw [hm.upsert]
        exact hl.upsert rfl rfl rfl he
      refine (ih hrest hstored h).congr fun n => ?_
      simp [Dict.keys, or_left_comm]
    · cases (Prod.mk.inj h).1

end Store

namespace Compiler

variable {c : Compiler σ} {w : Workflow} {view : σ → Records} {s s' s'' : Session σ} {names : List String}

/-- The caller replies to questions, each in its own context, and every reply is taken. -/
inductive Submits (c : Compiler σ) (workflow : String) :
    Session σ → List (Question × Json) → Session σ → Prop
  | nil (s : Session σ) : Submits c workflow s [] s
  | cons {q : Question} {value : Json} {stored : List String} {rest : List (Question × Json)}
    {s s' s'' : Session σ}
    (h : c.clarify workflow ⟨q.parameter, value, q.context⟩ s = (.ok (.accepted stored), s'))
    (hrest : Submits c workflow s' rest s'') : Submits c workflow s ((q, value) :: rest) s''

/-- The names of the parameters that a reply to the question is meant for. -/
def concerned (w : Workflow) (q : Question) : List String :=
  (w.targets q.parameter q.context).map Parameter.name

theorem concerned_question {p : Parameter} {context : String} :
    concerned w (w.question p context) = (w.targets p.name context).map Parameter.name := by
  rw [concerned, Workflow.parameter_question, Workflow.context_question]

/-- A reply that all parameters concerned may take is learned for all of them. -/
theorem learned_clarify {q : Question} {value : Json} {stored : List String} {v : Embedding}
    (hm : c.resolver.services.memory.Shows view) (hd : (w.parameters.map Parameter.name).Nodup)
    (hw : c.registry.get? w.name = some w) (hv : c.resolver.services.embedder.embed q.context = .ok v)
    (hvalue : ∀ p ∈ w.parameters, p.name = q.parameter → ∀ t ∈ w.fellows p, t.accepts value)
    (hl : Learned w v names (view s.memory))
    (h : c.clarify w.name ⟨q.parameter, value, q.context⟩ s = (.ok (.accepted stored), s')) :
    Learned w v (concerned w q ++ names) (view s'.memory) := by
  unfold clarify at h
  simp only [hw] at h
  split at h
  · cases (Prod.mk.inj h).1
  · next p hp =>
    have hmem : p ∈ w.parameters := List.mem_of_find?_eq_some hp
    have hname : p.name = q.parameter := by simpa using List.find?_some hp
    split at h
    · cases Except.ok.inj (Prod.mk.inj h).1
    · next u hu =>
      unfold Services.remember at h
      simp only [hv] at h
      split at h
      · next s₁ hstore =>
        obtain ⟨-, rfl⟩ := Prod.mk.inj h
        have hstored := Services.learned_storeAll hm (Workflow.takes_targetValues hd) hl hstore
        refine hstored.congr fun n => ?_
        rw [List.mem_append, List.mem_append, concerned, ← hname]
        refine or_congr_left ?_
        rw [Workflow.mem_keys_targetValues, List.mem_map]
        constructor
        · rintro ⟨t, ht, hn, -⟩
          exact ⟨t, ht, hn⟩
        · rintro ⟨t, ht, hn⟩
          have hfellow := Workflow.mem_fellows_of_targets hd hmem ht
          exact ⟨t, ht, hn, Parameter.accepts_form hu (hvalue p hmem hname t hfellow)⟩
      · cases (Prod.mk.inj h).1

theorem learned_submits {replies : List (Question × Json)} {v : Embedding}
    (hm : c.resolver.services.memory.Shows view) (hd : (w.parameters.map Parameter.name).Nodup)
    (hw : c.registry.get? w.name = some w)
    (hreplies : ∀ x ∈ replies, c.resolver.services.embedder.embed x.1.context = .ok v ∧
      ∀ p ∈ w.parameters, p.name = x.1.parameter → ∀ t ∈ w.fellows p, t.accepts x.2)
    (hl : Learned w v names (view s.memory)) (h : c.Submits w.name s replies s') :
    Learned w v ((replies.flatMap fun x => concerned w x.1) ++ names) (view s'.memory) := by
  induction h generalizing names with
  | nil => exact hl
  | cons h hrest ih =>
    obtain ⟨⟨hv, hvalue⟩, hlater⟩ := List.forall_mem_cons.mp hreplies
    refine (ih hlater (learned_clarify hm hd hw hv hvalue hl h)).congr fun n => ?_
    simp only [List.flatMap_cons, List.mem_append]
    rw [or_left_comm, or_assoc]

/-! ### Compiling again -/

section

variable {r : CompileRequest} {given : Bindings} {order : List ComputedParameter} {resolution : Resolution}
  {name n : String} {questions : List Question}

/-- The outcome of a compilation asks for the parameter of this name. -/
def Asks (outcome : Except Failure CompileResponse) (n : String) : Prop :=
  ∃ name questions, outcome = .ok (.needsInput name questions) ∧ ∃ q ∈ questions, q.AsksFor n

theorem finish_eq_needsInput (h : c.finish w r given order resolution = .ok (.needsInput name questions)) :
    w.name = name ∧ w.questions resolution.unresolved = questions := by
  unfold finish at h
  split at h
  · obtain ⟨b, -, h⟩ := Outcome.bind_eq_ok.mp h
    obtain ⟨built, -, h⟩ := Outcome.bind_eq_ok.mp h
    cases Except.ok.inj h
  · exact CompileResponse.needsInput.inj (Except.ok.inj h)

/-- A compilation asks for what its resolution leaves open. -/
theorem asks_finish : Asks (c.finish w r given order resolution) n ↔
    ∃ q ∈ w.questions resolution.unresolved, q.AsksFor n := by
  constructor
  · rintro ⟨name, questions, h, q, hq, hn⟩
    obtain ⟨-, rfl⟩ := finish_eq_needsInput h
    exact ⟨q, hq, hn⟩
  · rintro ⟨q, hq, hn⟩
    have hopen : ¬ resolution.isComplete := by
      intro hcomplete
      rw [Resolution.isComplete, List.isEmpty_iff] at hcomplete
      rw [hcomplete] at hq
      cases hq
    refine ⟨w.name, _, ?_, q, hq, hn⟩
    rw [finish, if_neg hopen]
    rfl

/-- Where questions come from. -/
theorem resolved_of_needsInput (h : c.compile r s = (.ok (.needsInput name questions), s')) :
    ∃ goal w given order resolution, Goal.analyse c.resolver.services.embedder r.goal = .ok goal ∧
      c.choose goal r.workflow = .ok (some w) ∧ prepare w r = .ok (given, order) ∧
      c.resolver.resolve w goal given s = (.ok resolution, s') ∧ w.name = name ∧
      w.questions resolution.unresolved = questions := by
  unfold compile at h
  split at h
  · cases (Prod.mk.inj h).1
  · next goal hgoal =>
    split at h
    · cases (Prod.mk.inj h).1
    · cases Except.ok.inj (Prod.mk.inj h).1
    · next w hchoose =>
      unfold compileWith at h
      split at h
      · cases (Prod.mk.inj h).1
      · next given order hprepare =>
        split at h
        · cases (Prod.mk.inj h).1
        · next resolution s'' hresolve =>
          obtain ⟨hfinish, rfl⟩ := Prod.mk.inj h
          obtain ⟨hname, hquestions⟩ := finish_eq_needsInput hfinish
          exact ⟨goal, w, given, order, resolution, hgoal, hchoose, hprepare, hresolve, hname, hquestions⟩

theorem compile_of_resolved {goal : Goal} (hgoal : Goal.analyse c.resolver.services.embedder r.goal = .ok goal)
    (hchoose : c.choose goal r.workflow = .ok (some w)) (hprepare : prepare w r = .ok (given, order))
    (hresolve : c.resolver.resolve w goal given s = (.ok resolution, s')) :
    (c.compile r s).1 = c.finish w r given order resolution := by
  simp only [compile, hgoal, hchoose, compileWith, hprepare, hresolve]

end

/-- A caller replies to questions about a short goal and compiles the request again. What a question asked for is
then asked for again if and only if none of the replies was meant for it; and a reply is meant for all that its
question asked for, unless the goal speaks of the side of others and not of the parameter's own. -/
theorem asked_again_iff {workflows : List Workflow} {r : CompileRequest} {name : String}
    {questions : List Question} {replies : List (Question × Json)} {s₁ s₂ : Session σ}
    (htiers : c.resolver.tiers = Tier.standard) (hhandler : c.resolver.services.handler = none)
    (hm : c.resolver.services.memory.Shows view) (hregistry : Registry.ofList workflows = .ok c.registry)
    (hw : c.registry.get? name = some w) (htrim : Text.trim r.goal = r.goal)
    (hshort : r.goal.length ≤ c.resolver.settings.snippetMaxChars)
    (hnear : ∀ v, c.resolver.services.embedder.embed r.goal = .ok v →
      c.resolver.settings.memory ≤ Embedding.similarity v v)
    (hempty : view s.memory = [])
    (hfirst : c.compile r s = (.ok (.needsInput name questions), s₁)) (hsubmits : c.Submits name s₁ replies s₂)
    (hreplies : ∀ x ∈ replies, x.1 ∈ questions ∧
      ∀ p ∈ w.parameters, p.name = x.1.parameter → ∀ t ∈ w.fellows p, t.accepts x.2) :
    (∀ x ∈ replies, ∀ n, x.1.AsksFor n →
      (Asks (c.compile r s₂).1 n ↔ ∀ y ∈ replies, n ∉ concerned w y.1)) ∧
    ∀ x ∈ replies, ∀ p ∈ w.parameters, p.name = x.1.parameter → ¬ w.Elsewhere p x.1.context →
      ∀ n, x.1.AsksFor n → ¬ Asks (c.compile r s₂).1 n := by
  obtain ⟨goal, w', given, order, resolution, hgoal, hchoose, hprepare, hresolve, rfl, rfl⟩ :=
    resolved_of_needsInput hfirst
  obtain ⟨rfl, hd⟩ := eq_of_choose hregistry hchoose hw
  obtain ⟨htext, hvector⟩ := Goal.analyse_eq_ok hgoal
  have hwhole : ∀ term, Excerpt.of? goal.text term c.resolver.settings.snippetMaxChars
      c.resolver.settings.snippetWindow = some goal.text :=
    Excerpt.of?_of_short (by rwa [htext]) (by rwa [htext])
  -- compiled again at once, nothing would have changed
  obtain ⟨-, -, -, hempty₁, hopen, -⟩ := Resolver.again_resolve htiers hhandler hm hwhole (hnear _ hvector) hd
    hempty (hempty ▸ Learned.nil) hresolve
  have hcontext : ∀ u ∈ resolution.unresolved, u.context = goal.text := fun u hu => (hopen u hu).1
  have hlearned : Learned w' goal.vector ((replies.flatMap fun x => concerned w' x.1) ++ [])
      (view s₂.memory) := by
    refine learned_submits hm hd hw (fun x hx => ⟨?_, (hreplies x hx).2⟩) (hempty₁ ▸ Learned.nil) hsubmits
    obtain ⟨u, hu, p, hp, -, hx⟩ := Workflow.mem_questions hcontext (hreplies x hx).1
    rw [hx, Workflow.context_question, htext, hvector]
  obtain ⟨again, s', hagain, -, -, hleft⟩ := Resolver.again_resolve htiers hhandler hm hwhole (hnear _ hvector)
    hd hempty hlearned hresolve
  have hasks : ∀ x ∈ replies, ∀ n, x.1.AsksFor n →
      (Asks (c.compile r s₂).1 n ↔ ∀ y ∈ replies, n ∉ concerned w' y.1) := by
    intro x hx n hn
    obtain ⟨u, hu, p, hp, hname, hxq⟩ := Workflow.mem_questions hcontext (hreplies x hx).1
    have hconcerned : ∀ m ∈ (w'.targets p.name goal.text).map Parameter.name,
        m ∈ (replies.flatMap fun x => concerned w' x.1) ++ [] := by
      intro m hm
      rw [List.append_nil]
      exact List.mem_flatMap.mpr ⟨x, hx, by rwa [hxq, concerned_question]⟩
    rw [compile_of_resolved hgoal hchoose hprepare hagain, asks_finish, hleft,
      Workflow.asksFor_unanswered_iff hd hcontext hu hp hname hconcerned (hxq ▸ hn)]
    simp
  refine ⟨hasks, fun x hx p hp hname helsewhere n hn => ?_⟩
  rw [hasks x hx n hn]
  obtain ⟨u, hu, p', hp', -, hxq⟩ := Workflow.mem_questions hcontext (hreplies x hx).1
  rw [hxq, Workflow.parameter_question] at hname
  obtain rfl := Workflow.eq_of_name hd hp hp' hname
  rw [hxq, Workflow.context_question] at helsewhere
  have hmeant := Workflow.mem_targets_of_asksFor hd hp helsewhere (hxq ▸ hn)
  exact fun hnone => hnone x hx (by rwa [hxq, concerned_question])

/-- A compiler with an empty memory and nobody to ask. It knows the vector of one goal. -/
def inquirer : Compiler Records where
  registry := ⟨[Resolver.tallTable]⟩
  resolver :=
    { services :=
        { embedder := .oneByOne "table" "table" fun text =>
            .ok (if text = "the left leg" then [1.0] else [0.0])
          memory := Records.memory
          handler := none
          stamp := fun _ => ⟨⟨0⟩, ⟨""⟩⟩ } }

/-- The goal speaks of the left leg, and asks for both. -/
def leftLegRequest : CompileRequest where
  goal := "the left leg"
  workflow := some "table"

def leftQuestion : Question := Resolver.tallTable.question Resolver.tallTable.parameters[0] "the left leg"

def rightQuestion : Question := Resolver.tallTable.question Resolver.tallTable.parameters[1] "the left leg"

def legReplies : List (Question × Json) := [(leftQuestion, .int 2), (rightQuestion, .int 1)]

/-- Both replies are taken, but learned for the left leg. -/
theorem submits_legReplies : ∃ s₁ s₂,
    inquirer.compile leftLegRequest ⟨[], [], 0⟩ = (.ok (.needsInput "table" [leftQuestion, rightQuestion]), s₁) ∧
      inquirer.Submits "table" s₁ legReplies s₂ ∧
      (inquirer.compile leftLegRequest s₂).1 = .ok (.needsInput "table" [rightQuestion]) := by
  obtain ⟨s₁, hs₁⟩ : ∃ s₁, s₁ = (inquirer.compile leftLegRequest ⟨[], [], 0⟩).2 := ⟨_, rfl⟩
  obtain ⟨s, hs⟩ : ∃ s, s = (inquirer.clarify "table" ⟨"left_leg", .int 2, "the left leg"⟩ s₁).2 := ⟨_, rfl⟩
  obtain ⟨s₂, hs₂⟩ : ∃ s₂, s₂ = (inquirer.clarify "table" ⟨"right_leg", .int 1, "the left leg"⟩ s).2 := ⟨_, rfl⟩
  have hfirst : (inquirer.compile leftLegRequest ⟨[], [], 0⟩).1 =
      .ok (.needsInput "table" [leftQuestion, rightQuestion]) := by decide +kernel
  have hleft : (inquirer.clarify "table" ⟨"left_leg", .int 2, "the left leg"⟩ s₁).1 =
      .ok (.accepted ["left_leg"]) := by
    rw [hs₁]
    decide +kernel
  have hright : (inquirer.clarify "table" ⟨"right_leg", .int 1, "the left leg"⟩ s).1 =
      .ok (.accepted ["left_leg"]) := by
    rw [hs, hs₁]
    decide +kernel
  refine ⟨s₁, s₂, Prod.ext hfirst hs₁.symm, ?_, ?_⟩
  · exact .cons (Prod.ext hleft hs.symm) (.cons (Prod.ext hright hs₂.symm) (.nil s₂))
  · rw [hs₂, hs, hs₁]
    decide +kernel

theorem leftLegRequest_fits : Registry.ofList [Resolver.tallTable] = .ok inquirer.registry ∧
    Text.trim leftLegRequest.goal = leftLegRequest.goal ∧
    leftLegRequest.goal.length ≤ inquirer.resolver.settings.snippetMaxChars ∧
    ∀ v, inquirer.resolver.services.embedder.embed leftLegRequest.goal = .ok v →
      inquirer.resolver.settings.memory ≤ Embedding.similarity v v := by
  refine ⟨by decide +kernel, by decide +kernel, by decide +kernel, fun v hv => ?_⟩
  obtain rfl : [1.0] = v := Except.ok.inj hv
  decide +kernel

/-- Either leg takes either reply. -/
theorem legReplies_fit : ∀ x ∈ legReplies, x.1 ∈ [leftQuestion, rightQuestion] ∧
    ∀ p ∈ Resolver.tallTable.parameters, p.name = x.1.parameter →
      ∀ t ∈ Resolver.tallTable.fellows p, t.accepts x.2 := by
  decide +kernel

/-- The right leg was replied for, in the context of its question and with a value that either leg takes, and is
asked for again. -/
theorem asks_again_rightLeg :
    (Registry.ofList [Resolver.tallTable] = .ok inquirer.registry ∧
      Text.trim leftLegRequest.goal = leftLegRequest.goal ∧
      leftLegRequest.goal.length ≤ inquirer.resolver.settings.snippetMaxChars ∧
      ∀ v, inquirer.resolver.services.embedder.embed leftLegRequest.goal = .ok v →
        inquirer.resolver.settings.memory ≤ Embedding.similarity v v) ∧
    (∀ x ∈ legReplies, x.1 ∈ [leftQuestion, rightQuestion] ∧
      ∀ p ∈ Resolver.tallTable.parameters, p.name = x.1.parameter →
        ∀ t ∈ Resolver.tallTable.fellows p, t.accepts x.2) ∧
    ∃ s₁ s₂,
      inquirer.compile leftLegRequest ⟨[], [], 0⟩ =
        (.ok (.needsInput "table" [leftQuestion, rightQuestion]), s₁) ∧
      inquirer.Submits "table" s₁ legReplies s₂ ∧ rightQuestion.AsksFor "right_leg" ∧
      Asks (inquirer.compile leftLegRequest s₂).1 "right_leg" := by
  obtain ⟨s₁, s₂, hfirst, hsubmits, hsecond⟩ := submits_legReplies
  have hasks : rightQuestion.AsksFor "right_leg" := .inl (by decide +kernel)
  exact ⟨leftLegRequest_fits, legReplies_fit, s₁, s₂, hfirst, hsubmits, hasks, "table", _, hsecond,
    rightQuestion, List.mem_singleton_self _, hasks⟩

/-- The left leg is not asked for again: its reply was meant for it. -/
theorem asked_again_legReplies :
    inquirer.resolver.services.memory.Shows id ∧ inquirer.registry.get? "table" = some Resolver.tallTable ∧
    ∃ s₁ s₂,
      inquirer.compile leftLegRequest ⟨[], [], 0⟩ =
        (.ok (.needsInput "table" [leftQuestion, rightQuestion]), s₁) ∧
      inquirer.Submits "table" s₁ legReplies s₂ ∧
      (Asks (inquirer.compile leftLegRequest s₂).1 "right_leg" ↔
        ∀ y ∈ legReplies, "right_leg" ∉ concerned Resolver.tallTable y.1) ∧
      ¬ Asks (inquirer.compile leftLegRequest s₂).1 "left_leg" := by
  obtain ⟨s₁, s₂, hfirst, hsubmits, -⟩ := submits_legReplies
  obtain ⟨hregistry, htrim, hshort, hnear⟩ := leftLegRequest_fits
  have hw : inquirer.registry.get? "table" = some Resolver.tallTable := by decide +kernel
  obtain ⟨hagain, hmeant⟩ := asked_again_iff rfl rfl Records.memory_shows hregistry hw htrim hshort hnear rfl
    hfirst hsubmits legReplies_fit
  have hright : (rightQuestion, Json.int 1) ∈ legReplies := by simp [legReplies]
  have hleft : (leftQuestion, Json.int 2) ∈ legReplies := by simp [legReplies]
  refine ⟨Records.memory_shows, hw, s₁, s₂, hfirst, hsubmits,
    hagain _ hright "right_leg" (.inl (by decide +kernel)), ?_⟩
  refine hmeant _ hleft Resolver.tallTable.parameters[0] (by simp [Resolver.tallTable]) (by decide +kernel)
    (fun h => h.1 (by decide +kernel)) "left_leg" (.inl (by decide +kernel))

end Compiler

end GoalCompiler
