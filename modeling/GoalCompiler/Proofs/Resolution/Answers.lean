import GoalCompiler.Proofs.Dictionary
import GoalCompiler.Proofs.Workflow.Acceptance
import GoalCompiler.Resolution.Resolver

/-! What the tiers answer. Whether a value was assigned by a modifier, remembered, given as an answer or
declared as the default, it is one that the parameter takes to which it is given. -/
namespace GoalCompiler

namespace Workflow

variable {w : Workflow}

theorem mem_of_targets {name context : String} {p : Parameter} (h : p ∈ w.targets name context) :
    p ∈ w.parameters := by
  unfold targets at h
  split at h
  · simp at h
  · rename_i q hq
    have hmem : q ∈ w.parameters := List.mem_of_find?_eq_some hq
    split at h
    · rwa [List.mem_singleton.mp h]
    · rename_i group _
      simp only [groupTargets] at h
      split_ifs at h
      · exact List.mem_of_mem_filter h
      · split at h
        · rwa [List.mem_singleton.mp h]
        · exact List.mem_of_mem_filter (List.mem_of_mem_filter h)

theorem takes_targetValues (hd : (w.parameters.map Parameter.name).Nodup) {name context : String}
    {value : Json} : ∀ e ∈ w.targetValues name context value, w.Takes e.1 e.2 := by
  intro e he
  obtain ⟨p, hp, he⟩ := List.mem_filterMap.mp he
  split at he
  · rename_i v hv
    obtain rfl := Option.some.inj he
    exact takes_of_accept hd (mem_of_targets hp) hv
  · simp at he

/-- Every assignment is a value that the parameter takes. -/
def Assigns (w : Workflow) (assigned : Dict Assignment) : Prop :=
  ∀ e ∈ assigned, w.Takes e.1 e.2.value

/-- What a modifier offers with the value for one name. -/
def valueOffers (w : Workflow) (m : Modifier) (aligned : Nat) (e : String × Json) : List (String × Assignment) :=
  (w.targets e.1 m.phrase).filterMap fun p =>
    match p.accept e.2 with
    | .ok v => some (p.name, ⟨v, m.phrase, aligned, p.name == e.1⟩)
    | .error _ => none

theorem mem_valueOffers {m : Modifier} {aligned : Nat} {e : String × Json} {n : String} {a : Assignment} :
    (n, a) ∈ w.valueOffers m aligned e ↔ ∃ t ∈ w.targets e.1 m.phrase, t.name = n ∧
      ∃ v, t.accept e.2 = .ok v ∧ a = ⟨v, m.phrase, aligned, t.name == e.1⟩ := by
  rw [valueOffers, List.mem_filterMap]
  refine exists_congr fun t => and_congr_right fun _ => ?_
  cases t.accept e.2 with
  | ok v => simp [eq_comm]
  | error _ => simp

theorem assigns_offers (hd : (w.parameters.map Parameter.name).Nodup) {m : Modifier} {aligned : Nat} :
    w.Assigns (w.offers m aligned) := by
  rintro ⟨n, a⟩ hmem
  obtain ⟨e, -, hmem⟩ := List.mem_flatMap.mp hmem
  obtain ⟨t, ht, rfl, v, hv, rfl⟩ := mem_valueOffers.mp hmem
  exact takes_of_accept hd (mem_of_targets ht) hv

theorem assigns_offer {assigned : Dict Assignment} {name : String} {a : Assignment}
    (h : w.Assigns assigned) (ha : w.Takes name a.value) :
    w.Assigns (Assignment.offer assigned name a) := by
  have hinsert : w.Assigns (Dict.insert assigned name a) := fun e he => by
    rcases Dict.mem_insert he with rfl | he
    · exact ha
    · exact h e he
  unfold Assignment.offer
  split
  · split
    · exact hinsert
    · exact h
  · exact hinsert

theorem assigns_offerAll {offered : List (String × Assignment)} {assigned : Dict Assignment}
    (h : w.Assigns assigned) (ho : w.Assigns offered) :
    w.Assigns (offered.foldl (fun assigned (p, a) => Assignment.offer assigned p a) assigned) := by
  induction offered generalizing assigned with
  | nil => exact h
  | cons e rest ih =>
    obtain ⟨he, hrest⟩ := List.forall_mem_cons.mp ho
    exact ih (assigns_offer h he) hrest

theorem assigns_assignments (hd : (w.parameters.map Parameter.name).Nodup)
    {found : List ModifierMatch} : w.Assigns (w.assignments found) := by
  refine assigns_offerAll (by simp [Assigns]) fun e he => ?_
  obtain ⟨f, -, he⟩ := List.mem_flatMap.mp he
  split at he
  · exact assigns_offers hd e he
  · simp at he

end Workflow

/-- The answer gives to parameters only what they take. -/
def Settlement.Sound (w : Workflow) : Settlement → Prop
  | .values entries _ => ∀ e ∈ entries, w.Takes e.1 e.2
  | .unsettled _ => True

namespace Case

/-- The case of a parameter that is not computed, in a workflow that passed validation. -/
structure Proper (c : Case) : Prop where
  fit : c.workflow.Fit
  mem : c.parameter ∈ c.workflow.parameters
  given : ¬ c.parameter.isComputed
  assigns : c.workflow.Assigns c.assignments

variable {σ : Type} {c : Case} {env : Services σ} {settings : ResolverSettings} {s s' : Session σ}

theorem sound_settled {v : Json} {source : Source} (h : c.workflow.Takes c.parameter.name v) :
    (c.settled v source).Sound c.workflow := by
  intro e he
  obtain rfl := List.mem_singleton.mp he
  exact h

theorem Proper.takes (hc : c.Proper) {value v : Json} (h : c.parameter.accept value = .ok v) :
    c.workflow.Takes c.parameter.name v :=
  Workflow.takes_of_accept hc.fit.distinct hc.mem h

theorem sound_byDefault (hc : c.Proper) : c.byDefault.Sound c.workflow :=
  sound_settled (Workflow.takes_default hc.fit hc.mem hc.given)

theorem sound_byModifier (hc : c.Proper) {a : Settlement} (h : c.byModifier = some a) :
    a.Sound c.workflow := by
  obtain ⟨assignment, hget, rfl⟩ := Option.map_eq_some_iff.mp h
  exact sound_settled (hc.assigns _ (Dict.mem_of_get? hget))

theorem accept_of_firstValid? {least : Float32} {found : List Match} {m : Match} {v : Json}
    (h : c.firstValid? least found = some (m, v)) : c.parameter.accept m.mapping.value = .ok v := by
  induction found with
  | nil => simp [firstValid?] at h
  | cons f rest ih =>
    rw [firstValid?] at h
    split at h
    · exact ih h
    · split at h
      · rename_i u hu
        obtain ⟨rfl, rfl⟩ := Prod.mk.inj (Option.some.inj h)
        exact hu
      · exact ih h

theorem sound_byMemory (hc : c.Proper) {a : Settlement}
    (h : (c.byMemory env settings s).1 = some a) : a.Sound c.workflow := by
  unfold byMemory at h
  split at h
  · simp at h
  · split at h
    · simp at h
    · rename_i m v hfirst
      obtain rfl := Option.some.inj h
      exact sound_settled (hc.takes (accept_of_firstValid? hfirst))

theorem sound_byAsking (hc : c.Proper) {handler : Handler} {context : String} {a : Settlement}
    (h : (c.byAsking env settings handler context s).1 = .ok a) : a.Sound c.workflow := by
  unfold byAsking at h
  split at h
  · obtain rfl := Except.ok.inj h
    exact Workflow.takes_targetValues hc.fit.distinct
  · obtain rfl := Except.ok.inj h
    exact sound_byDefault hc
  · split at h
    · obtain rfl := Except.ok.inj h
      exact sound_byDefault hc
    · simp at h

theorem sound_byFallback (hc : c.Proper) {a : Settlement}
    (h : (c.byFallback env settings s).1 = .ok a) : a.Sound c.workflow := by
  unfold byFallback at h
  split at h
  · simp at h
  · split at h
    · obtain rfl := Except.ok.inj h
      exact sound_byDefault hc
    · split at h
      · simp at h
      · split at h
        · obtain rfl := Except.ok.inj h
          trivial
        · exact sound_byAsking hc h

end Case

/-! ### Resolution -/

section Resolve

variable {σ : Type} {w : Workflow} {env : Services σ} {settings : ResolverSettings}

theorem Tier.sound_settle {t : Tier} {c : Case} {s s' : Session σ} {a : Settlement} (hc : c.Proper)
    (h : t.settle env settings c s = (.ok (some a), s')) : a.Sound c.workflow := by
  have hfst := congrArg Prod.fst h
  cases t with
  | modifier => exact Case.sound_byModifier hc (Except.ok.inj hfst)
  | learned => exact Case.sound_byMemory hc (Except.ok.inj hfst)
  | fallback =>
    obtain ⟨a', ha', haa⟩ := Outcome.map_eq_ok.mp hfst
    obtain rfl := Option.some.inj haa
    exact Case.sound_byFallback hc ha'

theorem Tier.sound_firstAnswer {tiers : List Tier} {c : Case} {s s' : Session σ} {a : Settlement}
    (hc : c.Proper) (h : Tier.firstAnswer env settings c s tiers = (.ok (some a), s')) :
    a.Sound c.workflow := by
  induction tiers generalizing s with
  | nil => simp [Tier.firstAnswer] at h
  | cons t rest ih =>
    rw [Tier.firstAnswer] at h
    split at h
    · exact ih h
    · exact Tier.sound_settle hc h

namespace Resolution

/-- Every value that was found is one that the parameter takes. -/
def Sound (w : Workflow) (r : Resolution) : Prop := ∀ e ∈ r.bindings, w.Takes e.1 e.2.value

theorem sound_record {r : Resolution} {name : String} {b : Binding} (h : r.Sound w)
    (hb : w.Takes name b.value) : (r.record name b).Sound w := by
  unfold record
  split
  · exact h
  · intro e he
    rcases Dict.mem_insert he with rfl | he
    · exact hb
    · exact h e he

theorem sound_recordAll {r : Resolution} {entries : List (String × Json)} {source : Source}
    (h : r.Sound w) (he : ∀ e ∈ entries, w.Takes e.1 e.2) :
    (entries.foldl (fun r (name, value) => r.record name ⟨value, source⟩) r).Sound w := by
  induction entries generalizing r with
  | nil => exact h
  | cons e rest ih =>
    obtain ⟨hhead, hrest⟩ := List.forall_mem_cons.mp he
    exact ih (sound_record h hhead) hrest

theorem sound_add {r : Resolution} {given : Bindings} {a : Settlement} (h : r.Sound w)
    (ha : a.Sound w) : (r.add given a).Sound w := by
  cases a with
  | values entries source => exact sound_recordAll h fun e he => ha e (List.mem_of_mem_filter he)
  | unsettled u => exact h

end Resolution

namespace Resolver

variable {r : Resolver σ} {goal : Goal} {given : Bindings} {done resolution : Resolution}
  {s s' : Session σ}

theorem sound_resolveFrom {assignments : Dict Assignment} {ps : List Parameter} (hf : w.Fit)
    (ha : w.Assigns assignments) (hps : ps ⊆ w.parameters) (hd : done.Sound w)
    (h : r.resolveFrom w goal assignments given done s ps = (.ok resolution, s')) :
    resolution.Sound w := by
  induction ps generalizing done s with
  | nil =>
    obtain rfl := Except.ok.inj (congrArg Prod.fst h)
    exact hd
  | cons p rest ih =>
    have hrest : rest ⊆ w.parameters := fun q hq => hps (List.mem_cons_of_mem p hq)
    rw [resolveFrom] at h
    split at h
    · exact ih hrest hd h
    · rename_i hopen
      have hc : Case.Proper ⟨w, p, goal, assignments⟩ :=
        ⟨hf, hps List.mem_cons_self, fun hcomputed => hopen (by simp [hcomputed]), ha⟩
      split at h
      · simp at h
      · exact ih hrest hd h
      · rename_i answer s'' hanswer
        exact ih hrest (Resolution.sound_add hd (Tier.sound_firstAnswer hc hanswer)) h

/-- Whatever the tiers are and whatever they find, a resolution gives to parameters what they take. -/
theorem sound_resolve (hf : w.Fit) (h : r.resolve w goal given s = (.ok resolution, s')) :
    resolution.Sound w := by
  unfold resolve at h
  split at h
  · simp at h
  · exact sound_resolveFrom hf (Workflow.assigns_assignments hf.distinct) (List.Subset.refl _)
      (by simp [Resolution.Sound]) h

end Resolver

end Resolve

end GoalCompiler
