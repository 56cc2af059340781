import GoalCompiler.Proofs.Compilation.Reached
import GoalCompiler.Proofs.Workflow.Precedence

/-! Values that the caller gives, from the start of a compilation to its end. No resolution says anything of a
name that the caller gave, whatever the tiers find for it or for others of its group, and at every moment the
name is bound to what the caller gave. -/
namespace GoalCompiler

variable {σ : Type} {name : String}

/-! ### Resolution -/

namespace Case

variable {c : Case} {env : Services σ} {settings : ResolverSettings} {s : Session σ} {u : Unresolved}

theorem byAsking_ne_unsettled {handler : Handler} {context : String} :
    (c.byAsking env settings handler context s).1 ≠ .ok (.unsettled u) := by
  unfold byAsking
  split
  · exact nofun
  · exact nofun
  · split <;> exact nofun

theorem name_of_byFallback (h : (c.byFallback env settings s).1 = .ok (.unsettled u)) :
    u.name = c.parameter.name := by
  unfold byFallback at h
  split at h
  · cases h
  · split at h
    · cases h
    · split at h
      · cases h
      · split at h
        · cases h
          rfl
        · exact absurd h byAsking_ne_unsettled

end Case

section

variable {env : Services σ} {settings : ResolverSettings} {c : Case} {s s' : Session σ} {u : Unresolved}

/-- A tier leaves nothing open but the parameter that it was asked for. -/
theorem Tier.name_of_settle {t : Tier} (h : t.settle env settings c s = (.ok (some (.unsettled u)), s')) :
    u.name = c.parameter.name := by
  have hfst := congrArg Prod.fst h
  cases t with
  | modifier =>
    obtain ⟨a, -, ha⟩ := Option.map_eq_some_iff.mp (Except.ok.inj hfst)
    cases ha
  | learned =>
    have hnone : (c.byMemory env settings s).1 = some (.unsettled u) := Except.ok.inj hfst
    unfold Case.byMemory at hnone
    split at hnone
    · cases hnone
    · split at hnone <;> cases hnone
  | fallback =>
    obtain ⟨a, ha, hau⟩ := Outcome.map_eq_ok.mp hfst
    obtain rfl := Option.some.inj hau
    exact Case.name_of_byFallback ha

theorem Tier.name_of_firstAnswer {tiers : List Tier}
    (h : Tier.firstAnswer env settings c s tiers = (.ok (some (.unsettled u)), s')) :
    u.name = c.parameter.name := by
  induction tiers generalizing s with
  | nil => simp [Tier.firstAnswer] at h
  | cons t rest ih =>
    rw [Tier.firstAnswer] at h
    split at h
    · exact ih h
    · exact Tier.name_of_settle h

end

namespace Resolution

variable {r : Resolution} {given : Bindings}

/-- The name is neither settled nor left open. -/
structure Omits (r : Resolution) (name : String) : Prop where
  settled : name ∉ Dict.keys r.bindings
  unresolved : ∀ u ∈ r.unresolved, u.name ≠ name

theorem Omits.record (h : r.Omits name) {other : String} {b : Binding} (hne : other ≠ name) :
    (r.record other b).Omits name := by
  unfold Resolution.record
  split
  · exact h
  · refine ⟨fun hmem => ?_, h.unresolved⟩
    obtain ⟨e, he, rfl⟩ := List.mem_map.mp hmem
    rcases Dict.mem_insert he with rfl | he
    · exact hne rfl
    · exact h.settled (List.mem_map_of_mem he)

theorem Omits.recordAll (h : r.Omits name) {entries : List (String × Json)} {source : Source}
    (hne : ∀ e ∈ entries, e.1 ≠ name) :
    (entries.foldl (fun r (name, value) => r.record name ⟨value, source⟩) r).Omits name := by
  induction entries generalizing r with
  | nil => exact h
  | cons e rest ih =>
    obtain ⟨he, hrest⟩ := List.forall_mem_cons.mp hne
    exact ih (h.record he) hrest

/-- An answer may come with values for others, but what the caller gave is not among those that are taken. -/
theorem Omits.add (h : r.Omits name) (hgiven : given.isExplicit name) {a : Settlement}
    (ha : ∀ u, a = .unsettled u → u.name ≠ name) : (r.add given a).Omits name := by
  cases a with
  | values entries source =>
    refine h.recordAll fun e he => ?_
    rintro rfl
    simpa [hgiven] using (List.mem_filter.mp he).2
  | unsettled u =>
    refine ⟨h.settled, fun v hv => ?_⟩
    rcases List.mem_append.mp hv with hv | hv
    · exact h.unresolved v hv
    · exact ha v (List.mem_singleton.mp hv ▸ rfl)

end Resolution

namespace Resolver

variable {r : Resolver σ} {w : Workflow} {goal : Goal} {given : Bindings} {done resolution : Resolution}
  {s s' : Session σ}

theorem omits_resolveFrom {assignments : Dict Assignment} {ps : List Parameter}
    (hgiven : given.isExplicit name) (hd : done.Omits name)
    (h : r.resolveFrom w goal assignments given done s ps = (.ok resolution, s')) :
    resolution.Omits name := by
  induction ps generalizing done s with
  | nil =>
    obtain rfl := Except.ok.inj (congrArg Prod.fst h)
    exact hd
  | cons p rest ih =>
    rw [resolveFrom] at h
    split at h
    · exact ih hd h
    · rename_i hopen
      have hname : p.name ≠ name := by
        rintro rfl
        exact hopen (by simp [hgiven])
      split at h
      · cases congrArg Prod.fst h
      · exact ih hd h
      · rename_i answer s'' hanswer
        refine ih (hd.add hgiven fun u hu => ?_) h
        rw [Tier.name_of_firstAnswer (hu ▸ hanswer)]
        exact hname

/-- A resolution says nothing of what the caller gave. -/
theorem omits_resolve (hgiven : given.isExplicit name)
    (h : r.resolve w goal given s = (.ok resolution, s')) : resolution.Omits name := by
  unfold resolve at h
  split at h
  · cases congrArg Prod.fst h
  · exact omits_resolveFrom hgiven ⟨by simp [Dict.keys], by simp⟩ h

end Resolver

/-! ### Compilation -/

namespace Compiler

variable {c : Compiler σ} {w : Workflow} {goal : Goal} {r : CompileRequest} {s s' : Session σ}
  {given b : Bindings} {order : List ComputedParameter} {resolution : Resolution}

/-- The bindings at some moment of a compilation: once the request is taken in, during both passes over the
computed parameters, whether they come to an end or not, and while what was resolved is merged. -/
inductive Passes (c : Compiler σ) (w : Workflow) (goal : Goal) (r : CompileRequest) (s : Session σ) :
    Bindings → Prop
  | initial {b : Bindings} (h : w.initialBindings r.explicit = .ok b) : Passes c w goal r s b
  | computing {b : Bindings} {order : List ComputedParameter} (h : w.initialBindings r.explicit = .ok b)
    (horder : ComputedParameter.inOrder w = .ok order) (k : Nat) :
    Passes c w goal r s (b.compute (order.take k)).bindings
  | merging {given : Bindings} {order : List ComputedParameter} {resolution : Resolution} {s' : Session σ}
    (hprepare : prepare w r = .ok (given, order))
    (hresolve : c.resolver.resolve w goal given s = (.ok resolution, s')) (hcomplete : resolution.isComplete)
    (k : Nat) : Passes c w goal r s (merge given { resolution with bindings := resolution.bindings.take k })
  | recomputing {given : Bindings} {order : List ComputedParameter} {resolution : Resolution} {s' : Session σ}
    (hprepare : prepare w r = .ok (given, order))
    (hresolve : c.resolver.resolve w goal given s = (.ok resolution, s')) (hcomplete : resolution.isComplete)
    (k : Nat) : Passes c w goal r s ((merge given resolution).compute (order.take k)).bindings

/-- The last of these moments is the one that instructions are built from. -/
theorem passes_of_reaches (h : c.Reaches r s w b) : ∃ goal, c.Passes w goal r s b := by
  obtain ⟨goal, given, order, resolution, s', -, -, hprepare, hresolve, hcomplete, hb⟩ := h
  have hlast := Passes.recomputing hprepare hresolve hcomplete order.length
  rw [List.take_length, computed_eq_ok.mp hb] at hlast
  exact ⟨goal, hlast⟩

/-- A request that names its workflow compiles that one. -/
theorem workflow_of_reaches {workflow : String} (h : c.Reaches r s w b) (hname : r.workflow = some workflow) :
    c.registry.get? workflow = some w := by
  obtain ⟨goal, -, -, -, -, -, hchoose, -⟩ := h
  rw [hname, choose] at hchoose
  split at hchoose
  · rename_i hget
    rw [hget, Option.some.inj (Except.ok.inj hchoose)]
  · cases hchoose

theorem get?_merge (h : resolution.Omits name) (k : Nat) :
    Dict.get? (merge given { resolution with bindings := resolution.bindings.take k }) name =
      Dict.get? given name := by
  refine Bindings.get?_bindAll_of_forall_ne fun e he => ?_
  rintro rfl
  exact h.settled (List.mem_map_of_mem (List.mem_of_mem_take (List.mem_of_mem_filter he)))

theorem get?_prepare {b₀ : Bindings} (hb : w.initialBindings r.explicit = .ok b₀) (hname : b₀.isExplicit name)
    (h : prepare w r = .ok (given, order)) : Dict.get? given name = Dict.get? b₀ name := by
  obtain ⟨b, hb', h⟩ := Outcome.bind_eq_ok.mp h
  obtain rfl : b₀ = b := Except.ok.inj (hb.symm.trans hb')
  obtain ⟨order', -, h⟩ := Outcome.bind_eq_ok.mp h
  obtain ⟨b', hcomputed, h⟩ := Outcome.bind_eq_ok.mp h
  obtain ⟨rfl, -⟩ := Prod.mk.inj (Except.ok.inj h)
  rw [← Bindings.get?_compute hname order', computed_eq_ok.mp hcomputed]

theorem omits_of_prepare {b₀ : Bindings} (hb : w.initialBindings r.explicit = .ok b₀)
    (hname : b₀.isExplicit name) (hprepare : prepare w r = .ok (given, order))
    (hresolve : c.resolver.resolve w goal given s = (.ok resolution, s')) : resolution.Omits name :=
  Resolver.omits_resolve ((Bindings.isExplicit_congr (get?_prepare hb hname hprepare)).trans hname) hresolve

/-- No moment of a compilation takes from a name what the caller gave for it. -/
theorem get?_of_passes {b₀ : Bindings} (hb : w.initialBindings r.explicit = .ok b₀) (hname : b₀.isExplicit name)
    (h : c.Passes w goal r s b) : Dict.get? b name = Dict.get? b₀ name := by
  cases h with
  | initial h =>
    obtain rfl := Except.ok.inj (hb.symm.trans h)
    rfl
  | computing h _ k =>
    obtain rfl := Except.ok.inj (hb.symm.trans h)
    exact Bindings.get?_compute hname _
  | merging hprepare hresolve _ k =>
    rw [get?_merge (omits_of_prepare hb hname hprepare hresolve), get?_prepare hb hname hprepare]
  | @recomputing given order resolution _ hprepare hresolve _ k =>
    have hmerged : Dict.get? (merge given resolution) name = Dict.get? b₀ name := calc
      _ = Dict.get? (merge given
            { resolution with bindings := resolution.bindings.take resolution.bindings.length }) name := by
          rw [List.take_length]
      _ = Dict.get? given name := get?_merge (omits_of_prepare hb hname hprepare hresolve) _
      _ = Dict.get? b₀ name := get?_prepare hb hname hprepare
    rw [Bindings.get?_compute ((Bindings.isExplicit_congr hmerged).trans hname), hmerged]

/-- What the caller gives stays. At every moment of a compilation, up to the bindings that instructions come
of, a name that the caller gave is bound to the value given, and no resolution speaks of it. Of any bindings
whatever, those to a name that the caller gave are replaced by a later one of the caller and by nothing else. -/
theorem explicit_kept (c : Compiler σ) (w : Workflow) (r : CompileRequest) :
    (∀ name value b₀, (Dict.keys r.explicit).Nodup → (name, value) ∈ r.explicit →
      w.initialBindings r.explicit = .ok b₀ →
        ∃ v, w.Admits name value v ∧
          (∀ goal s b, c.Passes w goal r s b → Dict.get? b name = some ⟨v, .explicit⟩) ∧
          (∀ s b, c.Reaches r s w b → Dict.get? b name = some ⟨v, .explicit⟩) ∧
          ∀ goal s s' given order resolution, prepare w r = .ok (given, order) →
            c.resolver.resolve w goal given s = (.ok resolution, s') → resolution.Omits name) ∧
    ∀ (b : Bindings) (entries : List (String × Binding)) (name : String), b.isExplicit name →
      Dict.get? (b.bindAll entries) name = (Bindings.lastGiven entries name).or (Dict.get? b name) := by
  refine ⟨fun name value b₀ hd hmem hb => ?_, fun b entries name h => Bindings.get?_bindAll h entries⟩
  obtain ⟨v, hv, hget⟩ := Workflow.get?_bindExplicit hd hb hmem
  have hname := Bindings.isExplicit_of_get? hget
  have hkept : ∀ goal s b, c.Passes w goal r s b → Dict.get? b name = some ⟨v, .explicit⟩ :=
    fun goal s b hpasses => (get?_of_passes hb hname hpasses).trans hget
  refine ⟨v, hv, hkept, fun s b hreaches => ?_, fun goal s s' given order resolution hprepare hresolve =>
    omits_of_prepare hb hname hprepare hresolve⟩
  obtain ⟨goal, hpasses⟩ := passes_of_reaches hreaches
  exact hkept goal s b hpasses

/-- The caller has an area in mind, though it can be worked out, and a right leg, but no left one. -/
def ownLegRequest : CompileRequest where
  goal := "a wide table with tall legs"
  explicit := [("area", .float 9.0), ("right_leg", .float 2.0)]
  workflow := some "table"

def ownLegBindings : Bindings :=
  [("area", ⟨.float 9.0, .explicit⟩), ("depth", ⟨.int 3, .default⟩), ("left_leg", ⟨.int 1, .default⟩),
   ("right_leg", ⟨.int 2, .explicit⟩), ("width", ⟨.int 2, .default⟩)]

def ownLegInstruction : Instruction where
  tool := "build_table"
  params := [("area", .float 9.0), ("leg", .int 7)]
  provenance := [("area", .explicit), ("left_leg", .clarified)]

/-- The reply for both legs is taken for the left one only. -/
theorem explicit_kept_ownLeg :
    ((Dict.keys ownLegRequest.explicit).Nodup ∧ ("right_leg", Json.float 2.0) ∈ ownLegRequest.explicit ∧
      joinery.initialBindings ownLegRequest.explicit = .ok ownLegBindings ∧
      (joiner.compile ownLegRequest ⟨[], [], 0⟩).1 = .ok (.ready "table" [ownLegInstruction]) ∧
      ∃ v b, joinery.Admits "right_leg" (.float 2.0) v ∧ joiner.Reaches ownLegRequest ⟨[], [], 0⟩ joinery b ∧
        Dict.get? b "right_leg" = some ⟨v, .explicit⟩) ∧
    ownLegBindings.isExplicit "area" ∧
      Dict.get? (ownLegBindings.bindAll [("area", ⟨.int 20, .computed⟩), ("area", ⟨.int 8, .explicit⟩),
        ("area", ⟨.int 1, .clarified⟩)]) "area" = some ⟨.int 8, .explicit⟩ := by
  have hd : (Dict.keys ownLegRequest.explicit).Nodup := by decide +kernel
  have hmem : ("right_leg", Json.float 2.0) ∈ ownLegRequest.explicit := by simp [ownLegRequest]
  have hb : joinery.initialBindings ownLegRequest.explicit = .ok ownLegBindings := by decide +kernel
  have hready : (joiner.compile ownLegRequest ⟨[], [], 0⟩).1 = .ok (.ready "table" [ownLegInstruction]) := by
    decide +kernel
  have harea : ownLegBindings.isExplicit "area" := by decide +kernel
  obtain ⟨w, b, hreaches, -, -⟩ := reaches_of_ready hready
  obtain rfl : joinery = w := by
    have hget : joiner.registry.get? "table" = some joinery := by decide +kernel
    exact Option.some.inj (hget.symm.trans (workflow_of_reaches hreaches rfl))
  obtain ⟨v, hv, -, hkept, -⟩ := (explicit_kept joiner joinery ownLegRequest).1 _ _ _ hd hmem hb
  refine ⟨⟨hd, hmem, hb, hready, v, b, hv, hreaches, hkept _ b hreaches⟩, harea, ?_⟩
  rw [(explicit_kept joiner joinery ownLegRequest).2 _ _ _ harea]
  rfl

end Compiler

end GoalCompiler
