import GoalCompiler.Proofs.Resolution.Groups
import GoalCompiler.Proofs.Workflow.Precedence

/-! What a parameter is when nobody says anything about it, and what it is when the caller says the same. A default
is bound as it is written, and what the caller gives in the form in which it is taken: these are two values exactly
where a whole number is written as a double. -/
namespace GoalCompiler

/-! ### Bindings -/

namespace Dict

variable {α : Type} {m : Dict α} {k : String}

/-- A new key goes in between the others. -/
theorem exists_insert_eq (h : k ∉ keys m) (v : α) :
    ∃ front back, m = front ++ back ∧ insert m k v = front ++ (k, v) :: back := by
  induction m with
  | nil => exact ⟨[], [], rfl, rfl⟩
  | cons e rest ih =>
    obtain ⟨hne, hrest⟩ := List.ne_and_not_mem_of_not_mem_cons h
    rw [insert, if_neg hne]
    split_ifs with hlt
    · exact ⟨[], e :: rest, rfl, rfl⟩
    · obtain ⟨front, back, hrest, hinsert⟩ := ih hrest
      exact ⟨e :: front, back, by rw [hrest]; rfl, by rw [hinsert]; rfl⟩

end Dict

namespace Bindings

variable {b b' : Bindings} {n m : String} {v : Json} {source : Source} {entries : List (String × Binding)}

theorem bindAll_append {rest : List (String × Binding)} :
    b.bindAll (entries ++ rest) = (b.bindAll entries).bindAll rest := List.foldl_append

/-- What a name is bound to does not depend on what others are bound to. -/
theorem get?_bind_congr (h : Dict.get? b' n = Dict.get? b n) :
    Dict.get? (b'.bind m v source) n = Dict.get? (b.bind m v source) n := by
  by_cases hm : n = m
  · subst hm
    have hadmits : b'.admits n source = b.admits n source := by rw [admits, admits, isExplicit_congr h]
    rw [bind, bind, hadmits]
    split
    · rw [Dict.get?_insert_self, Dict.get?_insert_self]
    · exact h
  · rw [get?_bind_of_ne hm, get?_bind_of_ne hm, h]

theorem get?_bindAll_congr (h : Dict.get? b' n = Dict.get? b n) :
    Dict.get? (b'.bindAll entries) n = Dict.get? (b.bindAll entries) n := by
  induction entries generalizing b b' with
  | nil => exact h
  | cons e rest ih => exact ih (get?_bind_congr h)

theorem get?_bindAll_of_not_mem (h : n ∉ Dict.keys entries) : Dict.get? (b.bindAll entries) n = Dict.get? b n :=
  get?_bindAll_of_forall_ne fun _ he heq => h (heq ▸ List.mem_map_of_mem he)

/-- A name that is bound once, and may be, has that value. -/
theorem get?_bindAll_of_mem {x : Binding} (hd : (Dict.keys entries).Nodup) (hmem : (n, x) ∈ entries)
    (hadmits : b.admits n x.source) : Dict.get? (b.bindAll entries) n = some x := by
  induction entries generalizing b with
  | nil => cases hmem
  | cons e rest ih =>
    obtain ⟨hnew, hd⟩ := List.nodup_cons.mp hd
    rcases List.mem_cons.mp hmem with rfl | hmem
    · change Dict.get? ((b.bind n x.value x.source).bindAll rest) n = _
      rw [get?_bindAll_of_not_mem hnew, bind, if_pos hadmits, Dict.get?_insert_self]
    · have hne : n ≠ e.1 := fun heq => hnew (heq ▸ List.mem_map_of_mem hmem)
      refine ih hd hmem ?_
      rwa [admits, isExplicit_congr (get?_bind_of_ne hne)]

/-- Where the caller gives all the values, each of their names is one that the caller gave. -/
theorem isExplicit_bindAll (hall : ∀ e ∈ entries, e.2.source = .explicit) (hn : n ∈ Dict.keys entries) :
    (b.bindAll entries).isExplicit n := by
  induction entries generalizing b with
  | nil => cases hn
  | cons e rest ih =>
    obtain ⟨he, hrest⟩ := List.forall_mem_cons.mp hall
    by_cases hlater : n ∈ Dict.keys rest
    · exact ih hrest hlater
    · obtain rfl : n = e.1 := (List.mem_cons.mp hn).resolve_right hlater
      have hget : Dict.get? (b.bindAll (e :: rest)) e.1 = some ⟨e.2.value, .explicit⟩ := by
        refine (get?_bindAll_of_not_mem hlater).trans ?_
        change Dict.get? (b.bind e.1 e.2.value e.2.source) e.1 = _
        rw [he, get?_bind_explicit]
      exact isExplicit_of_get? hget

/-! One more binding among others. -/
section

variable {front back : List (String × Binding)}

theorem get?_bindAll_among (h : n ∉ Dict.keys back) :
    Dict.get? (b.bindAll (front ++ (n, ⟨v, .explicit⟩) :: back)) n = some ⟨v, .explicit⟩ := by
  rw [bindAll_append]
  exact (get?_bindAll_of_not_mem h).trans get?_bind_explicit

theorem get?_bindAll_among_of_ne {x : Binding} (h : n ≠ m) :
    Dict.get? (b.bindAll (front ++ (m, x) :: back)) n = Dict.get? (b.bindAll (front ++ back)) n := by
  rw [bindAll_append, bindAll_append]
  exact get?_bindAll_congr (get?_bind_of_ne h)

end

/-- Bindings that agree on all names but one mean the same exactly if that one has the same value. -/
theorem scope_eq_iff {v' : Json} (hothers : ∀ m ≠ n, Dict.get? b' m = Dict.get? b m) (hv : b.value? n = some v)
    (hv' : b'.value? n = some v') : b'.scope = b.scope ↔ v' = v := by
  constructor
  · intro h
    exact Option.some.inj (hv'.symm.trans ((congrFun h n).trans hv))
  · rintro rfl
    funext m
    by_cases hm : m = n
    · subst hm
      exact hv'.trans hv.symm
    · exact congrArg (Option.map Binding.value) (hothers m hm)

end Bindings

namespace Workflow

variable {w : Workflow} {p : Parameter} {b : Bindings} {explicit : Dict Json}

/-! ### Defaults -/

/-- What a parameter starts with: the default that the workflow has for it, or else its own. -/
def defaultOf (w : Workflow) (p : Parameter) : Json := (Dict.get? w.defaults p.name).getD p.default

theorem accepts_defaultOf (hf : w.Fit) (hp : p ∈ w.parameters) (hc : ¬ p.isComputed) :
    p.accepts (w.defaultOf p) := by
  unfold defaultOf
  cases hget : Dict.get? w.defaults p.name with
  | none => exact hf.standard p hp hc
  | some v => exact hf.preset (p.name, v) (Dict.mem_of_get? hget) p hp rfl

theorem defaultBindings_eq : w.defaultBindings =
    Bindings.bindAll (Bindings.bindAll []
        ((w.parameters.filter fun p => !p.isComputed).map fun p => (p.name, ⟨p.default, .default⟩)))
      (w.defaults.map fun e => (e.1, ⟨e.2, .default⟩)) := by
  simp only [defaultBindings, Bindings.bindAll, List.foldl_map]

theorem get?_defaultBindings (hd : (w.parameters.map Parameter.name).Nodup)
    (hdefaults : (Dict.keys w.defaults).Nodup) (hp : p ∈ w.parameters) (hc : ¬ p.isComputed) :
    Dict.get? w.defaultBindings p.name = some ⟨w.defaultOf p, .default⟩ := by
  have hown : Dict.get? (Bindings.bindAll [] ((w.parameters.filter fun p => !p.isComputed).map fun p =>
      (p.name, ⟨p.default, .default⟩))) p.name = some ⟨p.default, .default⟩ := by
    refine Bindings.get?_bindAll_of_mem ?_ ?_ rfl
    · rw [Dict.keys, List.map_map]
      exact hd.sublist (List.filter_sublist.map _)
    · exact List.mem_map.mpr ⟨p, List.mem_filter.mpr ⟨hp, by simpa using hc⟩, rfl⟩
  have hkeys : Dict.keys (w.defaults.map fun e => (e.1, (⟨e.2, .default⟩ : Binding))) = Dict.keys w.defaults := by
    rw [Dict.keys, List.map_map]
    rfl
  rw [defaultBindings_eq, defaultOf]
  cases hget : Dict.get? w.defaults p.name with
  | none =>
    refine (Bindings.get?_bindAll_of_not_mem fun hmem => ?_).trans hown
    have hcontains := Dict.contains_iff.mpr (hkeys ▸ hmem)
    simp [Dict.contains, hget] at hcontains
  | some v =>
    refine Bindings.get?_bindAll_of_mem (hkeys ▸ hdefaults) ?_ ?_
    · exact List.mem_map.mpr ⟨_, Dict.mem_of_get? hget, rfl⟩
    · simp [Bindings.admits, Bindings.isExplicit, Bindings.source?, hown]

/-! ### What the caller gives -/

/-- The binding of a value that the caller gives, in the form in which it is taken. -/
def given (w : Workflow) (e : String × Json) : Except Failure (String × Binding) :=
  match w.parameter? e.1 with
  | some p =>
    match p.accept e.2 with
    | .ok v => .ok (e.1, ⟨v, .explicit⟩)
    | .error e => .error (.value e)
  | none =>
    if Dict.contains w.defaults e.1 then .ok (e.1, ⟨e.2, .explicit⟩)
    else .error (.unknownParameter e.1 w.name)

/-- Whether the values can be given does not depend on what is bound. -/
theorem bindExplicit_eq {entries : List (String × Json)} :
    w.bindExplicit b entries = (entries.mapM w.given).map b.bindAll := by
  induction entries generalizing b with
  | nil => rfl
  | cons e rest ih =>
    obtain ⟨name, value⟩ := e
    rw [bindExplicit, List.mapM_cons, given]
    cases w.parameter? name with
    | some p =>
      dsimp only
      cases p.accept value with
      | error e => rfl
      | ok v =>
        simp only [ih]
        cases rest.mapM w.given <;> rfl
    | none =>
      dsimp only
      split
      · simp only [ih]
        cases rest.mapM w.given <;> rfl
      · rfl

theorem given_eq_ok {e : String × Json} {g : String × Binding} :
    w.given e = .ok g ↔ ∃ v, w.Admits e.1 e.2 v ∧ (e.1, ⟨v, .explicit⟩) = g := by
  unfold given Admits
  cases w.parameter? e.1 with
  | some p =>
    dsimp only
    cases p.accept e.2 <;> simp
  | none =>
    dsimp only
    split_ifs with hcontains <;> simp [hcontains]

theorem keys_of_given {entries : List (String × Json)} {gs : List (String × Binding)}
    (h : entries.mapM w.given = .ok gs) : Dict.keys gs = Dict.keys entries := by
  induction Outcome.mapM_eq_ok.mp h with
  | nil => rfl
  | @cons e g entries gs he hrest ih =>
    obtain ⟨v, -, rfl⟩ := given_eq_ok.mp he
    exact congrArg (e.1 :: ·) (ih (Outcome.mapM_eq_ok.mpr hrest))

theorem source_of_given {entries : List (String × Json)} {gs : List (String × Binding)}
    (h : entries.mapM w.given = .ok gs) : ∀ g ∈ gs, g.2.source = .explicit := by
  intro g hg
  obtain ⟨e, -, he⟩ := Outcome.exists_of_mem_mapM h hg
  obtain ⟨v, -, rfl⟩ := given_eq_ok.mp he
  rfl

theorem given_of_accept (hd : (w.parameters.map Parameter.name).Nodup) (hp : p ∈ w.parameters) {value v : Json}
    (h : p.accept value = .ok v) : w.given (p.name, value) = .ok (p.name, ⟨v, .explicit⟩) := by
  refine given_eq_ok.mpr ⟨v, ?_, rfl⟩
  rw [Admits, parameter?_eq hd hp]
  exact h

/-- What the caller does not give is the default. -/
theorem get?_initialBindings (hd : (w.parameters.map Parameter.name).Nodup)
    (hdefaults : (Dict.keys w.defaults).Nodup) (hp : p ∈ w.parameters) (hc : ¬ p.isComputed)
    (h : w.initialBindings explicit = .ok b) (hn : ¬ b.isExplicit p.name) :
    Dict.get? b p.name = some ⟨w.defaultOf p, .default⟩ := by
  rw [initialBindings, bindExplicit_eq] at h
  obtain ⟨gs, hgs, rfl⟩ := Outcome.map_eq_ok.mp h
  have homitted : p.name ∉ Dict.keys gs := fun hmem =>
    hn (Bindings.isExplicit_bindAll (source_of_given hgs) hmem)
  exact (Bindings.get?_bindAll_of_not_mem homitted).trans (get?_defaultBindings hd hdefaults hp hc)

/-- With one more value that can be given, what can be given stays so, and what cannot fails as before. -/
theorem initialBindings_insert {n : String} {value : Json} {x : Binding} (hn : n ∉ Dict.keys explicit)
    (hx : w.given (n, value) = .ok (n, x)) :
    (∃ e, w.initialBindings explicit = .error e ∧ w.initialBindings (Dict.insert explicit n value) = .error e) ∨
    ∃ before after, n ∉ Dict.keys before ∧ n ∉ Dict.keys after ∧
      w.initialBindings explicit = .ok (w.defaultBindings.bindAll (before ++ after)) ∧
      w.initialBindings (Dict.insert explicit n value) =
        .ok (w.defaultBindings.bindAll (before ++ (n, x) :: after)) := by
  obtain ⟨front, back, rfl, hinsert⟩ := Dict.exists_insert_eq hn value
  rw [hinsert, initialBindings, initialBindings, bindExplicit_eq, bindExplicit_eq, List.mapM_append,
    List.mapM_append, List.mapM_cons, hx]
  rw [Dict.keys, List.map_append, List.mem_append, not_or] at hn
  cases hfront : front.mapM w.given with
  | error e => exact .inl ⟨e, rfl, rfl⟩
  | ok before =>
    cases hback : back.mapM w.given with
    | error e => exact .inl ⟨e, rfl, rfl⟩
    | ok after =>
      refine .inr ⟨before, after, ?_, ?_, rfl, rfl⟩
      · rw [keys_of_given hfront]
        exact hn.1
      · rw [keys_of_given hback]
        exact hn.2

end Workflow

namespace Parameter

variable {p : Parameter} {value v : Json}

/-- A value is taken as it is, unless it is a whole number that is written as a double. -/
theorem eq_iff_of_accept (h : p.accept value = .ok v) : v = value ↔ ¬ (p.type = .int ∧ ∃ x, value = .float x) := by
  obtain ⟨hcoerce, -, -⟩ := accept_eq_ok.mp h
  constructor
  · rintro rfl ⟨htype, x, rfl⟩
    rw [htype] at hcoerce
    obtain ⟨n, -, hn⟩ := Option.map_eq_some_iff.mp hcoerce
    cases hn
  · intro hnot
    rcases eq_or_whole_of_coerce? hcoerce with heq | ⟨x, n, rfl, rfl, -⟩
    · exact heq
    · cases htype : p.type with
      | int => exact absurd ⟨htype, x, rfl⟩ hnot
      | _ => simp [htype, ValueType.coerce?] at hcoerce

end Parameter

namespace Workflow

variable {w : Workflow} {p : Parameter} {b : Bindings} {explicit : Dict Json}

/-- To give a parameter its default is as good as to omit it, and fails only where that fails. All names mean the same
either way exactly if the parameter is not one for whole numbers with a default that is written as a double: that
one is the double where it is omitted, and the whole number where it is given. -/
theorem stated_default_iff (hvalid : w.validate = .ok ()) (hdefaults : (Dict.keys w.defaults).Nodup)
    (hp : p ∈ w.parameters) (hc : ¬ p.isComputed) (homitted : p.name ∉ Dict.keys explicit) :
    (∀ e, w.initialBindings (Dict.insert explicit p.name (w.defaultOf p)) = .error e ↔
      w.initialBindings explicit = .error e) ∧
    ∀ b, w.initialBindings explicit = .ok b →
      ∃ b' v, w.initialBindings (Dict.insert explicit p.name (w.defaultOf p)) = .ok b' ∧
        p.accept (w.defaultOf p) = .ok v ∧
        b.value? p.name = some (w.defaultOf p) ∧ b'.value? p.name = some v ∧
        (∀ n ≠ p.name, Dict.get? b' n = Dict.get? b n) ∧
        (b'.scope = b.scope ↔ ¬ (p.type = .int ∧ ∃ x, w.defaultOf p = .float x)) := by
  have hf := fit_of_validate hvalid
  obtain ⟨v, hv⟩ := Parameter.accepts_iff.mp (accepts_defaultOf hf hp hc)
  rcases initialBindings_insert homitted (given_of_accept hf.distinct hp hv) with
    ⟨e, hexplicit, hstated⟩ | ⟨before, after, hbefore, hafter, hexplicit, hstated⟩
  · rw [hexplicit, hstated]
    exact ⟨fun _ => Iff.rfl, fun b hb => nomatch hb⟩
  rw [hexplicit, hstated]
  refine ⟨fun e => iff_of_false nofun nofun, ?_⟩
  rintro b ⟨⟩
  have homit : (w.defaultBindings.bindAll (before ++ after)).value? p.name = some (w.defaultOf p) := by
    rw [Bindings.value?, Bindings.bindAll_append, Bindings.get?_bindAll_of_not_mem hafter,
      Bindings.get?_bindAll_of_not_mem hbefore, get?_defaultBindings hf.distinct hdefaults hp hc]
    rfl
  have hstate : (w.defaultBindings.bindAll (before ++ (p.name, ⟨v, .explicit⟩) :: after)).value? p.name = some v := by
    rw [Bindings.value?, Bindings.get?_bindAll_among hafter]
    rfl
  have hothers : ∀ n ≠ p.name, Dict.get? (w.defaultBindings.bindAll (before ++ (p.name, ⟨v, .explicit⟩) :: after)) n =
      Dict.get? (w.defaultBindings.bindAll (before ++ after)) n := fun n hn => Bindings.get?_bindAll_among_of_ne hn
  refine ⟨_, v, rfl, hv, homit, hstate, hothers, ?_⟩
  rw [Bindings.scope_eq_iff hothers homit hstate, Parameter.eq_iff_of_accept hv]

/-- A bench that has three legs unless it is said otherwise. -/
def bench : Workflow where
  name := "bench"
  parameters :=
    [{ name := "legs", type := .int, default := .int 4 },
     { name := "width", type := .float, default := .int 1 }]
  defaults := [("legs", .int 3)]

theorem stated_default_bench :
    (bench.validate = .ok () ∧ (Dict.keys bench.defaults).Nodup ∧ ¬ bench.parameters[0].isComputed ∧
      bench.parameters[0].name ∉ Dict.keys [("width", Json.float 1.5)]) ∧
    ∃ b b', bench.initialBindings [("width", .float 1.5)] = .ok b ∧
      bench.initialBindings [("legs", .int 3), ("width", .float 1.5)] = .ok b' ∧
      b.value? "legs" = some (.int 3) ∧ b'.scope = b.scope := by
  have hvalid : bench.validate = .ok () := by decide +kernel
  have hdefaults : (Dict.keys bench.defaults).Nodup := by decide
  have hp : bench.parameters[0] ∈ bench.parameters := List.getElem_mem (by decide)
  have hc : ¬ bench.parameters[0].isComputed := by decide
  have homitted : bench.parameters[0].name ∉ Dict.keys [("width", Json.float 1.5)] := by decide
  obtain ⟨b, hb⟩ : ∃ b, bench.initialBindings [("width", .float 1.5)] = .ok b := ⟨_, rfl⟩
  obtain ⟨b', -, hb', -, hvalue, -, -, hscope⟩ := (stated_default_iff hvalid hdefaults hp hc homitted).2 b hb
  refine ⟨⟨hvalid, hdefaults, hc, homitted⟩, b, b', hb, hb', hvalue, hscope.mpr ?_⟩
  rintro ⟨-, x, hx⟩
  cases hx

/-- A stool has three legs, which is written as a double. -/
def stool : Workflow where
  name := "stool"
  parameters := [{ name := "legs", type := .int, default := .float 3.0 }]

/-- Three legs are not the same as three legs that are asked for. -/
theorem omitted_stool :
    stool.validate = .ok () ∧ stool.defaultOf stool.parameters[0] = .float 3.0 ∧
    ∃ b b', stool.initialBindings [] = .ok b ∧ stool.initialBindings [("legs", .float 3.0)] = .ok b' ∧
      b.scope "legs" = some (.float 3.0) ∧ b'.scope "legs" = some (.int 3) ∧
      Template.fill b.scope "{legs} legs" = .ok ⟨"3.0 legs", ["legs"]⟩ ∧
      Template.fill b'.scope "{legs} legs" = .ok ⟨"3 legs", ["legs"]⟩ :=
  ⟨by decide +kernel, by decide +kernel, _, _, rfl, rfl, by decide +kernel, by decide +kernel, by decide +kernel,
    by decide +kernel⟩

end Workflow

end GoalCompiler
