import GoalCompiler.Compilation.Stages
import GoalCompiler.Proofs.Dictionary
import GoalCompiler.Proofs.Outcome
import GoalCompiler.Proofs.Workflow.Computation

/-! Values that the caller gives come before all others. A name that is bound to one of them changes by another
one that the caller gives and by nothing else: no default, no computed parameter, nothing that is found out. -/
namespace GoalCompiler

namespace Bindings

variable {b : Bindings} {n m : String} {v : Json} {source : Source}

theorem get?_bind_of_ne (h : n ≠ m) : Dict.get? (b.bind m v source) n = Dict.get? b n := by
  unfold bind
  split
  · exact Dict.get?_insert_of_ne b _ h
  · rfl

theorem get?_bind_explicit : Dict.get? (b.bind n v .explicit) n = some ⟨v, .explicit⟩ := by
  rw [bind, if_pos (by simp [admits]), Dict.get?_insert_self]

theorem get?_bind_of_isExplicit (h : b.isExplicit n) (hs : m = n → source ≠ .explicit) :
    Dict.get? (b.bind m v source) n = Dict.get? b n := by
  by_cases hm : m = n
  · subst hm
    rw [bind_of_explicit h (hs rfl)]
  · exact get?_bind_of_ne (Ne.symm hm)

theorem isExplicit_of_get? (h : Dict.get? b n = some ⟨v, .explicit⟩) : b.isExplicit n := by
  simp [isExplicit, source?, h]

/-- Binds one name after another. -/
def bindAll (b : Bindings) (entries : List (String × Binding)) : Bindings :=
  entries.foldl (fun b (name, x) => b.bind name x.value x.source) b

/-- The last of the values that the caller gives for a name. -/
def lastGiven (entries : List (String × Binding)) (n : String) : Option Binding :=
  ((entries.filter fun e => e.1 == n && e.2.source == .explicit).getLast?).map Prod.snd

theorem lastGiven_cons (e : String × Binding) (entries : List (String × Binding)) :
    lastGiven (e :: entries) n =
      (lastGiven entries n).or (if e.1 = n ∧ e.2.source = .explicit then some e.2 else none) := by
  unfold lastGiven
  split_ifs with h
  · rw [List.filter_cons_of_pos (by simp [h]), List.getLast?_cons]
    cases (entries.filter _).getLast? <;> rfl
  · rw [List.filter_cons_of_neg (by simpa using h), Option.or_none]

/-- Whatever is bound in whatever order, a name that the caller gave has the last value that the caller gives. -/
theorem get?_bindAll (h : b.isExplicit n) (entries : List (String × Binding)) :
    Dict.get? (b.bindAll entries) n = (lastGiven entries n).or (Dict.get? b n) := by
  induction entries generalizing b with
  | nil => rfl
  | cons e rest ih =>
    obtain ⟨m, v, source⟩ := e
    change Dict.get? ((b.bind m v source).bindAll rest) n = _
    rw [lastGiven_cons, Option.or_assoc]
    split_ifs with hgiven
    · obtain ⟨rfl, rfl⟩ : m = n ∧ source = .explicit := hgiven
      rw [ih (isExplicit_of_get? get?_bind_explicit), get?_bind_explicit]
      rfl
    · have hkept : Dict.get? (b.bind m v source) n = Dict.get? b n :=
        get?_bind_of_isExplicit h fun hm hs => hgiven ⟨hm, hs⟩
      rw [ih ((isExplicit_congr hkept).trans h), hkept]
      rfl

theorem get?_bindAll_of_forall_ne {entries : List (String × Binding)} (h : ∀ e ∈ entries, e.1 ≠ n) :
    Dict.get? (b.bindAll entries) n = Dict.get? b n := by
  induction entries generalizing b with
  | nil => rfl
  | cons e rest ih =>
    obtain ⟨he, hrest⟩ := List.forall_mem_cons.mp h
    exact (ih hrest).trans (get?_bind_of_ne he.symm)

/-- A pass over the computed parameters leaves what the caller gave, also when it is cut short. -/
theorem get?_compute (h : b.isExplicit n) (order : List ComputedParameter) :
    Dict.get? (b.compute order).bindings n = Dict.get? b n := by
  induction order generalizing b with
  | nil => rfl
  | cons c rest ih =>
    rw [compute]
    split
    · exact ih h
    · split
      · rfl
      · have hkept : ∀ v, Dict.get? (b.bind c.parameter.name v .computed) n = Dict.get? b n := fun v =>
          get?_bind_of_isExplicit h fun _ => by decide
        rw [ih ((isExplicit_congr (hkept _)).trans h), hkept]

end Bindings

namespace Workflow

variable {w : Workflow} {b b' : Bindings} {name : String} {value : Json}

/-- The caller may give the value for the name, and it is bound in this form: a parameter has to take it, and a
name that only has a default takes any. -/
def Admits (w : Workflow) (name : String) (value v : Json) : Prop :=
  match w.parameter? name with
  | some p => p.accept value = .ok v
  | none => Dict.contains w.defaults name ∧ v = value

theorem bindExplicit_cons_eq_ok {rest : List (String × Json)}
    (h : w.bindExplicit b ((name, value) :: rest) = .ok b') :
    ∃ v, w.Admits name value v ∧ w.bindExplicit (b.bind name v .explicit) rest = .ok b' := by
  unfold Admits
  rw [bindExplicit] at h
  cases hp : w.parameter? name with
  | some p =>
    simp only [hp] at h
    split at h
    · exact ⟨_, ‹_›, h⟩
    · cases h
  | none =>
    simp only [hp] at h
    split at h
    · exact ⟨value, ⟨‹_›, rfl⟩, h⟩
    · cases h

theorem get?_bindExplicit_of_not_mem {entries : List (String × Json)}
    (h : w.bindExplicit b entries = .ok b') (hname : name ∉ Dict.keys entries) :
    Dict.get? b' name = Dict.get? b name := by
  induction entries generalizing b with
  | nil =>
    obtain rfl := Except.ok.inj h
    rfl
  | cons e rest ih =>
    obtain ⟨hne, hrest⟩ := List.ne_and_not_mem_of_not_mem_cons hname
    obtain ⟨v, -, h⟩ := bindExplicit_cons_eq_ok h
    exact (ih h hrest).trans (Bindings.get?_bind_of_ne hne)

/-- Every value that the caller gives is bound in the form in which it is taken. -/
theorem get?_bindExplicit {entries : List (String × Json)} (hd : (Dict.keys entries).Nodup)
    (h : w.bindExplicit b entries = .ok b') (hmem : (name, value) ∈ entries) :
    ∃ v, w.Admits name value v ∧ Dict.get? b' name = some ⟨v, .explicit⟩ := by
  induction entries generalizing b with
  | nil => simp at hmem
  | cons e rest ih =>
    obtain ⟨hnew, hd⟩ := List.nodup_cons.mp hd
    obtain ⟨v, hv, h⟩ := bindExplicit_cons_eq_ok h
    rcases List.mem_cons.mp hmem with rfl | hmem
    · exact ⟨v, hv, (get?_bindExplicit_of_not_mem h hnew).trans Bindings.get?_bind_explicit⟩
    · exact ih hd h hmem

end Workflow

end GoalCompiler
