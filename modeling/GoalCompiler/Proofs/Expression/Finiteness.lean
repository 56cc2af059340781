import GoalCompiler.Compilation.Stages
import GoalCompiler.Proofs.Expression.Recognition
import GoalCompiler.Proofs.Number.Rounding
import GoalCompiler.Proofs.Outcome

/-! Doubles that are not finite. Operators and most functions refuse them as results, and documents have none. But
a numeral too large for a double is read as infinity, and a sign, a choice, `abs`, `min` and `max` hand it on; no
other expression has such a value. In a document it is `null`. -/
namespace GoalCompiler.Expression

variable {scope : Scope} {x : Float}

/-- The whole numbers that names stand for take 64 bits, with a sign or without, and the doubles are finite. -/
def Scope.Finite (scope : Scope) : Prop :=
  (∀ name n, scope name = some (.int n) → -2 ^ 63 ≤ n ∧ n < 2 ^ 64) ∧
    ∀ name x, scope name = some (.float x) → x.isFinite

/-- The value of the expression is that of a numeral in it, but for signs. -/
inductive HandsOn (scope : Scope) : Expr → Float → Prop
  | numeral (x : Float) : HandsOn scope (.float x) x
  | neg {e : Expr} {x : Float} : HandsOn scope e x → HandsOn scope (.neg e) (-x)
  | whenTrue {c t e : Expr} {v : Scalar} {x : Float} :
    eval scope c = .ok v → v.truthy → HandsOn scope t x → HandsOn scope (.ifElse c t e) x
  | whenFalse {c t e : Expr} {v : Scalar} {x : Float} :
    eval scope c = .ok v → ¬ v.truthy → HandsOn scope e x → HandsOn scope (.ifElse c t e) x
  | abs {e : Expr} {x : Float} : HandsOn scope e x → HandsOn scope (.call "abs" [e]) x.abs
  | extreme {f : Function} {args : List Expr} {e : Expr} {x : Float} : f = .min ∨ f = .max →
    eval scope (.call f.name args) = .ok (.float x) → e ∈ args → HandsOn scope e x →
    HandsOn scope (.call f.name args) x

/-! ### What operators and functions give -/

/-- A double that the computation gives is finite. -/
def GivesFinite (r : Except Fault Scalar) : Prop := ∀ x, r = .ok (.float x) → x.isFinite

theorem givesFinite_error {e : Fault} : GivesFinite (.error e) := nofun

theorem GivesFinite.bind {α : Type} {r : Except Fault α} {f : α → Except Fault Scalar}
    (h : ∀ a, GivesFinite (f a)) : GivesFinite (r >>= f) := by
  intro x hx
  obtain ⟨a, -, ha⟩ := Outcome.bind_eq_ok.mp hx
  exact h a x ha

theorem GivesFinite.ite {p : Prop} [Decidable p] {r r' : Except Fault Scalar} (h : GivesFinite r)
    (h' : GivesFinite r') : GivesFinite (if p then r else r') := by
  split
  · exact h
  · exact h'

theorem givesFinite_word (n : Int) : GivesFinite (word n) :=
  .ite nofun givesFinite_error

theorem givesFinite_finite (op : Operator) (x : Float) : GivesFinite (finite op x) := by
  intro y h
  unfold finite at h
  split at h
  · rename_i hx
    cases h
    exact hx
  · cases h

theorem givesFinite_onWords {op : Operator} {a b : Int} {r : Except Fault Scalar} (h : onWords op a b = some r) :
    GivesFinite r := by
  cases op with
  | add | sub | mul =>
    cases h
    exact givesFinite_word _
  | div => cases h
  | mod =>
    simp only [onWords] at h
    split at h
    · cases h
      exact givesFinite_error
    · split at h
      · cases h
        exact givesFinite_error
      · cases h
        exact givesFinite_word _
  | pow =>
    simp only [onWords] at h
    split at h
    · cases h
    · cases h
      exact .ite givesFinite_error (.ite (givesFinite_word _) (.ite givesFinite_error (givesFinite_word _)))

theorem givesFinite_calculate (op : Operator) (a b : Scalar) : GivesFinite (calculate op a b) := by
  unfold calculate
  split
  · nofun
  · split
    · rename_i x y _ _
      have hfloats : GivesFinite ((onFloats op x y).bind (finite op)) := .bind (givesFinite_finite op)
      dsimp only
      split
      · rename_i m n _ _ _
        cases hwords : onWords op m.toInt n.toInt with
        | none => exact hfloats
        | some r => exact givesFinite_onWords hwords
      · exact hfloats
    · exact givesFinite_error

namespace Function

variable {f : Function}

theorem givesFinite_finite (f : Function) (x : Float) : GivesFinite (f.finite x) := by
  intro y h
  unfold Function.finite at h
  split at h
  · rename_i hx
    cases h
    exact hx
  · cases h

theorem givesFinite_whole (f : Function) (x : Float) : GivesFinite (f.whole x) :=
  .ite nofun nofun

theorem givesFinite_onOne (hf : f ≠ .abs) (x : Float) : GivesFinite (f.onOne x) := by
  cases f with
  | abs => exact absurd rfl hf
  | round | floor | ceil | trunc => exact givesFinite_whole _ _
  | sqrt => exact .ite nofun (givesFinite_finite _ _)
  | asin | acos => exact .ite (givesFinite_finite _ _) nofun
  | log | log10 => exact .ite nofun (givesFinite_finite _ _)
  | sin | cos | tan | atan | degrees | radians | exp => exact givesFinite_finite _ _
  | min | max | pow | hypot | atan2 => exact givesFinite_error

theorem givesFinite_onTwo (f : Function) (a b : Scalar) : GivesFinite (f.onTwo a b) := by
  refine .bind fun x => ?_
  cases f with
  | round => exact .bind fun _ => givesFinite_finite _ _
  | pow => exact .bind fun _ => .ite nofun (givesFinite_finite _ _)
  | atan2 => exact .bind fun _ => givesFinite_finite _ _
  | log => exact .ite nofun (.bind fun _ => .ite nofun (givesFinite_finite _ _))
  | _ => exact givesFinite_error

theorem best_mem {better : Float → Float → Bool} {chosen s : Scalar} {value : Float} {args : List Scalar}
    (h : f.best better chosen value args = .ok s) : s ∈ chosen :: args := by
  induction args generalizing chosen value with
  | nil =>
    cases h
    exact List.mem_cons_self
  | cons a args ih =>
    obtain ⟨x, -, h⟩ := Outcome.bind_eq_ok.mp h
    split at h
    · exact List.mem_cons_of_mem _ (ih h)
    · rcases List.mem_cons.mp (ih h) with rfl | hs
      · exact List.mem_cons_self
      · exact List.mem_cons_of_mem _ (List.mem_cons_of_mem _ hs)

theorem extreme_mem {better : Float → Float → Bool} {s : Scalar} {args : List Scalar}
    (h : f.extreme better args = .ok s) : s ∈ args := by
  cases args with
  | nil => cases h
  | cons a args =>
    obtain ⟨x, -, h⟩ := Outcome.bind_eq_ok.mp h
    exact best_mem h

/-- A double that a function gives is finite, or its argument but for the sign. -/
theorem finite_or_of_apply {args : List Scalar} (h : f.apply args = .ok (.float x)) :
    x.isFinite ∨ (f = .abs ∧ ∃ y, args = [.float y] ∧ x = y.abs) ∨
      (f = .min ∨ f = .max) ∧ .float x ∈ args := by
  unfold apply at h
  split at h
  · cases h
  · split at h
    · exact .inr (.inr ⟨.inl rfl, extreme_mem h⟩)
    · exact .inr (.inr ⟨.inr rfl, extreme_mem h⟩)
    · exact .inl (GivesFinite.bind (fun _ => givesFinite_finite _ _) x h)
    · split at h <;> cases h
    · rename_i a _ _ _ hword _
      obtain ⟨y, hy, h⟩ := Outcome.bind_eq_ok.mp h
      by_cases hf : f = .abs
      · subst hf
        cases h
        cases a with
        | int n => exact absurd rfl (hword n rfl)
        | float y' =>
          cases hy
          exact .inr (.inl ⟨rfl, y, rfl, rfl⟩)
        | bool | str => cases hy
      · exact .inl (givesFinite_onOne hf y x h)
    · exact .inl (givesFinite_onTwo _ _ _ x h)
    · cases h

theorem name_of_ofName? {name : String} (h : ofName? name = some f) : f.name = name := by
  simpa using List.find?_some h

end Function

/-! ### Where such a double comes from -/

theorem finite_of_lookUp (hscope : scope.Finite) {name : String} (h : lookUp scope name = .ok (.float x)) :
    x.isFinite := by
  unfold lookUp at h
  cases hname : scope name with
  | none =>
    rw [hname] at h
    cases h
  | some j =>
    rw [hname] at h
    cases j with
    | int n =>
      obtain ⟨hlow, hhigh⟩ := hscope.1 name n hname
      change Except.ok (if Number.fitsWord n then Scalar.int (Int64.ofInt n) else .float (Float.ofInt n)) = _ at h
      split at h
      · cases h
      · cases h
        exact (Number.holds_ofInt (by omega)).1
    | float y =>
      cases h
      exact hscope.2 name x hname
    | bool | str | null | arr | obj => cases h

theorem evalChain_ne_float {left : Scalar} {rest : List (Comparison × Expr)} :
    evalChain scope left rest ≠ .ok (.float x) := by
  induction rest generalizing left with
  | nil => nofun
  | cons link rest ih =>
    intro h
    obtain ⟨right, -, h⟩ := Outcome.bind_eq_ok.mp h
    obtain ⟨holds, -, h⟩ := Outcome.bind_eq_ok.mp h
    split at h
    · exact ih h
    · cases h

theorem exists_of_evalArgs {args : List Expr} {vs : List Scalar} (h : evalArgs scope args = .ok vs) {v : Scalar}
    (hv : v ∈ vs) : ∃ e ∈ args, eval scope e = .ok v := by
  induction args generalizing vs with
  | nil =>
    cases h
    cases hv
  | cons e args ih =>
    obtain ⟨u, hu, h⟩ := Outcome.bind_eq_ok.mp h
    obtain ⟨us, hus, rfl⟩ := Outcome.map_eq_ok.mp h
    rcases List.mem_cons.mp hv with rfl | hv
    · exact ⟨e, List.mem_cons_self, hu⟩
    · obtain ⟨e', he', hv⟩ := ih hus hv
      exact ⟨e', List.mem_cons_of_mem _ he', hv⟩

theorem exists_of_evalArgs_singleton {args : List Expr} {v : Scalar} (h : evalArgs scope args = .ok [v]) :
    ∃ e, args = [e] ∧ eval scope e = .ok v := by
  cases args with
  | nil => cases h
  | cons e args =>
    obtain ⟨u, hu, h⟩ := Outcome.bind_eq_ok.mp h
    obtain ⟨us, hus, h⟩ := Outcome.map_eq_ok.mp h
    cases h
    cases args with
    | nil => exact ⟨e, rfl, hu⟩
    | cons e' args =>
      obtain ⟨u', -, h⟩ := Outcome.bind_eq_ok.mp hus
      obtain ⟨us', -, h⟩ := Outcome.map_eq_ok.mp h
      cases h

theorem eval_of_handsOn {e : Expr} (h : HandsOn scope e x) : eval scope e = .ok (.float x) := by
  induction h with
  | numeral x => rfl
  | neg _ ih => rw [eval, ih]; rfl
  | whenTrue hc hv _ ih => rw [eval, hc]; exact (if_pos hv).trans ih
  | whenFalse hc hv _ ih => rw [eval, hc]; exact (if_neg hv).trans ih
  | abs _ ih =>
    rw [eval, show Function.ofName? "abs" = some .abs from rfl]
    simp only [evalArgs, ih]
    rfl
  | extreme _ h => exact h

theorem handsOn_of_eval (hscope : scope.Finite) (e : Expr) {x : Float} (hx : ¬ x.isFinite)
    (h : eval scope e = .ok (.float x)) : HandsOn scope e x := by
  cases e with
  | int | str | bool => cases h
  | float y =>
    cases h
    exact .numeral x
  | ident name => exact absurd (finite_of_lookUp hscope h) hx
  | neg e =>
    obtain ⟨v, hv, h⟩ := Outcome.bind_eq_ok.mp h
    cases v with
    | int n => exact absurd (givesFinite_word _ x h) hx
    | float y =>
      cases h
      exact .neg (handsOn_of_eval hscope e (by rwa [Number.isFinite_neg] at hx) hv)
    | bool | str => cases h
  | not e =>
    obtain ⟨v, -, h⟩ := Outcome.map_eq_ok.mp h
    cases h
  | binary op l r =>
    obtain ⟨a, -, h⟩ := Outcome.bind_eq_ok.mp h
    obtain ⟨b, -, h⟩ := Outcome.bind_eq_ok.mp h
    exact absurd (givesFinite_calculate op a b x h) hx
  | compare first rest =>
    obtain ⟨a, -, h⟩ := Outcome.bind_eq_ok.mp h
    exact absurd h evalChain_ne_float
  | and l r =>
    obtain ⟨a, -, h⟩ := Outcome.bind_eq_ok.mp h
    split at h
    · obtain ⟨v, -, h⟩ := Outcome.map_eq_ok.mp h
      cases h
    · cases h
  | or l r =>
    obtain ⟨a, -, h⟩ := Outcome.bind_eq_ok.mp h
    split at h
    · cases h
    · obtain ⟨v, -, h⟩ := Outcome.map_eq_ok.mp h
      cases h
  | ifElse c t e =>
    obtain ⟨v, hv, h'⟩ := Outcome.bind_eq_ok.mp h
    split at h'
    · rename_i htrue
      exact .whenTrue hv htrue (handsOn_of_eval hscope t hx h')
    · rename_i hfalse
      exact .whenFalse hv hfalse (handsOn_of_eval hscope e hx h')
  | call function args =>
    have hcall := h
    unfold eval at h
    split at h
    · cases h
    · rename_i f hf
      obtain ⟨vs, hvs, h⟩ := Outcome.bind_eq_ok.mp h
      rw [← Function.name_of_ofName? hf] at hcall ⊢
      rcases Function.finite_or_of_apply h with hfinite | ⟨rfl, y, rfl, rfl⟩ | ⟨hf, hmem⟩
      · exact absurd hfinite hx
      · obtain ⟨e, rfl, hv⟩ := exists_of_evalArgs_singleton hvs
        exact .abs (handsOn_of_eval hscope e (by rwa [Number.isFinite_abs] at hx) hv)
      · obtain ⟨e, he, hv⟩ := exists_of_evalArgs hvs hmem
        exact .extreme hf hcall he (handsOn_of_eval hscope e hx hv)
termination_by sizeOf e

/-! ### Whole sources -/

theorem compiled_eq_ok {source : String} {c : Compiled} :
    Compiled.read source = .ok c ↔ ∃ tree, read source = .ok tree ∧ c = ⟨source, tree⟩ := by
  unfold Compiled.read
  cases read source with
  | ok tree => simp [eq_comm]
  | error e => simp

theorem evaluate_eq_ok {source : String} {v : Scalar} :
    evaluate source scope = .ok v ↔ ∃ tree, read source = .ok tree ∧ eval scope tree = .ok v := by
  constructor
  · intro h
    obtain ⟨c, hc, h⟩ := Outcome.bind_eq_ok.mp h
    obtain ⟨tree, htree, rfl⟩ := compiled_eq_ok.mp hc
    exact ⟨tree, htree, Outcome.mapError_eq_ok.mp h⟩
  · rintro ⟨tree, htree, h⟩
    exact Outcome.bind_eq_ok.mpr ⟨_, compiled_eq_ok.mpr ⟨tree, htree, rfl⟩, Outcome.mapError_eq_ok.mpr h⟩

theorem substituted_eq_ok {text body : String} (hbody : Request.ofText text = .calculate body) {j : Json} :
    (∃ names, Substitution.text scope text = .ok ⟨j, names⟩) ↔
      ∃ v, evaluate body scope = .ok v ∧ v.toJson = j := by
  unfold Substitution.text
  rw [hbody]
  constructor
  · rintro ⟨names, h⟩
    obtain ⟨c, hc, h⟩ := Outcome.bind_eq_ok.mp h
    obtain ⟨v, hv, h⟩ := Outcome.bind_eq_ok.mp h
    cases h
    exact ⟨v, Outcome.bind_eq_ok.mpr ⟨c, hc, hv⟩, rfl⟩
  · rintro ⟨v, h, rfl⟩
    obtain ⟨c, hc, hv⟩ := Outcome.bind_eq_ok.mp h
    exact ⟨c.identifiers, Outcome.bind_eq_ok.mpr ⟨c, hc, Outcome.bind_eq_ok.mpr ⟨v, hv, rfl⟩⟩⟩

theorem toJson_eq_null {v : Scalar} : v.toJson = .null ↔ ∃ x, v = .float x ∧ ¬ x.isFinite := by
  cases v with
  | float x =>
    change (if x.isFinite then Json.float x else .null) = .null ↔ _
    split
    · rename_i hx
      simp [hx]
    · rename_i hx
      simp [hx]
  | int | bool | str => simp [Scalar.toJson]

theorem evaluate_nonfinite_iff (hscope : scope.Finite) {source : String} (hx : ¬ x.isFinite) :
    evaluate source scope = .ok (.float x) ↔ ∃ tree, read source = .ok tree ∧ HandsOn scope tree x := by
  rw [evaluate_eq_ok]
  exact exists_congr fun tree => and_congr_right fun _ => ⟨handsOn_of_eval hscope tree hx, eval_of_handsOn⟩

/-- A source has a value that is not finite exactly if it is read as a tree that hands one of its numerals on; and
where a parameter asks for the value of a source, it becomes `null` exactly then. -/
theorem nonfinite_iff (hscope : scope.Finite) :
    (∀ source x, ¬ x.isFinite →
      (evaluate source scope = .ok (.float x) ↔ ∃ tree, read source = .ok tree ∧ HandsOn scope tree x)) ∧
    ∀ text body, Request.ofText text = .calculate body →
      ((∃ names, Substitution.text scope text = .ok ⟨.null, names⟩) ↔
        ∃ tree x, read body = .ok tree ∧ HandsOn scope tree x ∧ ¬ x.isFinite) := by
  refine ⟨fun source x => evaluate_nonfinite_iff hscope, fun text body hbody => ?_⟩
  rw [substituted_eq_ok hbody]
  constructor
  · rintro ⟨v, hv, hnull⟩
    obtain ⟨x, rfl, hx⟩ := toJson_eq_null.mp hnull
    obtain ⟨tree, htree, hands⟩ := (evaluate_nonfinite_iff hscope hx).mp hv
    exact ⟨tree, x, htree, hands, hx⟩
  · rintro ⟨tree, x, htree, hands, hx⟩
    exact ⟨.float x, (evaluate_nonfinite_iff hscope hx).mpr ⟨tree, htree, hands⟩,
      toJson_eq_null.mpr ⟨x, rfl, hx⟩⟩

/-- A scope of one whole number and one double. -/
def mixed : Scope := Scope.ofDict [("count", .int 2), ("ratio", .float 0.5)]

theorem finite_mixed : mixed.Finite := by
  refine ⟨fun name n h => ?_, fun name x h => ?_⟩
  · simp only [mixed, Scope.ofDict, Dict.get?] at h
    split at h
    · cases h
      decide
    · split at h <;> cases h
  · simp only [mixed, Scope.ofDict, Dict.get?] at h
    split at h
    · cases h
    · split at h
      · cases h
        decide
      · cases h

theorem nonfinite_mixed :
    mixed.Finite ∧ evaluate "-1e999" mixed = .ok (.float (-Number.infinity)) ∧
      ∃ names, Substitution.text mixed "$CALCULATE(-1e999)" = .ok ⟨.null, names⟩ := by
  obtain ⟨hvalue, htext⟩ := nonfinite_iff finite_mixed
  have hinfinite : ¬ (-Number.infinity).isFinite := by
    rw [Number.isFinite_neg]
    exact Bool.false_ne_true
  have htokens : Token.tokens "-1e999" = .ok [⟨.minus, 0⟩, ⟨.float Number.infinity, 1⟩] := by decide +kernel
  have hread := read_of_derives htokens (.neg (.unsigned .float)) (by decide +kernel)
  have hands : HandsOn mixed (.neg (.float Number.infinity)) (-Number.infinity) := .neg (.numeral _)
  exact ⟨finite_mixed, (hvalue "-1e999" _ hinfinite).mpr ⟨_, hread, hands⟩,
    (htext "$CALCULATE(-1e999)" "-1e999" rfl).mpr ⟨_, _, hread, hands, hinfinite⟩⟩

/-- A numeral past the largest double has a value, and in a parameter it becomes `null`. -/
theorem huge_becomes_null :
    evaluate "1e999" (Scope.ofDict []) = .ok (.float Number.infinity) ∧ Number.infinity.isFinite = false ∧
      ∃ names, Substitution.text (Scope.ofDict []) "$CALCULATE(1e999)" = .ok ⟨.null, names⟩ := by
  have htokens : Token.tokens "1e999" = .ok [⟨.float Number.infinity, 0⟩] := by decide +kernel
  have hread := read_of_derives htokens (.unsigned .float) (by decide +kernel)
  have hvalue : evaluate "1e999" (Scope.ofDict []) = .ok (.float Number.infinity) :=
    evaluate_eq_ok.mpr ⟨_, hread, rfl⟩
  have hbody : Request.ofText "$CALCULATE(1e999)" = .calculate "1e999" := rfl
  exact ⟨hvalue, rfl, (substituted_eq_ok hbody).mpr ⟨_, hvalue, rfl⟩⟩

end GoalCompiler.Expression
