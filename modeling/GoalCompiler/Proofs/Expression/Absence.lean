import GoalCompiler.Proofs.Expression.Locality
import GoalCompiler.Proofs.Outcome
import Mathlib.Tactic.SplitIfs

/-! Names that a scope does not bind. No value rests on one: a scope that binds more gives an expression the
value that it had. And a name is reported as unknown only if the expression reads it and the scope does not
bind it. -/
namespace GoalCompiler.Expression

variable {α β : Type} {s t : Scope}

/-- The second scope has all bindings of the first among these names. -/
def ExtendsOn (names : NameSet) (s t : Scope) : Prop :=
  ∀ name ∈ names, ∀ j, s name = some j → t name = some j

/-- The second scope has all bindings of the first. -/
def Extends (s t : Scope) : Prop := ∀ name j, s name = some j → t name = some j

theorem Extends.on (h : Extends s t) (names : NameSet) : ExtendsOn names s t := fun name _ => h name

theorem extendsOn_union {ms ns : NameSet} :
    ExtendsOn (NameSet.union ms ns) s t ↔ ExtendsOn ms s t ∧ ExtendsOn ns s t := by
  constructor
  · intro h
    exact ⟨fun name hn => h name (NameSet.mem_union.mpr (.inl hn)),
      fun name hn => h name (NameSet.mem_union.mpr (.inr hn))⟩
  · rintro ⟨hm, hn⟩ name h
    rcases NameSet.mem_union.mp h with h | h
    · exact hm name h
    · exact hn name h

/-! ### Values that stay -/

/-- What the first computation gives the second gives too; where the first fails the second is free. -/
def Keeps (x y : Except Fault α) : Prop := ∀ v, x = .ok v → y = .ok v

theorem Keeps.refl (x : Except Fault α) : Keeps x x := fun _ h => h

theorem Keeps.bind {x y : Except Fault α} {f g : α → Except Fault β} (h : Keeps x y)
    (hf : ∀ a, Keeps (f a) (g a)) : Keeps (x.bind f) (y.bind g) := by
  intro v hv
  cases x with
  | error e => cases hv
  | ok a =>
    rw [h a rfl]
    exact hf a v hv

theorem Keeps.map {x y : Except Fault α} (h : Keeps x y) (f : α → β) : Keeps (x.map f) (y.map f) := by
  intro v hv
  cases x with
  | error e => cases hv
  | ok a =>
    rw [h a rfl]
    exact hv

theorem Keeps.ite {p : Prop} [Decidable p] {x y x' y' : Except Fault α} (h : Keeps x y)
    (h' : Keeps x' y') : Keeps (if p then x else x') (if p then y else y') := by
  split
  · exact h
  · exact h'

theorem keeps_lookUp {name : String} (h : ∀ j, s name = some j → t name = some j) :
    Keeps (lookUp s name) (lookUp t name) := by
  intro v hv
  unfold lookUp at hv
  cases hs : s name with
  | none => simp [hs] at hv
  | some j =>
    rw [lookUp, h j hs]
    simpa [hs] using hv

mutual

theorem keeps_eval (e : Expr) (h : ExtendsOn e.identifiers s t) : Keeps (eval s e) (eval t e) := by
  cases e with
  | int | float | str | bool => exact .refl _
  | ident name => exact keeps_lookUp (h name List.mem_cons_self)
  | neg e => exact (keeps_eval e h).bind fun _ => .refl _
  | not e => exact (keeps_eval e h).map _
  | binary op l r =>
    obtain ⟨hl, hr⟩ := extendsOn_union.mp h
    exact (keeps_eval l hl).bind fun _ => (keeps_eval r hr).bind fun _ => .refl _
  | compare first rest =>
    obtain ⟨hf, hr⟩ := extendsOn_union.mp h
    exact (keeps_eval first hf).bind fun a => keeps_evalChain rest hr a
  | and l r =>
    obtain ⟨hl, hr⟩ := extendsOn_union.mp h
    exact (keeps_eval l hl).bind fun _ => .ite ((keeps_eval r hr).map _) (.refl _)
  | or l r =>
    obtain ⟨hl, hr⟩ := extendsOn_union.mp h
    exact (keeps_eval l hl).bind fun _ => .ite (.refl _) ((keeps_eval r hr).map _)
  | ifElse c a b =>
    obtain ⟨hca, hb⟩ := extendsOn_union.mp h
    obtain ⟨hc, ha⟩ := extendsOn_union.mp hca
    exact (keeps_eval c hc).bind fun _ => .ite (keeps_eval a ha) (keeps_eval b hb)
  | call function args =>
    simp only [eval]
    split
    · exact .refl _
    · exact (keeps_evalArgs args h).bind fun _ => .refl _

theorem keeps_evalChain (rest : List (Comparison × Expr))
    (h : ExtendsOn (Expr.chainIdentifiers rest) s t) (left : Scalar) :
    Keeps (evalChain s left rest) (evalChain t left rest) := by
  match rest with
  | [] => exact .refl _
  | (op, e) :: rest =>
    obtain ⟨he, hr⟩ := extendsOn_union.mp h
    exact (keeps_eval e he).bind fun right => (Keeps.refl _).bind fun _ =>
      .ite (keeps_evalChain rest hr right) (.refl _)

theorem keeps_evalArgs (args : List Expr) (h : ExtendsOn (Expr.argIdentifiers args) s t) :
    Keeps (evalArgs s args) (evalArgs t args) := by
  match args with
  | [] => exact .refl _
  | e :: rest =>
    obtain ⟨he, hr⟩ := extendsOn_union.mp h
    exact (keeps_eval e he).bind fun _ => (keeps_evalArgs rest hr).map _

end

namespace Compiled

variable {c : Compiled}

theorem value_of_extendsOn (hext : ExtendsOn c.identifiers s t) {v : Scalar} (h : c.value s = .ok v) :
    c.value t = .ok v :=
  Outcome.mapError_eq_ok.mpr (keeps_eval c.tree hext v (Outcome.mapError_eq_ok.mp h))

theorem holds_of_extendsOn (hext : ExtendsOn c.identifiers s t) {b : Bool} (h : c.holds s = .ok b) :
    c.holds t = .ok b := by
  unfold holds at h
  split at h
  · rename_i hv
    rw [holds, value_of_extendsOn hext hv]
    exact h
  · cases h
  · cases h

end Compiled

/-! ### Unknown symbols -/

/-- If a name is reported as unknown, it is such a name. -/
def Blames (p : String → Prop) (x : Except Fault α) : Prop :=
  ∀ name, x = .error (.unknownSymbol name) → p name

/-- No name is reported as unknown. -/
abbrev Blameless (x : Except Fault α) : Prop := Blames (fun _ => False) x

variable {p q : String → Prop}

theorem Blames.mono {x : Except Fault α} (h : Blames p x) (hpq : ∀ name, p name → q name) : Blames q x :=
  fun name hx => hpq name (h name hx)

theorem Blameless.blames {x : Except Fault α} (h : Blameless x) : Blames p x :=
  h.mono fun _ => False.elim

@[simp] theorem blames_ok (a : α) : Blames p (.ok a : Except Fault α) := nofun

@[simp] theorem blames_error {e : Fault} :
    Blames p (.error e : Except Fault α) ↔ ∀ name, e = .unknownSymbol name → p name := by
  simp [Blames]

theorem Blames.bind {x : Except Fault α} {f : α → Except Fault β} (h : Blames p x)
    (hf : ∀ a, Blames p (f a)) : Blames p (x.bind f) := by
  cases x with
  | error e => exact fun name he => h name (congrArg Except.error (Except.error.inj he))
  | ok a => exact hf a

theorem Blames.map {x : Except Fault α} (h : Blames p x) (f : α → β) : Blames p (x.map f) := by
  cases x with
  | error e => exact fun name he => h name (congrArg Except.error (Except.error.inj he))
  | ok a => exact blames_ok _

theorem Blames.ite {c : Prop} [Decidable c] {x y : Except Fault α} (hx : Blames p x) (hy : Blames p y) :
    Blames p (if c then x else y) := by
  split
  · exact hx
  · exact hy

theorem blameless_word (n : Int) : Blameless (word n) := by
  unfold word
  split <;> simp

theorem blameless_negate (v : Scalar) : Blameless (negate v) := by
  cases v with
  | int n => exact blameless_word _
  | float x => exact blames_ok _
  | bool | str => simp [negate]

theorem blameless_wordPower (base : Int) (exponent : Nat) : Blameless (wordPower base exponent) := by
  unfold wordPower
  split
  · simp
  · exact .ite (blameless_word _) (.ite (by simp) (blameless_word _))

theorem blameless_onWords (op : Operator) (a b : Int) : ∀ r ∈ onWords op a b, Blameless r := by
  cases op with
  | add | sub | mul => simpa [onWords] using blameless_word _
  | div => simp [onWords]
  | mod =>
    simp only [onWords]
    split_ifs
    · simp
    · simp
    · simpa using blameless_word _
  | pow =>
    simp only [onWords]
    split_ifs
    · simp
    · simpa using blameless_wordPower _ _

theorem blameless_onFloats (op : Operator) (a b : Float) : Blameless (onFloats op a b) := by
  cases op <;> simp only [onFloats, blames_ok]
  all_goals exact .ite (by simp) (blames_ok _)

theorem blameless_finite (op : Operator) (x : Float) : Blameless (finite op x) :=
  .ite (blames_ok _) (by simp)

theorem blameless_calculate (op : Operator) (a b : Scalar) : Blameless (calculate op a b) := by
  have hfloats : ∀ x y, Blameless ((onFloats op x y).bind (finite op)) := fun x y =>
    (blameless_onFloats op x y).bind fun _ => blameless_finite op _
  unfold calculate
  split
  · exact blames_ok _
  · split
    · dsimp only
      split
      · cases h : onWords op _ _ with
        | none => exact hfloats _ _
        | some r => exact blameless_onWords op _ _ r h
      · exact hfloats _ _
    · simp

theorem blameless_compareBy (op : Comparison) (a b : Scalar) : Blameless (compareBy op a b) := by
  unfold compareBy
  split <;> simp

namespace Function

variable (f : Function)

theorem blameless_fails (cause : CallFault) : Blameless (f.fails cause : Except Fault α) := by
  simp [fails]

theorem blameless_number (v : Scalar) : Blameless (f.number v) := by
  unfold number
  split <;> simp

theorem blameless_integer (v : Scalar) : Blameless (f.integer v) := by
  unfold integer
  split <;> simp

theorem blameless_finite (x : Float) : Blameless (f.finite x) :=
  .ite (blames_ok _) (blameless_fails f _)

theorem blameless_whole (x : Float) : Blameless (f.whole x) :=
  .ite (blames_ok _) (blameless_fails f _)

theorem blameless_best (better : Float → Float → Bool) (args : List Scalar) (chosen : Scalar)
    (value : Float) : Blameless (f.best better chosen value args) := by
  induction args generalizing chosen value with
  | nil => exact blames_ok _
  | cons v rest ih => exact (blameless_number f v).bind fun x => .ite (ih v x) (ih chosen value)

theorem blameless_extreme (better : Float → Float → Bool) (args : List Scalar) :
    Blameless (f.extreme better args) := by
  cases args with
  | nil => simp [extreme]
  | cons v rest => exact (blameless_number f v).bind fun x => blameless_best f better rest v x

theorem blameless_sumOfSquares (args : List Scalar) (sum : Float) :
    Blameless (f.sumOfSquares sum args) := by
  induction args generalizing sum with
  | nil => exact blames_ok _
  | cons v rest ih => exact (blameless_number f v).bind fun x => ih _

theorem blameless_onOne (x : Float) : Blameless (f.onOne x) := by
  cases f with
  | abs => exact blames_ok _
  | round | floor | ceil | trunc => exact blameless_whole _ _
  | sin | cos | tan | atan | degrees | radians | exp => exact blameless_finite _ _
  | sqrt | log | log10 => exact .ite (blameless_fails _ _) (blameless_finite _ _)
  | asin | acos => exact .ite (blameless_finite _ _) (blameless_fails _ _)
  | min | max | pow | hypot | atan2 => simp [onOne]

theorem blameless_onTwo (a b : Scalar) : Blameless (f.onTwo a b) := by
  refine (blameless_number f a).bind fun x => ?_
  cases f with
  | round => exact (blameless_integer _ b).bind fun _ => blameless_finite _ _
  | pow => exact (blameless_number _ b).bind fun _ => .ite (blameless_fails _ _) (blameless_finite _ _)
  | atan2 => exact (blameless_number _ b).bind fun _ => blameless_finite _ _
  | log =>
    exact .ite (blameless_fails _ _) ((blameless_number _ b).bind fun _ =>
      .ite (blameless_fails _ _) (blameless_finite _ _))
  | _ => simp

theorem blameless_apply (args : List Scalar) : Blameless (f.apply args) := by
  unfold apply
  refine .ite (by simp) ?_
  split
  · exact blameless_extreme _ _ _
  · exact blameless_extreme _ _ _
  · exact (blameless_sumOfSquares _ _ _).bind fun _ => blameless_finite _ _
  · exact .ite (blameless_fails _ _) (blames_ok _)
  · exact (blameless_number _ _).bind (blameless_onOne _)
  · exact blameless_onTwo _ _ _
  · simp

end Function

/-- The expression reads the name and the scope does not bind it. -/
def Absent (names : NameSet) (s : Scope) (name : String) : Prop := name ∈ names ∧ s name = none

theorem Absent.left {ms ns : NameSet} {name : String} (h : Absent ms s name) :
    Absent (NameSet.union ms ns) s name :=
  ⟨NameSet.mem_union.mpr (.inl h.1), h.2⟩

theorem Absent.right {ms ns : NameSet} {name : String} (h : Absent ns s name) :
    Absent (NameSet.union ms ns) s name :=
  ⟨NameSet.mem_union.mpr (.inr h.1), h.2⟩

theorem blameless_ofValue (name : String) (j : Json) : Blameless (ofValue name j) := by
  unfold ofValue
  split <;> simp

theorem blames_lookUp (name : String) : Blames (Absent [name] s) (lookUp s name) := by
  unfold lookUp
  split
  · exact (blameless_ofValue _ _).blames
  · rename_i hnone
    rintro _ h
    obtain rfl := Fault.unknownSymbol.inj (Except.error.inj h)
    exact ⟨List.mem_singleton.mpr rfl, hnone⟩

mutual

theorem blames_eval (e : Expr) : Blames (Absent e.identifiers s) (eval s e) := by
  cases e with
  | int | float | str | bool => exact blames_ok _
  | ident name => exact blames_lookUp name
  | neg e => exact (blames_eval e).bind fun _ => (blameless_negate _).blames
  | not e => exact (blames_eval e).map _
  | binary op l r =>
    exact ((blames_eval l).mono fun _ => .left).bind fun _ =>
      ((blames_eval r).mono fun _ => .right).bind fun _ => (blameless_calculate op _ _).blames
  | compare first rest =>
    exact ((blames_eval first).mono fun _ => .left).bind fun a =>
      (blames_evalChain rest a).mono fun _ => .right
  | and l r =>
    exact ((blames_eval l).mono fun _ => .left).bind fun _ =>
      .ite (((blames_eval r).mono fun _ => .right).map _) (blames_ok _)
  | or l r =>
    exact ((blames_eval l).mono fun _ => .left).bind fun _ =>
      .ite (blames_ok _) (((blames_eval r).mono fun _ => .right).map _)
  | ifElse c a b =>
    exact ((blames_eval c).mono fun _ h => h.left.left).bind fun _ =>
      .ite ((blames_eval a).mono fun _ h => h.right.left) ((blames_eval b).mono fun _ => .right)
  | call function args =>
    simp only [eval]
    split
    · simp
    · exact (blames_evalArgs args).bind fun _ => (Function.blameless_apply _ _).blames

theorem blames_evalChain (rest : List (Comparison × Expr)) (left : Scalar) :
    Blames (Absent (Expr.chainIdentifiers rest) s) (evalChain s left rest) := by
  match rest with
  | [] => exact blames_ok _
  | (op, e) :: rest =>
    exact ((blames_eval e).mono fun _ => .left).bind fun right =>
      (blameless_compareBy op left right).blames.bind fun _ =>
        .ite ((blames_evalChain rest right).mono fun _ => .right) (blames_ok _)

theorem blames_evalArgs (args : List Expr) :
    Blames (Absent (Expr.argIdentifiers args) s) (evalArgs s args) := by
  match args with
  | [] => exact blames_ok _
  | e :: rest =>
    exact ((blames_eval e).mono fun _ => .left).bind fun _ =>
      ((blames_evalArgs rest).mono fun _ => .right).map _

end

/-- Evaluation fails closed. Scopes that agree on the names an expression reads give the same result; a value
stays what it is when a scope binds more; and a symbol is unknown only if it is read and not bound. -/
theorem eval_failsClosed (e : Expr) (s t : Scope) :
    (AgreeOn e.identifiers s t → eval s e = eval t e) ∧
    (∀ v, Extends s t → eval s e = .ok v → eval t e = .ok v) ∧
    (∀ name, eval s e = .error (.unknownSymbol name) → name ∈ e.identifiers ∧ s name = none) :=
  ⟨eval_congr e, fun v h => keeps_eval e (h.on e.identifiers) v, blames_eval e⟩

/-- A framed shelf that is not open is as deep as its frame, any other two more than its rail. -/
def shelfDepth : Expr :=
  .ifElse (.and (.ident "framed") (.not (.ident "open"))) (.ident "frame") (.binary .add (.ident "rail") (.int 2))

def plainShelf : Scope := Scope.ofDict [("framed", .bool false), ("rail", .int 5)]

def framedShelf : Scope := Scope.ofDict [("frame", .int 9), ("framed", .bool true), ("open", .bool true)]

/-- The plain shelf with a height, which its depth does not hang on. -/
def highShelf : Scope := Scope.over plainShelf (Scope.ofDict [("height", .int 1)])

theorem eval_failsClosed_shelf :
    (AgreeOn shelfDepth.identifiers plainShelf highShelf ∧
      eval plainShelf shelfDepth = eval highShelf shelfDepth) ∧
    (Extends plainShelf (Scope.over plainShelf framedShelf) ∧ eval plainShelf shelfDepth = .ok (.int 7) ∧
      eval (Scope.over plainShelf framedShelf) shelfDepth = .ok (.int 7)) ∧
    (eval framedShelf shelfDepth = .error (.unknownSymbol "rail") ∧ "rail" ∈ shelfDepth.identifiers ∧
      framedShelf "rail" = none) := by
  have hagree : AgreeOn shelfDepth.identifiers plainShelf highShelf := by
    unfold AgreeOn
    decide +kernel
  have hextends : Extends plainShelf (Scope.over plainShelf framedShelf) := fun name j h => by
    simp [Scope.over, h]
  have hplain : eval plainShelf shelfDepth = .ok (.int 7) := rfl
  have hframed : eval framedShelf shelfDepth = .error (.unknownSymbol "rail") := rfl
  exact ⟨⟨hagree, (eval_failsClosed shelfDepth plainShelf highShelf).1 hagree⟩,
    ⟨hextends, hplain, (eval_failsClosed shelfDepth plainShelf _).2.1 _ hextends hplain⟩,
    hframed, (eval_failsClosed shelfDepth framedShelf highShelf).2.2 "rail" hframed⟩

end GoalCompiler.Expression
