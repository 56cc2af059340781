import GoalCompiler.Expression.Evaluation

/-! What the value of an expression hangs on. Scopes that agree on the names an expression reads give it the
same value, and the same fault. -/
namespace GoalCompiler.Expression

/-- Both scopes say the same of every one of the names. -/
def AgreeOn (names : NameSet) (s t : Scope) : Prop := ∀ name ∈ names, s name = t name

theorem agreeOn_union {ms ns : NameSet} {s t : Scope} :
    AgreeOn (NameSet.union ms ns) s t ↔ AgreeOn ms s t ∧ AgreeOn ns s t := by
  constructor
  · intro h
    exact ⟨fun name hn => h name (NameSet.mem_union.mpr (.inl hn)),
      fun name hn => h name (NameSet.mem_union.mpr (.inr hn))⟩
  · rintro ⟨hm, hn⟩ name h
    rcases NameSet.mem_union.mp h with h | h
    · exact hm name h
    · exact hn name h

variable {s t : Scope}

mutual

theorem eval_congr (e : Expr) (h : AgreeOn e.identifiers s t) : eval s e = eval t e := by
  cases e with
  | int | float | str | bool => rfl
  | ident name =>
    have hname : s name = t name := h name List.mem_cons_self
    simp only [eval, lookUp, hname]
  | neg e => rw [eval, eval, eval_congr e h]
  | not e => rw [eval, eval, eval_congr e h]
  | binary op l r =>
    obtain ⟨hl, hr⟩ := agreeOn_union.mp h
    simp only [eval, eval_congr l hl, eval_congr r hr]
  | compare first rest =>
    obtain ⟨hf, hr⟩ := agreeOn_union.mp h
    simp only [eval, eval_congr first hf, evalChain_congr rest hr]
  | and l r =>
    obtain ⟨hl, hr⟩ := agreeOn_union.mp h
    simp only [eval, eval_congr l hl, eval_congr r hr]
  | or l r =>
    obtain ⟨hl, hr⟩ := agreeOn_union.mp h
    simp only [eval, eval_congr l hl, eval_congr r hr]
  | ifElse c a b =>
    obtain ⟨hca, hb⟩ := agreeOn_union.mp h
    obtain ⟨hc, ha⟩ := agreeOn_union.mp hca
    simp only [eval, eval_congr c hc, eval_congr a ha, eval_congr b hb]
  | call function args => simp only [eval, evalArgs_congr args h]

theorem evalChain_congr (rest : List (Comparison × Expr)) (h : AgreeOn (Expr.chainIdentifiers rest) s t)
    (left : Scalar) : evalChain s left rest = evalChain t left rest := by
  match rest with
  | [] => rfl
  | (op, e) :: rest =>
    obtain ⟨he, hr⟩ := agreeOn_union.mp h
    simp only [evalChain, eval_congr e he, evalChain_congr rest hr]

theorem evalArgs_congr (args : List Expr) (h : AgreeOn (Expr.argIdentifiers args) s t) :
    evalArgs s args = evalArgs t args := by
  match args with
  | [] => rfl
  | e :: rest =>
    obtain ⟨he, hr⟩ := agreeOn_union.mp h
    simp only [evalArgs, eval_congr e he, evalArgs_congr rest hr]

end

theorem Compiled.value_congr {c : Compiled} (h : AgreeOn c.identifiers s t) : c.value s = c.value t := by
  rw [Compiled.value, Compiled.value, eval_congr c.tree h]

theorem Compiled.holds_congr {c : Compiled} (h : AgreeOn c.identifiers s t) : c.holds s = c.holds t := by
  rw [Compiled.holds, Compiled.holds, Compiled.value_congr h]

end GoalCompiler.Expression
