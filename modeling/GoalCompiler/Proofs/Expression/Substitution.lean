import GoalCompiler.Proofs.Expression.Numerals

/-! A number in the place of a variable. In the text of an expression the number is written where the name of the
variable stands, and in the scope it is what the name is bound to; both give the same result. A negative number has its
sign in front, so that it is a signed operand where the name was an atom. Wherever the grammar takes an atom it takes a
signed operand too, with the same operators around it. -/
namespace GoalCompiler.Expression

open Template (valueText)

/-! ### Texts -/

/-- The places of a variable: its name where no bracket opens after it. -/
def occurrences (v : String) : List Placed → List Nat
  | [] => []
  | t :: ts =>
    if t.token = .ident v ∧ (ts.head?.map Placed.token) ≠ some .opening then t.position :: occurrences v ts
    else occurrences v ts

/-- The text, between blanks, in the place of as many characters. -/
def replaceAt (length : Nat) (text : List Char) (position : Nat) (cs : List Char) : List Char :=
  cs.take position ++ ' ' :: (text ++ ' ' :: cs.drop (position + length))

/-- An expression with a text in the place of a variable. The last place goes first, so that the others stay where
they are. -/
def replaceVariable (v text source : String) : String :=
  match Token.tokens source with
  | .error _ => source
  | .ok ts => String.ofList ((occurrences v ts).foldr (replaceAt v.toList.length text.toList) source.toList)

/-! ### Tokens -/

def substituteTokens (v : String) (image : List Token) : List Token → List Token
  | [] => []
  | t :: ts =>
    (if t = .ident v ∧ ts.head? ≠ some .opening then image else [t]) ++ substituteTokens v image ts

/-- Tokens that are no name and make no call of the name before them. -/
def Token.parts : Token → Bool
  | .opening | .ident _ => false
  | _ => true

section Tokens

variable {v : String} {image : List Token}

theorem substituteTokens_cons {t : Token} (ht : t ≠ .ident v) (ts : List Token) :
    substituteTokens v image (t :: ts) = t :: substituteTokens v image ts := by
  simp [substituteTokens, ht]

theorem substituteTokens_append {us : List Token} (hus : us.head? ≠ some .opening) (ts : List Token) :
    substituteTokens v image (ts ++ us) = substituteTokens v image ts ++ substituteTokens v image us := by
  induction ts with
  | nil => rfl
  | cons t ts ih =>
    have hhead : (ts ++ us).head? = some .opening ↔ ts.head? = some .opening := by
      cases ts with
      | nil => simp [hus]
      | cons => rfl
    simp only [List.cons_append, substituteTokens, ne_eq, hhead, ih, List.append_assoc]

theorem substituteTokens_append_cons {t : Token} (ht : t.parts) (ts us : List Token) :
    substituteTokens v image (ts ++ t :: us) =
      substituteTokens v image ts ++ t :: substituteTokens v image us := by
  have hopening : (t :: us).head? ≠ some .opening := by
    rintro ⟨⟩
    cases ht
  have hname : t ≠ .ident v := by
    rintro rfl
    cases ht
  rw [substituteTokens_append hopening, substituteTokens_cons hname]

/-- Operands with a sign before each. -/
theorem substituteTokens_operands {α : Type} (sign : α → Token) (text : α → List Token) {l : List α}
    (hl : ∀ a ∈ l, (sign a).parts) (ts : List Token) :
    substituteTokens v image (ts ++ l.flatMap fun a => sign a :: text a) =
      substituteTokens v image ts ++ l.flatMap fun a => sign a :: substituteTokens v image (text a) := by
  induction l generalizing ts with
  | nil => simp
  | cons a l ih =>
    obtain ⟨ha, hl⟩ := List.forall_mem_cons.mp hl
    rw [List.flatMap_cons, List.cons_append, substituteTokens_append_cons ha, ih hl, List.flatMap_cons,
      List.cons_append]

end Tokens

theorem Joins.parts {f : Folding} {t : Token} {join : Expr → Expr → Expr} (h : Joins f t join) : t.parts := by
  cases h <;> rfl

theorem Compares.parts {t : Token} {op : Comparison} (h : Compares t op) : t.parts := by
  cases h <;> rfl

/-! ### Trees -/

namespace Expr

mutual

def substitute (v : String) (image : Expr) : Expr → Expr
  | .int n => .int n
  | .float x => .float x
  | .str s => .str s
  | .bool b => .bool b
  | .ident name => if name = v then image else .ident name
  | .neg e => .neg (substitute v image e)
  | .not e => .not (substitute v image e)
  | .binary op l r => .binary op (substitute v image l) (substitute v image r)
  | .compare first rest => .compare (substitute v image first) (chainSubstitute v image rest)
  | .and l r => .and (substitute v image l) (substitute v image r)
  | .or l r => .or (substitute v image l) (substitute v image r)
  | .ifElse c t e => .ifElse (substitute v image c) (substitute v image t) (substitute v image e)
  | .call f args => .call f (argSubstitute v image args)

def chainSubstitute (v : String) (image : Expr) : List (Comparison × Expr) → List (Comparison × Expr)
  | [] => []
  | (op, e) :: rest => (op, substitute v image e) :: chainSubstitute v image rest

def argSubstitute (v : String) (image : Expr) : List Expr → List Expr
  | [] => []
  | e :: rest => substitute v image e :: argSubstitute v image rest

end

theorem chainSubstitute_eq_map (v : String) (image : Expr) (rest : List (Comparison × Expr)) :
    chainSubstitute v image rest = rest.map fun x => (x.1, substitute v image x.2) := by
  induction rest with
  | nil => rfl
  | cons x rest ih => rw [chainSubstitute, ih, List.map_cons]

theorem argSubstitute_eq_map (v : String) (image : Expr) (args : List Expr) :
    argSubstitute v image args = args.map (substitute v image) := by
  induction args with
  | nil => rfl
  | cons e args ih => rw [argSubstitute, ih, List.map_cons]

end Expr

section Trees

variable {v : String} {image : List Token} {tree : Expr}

theorem Joins.substitute {f : Folding} {t : Token} {join : Expr → Expr → Expr} (h : Joins f t join) (l r : Expr) :
    Expr.substitute v tree (join l r) = join (Expr.substitute v tree l) (Expr.substitute v tree r) := by
  cases h <;> rfl

def Clause.substitute {κ : Type} (v : String) (image : List Token) (tree : Expr) (c : Clause κ) : Clause κ :=
  { c with text := substituteTokens v image c.text, tree := Expr.substitute v tree c.tree }

theorem joined_substitute {f : Folding} {rest : List (Clause (Expr → Expr → Expr))}
    (h : ∀ c ∈ rest, Joins f c.sign c.meaning) (first : Expr) :
    Expr.substitute v tree (joined first rest) =
      joined (Expr.substitute v tree first) (rest.map (Clause.substitute v image tree)) := by
  induction rest generalizing first with
  | nil => rfl
  | cons c rest ih =>
    obtain ⟨hc, hrest⟩ := List.forall_mem_cons.mp h
    have hjoin : Expr.substitute v tree (c.meaning first c.tree) =
        c.meaning (Expr.substitute v tree first) (Expr.substitute v tree c.tree) := hc.substitute first c.tree
    exact (ih hrest (c.meaning first c.tree)).trans (by rw [hjoin]; rfl)

theorem substituteTokens_clauses {κ : Type} {rest : List (Clause κ)} (h : ∀ c ∈ rest, c.sign.parts)
    (ts : List Token) :
    substituteTokens v image (ts ++ rest.flatMap Clause.tokens) =
      substituteTokens v image ts ++ (rest.map (Clause.substitute v image tree)).flatMap Clause.tokens := by
  rw [List.flatMap_map]
  exact substituteTokens_operands Clause.sign Clause.text h ts

/-- The form that an expression has when an atom in it may have become a signed operand. -/
@[simp] def Symbol.signed : Symbol → Symbol
  | .atom => .unary
  | s => s

theorem Derives.substitute {s : Symbol} {ts : List Token} {e : Expr} (h : Derives s ts e)
    (himage : Derives .unary image tree) :
    Derives s.signed (substituteTokens v image ts) (Expr.substitute v tree e) := by
  induction h with
  | unconditional _ ih => exact .unconditional ih
  | ifElse _ _ _ iht ihc ihe =>
    rw [substituteTokens_append_cons (t := .ifWord) rfl, substituteTokens_append_cons (t := .elseWord) rfl]
    exact .ifElse iht ihc ihe
  | fold f rest hf _ hjs _ ihfirst ihrest =>
    subst hf
    have hsymbol : f.symbol.signed = f.symbol := by cases f <;> rfl
    have hoperand : f.operand.signed = f.operand := by cases f <;> rfl
    rw [hoperand] at ihfirst ihrest
    rw [substituteTokens_clauses (fun c hc => (hjs c hc).parts), joined_substitute hjs, hsymbol]
    exact .fold f _ rfl ihfirst (by simpa [Clause.substitute] using hjs) (by simpa [Clause.substitute] using ihrest)
  | uncompared _ ih => exact .uncompared ih
  | compare rest _ hne hcs _ ihfirst ihrest =>
    have hmap : (rest.map fun c => (c.meaning, c.tree)).map (fun x => (x.1, Expr.substitute v tree x.2)) =
        (rest.map (Clause.substitute v image tree)).map fun c => (c.meaning, c.tree) := by
      simp [Clause.substitute]
    rw [substituteTokens_clauses (fun c hc => (hcs c hc).parts), Expr.substitute, Expr.chainSubstitute_eq_map, hmap]
    exact .compare _ ihfirst (by simpa using hne) (by simpa [Clause.substitute] using hcs)
      (by simpa [Clause.substitute] using ihrest)
  | unraised _ ih => exact .unraised ih
  | raised _ _ ihb ihe =>
    rw [substituteTokens_append_cons (t := .power) rfl]
    exact .raised ihb ihe
  | unsigned _ ih => exact ih
  | neg _ ih =>
    rw [substituteTokens_cons (t := .minus) nofun]
    exact .neg ih
  | not _ ih =>
    rw [substituteTokens_cons (t := .not) nofun]
    exact .not ih
  | plus _ ih =>
    rw [substituteTokens_cons (t := .plus) nofun]
    exact .plus ih
  | int => exact .unsigned .int
  | float => exact .unsigned .float
  | str => exact .unsigned .str
  | yes => exact .unsigned .yes
  | no => exact .unsigned .no
  | @ident name =>
    by_cases hname : name = v
    · subst hname
      simpa [substituteTokens, Expr.substitute] using himage
    · simpa [substituteTokens, Expr.substitute, hname] using Derives.unsigned Derives.ident
  | bareCall => simpa [substituteTokens, Expr.substitute, Expr.argSubstitute] using Derives.unsigned .bareCall
  | @call _ _ f rest _ _ ihfirst ihrest =>
    have hname (us : List Token) :
        substituteTokens v image (.ident f :: .opening :: us) =
          .ident f :: .opening :: substituteTokens v image us := by
      simp [substituteTokens]
    have hrest : ∀ a ∈ rest.map fun a => (substituteTokens v image a.1, Expr.substitute v tree a.2),
        Derives .conditional a.1 a.2 := List.forall_mem_map.mpr ihrest
    have hargs := Derives.call (f := f) _ ihfirst hrest
    rw [List.flatMap_map, List.map_map] at hargs
    rw [hname, substituteTokens_append_cons (t := .closing) rfl,
      substituteTokens_operands (fun _ => .comma) Prod.fst (fun _ _ => rfl), Expr.substitute, Expr.argSubstitute,
      Expr.argSubstitute_eq_map, List.map_map]
    exact .unsigned hargs
  | brackets _ ih =>
    rw [substituteTokens_cons (t := .opening) nofun, substituteTokens_append_cons (t := .closing) rfl]
    exact .unsigned (.brackets ih)

end Trees

/-! ### Values -/

section Values

variable {v : String} {tree : Expr} {inner outer : Scope}

mutual

theorem eval_substitute (himage : eval outer tree = lookUp inner v) (hothers : ∀ name ≠ v, inner name = outer name)
    (e : Expr) : eval outer (Expr.substitute v tree e) = eval inner e := by
  cases e with
  | int | float | str | bool => rfl
  | ident name =>
    rw [Expr.substitute]
    split
    · subst name
      exact himage
    · rename_i hname
      simp only [eval, lookUp, hothers name hname]
  | neg e => rw [Expr.substitute, eval, eval, eval_substitute himage hothers e]
  | not e => rw [Expr.substitute, eval, eval, eval_substitute himage hothers e]
  | binary op l r =>
    simp only [Expr.substitute, eval, eval_substitute himage hothers l, eval_substitute himage hothers r]
  | compare first rest =>
    simp only [Expr.substitute, eval, eval_substitute himage hothers first, evalChain_substitute himage hothers rest]
  | and l r =>
    simp only [Expr.substitute, eval, eval_substitute himage hothers l, eval_substitute himage hothers r]
  | or l r =>
    simp only [Expr.substitute, eval, eval_substitute himage hothers l, eval_substitute himage hothers r]
  | ifElse c a b =>
    simp only [Expr.substitute, eval, eval_substitute himage hothers c, eval_substitute himage hothers a,
      eval_substitute himage hothers b]
  | call f args => simp only [Expr.substitute, eval, evalArgs_substitute himage hothers args]

theorem evalChain_substitute (himage : eval outer tree = lookUp inner v)
    (hothers : ∀ name ≠ v, inner name = outer name) (rest : List (Comparison × Expr)) (left : Scalar) :
    evalChain outer left (Expr.chainSubstitute v tree rest) = evalChain inner left rest := by
  match rest with
  | [] => rfl
  | (op, e) :: rest =>
    simp only [Expr.chainSubstitute, evalChain, eval_substitute himage hothers e,
      evalChain_substitute himage hothers rest]

theorem evalArgs_substitute (himage : eval outer tree = lookUp inner v)
    (hothers : ∀ name ≠ v, inner name = outer name) (args : List Expr) :
    evalArgs outer (Expr.argSubstitute v tree args) = evalArgs inner args := by
  match args with
  | [] => rfl
  | e :: rest =>
    simp only [Expr.argSubstitute, evalArgs, eval_substitute himage hothers e, evalArgs_substitute himage hothers rest]

end

end Values

/-! ### Reading the text with the number in it -/

/-- The text with the variable replaced, cut into tokens. The places count from the start of the whole text, of which
`before` was cut already. -/
theorem scans_replaced {v : String} {text : List Char} {image : List Token}
    (htext : ∀ rest us, Scans rest us → Scans (' ' :: (text ++ ' ' :: rest)) (image ++ us)) {position : Nat}
    {cs : List Char} {ts : List Placed} (h : Token.scan position cs = .ok ts) {before : List Char}
    (hbefore : before.length = position) :
    ∃ cs', (occurrences v ts).foldr (replaceAt v.toList.length text) (before ++ cs) = before ++ cs' ∧
      Parted cs cs' ∧ Scans cs' (substituteTokens v image (ts.map Placed.token)) := by
  induction position, cs using Token.scan.induct generalizing ts before with
  | case1 position =>
    rw [Token.scan] at h
    cases h
    exact ⟨[], rfl, .nil, scans_nil⟩
  | case2 position c rest hblank ih =>
    rw [Token.scan, if_pos hblank] at h
    obtain ⟨cs', hfold, hparted, hscans⟩ :=
      ih h (show (before ++ [c]).length = position + 1 by simp [hbefore])
    rw [List.append_assoc, List.append_assoc, List.singleton_append, List.singleton_append] at hfold
    exact ⟨c :: cs', hfold, .cons c hparted, hscans.blank hblank⟩
  | case3 position c rest hblank e hnext =>
    rw [Token.scan, if_neg hblank] at h
    split at h
    · cases h
    · rename_i hok
      cases hok.symm.trans hnext
  | case4 position c rest hblank t after hnext ih =>
    have hblank : Text.isBlank c = false := eq_false_of_ne_true hblank
    rw [scan_token hblank hnext] at h
    obtain ⟨ts, hts, rfl⟩ := Outcome.map_eq_ok.mp h
    obtain ⟨q, rfl⟩ := Token.next_suffix hnext
    have hlength : (before ++ c :: q).length = position + ((q ++ after).length + 1 - after.length) := by
      simp only [List.length_append, List.length_cons]
      omega
    obtain ⟨after', hfold, hparted, hscans⟩ := ih hts hlength
    rw [List.append_assoc, List.append_assoc, List.cons_append, List.cons_append] at hfold
    have hhead : ts.head?.map Placed.token = (ts.map Placed.token).head? := by rw [List.head?_map]
    by_cases hplace : t = .ident v ∧ (ts.map Placed.token).head? ≠ some .opening
    · obtain ⟨hcs, hname⟩ := Token.next_ident (hplace.1 ▸ hnext)
      have hv : v.toList = c :: q := List.append_cancel_right hcs.symm
      refine ⟨' ' :: (text ++ ' ' :: after'), ?_, .name hname, ?_⟩
      · rw [occurrences, if_pos (hhead ▸ hplace), List.foldr_cons, hfold, replaceAt, hv, ← hbefore]
        simp [List.drop_append]
      · rw [List.map_cons, substituteTokens, if_pos hplace]
        exact htext _ _ hscans
    · refine ⟨c :: (q ++ after'), ?_, .cons c (hparted.append q), ?_⟩
      · rw [occurrences, if_neg (hhead ▸ hplace), hfold]
      · rw [List.map_cons, substituteTokens, if_neg hplace]
        exact hscans.token hblank (Token.next_parted hparted hnext)

theorem tokens_replaceVariable (v : String) (n : Int) {source : String} {ts : List Placed}
    (h : Token.tokens source = .ok ts) :
    ∃ ts', Token.tokens (replaceVariable v (valueText (.int n)) source) = .ok ts' ∧
      ts'.map Placed.token = substituteTokens v (signedTokens n) (ts.map Placed.token) := by
  have hblank : Text.isBlank ' ' := by decide +kernel
  have htext (rest : List Char) (us : List Token) (hrest : Scans rest us) :
      Scans (' ' :: ((valueText (.int n)).toList ++ ' ' :: rest)) (signedTokens n ++ us) :=
    (scans_valueText n (by simp) (hrest.blank hblank)).blank hblank
  obtain ⟨cs, hfold, -, hscans⟩ :=
    scans_replaced (v := v) htext h (show ([] : List Char).length = 0 from rfl)
  rw [replaceVariable, h]
  dsimp only
  rw [List.nil_append, List.nil_append] at hfold
  rw [Token.tokens, String.toList_ofList, hfold]
  exact hscans 0

theorem derives_of_read {source : String} {e : Expr} (h : Expression.read source = .ok e) :
    ∃ ts, Token.tokens source = .ok ts ∧ Derives .conditional (ts.map Placed.token) e := by
  unfold Expression.read at h
  split at h
  · cases h
  · rename_i ts hts
    split at h
    · cases h
    · rename_i e' he
      cases h
      exact ⟨ts, hts, derives_of_ofTokens he⟩

/-- With a number in the place of a variable an expression is still one, unless the sign in front of the number is
nested too deeply. -/
theorem read_replaceVariable (v : String) (n : Int) {source : String} {e : Expr}
    (h : Expression.read source = .ok e) :
    Expression.read (replaceVariable v (valueText (.int n)) source) = .ok (Expr.substitute v (signedTree n) e) ∨
      ∃ position, Expression.read (replaceVariable v (valueText (.int n)) source) = .error (position, .tooDeep) := by
  obtain ⟨ts, hts, hderives⟩ := derives_of_read h
  obtain ⟨ts', hts', hus⟩ := tokens_replaceVariable v n hts
  have himage : Derives .conditional (ts'.map Placed.token) (Expr.substitute v (signedTree n) e) :=
    hus ▸ hderives.substitute (derives_signed n)
  rcases ofTokens_of_derives himage with hread | ⟨-, position, hdeep⟩
  · exact .inl (by simp [Expression.read, hts', hread])
  · exact .inr ⟨_, by simp [Expression.read, hts', hdeep]; rfl⟩

theorem eval_substitute_signed (scope : Scope) (v : String) {n : Int} (hn : -2 ^ 63 < n) (hn' : n < 2 ^ 63)
    (e : Expr) :
    eval scope (Expr.substitute v (signedTree n) e) =
      eval (Scope.over (Scope.ofDict [(v, .int n)]) scope) e := by
  refine eval_substitute ?_ (fun name hname => ?_) e
  · rw [eval_signed_of_fits scope hn hn']
    simpa [lookUp, Scope.over, Scope.ofDict, Dict.get?, ofValue_int] using ⟨hn.le, hn'⟩
  · simp [Scope.over, Scope.ofDict, Dict.get?, hname]

/-- Writing a number into an expression in the place of a variable gives the result of the expression with the
variable bound to the number, be it a value or a fault. -/
theorem evaluate_replaceVariable (scope : Scope) (v : String) {n : Int} (hn : -2 ^ 63 < n) (hn' : n < 2 ^ 63)
    {source : String} {c c' : Compiled} (hread : Compiled.read source = .ok c)
    (hread' : Compiled.read (replaceVariable v (valueText (.int n)) source) = .ok c') :
    (evaluate (replaceVariable v (valueText (.int n)) source) scope).mapError Error.fault =
      (evaluate source (Scope.over (Scope.ofDict [(v, .int n)]) scope)).mapError Error.fault := by
  unfold Compiled.read at hread hread'
  split at hread
  · rename_i e he
    rcases read_replaceVariable v n he with himage | ⟨position, hdeep⟩
    · rw [evaluate_of_read himage, evaluate_of_read he, eval_substitute_signed scope v hn hn']
      cases eval (Scope.over (Scope.ofDict [(v, .int n)]) scope) e <;> rfl
    · rw [hdeep] at hread'
      cases hread'
  · cases hread

/-- The sign of the number stands after a sign and before a power, and the call of a function of the same name stays. -/
theorem evaluate_replaceVariable_negative :
    replaceVariable "x" (valueText (.int (-3))) "-x ** 2 if x < 0 else x(1)" =
        "- -3  ** 2 if  -3  < 0 else x(1)" ∧
      (evaluate "- -3  ** 2 if  -3  < 0 else x(1)" (Scope.ofDict [])).mapError Error.fault =
        (evaluate "-x ** 2 if x < 0 else x(1)"
          (Scope.over (Scope.ofDict [("x", .int (-3))]) (Scope.ofDict []))).mapError Error.fault := by
  have htext : replaceVariable "x" (valueText (.int (-3))) "-x ** 2 if x < 0 else x(1)" =
      "- -3  ** 2 if  -3  < 0 else x(1)" := by decide +kernel
  obtain ⟨c, hc⟩ : ∃ c, Compiled.read "-x ** 2 if x < 0 else x(1)" = .ok c :=
    Outcome.exists_eq_ok_of_isOk (by decide +kernel)
  obtain ⟨c', hc'⟩ : ∃ c, Compiled.read "- -3  ** 2 if  -3  < 0 else x(1)" = .ok c :=
    Outcome.exists_eq_ok_of_isOk (by decide +kernel)
  have hsame := evaluate_replaceVariable (Scope.ofDict []) "x" (n := -3) (by decide) (by decide) hc (htext ▸ hc')
  rw [htext] at hsame
  exact ⟨htext, hsame⟩

end GoalCompiler.Expression
