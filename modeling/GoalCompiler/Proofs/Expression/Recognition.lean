import GoalCompiler.Expression.Evaluation
import GoalCompiler.Proofs.Expression.Derivation

/-! The readers are complete: tokens that derive a tree are read as that tree, unless they are nested too
deeply. A reader stops where the grammar wants it to because the token after an expression binds more
loosely than the expression does. With soundness this makes reading and the grammar one, and the grammar
unambiguous. -/
namespace GoalCompiler.Expression

@[simp] def Symbol.looseness : Symbol → Nat
  | .atom => 0
  | .unary => 1
  | .power => 2
  | .product => 3
  | .sum => 4
  | .comparison => 5
  | .conjunction => 6
  | .disjunction => 7
  | .conditional => 8

/-- The looseness of the symbol that a token goes on with when it follows an operand. -/
@[simp] def Token.looseness : Token → Nat
  | .opening => 0
  | .power => 2
  | .star | .slash | .percent => 3
  | .plus | .minus => 4
  | .less | .atMost | .greater | .atLeast | .equal | .unequal => 5
  | .and => 6
  | .or => 7
  | .ifWord => 8
  | _ => 9

/-- What follows does not go on with an expression of the form `s`. -/
def Stops (s : Symbol) (rest : List Placed) : Prop :=
  ∀ t ∈ rest.head?, s.looseness < t.token.looseness

@[simp] theorem stops_nil (s : Symbol) : Stops s [] := by simp [Stops]

@[simp] theorem stops_cons {s : Symbol} {t : Placed} {rest : List Placed} :
    Stops s (t :: rest) ↔ s.looseness < t.token.looseness := by simp [Stops]

theorem Stops.mono {s s' : Symbol} {rest : List Placed} (h : Stops s rest)
    (hs : s'.looseness ≤ s.looseness) : Stops s' rest :=
  fun t ht => Nat.lt_of_le_of_lt hs (h t ht)

theorem Stops.head_ne {s : Symbol} {t : Placed} {rest : List Placed} (h : Stops s (t :: rest)) :
    t.token.looseness ≠ s.looseness :=
  Nat.ne_of_gt (stops_cons.mp h)

theorem Joins.looseness {f : Folding} {t : Token} {join : Expr → Expr → Expr} (h : Joins f t join) :
    t.looseness = f.symbol.looseness := by
  cases h <;> rfl

theorem Compares.looseness {t : Token} {op : Comparison} (h : Compares t op) :
    t.looseness = Symbol.comparison.looseness := by
  cases h <;> rfl

theorem Folding.looseness_operand (f : Folding) : f.operand.looseness < f.symbol.looseness := by
  cases f <;> decide

theorem placed_cons {t : Token} {us : List Token} {ts : List Placed} (h : ts.map Placed.token = t :: us) :
    ∃ p vs, ts = ⟨t, p⟩ :: vs ∧ vs.map Placed.token = us := by
  obtain ⟨⟨_, p⟩, vs, rfl, rfl, hvs⟩ := List.map_eq_cons_iff.mp h
  exact ⟨p, vs, rfl, hvs⟩

theorem placed_singleton {t : Token} {ts : List Placed} (h : ts.map Placed.token = [t]) :
    ∃ p, ts = [⟨t, p⟩] := by
  obtain ⟨p, vs, rfl, hvs⟩ := placed_cons h
  exact ⟨p, by rw [List.map_eq_nil_iff.mp hvs]⟩

theorem placed_append_cons {t : Token} {us us' : List Token} {ts : List Placed}
    (h : ts.map Placed.token = us ++ t :: us') :
    ∃ vs p ws, ts = vs ++ ⟨t, p⟩ :: ws ∧ vs.map Placed.token = us ∧ ws.map Placed.token = us' := by
  obtain ⟨vs, vs', rfl, hvs, h⟩ := List.map_eq_append_iff.mp h
  obtain ⟨p, ws, rfl, hws⟩ := placed_cons h
  exact ⟨vs, p, ws, rfl, hvs, hws⟩

/-- The tokens of clauses begin with those of the first. -/
theorem clauses_cons {κ : Type} {c : Clause κ} {clauses : List (Clause κ)} {us : List Placed}
    (h : us.map Placed.token = (c :: clauses).flatMap Clause.tokens) :
    ∃ t vs ws, us = t :: (vs ++ ws) ∧ t.token = c.sign ∧ vs.map Placed.token = c.text ∧
      ws.map Placed.token = clauses.flatMap Clause.tokens := by
  obtain ⟨t, us', rfl, ht, h⟩ := List.map_eq_cons_iff.mp h
  obtain ⟨vs, ws, rfl, hvs, hws⟩ := List.map_eq_append_iff.mp h
  exact ⟨t, vs, ws, rfl, ht, hvs, hws⟩

/-- An operand stops before the sign of the next clause, and where the clauses stop. -/
theorem stops_clauses {κ : Type} {s operand : Symbol} {clauses : List (Clause κ)} {us rest : List Placed}
    (hlt : operand.looseness < s.looseness) (hsigns : ∀ c ∈ clauses, c.sign.looseness = s.looseness)
    (hus : us.map Placed.token = clauses.flatMap Clause.tokens) (hstops : Stops s rest) :
    Stops operand (us ++ rest) := by
  cases clauses with
  | nil =>
    obtain rfl := List.map_eq_nil_iff.mp hus
    exact hstops.mono (Nat.le_of_lt hlt)
  | cons c clauses =>
    obtain ⟨t, vs, ws, rfl, ht, -⟩ := clauses_cons hus
    rw [List.cons_append, stops_cons, ht, hsigns c List.mem_cons_self]
    exact hlt

/-! ### Completeness -/

def TooDeep (r : Except Refusal α) : Prop := ∃ position, r = .error ⟨position, .tooDeep⟩

/-- `a` comes off the front of the tokens and `rest` is left; or the reading is too deep, and fewer levels
are left than there are tokens to take. -/
def Takes {ts : List Placed} (x : Except Refusal (Taken α ts)) (levels : Nat) (a : α)
    (rest : List Placed) : Prop :=
  (∃ shorter, x = .ok ⟨a, rest, shorter⟩) ∨ (levels + rest.length < ts.length ∧ TooDeep x)

/-- The same where there may be nothing to take. -/
def Continues {ts : List Placed} (x : Except Refusal (Extended α ts)) (levels : Nat) (a : α)
    (rest : List Placed) : Prop :=
  (∃ notLonger, x = .ok ⟨a, rest, notLonger⟩) ∨ (levels + rest.length ≤ ts.length ∧ TooDeep x)

/-- A reader with so many levels left takes every expression of the form `s` for its tree. -/
def Reading.Complete (r : Reading) (s : Symbol) (levels : Nat) : Prop :=
  ∀ ts e, Derives s ts e → ∀ us rest, us.map Placed.token = ts → Stops s rest →
    Takes (r (us ++ rest)) levels e rest

def Extension.Complete (m : Extension) (f : Folding) (levels : Nat) : Prop :=
  ∀ clauses : List (Clause (Expr → Expr → Expr)), (∀ c ∈ clauses, Joins f c.sign c.meaning) →
    (∀ c ∈ clauses, Derives f.operand c.text c.tree) → ∀ left us rest,
      us.map Placed.token = clauses.flatMap Clause.tokens → Stops f.symbol rest →
        Continues (m left (us ++ rest)) levels (joined left clauses) rest

variable {operand inner base exponent otherwise first : Reading} {more : Extension}
  {f : Folding} {levels : Nat} {ts mid rest : List Placed} {left e : Expr}

theorem Takes.thenExtend (hf : Takes (first ts) levels left mid)
    (hm : Continues (more left mid) levels e rest) : Takes (first.thenExtend more ts) levels e rest := by
  unfold Reading.thenExtend
  rcases hf with ⟨hlt, hf⟩ | ⟨hlt, p, hf⟩
  · rcases hm with ⟨hle, hm⟩ | ⟨hle, p, hm⟩
    · exact .inl ⟨Nat.lt_of_le_of_lt hle hlt, by simp only [hf, hm]⟩
    · exact .inr ⟨Nat.lt_of_le_of_lt hle hlt, p, by simp only [hf, hm]⟩
  · refine .inr ⟨?_, p, by simp only [hf]⟩
    rcases hm with ⟨hle, -⟩ | ⟨hle, -⟩ <;> omega

theorem Reading.Complete.thenExtend (hf : first.Complete f.operand levels) (hm : more.Complete f levels) :
    (first.thenExtend more).Complete f.symbol levels := by
  intro ts e h us rest hus hstops
  generalize hs : f.symbol = s at h
  cases h with
  | fold g clauses hg hfirst hjs hds =>
    obtain rfl := Folding.symbol_injective (hg.trans hs.symm)
    obtain ⟨vs, ws, rfl, hvs, hws⟩ := List.map_eq_append_iff.mp hus
    rw [List.append_assoc]
    exact (hf _ _ hfirst vs (ws ++ rest) hvs
        (stops_clauses g.looseness_operand (fun c hc => (hjs c hc).looseness) hws hstops)).thenExtend
      (hm clauses hjs hds _ ws rest hws hstops)
  | _ => cases f <;> cases hs

theorem fold_of_stops (hstops : Stops f.symbol rest) :
    fold f.operator operand more left rest = .ok ⟨left, rest, Nat.le_refl _⟩ := by
  cases rest with
  | nil => rfl
  | cons t rest =>
    have hnone : f.operator t.token = none :=
      Option.eq_none_iff_forall_ne_some.mpr fun _ h => hstops.head_ne (operator_eq_some.mp h).looseness
    unfold fold
    simp only [hnone]

theorem Reading.Complete.fold (ho : operand.Complete f.operand levels) (hm : more.Complete f levels) :
    (fold f.operator operand more : Extension).Complete f (levels + 1) := by
  intro clauses hjs hds left us rest hus hstops
  cases clauses with
  | nil =>
    obtain rfl := List.map_eq_nil_iff.mp hus
    exact .inl ⟨_, fold_of_stops hstops⟩
  | cons c clauses =>
    obtain ⟨hj, hjs⟩ := List.forall_mem_cons.mp hjs
    obtain ⟨hd, hds⟩ := List.forall_mem_cons.mp hds
    obtain ⟨t, vs, ws, rfl, ht, hvs, hws⟩ := clauses_cons hus
    have hop : f.operator t.token = some c.meaning := operator_eq_some.mpr (ht ▸ hj)
    have hright := ho _ _ hd vs (ws ++ rest) hvs
      (stops_clauses f.looseness_operand (fun c hc => (hjs c hc).looseness) hws hstops)
    have hmore := hm clauses hjs hds (c.meaning left c.tree) ws rest hws hstops
    rw [List.cons_append, List.append_assoc]
    unfold Expression.fold
    -- Both are read one level deeper; the sign is the token that pays for it.
    rcases hright with ⟨_, hright⟩ | ⟨hlt, p, hright⟩
    · rcases hmore with ⟨_, hmore⟩ | ⟨hle, p, hmore⟩
      · exact .inl ⟨by grind, by simp only [hop, hright, hmore]; rfl⟩
      · exact .inr ⟨by grind, p, by simp only [hop, hright, hmore]⟩
    · exact .inr ⟨by grind, p, by simp only [hop, hright]⟩

theorem comparisons_of_stops (hstops : Stops .comparison rest) :
    comparisons operand rest = .ok ⟨[], rest, Nat.le_refl _⟩ := by
  unfold comparisons
  cases rest with
  | nil => rfl
  | cons t rest =>
    have hnone : t.token.asComparison = none :=
      Option.eq_none_iff_forall_ne_some.mpr fun _ h => hstops.head_ne (asComparison_eq_some.mp h).looseness
    simp only [hnone]

theorem comparisons_complete (ho : operand.Complete .sum levels) {clauses : List (Clause Comparison)}
    {us : List Placed} (hcs : ∀ c ∈ clauses, Compares c.sign c.meaning)
    (hds : ∀ c ∈ clauses, Derives .sum c.text c.tree)
    (hus : us.map Placed.token = clauses.flatMap Clause.tokens) (hstops : Stops .comparison rest) :
    Continues (comparisons operand (us ++ rest)) levels (clauses.map fun c => (c.meaning, c.tree)) rest := by
  induction clauses generalizing us with
  | nil =>
    obtain rfl := List.map_eq_nil_iff.mp hus
    exact .inl ⟨_, comparisons_of_stops hstops⟩
  | cons c clauses ih =>
    obtain ⟨hc, hcs⟩ := List.forall_mem_cons.mp hcs
    obtain ⟨hd, hds⟩ := List.forall_mem_cons.mp hds
    obtain ⟨t, vs, ws, rfl, ht, hvs, hws⟩ := clauses_cons hus
    have hop : t.token.asComparison = some c.meaning := asComparison_eq_some.mpr (ht ▸ hc)
    have hright := ho _ _ hd vs (ws ++ rest) hvs
      (stops_clauses (by decide) (fun c hc => (hcs c hc).looseness) hws hstops)
    have hmore := ih hcs hds hws
    rw [List.cons_append, List.append_assoc]
    unfold comparisons
    rcases hright with ⟨_, hright⟩ | ⟨hlt, p, hright⟩
    · rcases hmore with ⟨_, hmore⟩ | ⟨hle, p, hmore⟩
      · exact .inl ⟨by grind, by simp only [hop, hright, hmore]; rfl⟩
      · exact .inr ⟨by grind, p, by simp only [hop, hright, hmore]⟩
    · exact .inr ⟨by grind, p, by simp only [hop, hright]⟩

theorem expect_cons (wanted : Token) (p : Nat) (ts : List Placed) :
    expect wanted (⟨wanted, p⟩ :: ts) = .ok ⟨(), ts, Nat.lt_succ_self _⟩ := by
  simp only [expect, if_true]

/-- Arguments with commas between them, up to the closing bracket. -/
theorem arguments_complete (hi : inner.Complete .conditional levels) {us : List Token} {e : Expr}
    {others : List (List Token × Expr)} (he : Derives .conditional us e)
    (ho : ∀ x ∈ others, Derives .conditional x.1 x.2) {vs : List Placed}
    (h : vs.map Placed.token = us ++ (others.flatMap fun x => .comma :: x.1) ++ [.closing]) :
    Takes (arguments inner (vs ++ rest)) levels (e :: others.map Prod.snd) rest := by
  induction others generalizing us e vs with
  | nil =>
    rw [List.flatMap_nil, List.append_nil] at h
    obtain ⟨vs, p, ws, rfl, hvs, hws⟩ := placed_append_cons h
    obtain rfl := List.map_eq_nil_iff.mp hws
    have hfirst := hi _ _ he vs (⟨.closing, p⟩ :: rest) hvs (by simp)
    rw [List.append_assoc, List.cons_append, List.nil_append]
    unfold arguments
    rcases hfirst with ⟨hlt, hfirst⟩ | ⟨hlt, p, hfirst⟩
    · exact .inl ⟨by grind, by simp only [hfirst, expect_cons]; rfl⟩
    · exact .inr ⟨by grind, p, by simp only [hfirst]⟩
  | cons x others ih =>
    obtain ⟨hx, ho⟩ := List.forall_mem_cons.mp ho
    rw [List.flatMap_cons, List.cons_append, List.append_assoc, List.cons_append] at h
    obtain ⟨vs, p, ws, rfl, hvs, hws⟩ := placed_append_cons h
    have hfirst := hi _ _ he vs (⟨.comma, p⟩ :: (ws ++ rest)) hvs (by simp)
    have hmore := ih hx ho hws
    rw [List.append_assoc, List.cons_append]
    unfold arguments
    rcases hfirst with ⟨hlt, hfirst⟩ | ⟨hlt, p, hfirst⟩
    · rcases hmore with ⟨hlt', hmore⟩ | ⟨hlt', p, hmore⟩
      · exact .inl ⟨by grind, by simp only [hfirst, hmore]; rfl⟩
      · exact .inr ⟨by grind, p, by simp only [hfirst, hmore]⟩
    · exact .inr ⟨by grind, p, by simp only [hfirst]⟩

theorem Takes.call {name : String} {p q : Nat} {t : Placed} {args : List Expr} (ht : t.token ≠ .closing)
    (h : Takes (arguments inner (t :: ts)) levels args rest) :
    Takes (atom inner (⟨.ident name, p⟩ :: ⟨.opening, q⟩ :: t :: ts)) (levels + 1) (.call name args) rest := by
  have hnot : ∀ position rest, t :: ts = ⟨.closing, position⟩ :: rest → False := by
    rintro _ _ ⟨⟩
    exact ht rfl
  rcases h with ⟨hlt, h⟩ | ⟨hlt, p, h⟩
  · exact .inl ⟨by grind, by simp only [Expression.atom, h]; rfl⟩
  · exact .inr ⟨by grind, p, by simp only [Expression.atom, h]⟩

theorem atom_ident {name : String} {p : Nat} (hstops : Stops .atom rest) :
    atom inner (⟨.ident name, p⟩ :: rest) = .ok ⟨.ident name, rest, Nat.lt_succ_self _⟩ := by
  have hnot : ∀ position ts, rest = ⟨.opening, position⟩ :: ts → False := by
    rintro _ _ rfl
    exact absurd hstops (by simp)
  rw [Expression.atom]
  · exact fun _ _ _ => hnot _ _
  · exact hnot

theorem Reading.Complete.atom (hi : inner.Complete .conditional levels) :
    (atom inner).Complete .atom (levels + 1) := by
  intro ts e h us rest hus hstops
  cases h with
  | int | float | str | yes | no =>
    obtain ⟨p, rfl⟩ := placed_singleton hus
    exact .inl ⟨_, rfl⟩
  | ident =>
    obtain ⟨p, rfl⟩ := placed_singleton hus
    exact .inl ⟨_, atom_ident hstops⟩
  | bareCall =>
    obtain ⟨p, us, rfl, h⟩ := placed_cons hus
    obtain ⟨q, us, rfl, hclosing⟩ := placed_cons h
    obtain ⟨r, rfl⟩ := placed_singleton hclosing
    exact .inl ⟨_, rfl⟩
  | call others he ho =>
    -- The first argument does not begin with the bracket that would end a call without arguments.
    obtain ⟨p, us, rfl, h⟩ := placed_cons hus
    obtain ⟨q, us, rfl, hargs⟩ := placed_cons h
    have htakes : Takes (arguments inner (us ++ rest)) levels _ rest := arguments_complete hi he ho hargs
    obtain ⟨t, ts, rfl, ht⟩ := he.starts
    obtain ⟨r, us, rfl, -⟩ := placed_cons hargs
    exact htakes.call ht
  | brackets h =>
    obtain ⟨p, us, rfl, hinside⟩ := placed_cons hus
    obtain ⟨us, q, ws, rfl, hvs, hws⟩ := placed_append_cons hinside
    obtain rfl := List.map_eq_nil_iff.mp hws
    have hinner := hi _ _ h us (⟨.closing, q⟩ :: rest) hvs (by simp)
    rw [List.cons_append, List.append_assoc, List.cons_append, List.nil_append]
    rcases hinner with ⟨hlt, hinner⟩ | ⟨hlt, p, hinner⟩
    · exact .inl ⟨by grind, by simp only [Expression.atom, hinner, expect_cons]⟩
    · exact .inr ⟨by grind, p, by simp only [Expression.atom, hinner]⟩
  | fold f _ hf => cases f <;> cases hf

/-- An atom begins with no sign. -/
theorem signed_of_atom {us : List Placed} {ts : List Token} (h : Derives .atom ts e)
    (hus : us.map Placed.token = ts) :
    signed operand inner (us ++ rest) = Expression.atom inner (us ++ rest) := by
  cases h with
  | fold f _ hf => cases f <;> cases hf
  | _ =>
    obtain ⟨p, us, rfl, -⟩ := placed_cons hus
    rfl

theorem Takes.after {t : Placed} {g : Expr → Expr} (h : Takes (operand ts) levels e rest) :
    Takes ((operand ts).map (·.after g : Taken Expr ts → Taken Expr (t :: ts))) (levels + 1) (g e) rest := by
  rcases h with ⟨hlt, h⟩ | ⟨hlt, p, h⟩
  · exact .inl ⟨Nat.lt_succ_of_lt hlt, by rw [h]; rfl⟩
  · exact .inr ⟨by grind, p, by rw [h]; rfl⟩

theorem Reading.Complete.signed (ho : operand.Complete .unary levels)
    (hi : inner.Complete .conditional levels) : (signed operand inner).Complete .unary (levels + 1) := by
  intro ts e h us rest hus hstops
  cases h with
  | unsigned h =>
    rw [signed_of_atom h hus]
    exact hi.atom _ _ h us rest hus (hstops.mono (by decide))
  | neg h | not h | plus h =>
    obtain ⟨p, us, rfl, hoperand⟩ := placed_cons hus
    exact (ho _ _ h us rest hoperand hstops).after
  | fold f _ hf => cases f <;> cases hf

theorem Reading.Complete.raised (hb : base.Complete .unary (levels + 1))
    (he : exponent.Complete .power levels) : (raised base exponent).Complete .power (levels + 1) := by
  intro ts e h us rest hus hstops
  cases h with
  | unraised h =>
    refine Takes.thenExtend (hb _ _ h us rest hus (hstops.mono (by decide))) ?_
    split
    · exact absurd hstops (by simp)
    · exact .inl ⟨_, rfl⟩
  | raised hbase hexponent =>
    obtain ⟨us, p, vs, rfl, hbefore, hafter⟩ := placed_append_cons hus
    have hsecond := he _ _ hexponent vs rest hafter hstops
    rw [List.append_assoc, List.cons_append]
    refine Takes.thenExtend (hb _ _ hbase us _ hbefore (by simp)) ?_
    rcases hsecond with ⟨_, hsecond⟩ | ⟨hlt, p, hsecond⟩
    · exact .inl ⟨by grind, by simp only [hsecond]⟩
    · exact .inr ⟨by grind, p, by simp only [hsecond]⟩
  | fold f _ hf => cases f <;> cases hf

theorem Reading.Complete.compared (ho : operand.Complete .sum levels) :
    (compared operand).Complete .comparison levels := by
  intro ts e h us rest hus hstops
  cases h with
  | uncompared h =>
    refine Takes.thenExtend (ho _ _ h us rest hus (hstops.mono (by decide))) ?_
    rw [comparisons_of_stops hstops]
    exact .inl ⟨_, rfl⟩
  | compare clauses h hne hcs hds =>
    obtain ⟨us, vs, rfl, hus, hvs⟩ := List.map_eq_append_iff.mp hus
    have hstop : Stops .sum (vs ++ rest) :=
      stops_clauses (by decide) (fun c hc => (hcs c hc).looseness) hvs hstops
    rw [List.append_assoc]
    refine Takes.thenExtend (ho _ _ h us (vs ++ rest) hus hstop) ?_
    rcases comparisons_complete ho hcs hds hvs hstops with ⟨hle, hc⟩ | ⟨hle, p, hc⟩
    · exact .inl ⟨hle, by simp [hc, Except.map, hne]⟩
    · exact .inr ⟨hle, p, by rw [hc]; rfl⟩
  | fold f _ hf => cases f <;> cases hf

theorem Reading.Complete.chosen (ho : operand.Complete .disjunction (levels + 1))
    (he : otherwise.Complete .conditional levels) :
    (chosen operand otherwise).Complete .conditional (levels + 1) := by
  intro ts e h us rest hus hstops
  cases h with
  | unconditional h =>
    refine Takes.thenExtend (ho _ _ h us rest hus (hstops.mono (by decide))) ?_
    split
    · exact absurd hstops (by simp)
    · exact .inl ⟨_, rfl⟩
  | ifElse htrue hcondition hfalse =>
    obtain ⟨us, p, vs, rfl, hbefore, h⟩ := placed_append_cons hus
    obtain ⟨vs, q, ws, rfl, hvs, hws⟩ := placed_append_cons h
    have hsecond := ho _ _ hcondition vs (⟨.elseWord, q⟩ :: (ws ++ rest)) hvs (by simp)
    have hthird := he _ _ hfalse ws rest hws hstops
    rw [List.append_assoc, List.cons_append, List.append_assoc, List.cons_append]
    refine Takes.thenExtend (ho _ _ htrue us _ hbefore (by simp)) ?_
    rcases hsecond with ⟨_, hsecond⟩ | ⟨hlt, p, hsecond⟩
    · rcases hthird with ⟨hlt, hthird⟩ | ⟨hlt, p, hthird⟩
      · exact .inl ⟨by grind, by simp only [hsecond, expect_cons, hthird]⟩
      · exact .inr ⟨by grind, p, by simp only [hsecond, expect_cons, hthird]⟩
    · exact .inr ⟨by grind, p, by simp only [hsecond]⟩
  | fold f _ hf => cases f <;> cases hf

/-- All readers at one depth are complete, so many levels above the floor. -/
structure Levels.Complete (d : Levels) (levels : Nat) : Prop where
  conditional : d.conditional.Complete .conditional levels
  conjunction : d.conjunction.Complete .conjunction levels
  comparison : d.comparison.Complete .comparison levels
  product : d.product.Complete .product levels
  power : d.power.Complete .power levels
  unary : d.unary.Complete .unary levels
  disjuncts : d.disjuncts.Complete .disjuncts levels
  conjuncts : d.conjuncts.Complete .conjuncts levels
  summands : d.summands.Complete .summands levels
  factors : d.factors.Complete .factors levels

theorem Levels.complete_floor : Levels.floor.Complete 0 :=
  have reading (s : Symbol) : Reading.Complete (fun ts => refuse ts .tooDeep) s 0 := by
    rintro ts e h us rest rfl -
    obtain ⟨t, _, hus, -⟩ := h.starts
    obtain ⟨_, _, rfl, -⟩ := placed_cons hus
    exact .inr ⟨by grind, _, rfl⟩
  have extension (f : Folding) : Extension.Complete (fun _ ts => refuse ts .tooDeep) f 0 :=
    fun _ _ _ _ _ _ _ _ => .inr ⟨by simp, _, rfl⟩
  ⟨reading _, reading _, reading _, reading _, reading _, reading _,
    extension _, extension _, extension _, extension _⟩

theorem Levels.Complete.layer {d : Levels} (h : d.Complete levels) : d.layer.Complete (levels + 1) :=
  have unary := h.unary.signed h.conditional
  have power := unary.raised h.power
  have factors := h.power.fold h.factors
  have product := power.thenExtend factors
  have summands := h.product.fold h.summands
  have comparison := (product.thenExtend summands).compared
  have conjuncts := h.comparison.fold h.conjuncts
  have conjunction := comparison.thenExtend conjuncts
  have disjuncts := h.conjunction.fold h.disjuncts
  have conditional := (conjunction.thenExtend disjuncts).chosen h.conditional
  { conditional, conjunction, comparison, product, power, unary, disjuncts, conjuncts, summands, factors }

theorem Levels.complete_at (n : Nat) : (Levels.at n).Complete (n + 1) := by
  induction n with
  | zero => exact complete_floor.layer
  | succ n ih => exact ih.layer

/-- The grammar is unambiguous. -/
theorem Derives.unique {s : Symbol} {ts : List Token} {e e' : Expr} (h : Derives s ts e)
    (h' : Derives s ts e') : e = e' := by
  -- With as many levels as tokens no reading is too deep, wherever the tokens are placed.
  have hus : (ts.map (⟨·, 0⟩)).map Placed.token = ts := by simp [Function.comp_def]
  have hread {e} (h : Derives s ts e) := (Levels.complete_at ts.length).conditional ts e h.toConditional
    (ts.map (⟨·, 0⟩)) [] hus (stops_nil _)
  rcases hread h, hread h' with ⟨⟨_, hr⟩ | ⟨hlt, -⟩, ⟨_, hr'⟩ | ⟨hlt, -⟩⟩
  · cases hr.symm.trans hr'
    rfl
  all_goals grind

theorem ofTokens_of_derives {ts : List Placed} (h : Derives .conditional (ts.map Placed.token) e) :
    ofTokens ts = .ok e ∨ (maxNesting < ts.length ∧ TooDeep (ofTokens ts)) := by
  have hne : ts.isEmpty = false := by
    obtain ⟨t, us, hus, -⟩ := h.starts
    obtain ⟨p, vs, rfl, -⟩ := placed_cons hus
    rfl
  have hread := (Levels.complete_at (maxNesting - 1)).conditional _ _ h ts [] rfl (stops_nil _)
  rw [List.append_nil] at hread
  unfold ofTokens
  rcases hread with ⟨_, hread⟩ | ⟨hlt, p, hread⟩
  · exact .inl (by simp [hne, hread])
  · exact .inr ⟨hlt, p, by simp [hne, hread]⟩

/-- A text of few enough tokens is read as the tree that is derived for them. -/
theorem read_of_derives {source : String} {s : Symbol} {ts : List Placed} {e : Expr}
    (h : Token.tokens source = .ok ts) (he : Derives s (ts.map Placed.token) e) (hfew : ts.length ≤ maxNesting) :
    Expression.read source = .ok e := by
  rcases ofTokens_of_derives he.toConditional with hread | ⟨hlt, -⟩
  · simp [Expression.read, h, hread]
  · exact absurd hlt (Nat.not_lt.mpr hfew)

namespace Compiled

variable {source : String}

theorem read_of_ok (h : Token.tokens source = .ok ts) (he : ofTokens ts = .ok e) :
    read source = .ok ⟨source, e⟩ := by
  simp [read, Expression.read, h, he]

theorem read_of_error {r : Refusal} (h : Token.tokens source = .ok ts) (hr : ofTokens ts = .error r) :
    read source = .error ⟨.syntaxError (r.position.getD source.length) r.cause, source⟩ := by
  simp [read, Expression.read, h, hr]

/-- Reading a text and the grammar are one. What is read has a derivation; the tree of a derivation is the
only one, and it is read unless it is nested too deeply, which takes more tokens than there are levels; and a
text without a derivation is a syntax error. -/
theorem read_recognizes (h : Token.tokens source = .ok ts) :
    (∀ c, read source = .ok c → c.source = source ∧ Derives .conditional (ts.map Placed.token) c.tree) ∧
    (∀ e, Derives .conditional (ts.map Placed.token) e →
      (∀ e', Derives .conditional (ts.map Placed.token) e' → e' = e) ∧
      (read source = .ok ⟨source, e⟩ ∨
        (maxNesting < ts.length ∧
          ∃ position, read source = .error ⟨.syntaxError position .tooDeep, source⟩))) ∧
    ((∀ e, ¬ Derives .conditional (ts.map Placed.token) e) →
      ∃ position cause, read source = .error ⟨.syntaxError position cause, source⟩) := by
  refine ⟨fun c hc => ?_, fun e he => ⟨fun e' he' => he'.unique he, ?_⟩, fun hno => ?_⟩
  · cases hread : ofTokens ts with
    | ok e =>
      cases (read_of_ok h hread).symm.trans hc
      exact ⟨rfl, derives_of_ofTokens hread⟩
    | error r => cases (read_of_error h hread).symm.trans hc
  · rcases ofTokens_of_derives he with hread | ⟨hlt, p, hread⟩
    · exact .inl (read_of_ok h hread)
    · exact .inr ⟨hlt, _, read_of_error h hread⟩
  · cases hread : ofTokens ts with
    | ok e => exact absurd (derives_of_ofTokens hread) (hno e)
    | error r => exact ⟨_, _, read_of_error h hread⟩

/-- A negation binds more tightly than the comparison after it, and a sign than the power. -/
theorem read_recognizes_signs :
    Token.tokens "not a == -2 ** 2" = .ok [⟨.not, 0⟩, ⟨.ident "a", 4⟩, ⟨.equal, 6⟩, ⟨.minus, 9⟩,
      ⟨.int 2, 10⟩, ⟨.power, 12⟩, ⟨.int 2, 15⟩] ∧
    read "not a == -2 ** 2" = .ok ⟨"not a == -2 ** 2",
      .compare (.not (.ident "a")) [(.eq, .binary .pow (.neg (.int 2)) (.int 2))]⟩ := by
  have htokens : Token.tokens "not a == -2 ** 2" = .ok [⟨.not, 0⟩, ⟨.ident "a", 4⟩, ⟨.equal, 6⟩,
      ⟨.minus, 9⟩, ⟨.int 2, 10⟩, ⟨.power, 12⟩, ⟨.int 2, 15⟩] := by decide +kernel
  have ofPower {ts e} (h : Derives .power ts e) : Derives .sum ts e :=
    Derives.alone .summands (Derives.alone .factors h)
  have hnot : Derives .sum [.not, .ident "a"] (.not (.ident "a")) :=
    ofPower (.unraised (.not (.unsigned .ident)))
  have hpower : Derives .sum [.minus, .int 2, .power, .int 2] (.binary .pow (.neg (.int 2)) (.int 2)) :=
    ofPower (.raised (.neg (.unsigned .int)) (.unraised (.unsigned .int)))
  have hcompare : Derives .comparison [.not, .ident "a", .equal, .minus, .int 2, .power, .int 2]
      (.compare (.not (.ident "a")) [(.eq, .binary .pow (.neg (.int 2)) (.int 2))]) :=
    .compare [⟨.equal, .eq, [.minus, .int 2, .power, .int 2], .binary .pow (.neg (.int 2)) (.int 2)⟩] hnot
      (List.cons_ne_nil _ _) (by simpa using Compares.eq) (by simpa using hpower)
  refine ⟨htokens, ?_⟩
  rcases ((read_recognizes htokens).2.1 _ hcompare.toConditional).2 with h | ⟨hlt, -⟩
  · exact h
  · exact absurd hlt (by decide)

end Compiled

end GoalCompiler.Expression
