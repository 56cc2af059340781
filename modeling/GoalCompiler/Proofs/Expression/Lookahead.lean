import GoalCompiler.Proofs.Expression.Spelling
import GoalCompiler.Proofs.Text.Blanks

/-! What a token hangs on. A token is cut off at the first character that does not go on with it, and what follows
that character does not matter to it beyond the few that are looked ahead at. So a text whose names give way to blanks
is cut in the same places. -/
namespace GoalCompiler.Expression

/-- The two texts are the same, or they are up to a place where a name begins in the first and a blank stands in the
second. -/
inductive Parted : List Char → List Char → Prop
  | nil : Parted [] []
  | cons (c : Char) : Parted as bs → Parted (c :: as) (c :: bs)
  | name : Text.startsName c → Parted (c :: as) (' ' :: bs)

namespace Parted

variable {as bs : List Char}

theorem append (q : List Char) (h : Parted as bs) : Parted (q ++ as) (q ++ bs) := by
  induction q with
  | nil => exact h
  | cons c q ih => exact .cons c ih

/-- A blank apart, the second text begins with no character that the first does not begin with. -/
theorem head?_eq_some {c : Char} (h : Parted as bs) (hc : c ≠ ' ') (hbs : bs.head? = some c) :
    as.head? = some c := by
  cases h with
  | nil => cases hbs
  | cons => exact hbs
  | name => exact absurd (Option.some.inj hbs).symm hc

end Parted

theorem isDigit_eq_false_of_startsName {c : Char} (h : Text.startsName c) : Number.isDigit c = false := by
  have hall : ∀ n ∈ List.range' 48 10, Text.startsName (Char.ofNat n) = false := by decide +kernel
  by_contra hdigit
  simp only [Number.isDigit, Bool.not_eq_false, Bool.and_eq_true, decide_eq_true_eq, Char.le_def,
    UInt32.le_iff_toNat_le] at hdigit
  change 48 ≤ c.toNat ∧ c.toNat ≤ 57 at hdigit
  have := hall c.toNat (List.mem_range'_1.mpr (by omega))
  rw [Char.ofNat_toNat, h] at this
  cases this

namespace Token

variable {q as bs : List Char}

/-- Characters of one kind, as far as they go. -/
theorem run_parted {p : Char → Bool} (hblank : p ' ' = false) (h : Parted as bs)
    (hq : (q ++ as).dropWhile p = as) :
    (q ++ bs).takeWhile p = (q ++ as).takeWhile p ∧ (q ++ bs).dropWhile p = bs := by
  have htake : (q ++ as).takeWhile p = q := by
    have := List.takeWhile_append_dropWhile (p := p) (l := q ++ as)
    rw [hq] at this
    exact List.append_cancel_right this
  have hall : ∀ c ∈ q, p c := fun c hc => List.mem_takeWhile_imp (htake ▸ hc)
  have hend : ∀ c rest, bs = c :: rest → ¬ p c := by
    rintro c rest rfl hc
    have hne : c ≠ ' ' := by
      rintro rfl
      rw [hblank] at hc
      cases hc
    obtain ⟨rest', rfl⟩ := List.head?_eq_some_iff.mp (h.head?_eq_some hne rfl)
    rw [List.dropWhile_append_of_pos hall, List.dropWhile_cons_of_pos hc] at hq
    have := (List.dropWhile_sublist (l := rest') p).length_le
    rw [hq, List.length_cons] at this
    omega
  rw [htake, List.takeWhile_append_of_pos hall, List.dropWhile_append_of_pos hall]
  cases bs with
  | nil => simp
  | cons c rest =>
    rw [List.takeWhile_cons_of_neg (hend c rest rfl), List.dropWhile_cons_of_neg (hend c rest rfl), List.append_nil]
    exact ⟨rfl, rfl⟩

/-! ### Numbers -/

theorem fraction_suffix {cs rest : List Char} {x : Option (List Char)} (h : fraction cs = (x, rest)) :
    rest <:+ cs := by
  unfold fraction at h
  split at h
  · cases h
    exact List.suffix_rfl
  · cases h
    exact (List.dropWhile_suffix _).trans (List.suffix_cons _ _)
  · cases h
    exact List.suffix_rfl

theorem fraction_of_head?_ne (h : as.head? ≠ some '.') : fraction as = (none, as) := by
  unfold fraction
  split
  · exact absurd rfl h
  · exact absurd rfl h
  · rfl

theorem fraction_point (h : as.head? ≠ some '.') :
    fraction ('.' :: as) = (some (as.takeWhile Number.isDigit), as.dropWhile Number.isDigit) := by
  unfold fraction
  split
  · rename_i heq
    rw [(List.cons.inj heq).2] at h
    exact absurd rfl h
  · rename_i heq
    rw [(List.cons.inj heq).2]
  · rename_i hpoint
    exact absurd rfl (hpoint as)

theorem fraction_parted {x : Option (List Char)} (h : Parted as bs) (hq : fraction (q ++ as) = (x, as)) :
    fraction (q ++ bs) = (x, bs) := by
  have hhead (q : List Char) (hne : (q ++ as).head? ≠ some '.') : (q ++ bs).head? ≠ some '.' :=
    fun hbs => hne ((h.append q).head?_eq_some (by decide) hbs)
  by_cases hpoint : (q ++ as).head? = some '.'
  · obtain ⟨rest, hrest⟩ := List.head?_eq_some_iff.mp hpoint
    rw [hrest] at hq
    by_cases hsecond : rest.head? = some '.'
    · -- two points are left where they are
      obtain ⟨rest, rfl⟩ := List.head?_eq_some_iff.mp hsecond
      cases hq
      obtain rfl : q = [] := by simpa using hrest
      cases h with
      | cons _ h =>
        cases h with
        | cons => rfl
        | name hname => exact absurd hname (by decide +kernel)
      | name hname => exact absurd hname (by decide +kernel)
    · rw [fraction_point hsecond] at hq
      obtain ⟨rfl, hdrop⟩ := Prod.mk.inj hq
      cases q with
      | nil =>
        have := (List.dropWhile_sublist (l := rest) Number.isDigit).length_le
        rw [hdrop, show as = '.' :: rest from hrest, List.length_cons] at this
        omega
      | cons c q =>
        rw [List.cons_append] at hrest
        obtain ⟨rfl, rfl⟩ := List.cons.inj hrest
        obtain ⟨htake, hdrop'⟩ := run_parted (by decide) h hdrop
        rw [List.cons_append, fraction_point (hhead q hsecond), htake, hdrop']
  · rw [fraction_of_head?_ne hpoint] at hq
    obtain ⟨rfl, hq⟩ := Prod.mk.inj hq
    obtain rfl : q = [] := by simpa using hq
    exact fraction_of_head?_ne (hhead [] hpoint)

/-- The sign of a power, if there is one, and what is after it. -/
def powerSign : List Char → Bool × List Char
  | '+' :: cs => (false, cs)
  | '-' :: cs => (true, cs)
  | cs => (false, cs)

theorem powerSign_suffix (cs : List Char) : (powerSign cs).2 <:+ cs := by
  unfold powerSign
  split
  · exact List.suffix_cons _ _
  · exact List.suffix_cons _ _
  · exact List.suffix_rfl

theorem powerSign_cons_append (c : Char) (cs rest : List Char) :
    powerSign (c :: (cs ++ rest)) = ((powerSign (c :: cs)).1, (powerSign (c :: cs)).2 ++ rest) := by
  unfold powerSign
  grind

theorem powerSign_parted (h : Parted as bs) : Parted (powerSign as).2 (powerSign bs).2 := by
  cases h with
  | nil => exact .nil
  | cons c h =>
    by_cases hplus : c = '+'
    · subst hplus
      exact h
    · by_cases hminus : c = '-'
      · subst hminus
        exact h
      · simpa [powerSign, hplus, hminus] using Parted.cons c h
  | @name c as bs hname =>
    have hplus : c ≠ '+' := by
      rintro rfl
      exact absurd hname (by decide +kernel)
    have hminus : c ≠ '-' := by
      rintro rfl
      exact absurd hname (by decide +kernel)
    simpa [powerSign, hplus, hminus] using Parted.name hname

/-- Whether a power of ten begins with the character and goes on with the text. -/
def startsPower (c : Char) (cs : List Char) : Bool :=
  (c == 'e' || c == 'E') && !((powerSign cs).2.takeWhile Number.isDigit).isEmpty

theorem powerOfTen_cons (c : Char) (cs : List Char) :
    powerOfTen (c :: cs) =
      if startsPower c cs then
        let n : Int := Number.ofDigits ((powerSign cs).2.takeWhile Number.isDigit)
        (some (if (powerSign cs).1 then -n else n), (powerSign cs).2.dropWhile Number.isDigit)
      else (none, c :: cs) := by
  unfold powerOfTen
  dsimp only
  split
  · rename_i hletter
    split
    · rename_i hnone
      have hdigits : (powerSign cs).2.takeWhile Number.isDigit = [] := hnone
      simp [startsPower, hdigits]
    · rename_i hsome
      have hdigits : (powerSign cs).2.takeWhile Number.isDigit ≠ [] := hsome
      have hpower : startsPower c cs := by simpa [startsPower, hdigits] using hletter
      rw [if_pos hpower]
      rfl
  · rename_i hletter
    rw [startsPower, eq_false_of_ne_true hletter]
    rfl

theorem length_lt_of_startsPower {c : Char} {cs : List Char} (h : startsPower c cs) :
    ((powerSign cs).2.dropWhile Number.isDigit).length < cs.length := by
  have hsplit := congrArg List.length
    (List.takeWhile_append_dropWhile (p := Number.isDigit) (l := (powerSign cs).2))
  have hpos : 0 < ((powerSign cs).2.takeWhile Number.isDigit).length := by
    rw [startsPower, Bool.and_eq_true, Bool.not_eq_true', List.isEmpty_eq_false_iff] at h
    exact List.length_pos_iff.mpr h.2
  have := (powerSign_suffix cs).length_le
  rw [List.length_append] at hsplit
  omega

theorem powerOfTen_suffix {cs rest : List Char} {y : Option Int} (h : powerOfTen cs = (y, rest)) :
    rest <:+ cs := by
  cases cs with
  | nil =>
    cases h
    exact List.suffix_rfl
  | cons c cs =>
    rw [powerOfTen_cons] at h
    split at h
    · cases h
      exact ((List.dropWhile_suffix _).trans (powerSign_suffix cs)).trans (List.suffix_cons _ _)
    · cases h
      exact List.suffix_rfl

theorem startsPower_parted (c : Char) (h : Parted as bs) : startsPower c bs = startsPower c as := by
  have hempty : ((powerSign bs).2.takeWhile Number.isDigit).isEmpty =
      ((powerSign as).2.takeWhile Number.isDigit).isEmpty := by
    have hsign := powerSign_parted h
    generalize (powerSign as).2 = as, (powerSign bs).2 = bs at hsign ⊢
    cases hsign with
    | nil => rfl
    | cons d => cases hd : Number.isDigit d <;> simp [hd]
    | name hname => simp [isDigit_eq_false_of_startsName hname, show Number.isDigit ' ' = false by decide]
  rw [startsPower, startsPower, hempty]

theorem powerOfTen_parted {y : Option Int} (h : Parted as bs) (hq : powerOfTen (q ++ as) = (y, as)) :
    powerOfTen (q ++ bs) = (y, bs) := by
  cases q with
  | nil =>
    -- nothing was taken, so that there is no power
    have hnot {c : Char} {cs : List Char} (hq : powerOfTen (c :: cs) = (y, c :: cs)) :
        startsPower c cs = false ∧ y = none := by
      rw [powerOfTen_cons] at hq
      split at hq
      · have := length_lt_of_startsPower ‹_›
        rw [(Prod.mk.inj hq).2, List.length_cons] at this
        omega
      · rename_i hpower
        exact ⟨eq_false_of_ne_true hpower, (Prod.mk.inj hq).1.symm⟩
    cases h with
    | nil => exact hq
    | cons c h =>
      obtain ⟨hpower, rfl⟩ := hnot hq
      rw [List.nil_append, powerOfTen_cons, startsPower_parted c h, hpower]
      rfl
    | name =>
      obtain ⟨-, rfl⟩ := hnot hq
      rfl
  | cons c q =>
    rw [List.cons_append, powerOfTen_cons] at hq ⊢
    rw [startsPower_parted c (h.append q)]
    split at hq
    · rename_i hpower
      rw [if_pos hpower]
      obtain ⟨rfl, hdrop⟩ := Prod.mk.inj hq
      cases q with
      | nil =>
        have := length_lt_of_startsPower hpower
        rw [hdrop] at this
        exact absurd this (Nat.lt_irrefl _)
      | cons d q =>
        rw [List.cons_append, powerSign_cons_append] at hdrop ⊢
        obtain ⟨htake, hdrop'⟩ := run_parted (by decide) h hdrop
        simp only [List.cons_append, powerSign_cons_append, htake, hdrop']
    · have := congrArg List.length (Prod.mk.inj hq).2
      simp only [List.length_cons, List.length_append] at this
      omega

/-- The number with these parts. -/
def numeral (whole : List Char) (fractional : Option (List Char)) (tens : Option Int) : Token :=
  if fractional.isNone && tens.isNone then
    let n := Number.ofDigits whole
    if Number.fitsWord n then .int (Int64.ofInt n) else .float (Number.ofDecimal n 0)
  else
    let digits := fractional.getD []
    .float (Number.ofDecimal (Number.ofDigits (whole ++ digits)) (tens.getD 0 - digits.length))

theorem number_eq (cs : List Char) :
    number cs =
      let f := fraction (cs.dropWhile Number.isDigit)
      let p := powerOfTen f.2
      (numeral (cs.takeWhile Number.isDigit) f.1 p.1, p.2) := by
  unfold number numeral
  dsimp only
  split <;> rfl

theorem numeral_ne_ident (whole : List Char) (fractional : Option (List Char)) (tens : Option Int) (v : String) :
    numeral whole fractional tens ≠ .ident v := by
  unfold numeral
  dsimp only
  split
  · split <;> exact nofun
  · exact nofun

theorem number_suffix {cs rest : List Char} {t : Token} (h : number cs = (t, rest)) : rest <:+ cs := by
  rw [number_eq] at h
  dsimp only at h
  obtain ⟨-, rfl⟩ := Prod.mk.inj h
  exact ((powerOfTen_suffix rfl).trans (fraction_suffix rfl)).trans (List.dropWhile_suffix _)

theorem number_parted {t : Token} (h : Parted as bs) (hq : number (q ++ as) = (t, as)) :
    number (q ++ bs) = (t, bs) := by
  rw [number_eq] at hq ⊢
  dsimp only at hq ⊢
  generalize hwhole : (q ++ as).dropWhile Number.isDigit = cs at hq
  generalize hfraction : fraction cs = f at hq
  obtain ⟨x, cs'⟩ := f
  generalize hpower : powerOfTen cs' = p at hq
  obtain ⟨y, rest⟩ := p
  obtain ⟨ht, rfl⟩ := Prod.mk.inj hq
  -- the digits, the fraction and the power, one after another
  obtain ⟨w, rfl⟩ := powerOfTen_suffix hpower
  obtain ⟨v, rfl⟩ := fraction_suffix hfraction
  obtain ⟨u, hu⟩ : v ++ (w ++ rest) <:+ q ++ rest := hwhole ▸ List.dropWhile_suffix _
  obtain rfl : u ++ (v ++ w) = q := List.append_cancel_right (by simpa using hu)
  simp only [List.append_assoc] at hwhole ht ⊢
  obtain ⟨htake, hdrop⟩ := run_parted (by decide) ((h.append w).append v) hwhole
  have hfraction' := fraction_parted (h.append w) hfraction
  have hpower' := powerOfTen_parted h hpower
  simp only [htake, hdrop, hfraction', hpower', ← ht]

/-! ### Texts, signs and tokens -/

theorem literal_cons {quote c : Char} (hc : c ≠ '\\') (cs : List Char) :
    literal quote (c :: cs) =
      if c = quote then some ([], cs) else (literal quote cs).map fun (s, r) => (c :: s, r) := by
  rw [literal]
  exact fun _ _ h => absurd h hc

theorem literal_suffix {quote : Char} {cs s rest : List Char} (h : literal quote cs = some (s, rest)) :
    rest <:+ cs := by
  fun_induction literal quote cs generalizing s with
  | case1 => cases h
  | case2 c cs ih =>
    obtain ⟨⟨s', rest'⟩, hs, heq⟩ := Option.map_eq_some_iff.mp h
    cases heq
    exact ((ih hs).trans (List.suffix_cons _ _)).trans (List.suffix_cons _ _)
  | case3 cs =>
    cases h
    exact List.suffix_cons _ _
  | case4 c cs _ _ ih =>
    obtain ⟨⟨s', rest'⟩, hs, heq⟩ := Option.map_eq_some_iff.mp h
    cases heq
    exact (ih hs).trans (List.suffix_cons _ _)

theorem literal_append {quote : Char} {s : List Char} (hquote : quote ≠ '\\')
    (hq : literal quote (q ++ as) = some (s, as)) (bs : List Char) : literal quote (q ++ bs) = some (s, bs) := by
  fun_induction literal quote q generalizing s with
  | case1 => exact absurd (length_literal_lt hq) (Nat.lt_irrefl _)
  | case2 c q ih =>
    simp only [List.cons_append, literal] at hq ⊢
    obtain ⟨⟨s', rest⟩, hs, heq⟩ := Option.map_eq_some_iff.mp hq
    cases heq
    rw [ih hs]
    rfl
  | case3 q =>
    rw [List.cons_append, literal_cons hquote, if_pos rfl] at hq ⊢
    obtain ⟨rfl, hq⟩ := Prod.mk.inj (Option.some.inj hq)
    obtain rfl : q = [] := by simpa using hq
    rfl
  | case4 c q hback hc ih =>
    by_cases hslash : c = '\\'
    · -- the backslash would stand for a character of what follows
      subst hslash
      obtain rfl : q = [] := by
        cases q with
        | nil => rfl
        | cons => exact (hback _ _ rfl rfl).elim
      cases as with
      | nil => simp [literal, hquote.symm] at hq
      | cons d as =>
        simp only [List.cons_append, List.nil_append, literal] at hq
        obtain ⟨⟨s', rest⟩, hs, heq⟩ := Option.map_eq_some_iff.mp hq
        cases heq
        have := length_literal_lt hs
        rw [List.length_cons] at this
        omega
    · rw [List.cons_append, literal_cons hslash, if_neg hc] at hq ⊢
      obtain ⟨⟨s', rest⟩, hs, heq⟩ := Option.map_eq_some_iff.mp hq
      cases heq
      rw [ih hs]
      rfl

theorem sign_parted {c : Char} {t : Token} (h : Parted as bs) (hq : sign (c :: (q ++ as)) = some (t, as)) :
    sign (c :: (q ++ bs)) = some (t, bs) := by
  have hpair {d : Char} (heq : q ++ as = d :: as) : q = [d] :=
    List.append_cancel_right (show q ++ as = [d] ++ as from heq)
  have halone (heq : q ++ as = as) : q = [] := by simpa using heq
  -- where a second character could make another sign of the first, there is none
  have hsecond {d : Char} (hd : d ≠ ' ') (hno : ∀ rest, as = d :: rest → False) (rest : List Char)
      (hbs : bs = d :: rest) : False := by
    obtain ⟨rest, rfl⟩ := List.head?_eq_some_iff.mp (h.head?_eq_some hd (by rw [hbs]; rfl))
    exact hno _ rfl
  unfold sign at hq
  split at hq
  case h_1 | h_2 | h_3 | h_4 | h_5 =>
    rename_i heq
    cases hq
    obtain ⟨rfl, hcut⟩ := List.cons.inj heq
    obtain rfl := hpair hcut
    rfl
  case h_8 | h_11 | h_12 =>
    rename_i hno heq
    cases hq
    obtain ⟨rfl, hcut⟩ := List.cons.inj heq
    obtain rfl := halone hcut
    rw [List.nil_append, sign]
    exact hsecond (by decide) hno
  case h_16 => cases hq
  all_goals
    rename_i heq
    cases hq
    obtain ⟨rfl, hcut⟩ := List.cons.inj heq
    obtain rfl := halone hcut
    rfl

theorem sign_suffix {cs rest : List Char} {t : Token} (h : sign cs = some (t, rest)) : rest <:+ cs := by
  unfold sign at h
  split at h
  case h_1 | h_2 | h_3 | h_4 | h_5 =>
    cases h
    exact (List.suffix_cons _ _).trans (List.suffix_cons _ _)
  case h_16 => cases h
  all_goals
    cases h
    exact List.suffix_cons _ _

theorem startsNumber_parted (c : Char) (h : Parted as bs) : startsNumber (c :: bs) = startsNumber (c :: as) := by
  by_cases hc : c = '.'
  · subst hc
    cases h with
    | nil => rfl
    | cons => rfl
    | name hname =>
      simp [startsNumber, isDigit_eq_false_of_startsName hname, show Number.isDigit ' ' = false by decide]
  · simp [startsNumber, hc]

/-- The first character is always taken. -/
theorem next_suffix {c : Char} {cs rest : List Char} {t : Token} (h : next (c :: cs) = .ok (t, rest)) :
    rest <:+ cs := by
  have hsuffix : rest <:+ c :: cs := by
    rw [next] at h
    split at h
    · exact number_suffix (Except.ok.inj h)
    · split at h
      · cases h
        exact List.dropWhile_suffix _
      · split at h
        · split at h
          · rename_i hliteral
            cases h
            exact (literal_suffix hliteral).trans (List.suffix_cons _ _)
          · cases h
        · split at h
          · rename_i hsign
            cases h
            exact sign_suffix hsign
          · cases h
  rcases List.suffix_cons_iff.mp hsuffix with rfl | hrest
  · exact absurd (length_next_lt h) (Nat.lt_irrefl _)
  · exact hrest

theorem ofWord_eq_ident {w v : String} (h : ofWord w = .ident v) : w = v := by
  unfold ofWord at h
  split at h <;> cases h
  rfl

/-- Where a name is the next token, its characters stand in front. -/
theorem next_ident {c : Char} {cs rest : List Char} {v : String} (h : next (c :: cs) = .ok (.ident v, rest)) :
    c :: cs = v.toList ++ rest ∧ Text.startsName c := by
  rw [next] at h
  split at h
  · rw [number_eq] at h
    exact absurd (Prod.mk.inj (Except.ok.inj h)).1 (numeral_ne_ident _ _ _ v)
  · split at h
    · rename_i hname
      obtain ⟨hword, rfl⟩ := Prod.mk.inj (Except.ok.inj h)
      rw [← ofWord_eq_ident hword, String.toList_ofList, List.takeWhile_append_dropWhile]
      exact ⟨rfl, hname⟩
    · split at h
      · split at h <;> cases h
      · split at h
        · rename_i hsign
          cases h
          unfold sign at hsign
          split at hsign <;> cases hsign
        · cases h

/-- The next token of a text stays the next when names further on give way to blanks. -/
theorem next_parted {c : Char} {t : Token} (h : Parted as bs) (hq : next (c :: (q ++ as)) = .ok (t, as)) :
    next (c :: (q ++ bs)) = .ok (t, bs) := by
  have hnumber := startsNumber_parted c (h.append q)
  rw [next] at hq ⊢
  rw [hnumber]
  split at hq
  · rename_i hstarts
    rw [if_pos hstarts]
    exact congrArg _ (number_parted (q := c :: q) h (Except.ok.inj hq))
  · rename_i hstarts
    rw [if_neg hstarts]
    split at hq
    · rename_i hname
      rw [if_pos hname]
      obtain ⟨ht, hdrop⟩ := Prod.mk.inj (Except.ok.inj hq)
      have hblank : Text.continuesName ' ' = false := by decide +kernel
      obtain ⟨htake, hdrop'⟩ := run_parted (q := c :: q) hblank h hdrop
      rw [List.cons_append, List.cons_append] at htake
      rw [List.cons_append] at hdrop'
      rw [htake, hdrop', ← ht]
    · rename_i hname
      rw [if_neg hname]
      split at hq
      · rename_i hquote
        rw [if_pos hquote]
        have hback : c ≠ '\\' := by
          rintro rfl
          exact absurd hquote (by decide)
        split at hq
        · rename_i s rest hliteral
          obtain ⟨rfl, rfl⟩ := Prod.mk.inj (Except.ok.inj hq)
          rw [literal_append hback hliteral]
        · cases hq
      · rename_i hquote
        rw [if_neg hquote]
        split at hq
        · rename_i hsign
          cases hq
          rw [sign_parted h hsign]
        · cases hq

end Token
end GoalCompiler.Expression
