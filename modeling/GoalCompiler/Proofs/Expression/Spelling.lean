import GoalCompiler.Expression.Token

/-! Texts of given tokens: each token is written as messages show it, with a blank after it, and such a text
is read as these tokens again. -/
namespace GoalCompiler.Expression

/-- A text in which a blank follows each token. -/
def spelled (us : List Token) : String := String.ofList (us.flatMap fun t => t.describe.toList ++ [' '])

/-- Where the tokens are in such a text. -/
def placedFrom (position : Nat) : List Token → List Placed
  | [] => []
  | t :: us => ⟨t, position⟩ :: placedFrom (position + t.describe.toList.length + 1) us

theorem map_placedFrom (position : Nat) (us : List Token) :
    (placedFrom position us).map Placed.token = us := by
  induction us generalizing position with
  | nil => rfl
  | cons t us ih => rw [placedFrom, List.map_cons, ih]

/-- With a blank after it, what messages show of the token is read as the token. -/
def Token.Plain (t : Token) : Prop :=
  ∃ c cs, t.describe.toList = c :: cs ∧ Text.isBlank c = false ∧
    ∀ rest, Token.next (c :: (cs ++ ' ' :: rest)) = .ok (t, ' ' :: rest)

theorem startsNumber_eq_false {c : Char} {cs : List Char} (hpoint : c ≠ '.') (hdigit : ¬ Number.isDigit c) :
    Token.startsNumber (c :: cs) = false := by
  unfold Token.startsNumber
  split
  · rename_i heq
    exact absurd (List.cons.inj heq).1 hpoint
  · rename_i heq
    rw [← (List.cons.inj heq).1]
    simpa using hdigit
  · rfl

theorem plain_of_word {t : Token} (c : Char) (cs : List Char) (ht : t.describe.toList = c :: cs)
    (hword : Token.ofWord (String.ofList (c :: cs)) = t)
    (h : c ≠ '.' ∧ ¬ Number.isDigit c ∧ Text.isBlank c = false ∧ Text.startsName c ∧
      (c :: cs).all Text.continuesName) : t.Plain := by
  obtain ⟨hpoint, hdigit, hblank, hstart, hall⟩ := h
  have hcs := List.all_eq_true.mp hall
  have hend : ¬ Text.continuesName ' ' := by decide +kernel
  refine ⟨c, cs, ht, hblank, fun rest => ?_⟩
  have htake : (c :: (cs ++ ' ' :: rest)).takeWhile Text.continuesName = c :: cs := by
    rw [← List.cons_append, List.takeWhile_append_of_pos hcs, List.takeWhile_cons_of_neg hend, List.append_nil]
  have hdrop : (c :: (cs ++ ' ' :: rest)).dropWhile Text.continuesName = ' ' :: rest := by
    rw [← List.cons_append, List.dropWhile_append_of_pos hcs, List.dropWhile_cons_of_neg hend]
  simp only [Token.next, startsNumber_eq_false hpoint hdigit, hstart, htake, hdrop, hword]
  rfl

theorem plain_of_sign {t : Token} (c : Char) (cs : List Char) (ht : t.describe.toList = c :: cs)
    (hsign : ∀ rest, Token.sign (c :: (cs ++ ' ' :: rest)) = some (t, ' ' :: rest))
    (h : c ≠ '.' ∧ ¬ Number.isDigit c ∧ Text.isBlank c = false ∧ Text.startsName c = false ∧
      (c == '\'' || c == '"') = false) : t.Plain := by
  obtain ⟨hpoint, hdigit, hblank, hstart, hquote⟩ := h
  refine ⟨c, cs, ht, hblank, fun rest => ?_⟩
  simp only [Token.next, startsNumber_eq_false hpoint hdigit, hstart, hquote, hsign]
  rfl

theorem scan_blank (position : Nat) (cs : List Char) :
    Token.scan position (' ' :: cs) = Token.scan (position + 1) cs := by
  rw [Token.scan, if_pos (by decide +kernel)]

theorem scan_token {c : Char} {cs after : List Char} {t : Token} (hblank : Text.isBlank c = false)
    (hnext : Token.next (c :: cs) = .ok (t, after)) (position : Nat) :
    Token.scan position (c :: cs) =
      (Token.scan (position + (cs.length + 1 - after.length)) after).map (⟨t, position⟩ :: ·) := by
  rw [Token.scan, if_neg (by simp [hblank])]
  split
  · rename_i h
    cases hnext.symm.trans h
  · rename_i h
    cases hnext.symm.trans h
    rfl

/-- Wherever the text stands, it is cut into these tokens. -/
def Scans (cs : List Char) (us : List Token) : Prop :=
  ∀ position, ∃ ts, Token.scan position cs = .ok ts ∧ ts.map Placed.token = us

theorem scans_nil : Scans [] [] := fun _ => ⟨[], by rw [Token.scan], rfl⟩

theorem Scans.blank {c : Char} {cs : List Char} {us : List Token} (hblank : Text.isBlank c) (h : Scans cs us) :
    Scans (c :: cs) us := fun position => by
  obtain ⟨ts, hts, hus⟩ := h (position + 1)
  exact ⟨ts, by rw [Token.scan, if_pos hblank, hts], hus⟩

theorem Scans.token {c : Char} {cs after : List Char} {t : Token} {us : List Token}
    (hblank : Text.isBlank c = false) (hnext : Token.next (c :: cs) = .ok (t, after)) (h : Scans after us) :
    Scans (c :: cs) (t :: us) := fun position => by
  obtain ⟨ts, hts, rfl⟩ := h (position + (cs.length + 1 - after.length))
  exact ⟨⟨t, position⟩ :: ts, by rw [scan_token hblank hnext, hts]; rfl, rfl⟩

theorem scan_spelled {us : List Token} (h : ∀ t ∈ us, t.Plain) (position : Nat) :
    Token.scan position (us.flatMap fun t => t.describe.toList ++ [' ']) = .ok (placedFrom position us) := by
  induction us generalizing position with
  | nil => rw [List.flatMap_nil, Token.scan, placedFrom]
  | cons t us ih =>
    obtain ⟨⟨c, cs, ht, hblank, hnext⟩, hus⟩ := List.forall_mem_cons.mp h
    have hlen (rest : List Char) :
        position + ((cs ++ ' ' :: rest).length + 1 - (' ' :: rest).length) + 1 =
          position + (c :: cs).length + 1 := by
      simp only [List.length_append, List.length_cons]
      omega
    rw [List.flatMap_cons, placedFrom, ht, List.append_assoc, List.cons_append, List.singleton_append,
      scan_token hblank (hnext _), scan_blank, hlen, ih hus]
    rfl

theorem tokens_spelled {us : List Token} (h : ∀ t ∈ us, t.Plain) :
    Token.tokens (spelled us) = .ok (placedFrom 0 us) := by
  rw [Token.tokens, spelled, String.toList_ofList, scan_spelled h]

/-- Some names, words and signs. -/
def alphabet : List Token :=
  [.ident "f", .ident "x", .and, .or, .ifWord, .elseWord, .plus, .minus, .star, .power, .less, .opening, .closing]

theorem plain_of_mem_alphabet : ∀ t ∈ alphabet, t.Plain := by
  simp only [alphabet, List.forall_mem_cons]
  exact ⟨plain_of_word 'f' [] rfl rfl (by decide +kernel), plain_of_word 'x' [] rfl rfl (by decide +kernel),
    plain_of_word 'a' ['n', 'd'] rfl rfl (by decide +kernel), plain_of_word 'o' ['r'] rfl rfl (by decide +kernel),
    plain_of_word 'i' ['f'] rfl rfl (by decide +kernel),
    plain_of_word 'e' ['l', 's', 'e'] rfl rfl (by decide +kernel),
    plain_of_sign '+' [] rfl (fun _ => rfl) (by decide +kernel),
    plain_of_sign '-' [] rfl (fun _ => rfl) (by decide +kernel),
    plain_of_sign '*' [] rfl (fun _ => rfl) (by decide +kernel),
    plain_of_sign '*' ['*'] rfl (fun _ => rfl) (by decide +kernel),
    plain_of_sign '<' [] rfl (fun _ => rfl) (by decide +kernel),
    plain_of_sign '(' [] rfl (fun _ => rfl) (by decide +kernel),
    plain_of_sign ')' [] rfl (fun _ => rfl) (by decide +kernel), nofun⟩

end GoalCompiler.Expression
