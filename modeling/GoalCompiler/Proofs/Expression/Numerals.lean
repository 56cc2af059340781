import GoalCompiler.Expression.Template
import GoalCompiler.Proofs.Expression.Lookahead
import GoalCompiler.Proofs.Expression.Recognition
import GoalCompiler.Proofs.Number.Digits
import Mathlib.Data.Nat.Digits.Defs

/-! Whole numbers written into expressions. The text of a number has its sign in front, while a numeral of the language
has none: the sign is an operator, and the digits after it are read as a number of their own. -/
namespace GoalCompiler.Expression

open Template (valueText)

theorem toList_valueText (n : Int) :
    (valueText (.int n)).toList =
      if 0 ≤ n then Nat.toDigits 10 n.natAbs else '-' :: Nat.toDigits 10 n.natAbs := by
  change n.repr.toList = _
  rw [Int.repr_eq_if]
  split
  · rename_i hn
    rw [Nat.toList_repr, show n.toNat = n.natAbs by omega]
  · rename_i hn
    rw [String.toList_append, Nat.toList_repr, show (-n).toNat = n.natAbs by omega]
    rfl

/-- The numeral of a number without sign: a word if it fits. -/
def numeralToken (k : Nat) : Token :=
  if Number.fitsWord k then .int (Int64.ofInt k) else .float (Number.ofDecimal k 0)

def numeralTree (k : Nat) : Expr :=
  if Number.fitsWord k then .int (Int64.ofInt k) else .float (Number.ofDecimal k 0)

/-- A number with its sign. -/
def signedTokens (n : Int) : List Token :=
  if 0 ≤ n then [numeralToken n.natAbs] else [.minus, numeralToken n.natAbs]

def signedTree (n : Int) : Expr :=
  if 0 ≤ n then numeralTree n.natAbs else .neg (numeralTree n.natAbs)

/-! ### Reading the digits -/

theorem number_toDigits (k : Nat) {rest : List Char} (hrest : ∀ c ∈ rest.head?, c = ' ') :
    Token.number (Nat.toDigits 10 k ++ rest) = (numeralToken k, rest) := by
  have hall : ∀ c ∈ Nat.toDigits 10 k, Number.isDigit c := fun c => Number.isDigit_of_mem_toDigits
  have hstop : rest.takeWhile Number.isDigit = [] ∧ rest.dropWhile Number.isDigit = rest ∧
      Token.fraction rest = (none, rest) ∧ Token.powerOfTen rest = (none, rest) := by
    cases rest with
    | nil => exact ⟨rfl, rfl, rfl, rfl⟩
    | cons c rest =>
      obtain rfl := hrest c rfl
      exact ⟨rfl, rfl, rfl, rfl⟩
  obtain ⟨htake, hdrop, hfraction, hpower⟩ := hstop
  have hwhole := Number.ofDigits_toDigits k
  rw [Token.number_eq, List.takeWhile_append_of_pos hall, List.dropWhile_append_of_pos hall, htake, hdrop, hfraction,
    List.append_nil]
  simp [hpower, Token.numeral, hwhole, numeralToken]

theorem scans_toDigits (k : Nat) {rest : List Char} {us : List Token} (hrest : ∀ c ∈ rest.head?, c = ' ')
    (h : Scans rest us) : Scans (Nat.toDigits 10 k ++ rest) (numeralToken k :: us) := by
  have hnumber := number_toDigits k hrest
  obtain ⟨c, ds, hk⟩ := List.exists_cons_of_ne_nil (Nat.toDigits_ne_nil (b := 10) (n := k))
  have hc : Number.isDigit c := Number.isDigit_of_mem_toDigits (hk ▸ List.mem_cons_self)
  have hpoint : c ≠ '.' := by
    rintro rfl
    exact absurd hc (by decide)
  have hstarts : Token.startsNumber (c :: (ds ++ rest)) := by simp [Token.startsNumber, hpoint, hc]
  rw [hk, List.cons_append] at hnumber ⊢
  exact h.token (Text.isBlank_of_isDigit hc) (by rw [Token.next, if_pos hstarts, hnumber])

theorem next_minus (cs : List Char) : Token.next ('-' :: cs) = .ok (.minus, cs) := by
  have hname : Text.startsName '-' = false := by decide +kernel
  simp only [Token.next, startsNumber_eq_false (c := '-') (by decide) (by decide), hname]
  rfl

/-- The text of a number is cut into its sign and its digits. -/
theorem scans_valueText (n : Int) {rest : List Char} {us : List Token} (hrest : ∀ c ∈ rest.head?, c = ' ')
    (h : Scans rest us) : Scans ((valueText (.int n)).toList ++ rest) (signedTokens n ++ us) := by
  rw [toList_valueText, signedTokens]
  split
  · exact scans_toDigits _ hrest h
  · exact (scans_toDigits _ hrest h).token (by decide +kernel) (next_minus _)

theorem derives_signed (n : Int) : Derives .unary (signedTokens n) (signedTree n) := by
  have hnumeral (k : Nat) : Derives .unary [numeralToken k] (numeralTree k) := by
    rw [numeralToken, numeralTree]
    split
    · exact .unsigned .int
    · exact .unsigned .float
  rw [signedTokens, signedTree]
  split
  · exact hnumeral _
  · exact .neg (hnumeral _)

/-! ### Reading and evaluating the text of a number -/

theorem read_valueText (n : Int) : Expression.read (valueText (.int n)) = .ok (signedTree n) := by
  have hscans := scans_valueText n (show ∀ c ∈ ([] : List Char).head?, c = ' ' by simp) scans_nil
  rw [List.append_nil, List.append_nil] at hscans
  obtain ⟨ts, hts, hus⟩ := hscans 0
  have hderives : Derives .unary (ts.map Placed.token) (signedTree n) := hus ▸ derives_signed n
  refine read_of_derives hts hderives ?_
  have hfew : (signedTokens n).length ≤ maxNesting := by
    rw [signedTokens]
    split <;> exact of_decide_eq_true rfl
  rw [← List.length_map, hus]
  exact hfew

theorem evaluate_of_read {source : String} {tree : Expr} (h : Expression.read source = .ok tree) (scope : Scope) :
    evaluate source scope = (eval scope tree).mapError fun fault => ⟨fault, source⟩ := by
  rw [evaluate, Compiled.read, h]
  rfl

/-- A number of 64 bits is read from its digits as the double that documents have for it. -/
theorem ofDecimal_zero {k : Nat} (hpos : 0 < k) (hk : k < 2 ^ 64) : Number.ofDecimal k 0 = Float.ofNat k := by
  have hlength : (Nat.toDigits 10 k).length ≤ 20 := Nat.toDigits_length 10 k 20 (by decide) (by omega)
  rw [Number.ofDecimal, if_neg (by omega)]
  dsimp only
  rw [if_neg (by omega), if_neg (by omega)]
  rfl

theorem eval_signed_of_fits (scope : Scope) {n : Int} (hn : -2 ^ 63 < n) (hn' : n < 2 ^ 63) :
    eval scope (signedTree n) = .ok (.int (Int64.ofInt n)) := by
  have habs : Number.fitsWord n.natAbs := Whole.fitsWord_iff.mpr (by omega)
  have hfits : Number.fitsWord n := Whole.fitsWord_iff.mpr (by omega)
  rw [signedTree, numeralTree, if_pos habs]
  split
  · rw [eval, show (n.natAbs : Int) = n by omega]
  · have hneg : -(Int64.ofInt n.natAbs).toInt = n := by
      rw [Int64.toInt_ofInt_of_le (by omega) (by omega)]
      omega
    rw [eval, eval]
    change negate (.int (Int64.ofInt n.natAbs)) = _
    rw [negate, hneg, word, if_pos hfits]

theorem eval_signed_of_not_fits (scope : Scope) {n : Int} (hn : 2 ^ 63 ≤ n.natAbs)
    (hn' : n.natAbs < 2 ^ 64) : eval scope (signedTree n) = .ok (.float (Float.ofInt n)) := by
  have hfits : ¬ Number.fitsWord n.natAbs := by
    rw [Whole.fitsWord_iff]
    omega
  have hpos : 0 < n.natAbs := by omega
  rw [signedTree, numeralTree, if_neg hfits, ofDecimal_zero hpos hn']
  obtain ⟨k, rfl | rfl⟩ := n.eq_nat_or_neg
  · rw [if_pos (by omega), eval, Int.natAbs_natCast]
    rfl
  · rw [Int.natAbs_neg, Int.natAbs_natCast] at hpos ⊢
    obtain ⟨k, rfl⟩ := Nat.exists_eq_succ_of_ne_zero hpos.ne'
    rw [if_neg (by omega)]
    rfl

theorem ofValue_int (name : String) {n : Int} :
    ofValue name (.int n) =
      .ok (if -2 ^ 63 ≤ n ∧ n < 2 ^ 63 then .int (Int64.ofInt n) else .float (Float.ofInt n)) := by
  have hfits : Number.fitsWord n ↔ -2 ^ 63 ≤ n ∧ n < 2 ^ 63 := Whole.fitsWord_iff
  simp [ofValue, Scalar.ofJson?, hfits]

theorem evaluate_bool (b : Bool) (scope : Scope) : evaluate (valueText (.bool b)) scope = .ok (.bool b) := by
  have hread : Expression.read (valueText (.bool b)) = .ok (.bool b) := by
    cases b with
    | false =>
      have htokens : Token.tokens "false" = .ok [⟨.no, 0⟩] := by decide +kernel
      exact read_of_derives htokens .no (by decide)
    | true =>
      have htokens : Token.tokens "true" = .ok [⟨.yes, 0⟩] := by decide +kernel
      exact read_of_derives htokens .yes (by decide)
  rw [evaluate_of_read hread]
  rfl

/-- The text of a whole number of a document evaluates to what the number is read as from the document, except for the
least signed number of 64 bits. Its digits alone do not fit, so its text is a negated double. A truth value is always
what its text evaluates to. -/
theorem evaluate_numeral (scope : Scope) (name : String) {n : Int} (hn : -2 ^ 63 ≤ n) (hn' : n < 2 ^ 64) :
    (∃ v, ofValue name (.int n) = .ok v ∧ (evaluate (valueText (.int n)) scope = .ok v ↔ n ≠ Number.leastWord)) ∧
    (n = Number.leastWord → evaluate (valueText (.int n)) scope = .ok (.float (Float.ofInt n))) ∧
    ∀ b, ofValue name (.bool b) = .ok (.bool b) ∧ evaluate (valueText (.bool b)) scope = .ok (.bool b) := by
  have hleast (hn : n = Number.leastWord) :
      evaluate (valueText (.int n)) scope = .ok (.float (Float.ofInt n)) := by
    subst hn
    rw [evaluate_of_read (read_valueText _), eval_signed_of_not_fits _ (by decide) (by decide)]
    rfl
  refine ⟨⟨_, ofValue_int name, ?_⟩, hleast, fun b => ⟨rfl, evaluate_bool b scope⟩⟩
  constructor
  · intro hsame hn
    rw [hleast hn, if_pos (by subst hn; decide)] at hsame
    cases hsame
  · intro hne
    rw [Number.leastWord] at hne
    rw [evaluate_of_read (read_valueText _)]
    split
    · rw [eval_signed_of_fits _ (by omega) (by omega)]
      rfl
    · rw [eval_signed_of_not_fits _ (by omega) (by omega)]
      rfl

theorem evaluate_numeral_most :
    (-2 ^ 63 ≤ (18446744073709551615 : Int) ∧ (18446744073709551615 : Int) < 2 ^ 64) ∧
      ∃ v, ofValue "n" (.int 18446744073709551615) = .ok v ∧
        evaluate "18446744073709551615" (Scope.ofDict []) = .ok v := by
  obtain ⟨⟨v, hv, hback⟩, -⟩ :=
    evaluate_numeral (Scope.ofDict []) "n" (n := 18446744073709551615) (by decide) (by decide)
  exact ⟨by decide, v, hv, hback.mpr (by decide)⟩

/-- The least number is an integer in a document and a double in an expression. -/
theorem evaluate_numeral_least :
    ofValue "n" (.int (-9223372036854775808)) = .ok (.int Int64.minValue) ∧
      valueText (.int (-9223372036854775808)) = "-9223372036854775808" ∧
      evaluate "-9223372036854775808" (Scope.ofDict []) = .ok (.float (-9223372036854775808.0)) := by
  decide +kernel

end GoalCompiler.Expression
