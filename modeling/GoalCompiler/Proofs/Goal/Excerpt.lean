import GoalCompiler.Goal.Excerpt
import GoalCompiler.Proofs.Text.Blanks
import GoalCompiler.Proofs.Text.Bytes

/-! The excerpt of a goal, taken by the bytes of its text. A term is looked for, its sentence met and a window cut
out at places in bytes, and every one of these places is between two characters. So the excerpt is that which is taken
by characters, and only a window of no width can miss it: a piece of the goal, no longer than it may be, and around
the whole match where it is a window. -/
namespace GoalCompiler.Excerpt

open String (utf8Len utf8Len_append utf8Len_cons)
open Text (Misplaced sliceTo sliceFrom slice charIndices charIndicesFrom elementAt)

/-! ### By bytes -/

/-- How many characters of the term are matched after these, if those before were `matched`. -/
def advance? (term : List Char) : Nat → List Char → Option Nat
  | matched, [] => some matched
  | matched, c :: rest => if term[matched]? = some c then advance? term (matched + 1) rest else none

/-- The place where the match ends that goes on with these characters. -/
def matchEnd? (term : List Char) : Nat → List (Nat × Char) → Option Nat
  | _, [] => none
  | matched, (place, c) :: rest =>
    match advance? term matched (Text.lowerChar c) with
    | none => none
    | some matched => if matched = term.length then some (place + c.utf8Size) else matchEnd? term matched rest

/-- The first of these places where a match begins, and how many bytes the match takes. -/
def findPlace (goal term : List Char) : List (Nat × Char) → Except Misplaced (Option (Nat × Nat))
  | [] => .ok none
  | (place, _) :: rest => do
    let text ← sliceFrom place goal
    match matchEnd? term 0 (charIndices text) with
    | some bytes => .ok (some (place, bytes))
    | none => findPlace goal term rest

def locatePlace (goal : List Char) (term : String) : Except Misplaced (Option (Nat × Nat)) :=
  match term.toList.flatMap Text.lowerChar with
  | [] => .ok none
  | term => findPlace goal term (charIndices goal)

/-- The piece that a place is in, where the first piece begins at `offset`. -/
def pieceOver? (place : Nat) : Nat → List (List Char) → Option (List Char)
  | _, [] => none
  | offset, piece :: rest =>
    let stop := offset + utf8Len piece
    if offset ≤ place ∧ place < stop then some piece else pieceOver? place stop rest

/-- The place so many characters before another, or the first place. -/
def placeBefore (goal : List Char) (start width : Nat) : Except Misplaced Nat := do
  let before := (charIndices (← sliceTo start goal)).map Prod.fst
  if width < before.length then elementAt before (before.length - width) else .ok 0

/-- The place so many characters after another, or the last place. -/
def placeAfter (goal : List Char) (stop width : Nat) : Except Misplaced Nat := do
  let after := charIndices (← sliceFrom stop goal)
  return (after[width]?.map fun (place, _) => stop + place).getD (utf8Len goal)

/-- What is around two places, from so many characters before the one to so many after the other. -/
def aroundPlaces (goal : List Char) (start stop width : Nat) : Except Misplaced (List Char) := do
  let first ← placeBefore goal start width
  let last ← placeAfter goal stop width
  return Text.trimChars (← slice first last goal)

/-- The excerpt, where `split` cuts a text into sentences. -/
def inBytes (split : List Char → List (List Char)) (goal : List Char) (term : Option String)
    (maxChars width : Nat) : Except Misplaced (List Char) :=
  let goal := Text.trimChars goal
  if goal.length ≤ maxChars then .ok goal
  else do
    match ← term.elim (.ok none) (locatePlace goal) with
    | none => aroundPlaces goal 0 0 width
    | some (start, bytes) =>
      match pieceOver? start 0 (split goal) with
      | none => aroundPlaces goal start (start + bytes) width
      | some sentence =>
        if (Text.trimChars sentence).length ≤ maxChars then .ok (Text.trimChars sentence)
        else aroundPlaces goal start (start + bytes) width

variable {goal term cs a b : List Char} {start n matched offset width maxChars : Nat}
  {pieces : List (List Char)} {split : List Char → List (List Char)}

/-! ### The match -/

theorem advance?_eq : advance? term matched cs =
    if cs.isPrefixOf (term.drop matched) then some (matched + cs.length) else none := by
  induction cs generalizing matched with
  | nil => simp [advance?]
  | cons c rest ih =>
    rw [advance?, ih]
    by_cases hmatched : matched < term.length
    · rw [List.drop_eq_getElem_cons hmatched, List.getElem?_eq_getElem hmatched]
      by_cases hc : term[matched] = c
      · simp [hc, List.isPrefixOf, Nat.add_assoc, Nat.add_comm 1]
      · simp [hc, Ne.symm hc, List.isPrefixOf]
    · have hend : term.length ≤ matched := Nat.not_lt.mp hmatched
      simp [List.drop_eq_nil_of_le hend, List.getElem?_eq_none hend]

/-- A match by bytes is a match by characters. -/
theorem matchEnd?_eq (hmatched : matched < term.length) : matchEnd? term matched (charIndicesFrom offset cs) =
    (matchLength? (term.drop matched) cs).map fun n => offset + utf8Len (cs.take n) := by
  induction cs generalizing matched offset with
  | nil => rfl
  | cons c rest ih =>
    rw [charIndicesFrom, matchEnd?, advance?_eq, matchLength?]
    by_cases hfront : (Text.lowerChar c).isPrefixOf (term.drop matched)
    · have hle : matched + (Text.lowerChar c).length ≤ term.length := by
        have hlength := (List.isPrefixOf_iff_prefix.mp hfront).length_le
        rw [List.length_drop] at hlength
        omega
      rw [if_pos hfront, if_pos hfront, List.drop_drop]
      dsimp only
      by_cases hend : matched + (Text.lowerChar c).length = term.length
      · simp [hend]
      · have hlt : matched + (Text.lowerChar c).length < term.length := lt_of_le_of_ne hle hend
        rw [if_neg hend, ih hlt, List.drop_eq_getElem_cons hlt]
        simp [Function.comp_def, Nat.add_assoc, Nat.add_comm c.utf8Size]
    · rw [if_neg hfront, if_neg hfront]
      rfl

/-- A term is found by bytes where it is found by characters. -/
theorem findPlace_eq (hterm : term ≠ []) : findPlace (a ++ b) term (charIndicesFrom (utf8Len a) b) =
    .ok ((find? term b).map fun (start, n) =>
      (utf8Len ((a ++ b).take (a.length + start)), utf8Len (((a ++ b).drop (a.length + start)).take n))) := by
  induction b generalizing a with
  | nil => rfl
  | cons c rest ih =>
    have hslice : sliceFrom (utf8Len a) (a ++ c :: rest) = .ok (c :: rest) := by
      rw [sliceFrom, Text.cut_eq_ok.mpr ⟨rfl, rfl⟩]
      rfl
    have hmatch : matchEnd? term 0 (charIndices (c :: rest)) =
        (matchLength? term (c :: rest)).map fun n => utf8Len ((c :: rest).take n) := by
      rw [charIndices, matchEnd?_eq (List.length_pos_iff.mpr hterm)]
      simp
    simp only [charIndicesFrom, findPlace, hslice, bind, Except.bind, hmatch, find?]
    cases matchLength? term (c :: rest) with
    | some n => simp
    | none =>
      have hnext := ih (a := a ++ [c])
      rw [utf8Len_append, List.append_assoc, List.singleton_append] at hnext
      simpa [Function.comp_def, Nat.add_assoc, Nat.add_comm 1] using hnext

theorem locatePlace_eq {term : String} : locatePlace goal term =
    .ok ((locate? goal term).map fun (start, n) =>
      (utf8Len (goal.take start), utf8Len ((goal.drop start).take n))) := by
  rw [locatePlace, locate?]
  cases term.toList.flatMap Text.lowerChar with
  | nil => rfl
  | cons c more =>
    have hfound := findPlace_eq (a := []) (b := goal) (List.cons_ne_nil c more)
    simpa [charIndices] using hfound

/-- So many characters from a place on have the lower case of the term. -/
structure Matches (text : List Char) (term : String) (start n : Nat) : Prop where
  within : start + n ≤ text.length
  lower : ((text.drop start).take n).flatMap Text.lowerChar = term.toList.flatMap Text.lowerChar

/-- The place and the length of the first match that is not empty, or none if there is no such match. -/
def IsFirstMatch (text : List Char) (term : String) : Option (Nat × Nat) → Prop
  | none => ∀ start n, 0 < n → ¬ Matches text term start n
  | some (start, n) => 0 < n ∧ Matches text term start n ∧
    ∀ earlier < start, ∀ n, 0 < n → ¬ Matches text term earlier n

theorem lowerChar_ne_nil (c : Char) : Text.lowerChar c ≠ [] := by
  unfold Text.lowerChar
  split_ifs <;> exact List.cons_ne_nil _ _

theorem flatMap_lowerChar_ne_nil (h : cs ≠ []) : cs.flatMap Text.lowerChar ≠ [] := by
  obtain ⟨c, rest, rfl⟩ := List.exists_cons_of_ne_nil h
  rw [List.flatMap_cons]
  exact fun hnil => lowerChar_ne_nil c (List.append_eq_nil_iff.mp hnil).1

theorem matchLength?_eq_some (h : matchLength? term cs = some n) :
    0 < n ∧ n ≤ cs.length ∧ (cs.take n).flatMap Text.lowerChar = term := by
  induction cs generalizing term n with
  | nil => cases h
  | cons c rest ih =>
    rw [matchLength?] at h
    split_ifs at h with hfront
    obtain ⟨more, rfl⟩ := List.isPrefixOf_iff_prefix.mp hfront
    rw [List.drop_left] at h
    split at h
    · obtain rfl := Option.some.inj h
      simp
    · obtain ⟨k, hk, rfl⟩ := Option.map_eq_some_iff.mp h
      obtain ⟨-, hle, hmatch⟩ := ih hk
      exact ⟨Nat.succ_pos k, Nat.succ_le_succ hle, by rw [List.take_succ_cons, List.flatMap_cons, hmatch]⟩

/-- Where no match is found, there is none: every character has a lower case, so the term tells where to stop. -/
theorem ne_of_matchLength?_eq_none (h : matchLength? term cs = none) (hpos : 0 < n) (hle : n ≤ cs.length) :
    (cs.take n).flatMap Text.lowerChar ≠ term := by
  induction cs generalizing term n with
  | nil => exact absurd hle hpos.not_ge
  | cons c rest ih =>
    obtain ⟨k, rfl⟩ := Nat.exists_eq_succ_of_ne_zero hpos.ne'
    rintro rfl
    rw [List.take_succ_cons, List.flatMap_cons, matchLength?,
      if_pos (List.isPrefixOf_iff_prefix.mpr (List.prefix_append ..)), List.drop_left] at h
    cases k with
    | zero => cases h
    | succ k =>
      have hmore : (rest.take (k + 1)).flatMap Text.lowerChar ≠ [] := by
        refine flatMap_lowerChar_ne_nil (List.ne_nil_of_length_pos ?_)
        rw [List.length_take]
        exact lt_min (Nat.succ_pos k) ((Nat.succ_pos k).trans_le (Nat.le_of_succ_le_succ hle))
      split at h
      · next hnil => exact hmore hnil
      · exact ih (Option.map_eq_none_iff.mp h) (Nat.succ_pos k) (Nat.le_of_succ_le_succ hle) rfl

theorem matchLength?_of_find? (h : find? term cs = some (start, n)) :
    matchLength? term (cs.drop start) = some n := by
  induction cs generalizing start with
  | nil => cases h
  | cons c rest ih =>
    rw [find?] at h
    split at h
    · next k hk =>
      obtain ⟨rfl, rfl⟩ := Prod.mk.inj (Option.some.inj h)
      exact hk
    · obtain ⟨⟨start', n'⟩, hrest, heq⟩ := Option.map_eq_some_iff.mp h
      obtain ⟨rfl, rfl⟩ := Prod.mk.inj heq
      exact ih hrest

theorem matchLength?_before_find? (h : ∀ place, find? term cs = some place → start < place.1) :
    matchLength? term (cs.drop start) = none := by
  induction cs generalizing start with
  | nil => rw [List.drop_nil, matchLength?]
  | cons c rest ih =>
    rw [find?] at h
    split at h
    · exact absurd (h _ rfl) (Nat.not_lt_zero start)
    · next hfirst =>
      cases start with
      | zero => exact hfirst
      | succ start =>
        refine ih fun place hplace => ?_
        exact Nat.lt_of_succ_lt_succ (h (place.1 + 1, place.2) (by rw [hplace]; rfl))

/-- A term is located where it is matched first. -/
theorem isFirstMatch_locate? (goal : List Char) (term : String) : IsFirstMatch goal term (locate? goal term) := by
  have hlength : ∀ start n, Matches goal term start n → ((goal.drop start).take n).length = n := by
    intro start n hmatch
    have hle := hmatch.within
    rw [List.length_take, List.length_drop]
    omega
  unfold locate?
  cases hterm : term.toList.flatMap Text.lowerChar with
  | nil =>
    intro start n hpos hmatch
    have hnonempty : (goal.drop start).take n ≠ [] :=
      List.ne_nil_of_length_pos (by rwa [hlength start n hmatch])
    exact flatMap_lowerChar_ne_nil hnonempty (hmatch.lower.trans hterm)
  | cons c more =>
    have hnone : ∀ start, matchLength? (c :: more) (goal.drop start) = none →
        ∀ n, 0 < n → ¬ Matches goal term start n := by
      intro start h n hpos hmatch
      have hle : n ≤ (goal.drop start).length := by
        rw [← hlength start n hmatch]
        exact List.length_take_le' ..
      exact ne_of_matchLength?_eq_none h hpos hle (hmatch.lower.trans hterm)
    change IsFirstMatch goal term (find? (c :: more) goal)
    cases hfind : find? (c :: more) goal with
    | none =>
      refine fun start => hnone start (matchLength?_before_find? fun place hplace => ?_)
      cases hfind.symm.trans hplace
    | some place =>
      obtain ⟨start, n⟩ := place
      obtain ⟨hpos, hle, hlower⟩ := matchLength?_eq_some (matchLength?_of_find? hfind)
      rw [List.length_drop] at hle
      refine ⟨hpos, ⟨by omega, hlower.trans hterm.symm⟩, fun earlier hearlier => ?_⟩
      refine hnone earlier (matchLength?_before_find? fun place hplace => ?_)
      cases hfind.symm.trans hplace
      exact hearlier

theorem bounds_of_locate? {term : String} (h : locate? goal term = some (start, n)) :
    start < goal.length ∧ start + n ≤ goal.length := by
  have hfirst := isFirstMatch_locate? goal term
  rw [h] at hfirst
  obtain ⟨hpos, ⟨hle, -⟩, -⟩ := hfirst
  exact ⟨by omega, hle⟩

/-! ### The sentence -/

/-- The piece over the place of a character is the piece that holds the character. -/
theorem pieceOver?_eq (h : n < pieces.flatten.length) :
    pieceOver? (offset + utf8Len (pieces.flatten.take n)) offset pieces = some (pieceAt n pieces) := by
  induction pieces generalizing n offset with
  | nil => cases h
  | cons piece rest ih =>
    rw [pieceOver?, pieceAt, List.flatten_cons]
    by_cases hn : n < piece.length
    · have hplace : utf8Len (piece.take n) < utf8Len piece := Text.utf8Len_take_lt hn
      rw [List.take_append_of_le_length hn.le, if_pos hn, if_pos (by omega)]
    · have hpast : utf8Len ((piece ++ rest.flatten).take n) =
          utf8Len piece + utf8Len (rest.flatten.take (n - piece.length)) := by
        rw [List.take_append, List.take_of_length_le (Nat.not_lt.mp hn), utf8Len_append]
      rw [List.flatten_cons, List.length_append] at h
      rw [hpast, if_neg hn, if_neg (by omega), ← Nat.add_assoc]
      exact ih (by omega)

theorem isInfix_pieceAt : pieceAt n pieces <:+: pieces.flatten := by
  induction pieces generalizing n with
  | nil => exact List.infix_rfl
  | cons piece rest ih =>
    rw [pieceAt, List.flatten_cons]
    split
    · exact (List.prefix_append piece rest.flatten).isInfix
    · exact ih.trans (List.suffix_append piece rest.flatten).isInfix

/-! ### The window -/

/-- Where there is nothing by characters, an element is missing by bytes. -/
def orBeyond {α : Type} : Option α → Except Misplaced α
  | some a => .ok a
  | none => .error .beyond

/-- A window of no width that is not at the start has no first character. -/
theorem placeBefore_eq (hstart : start ≤ goal.length) : placeBefore goal (utf8Len (goal.take start)) width =
    if width = 0 ∧ 0 < start then .error .beyond else .ok (utf8Len (goal.take (start - width))) := by
  have hlength : ((charIndices (goal.take start)).map Prod.fst).length = start := by
    rw [List.length_map, charIndices, Text.length_charIndicesFrom, List.length_take, Nat.min_eq_left hstart]
  have hplace : ((charIndices (goal.take start)).map Prod.fst)[start - width]? =
      (goal.take start)[start - width]?.map fun _ => utf8Len ((goal.take start).take (start - width)) := by
    rw [List.getElem?_map, Text.getElem?_charIndices, Option.map_map]
    rfl
  simp only [placeBefore, Text.sliceTo_take, bind, Except.bind, hlength, elementAt, hplace]
  by_cases hlt : width < start
  · rw [if_pos hlt]
    rcases Nat.eq_zero_or_pos width with rfl | hwidth
    · rw [if_pos ⟨rfl, hlt⟩, List.getElem?_eq_none (by simp)]
      rfl
    · have hlast : start - width < (goal.take start).length := by rw [List.length_take]; omega
      rw [if_neg (by omega), List.getElem?_eq_getElem hlast, List.take_take, Nat.min_eq_left (Nat.sub_le ..)]
      rfl
  · rw [if_neg hlt, if_neg (by omega), Nat.sub_eq_zero_of_le (Nat.not_lt.mp hlt)]
    rfl

theorem placeAfter_eq {stop : Nat} : placeAfter goal (utf8Len (goal.take stop)) width =
    .ok (utf8Len (goal.take (stop + width))) := by
  simp only [placeAfter, Text.sliceFrom_take, bind, Except.bind, Text.getElem?_charIndices, Option.map_map]
  refine congrArg Except.ok ?_
  by_cases hlt : width < (goal.drop stop).length
  · rw [List.getElem?_eq_getElem hlt, List.take_add, utf8Len_append]
    rfl
  · rw [List.getElem?_eq_none (Nat.not_lt.mp hlt)]
    rw [List.length_drop] at hlt
    exact congrArg utf8Len (List.take_of_length_le (by omega)).symm

/-- The window by bytes is the window by characters. -/
theorem aroundPlaces_eq {stop : Nat} (hstart : start ≤ goal.length) (hstop : start ≤ stop) :
    aroundPlaces goal (utf8Len (goal.take start)) (utf8Len (goal.take stop)) width =
      orBeyond (around? goal start stop width) := by
  simp only [aroundPlaces, placeBefore_eq hstart, placeAfter_eq, bind, Except.bind, around?]
  split_ifs with hnone
  · rfl
  · have hslice : slice (utf8Len (goal.take (start - width))) (utf8Len (goal.take (stop + width))) goal =
        .ok ((goal.take (stop + width)).drop (start - width)) := Text.slice_take (by omega)
    simp only [hslice]
    rfl

/-- The excerpt by bytes is the excerpt by characters. -/
theorem inBytes_eq (hsplit : ∀ cs, (split cs).flatten = cs) {term : Option String} :
    inBytes split goal term maxChars width = orBeyond (ofChars? split goal term maxChars width) := by
  unfold inBytes ofChars?
  generalize Text.trimChars goal = goal
  dsimp only
  split_ifs with hshort
  · rfl
  · have hfound : term.elim (.ok none) (locatePlace goal) = .ok ((term.bind (locate? goal)).map fun (start, n) =>
        (utf8Len (goal.take start), utf8Len ((goal.drop start).take n))) := by
      cases term with
      | none => rfl
      | some term => exact locatePlace_eq
    rw [hfound]
    cases hplace : term.bind (locate? goal) with
    | none => exact aroundPlaces_eq (Nat.zero_le _) le_rfl
    | some place =>
      obtain ⟨start, n⟩ := place
      obtain ⟨term', -, hlocate⟩ := Option.bind_eq_some_iff.mp hplace
      obtain ⟨hlt, -⟩ := bounds_of_locate? hlocate
      have hpiece : pieceOver? (utf8Len (goal.take start)) 0 (split goal) = some (pieceAt start (split goal)) := by
        have hover : pieceOver? (0 + utf8Len ((split goal).flatten.take start)) 0 (split goal) =
            some (pieceAt start (split goal)) := pieceOver?_eq (by rwa [hsplit])
        rwa [hsplit, Nat.zero_add] at hover
      have hwindow : aroundPlaces goal (utf8Len (goal.take start))
          (utf8Len (goal.take start) + utf8Len ((goal.drop start).take n)) width =
            orBeyond (around? goal start (start + n) width) := by
        rw [← utf8Len_append, ← List.take_add]
        exact aroundPlaces_eq hlt.le (Nat.le_add_right start n)
      simp only [Option.map_some, bind, Except.bind, hpiece, hwindow]
      split_ifs
      · rfl
      · rfl

/-! ### What an excerpt is -/

/-- What is cut out around a match: the match with as many characters on either side as there are, up to `width`. -/
def IsAround (text : List Char) (start n width : Nat) (r : List Char) : Prop :=
  ∃ before left matched right after, text = before ++ (left ++ matched ++ right) ++ after ∧
    before.length + left.length = start ∧ matched.length = n ∧ left.length = min width start ∧
    right.length = min width (text.length - (start + n)) ∧ r = Text.trimChars (left ++ matched ++ right)

theorem isAround_around? (hwidth : 0 < width) (h : start + n ≤ goal.length) :
    ∃ r, around? goal start (start + n) width = some r ∧ IsAround goal start n width r := by
  have hwindow : (goal.take (start + n + width)).drop (start - width) = (goal.take start).drop (start - width) ++
      (goal.drop start).take n ++ (goal.drop (start + n)).take width := by
    have hstart : start - width ≤ (goal.take start).length := by rw [List.length_take]; omega
    rw [List.take_add, List.take_add, List.append_assoc, List.drop_append_of_le_length hstart, List.append_assoc]
  have hwhole : goal = goal.take (start - width) ++ (goal.take (start + n + width)).drop (start - width) ++
      goal.drop (start + n + width) := by
    have hfront : goal.take (start - width) = (goal.take (start + n + width)).take (start - width) := by
      rw [List.take_take, Nat.min_eq_left (by omega)]
    rw [hfront, List.take_append_drop, List.take_append_drop]
  refine ⟨_, if_neg fun hnone => hwidth.ne' hnone.1, goal.take (start - width),
    (goal.take start).drop (start - width), (goal.drop start).take n, (goal.drop (start + n)).take width,
    goal.drop (start + n + width), hwindow ▸ hwhole, ?_, ?_, ?_, ?_, congrArg Text.trimChars hwindow⟩ <;>
    simp only [List.length_take, List.length_drop] <;> omega

namespace IsAround

variable {text r : List Char}

theorem isInfix (h : IsAround text start n width r) : r <:+: text := by
  obtain ⟨before, left, matched, right, after, rfl, -, -, -, -, rfl⟩ := h
  exact (Text.isInfix_trimChars _).trans ⟨before, after, rfl⟩

theorem length_le (h : IsAround text start n width r) : r.length ≤ 2 * width + n := by
  obtain ⟨before, left, matched, right, after, -, -, hmatched, hleft, hright, rfl⟩ := h
  have htrim := Text.length_trimChars_le (left ++ matched ++ right)
  simp only [List.length_append] at htrim
  omega

end IsAround

/-- By characters there is an excerpt: the goal if it fits, else the sentence of the match if that fits, else what is
around the match, or around the start where nothing matches. -/
theorem exists_ofChars? (split : List Char → List (List Char)) (goal : List Char) (term : Option String)
    (maxChars : Nat) (hwidth : 0 < width) :
    let text := Text.trimChars goal
    let found := term.bind (locate? text)
    ∃ r, ofChars? split goal term maxChars width = some r ∧
      (text.length ≤ maxChars ∧ r = text ∨
        maxChars < text.length ∧ (∃ place, found = some place ∧
          r = Text.trimChars (pieceAt place.1 (split text)) ∧ r.length ≤ maxChars) ∨
        maxChars < text.length ∧
          (∀ place, found = some place → maxChars < (Text.trimChars (pieceAt place.1 (split text))).length) ∧
          IsAround text (found.getD (0, 0)).1 (found.getD (0, 0)).2 width r) := by
  unfold ofChars?
  generalize Text.trimChars goal = text
  dsimp only
  split_ifs with hshort
  · exact ⟨text, rfl, .inl ⟨hshort, rfl⟩⟩
  · have hlong : maxChars < text.length := Nat.not_le.mp hshort
    cases hfound : term.bind (locate? text) with
    | none =>
      obtain ⟨r, hr, haround⟩ : ∃ r, around? text 0 (0 + 0) width = some r ∧ IsAround text 0 0 width r :=
        isAround_around? hwidth (Nat.zero_le _)
      exact ⟨r, hr, .inr (.inr ⟨hlong, nofun, haround⟩)⟩
    | some place =>
      obtain ⟨start, n⟩ := place
      obtain ⟨term', -, hlocate⟩ := Option.bind_eq_some_iff.mp hfound
      obtain ⟨-, hle⟩ := bounds_of_locate? hlocate
      dsimp only
      split_ifs with hfits
      · exact ⟨_, rfl, .inr (.inl ⟨hlong, (start, n), rfl, rfl, hfits⟩)⟩
      · obtain ⟨r, hr, haround⟩ := isAround_around? hwidth hle
        refine ⟨r, hr, .inr (.inr ⟨hlong, ?_, haround⟩)⟩
        rintro place ⟨⟩
        exact Nat.not_le.mp hfits

/-- Taken by bytes, and whatever cuts the text into consecutive sentences, there is an excerpt; with the sentences of
the text it is the one that `of?` gives. It is a piece of the trimmed goal, the whole of it where that fits, and else
no longer than what fits or than the match with a window on either side. Where no sentence fits, it is what is around
the match. The match is the first that the term has in the text, whatever the case of the letters. -/
theorem excerpt_within (hsplit : ∀ cs, (split cs).flatten = cs) (goal : String) (term : Option String)
    (maxChars : Nat) (hwidth : 0 < width) :
    let text := Text.trimChars goal.toList
    let found := term.bind (locate? text)
    let n := (found.getD (0, 0)).2
    ∃ r, inBytes split goal.toList term maxChars width = .ok r ∧
      (split = Text.sentences → of? goal term maxChars width = some (String.ofList r)) ∧
      r <:+: text ∧
      (text.length ≤ maxChars → r = text) ∧
      (maxChars < text.length → r.length ≤ max maxChars (2 * width + n)) ∧
      (maxChars < text.length →
        (∀ place, found = some place → maxChars < (Text.trimChars (pieceAt place.1 (split text))).length) →
        IsAround text (found.getD (0, 0)).1 n width r) ∧
      ∀ t, term = some t → IsFirstMatch text t found := by
  intro text found n
  obtain ⟨r, hr, hcases⟩ := exists_ofChars? split goal.toList term maxChars hwidth
  have hbytes : inBytes split goal.toList term maxChars width = .ok r := by rw [inBytes_eq hsplit, hr]; rfl
  have hprogram : split = Text.sentences → of? goal term maxChars width = some (String.ofList r) := by
    rintro rfl
    rw [of?, hr]
    rfl
  have hmatch : ∀ t, term = some t → IsFirstMatch text t found := by
    rintro t rfl
    exact isFirstMatch_locate? text t
  refine ⟨r, hbytes, hprogram, ?_⟩
  rcases hcases with ⟨hshort, hwhole⟩ | ⟨hlong, place, hplace, hpiece, hfits⟩ | ⟨hlong, hnone, haround⟩
  · refine ⟨hwhole ▸ List.infix_rfl, fun _ => hwhole, ?_, ?_, hmatch⟩
    · exact fun hlong => absurd hlong hshort.not_gt
    · exact fun hlong => absurd hlong hshort.not_gt
  · refine ⟨?_, ?_, fun _ => hfits.trans (le_max_left ..), fun _ hnone => ?_, hmatch⟩
    · have hsentence : pieceAt place.1 (split text) <:+: (split text).flatten := isInfix_pieceAt
      rw [hsplit] at hsentence
      exact hpiece ▸ (Text.isInfix_trimChars _).trans hsentence
    · exact fun hshort => absurd hlong hshort.not_gt
    · exact absurd (hnone place hplace) (hpiece ▸ hfits.not_gt)
  · refine ⟨haround.isInfix, ?_, fun _ => haround.length_le.trans (le_max_right ..), fun _ _ => haround, hmatch⟩
    exact fun hshort => absurd hlong hshort.not_gt

/-- A goal about a capital dotted I, which takes two bytes and has a lower case of two characters. -/
def dottedGoal : String := "Bir \u0130skemle ve bir masa."

theorem excerpt_within_dotted :
    (∀ cs, (Text.sentences cs).flatten = cs) ∧ 0 < 2 ∧
    locate? dottedGoal.toList "i\u0307sk" = some (4, 3) ∧
    (∃ r, inBytes Text.sentences dottedGoal.toList (some "i\u0307sk") 10 2 = .ok r ∧
      IsAround dottedGoal.toList 4 3 2 r ∧ r.length ≤ 10) ∧
    inBytes Text.sentences dottedGoal.toList (some "i\u0307sk") 10 2 = .ok "r \u0130skem".toList := by
  have hlocate : locate? dottedGoal.toList "i\u0307sk" = some (4, 3) := by decide +kernel
  have htrim : Text.trimChars dottedGoal.toList = dottedGoal.toList := by decide +kernel
  obtain ⟨r, hr, -, -, -, hlength, haround, -⟩ :=
    excerpt_within Text.flatten_sentences dottedGoal (some "i\u0307sk") 10 (by decide : 0 < 2)
  rw [htrim, Option.bind_some, hlocate] at hlength haround
  refine ⟨Text.flatten_sentences, by decide, hlocate, ⟨r, hr, ?_, ?_⟩, by decide +kernel⟩
  · refine haround (by decide +kernel) ?_
    rintro place ⟨⟩
    decide +kernel
  · exact hlength (by decide +kernel)

end GoalCompiler.Excerpt
