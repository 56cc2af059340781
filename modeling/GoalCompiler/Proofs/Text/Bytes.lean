import GoalCompiler.Proofs.Outcome
import Mathlib.Data.String.Basic

/-! Texts by their bytes. A character takes one to four bytes and a text can be cut only between two characters, so
a place is met by a cut exactly if it is where some of the first characters end. -/
namespace GoalCompiler.Text

open String (utf8Len utf8Len_append utf8Len_cons)

/-- Why there is nothing at a place. -/
inductive Misplaced where
  /-- The place is within a character, after the text, or before the place where the piece begins. -/
  | within
  /-- There are not so many elements. -/
  | beyond
deriving DecidableEq, Repr

/-- What is before so many bytes and what follows them. -/
def cut : Nat → List Char → Except Misplaced (List Char × List Char)
  | 0, cs => .ok ([], cs)
  | _ + 1, [] => .error .within
  | n + 1, c :: rest =>
    if c.utf8Size ≤ n + 1 then (cut (n + 1 - c.utf8Size) rest).map fun (front, back) => (c :: front, back)
    else .error .within

def sliceTo (stop : Nat) (cs : List Char) : Except Misplaced (List Char) := (cut stop cs).map Prod.fst

def sliceFrom (start : Nat) (cs : List Char) : Except Misplaced (List Char) := (cut start cs).map Prod.snd

/-- The piece between two places. -/
def slice (start stop : Nat) (cs : List Char) : Except Misplaced (List Char) :=
  if stop < start then .error .within
  else do
    let rest ← sliceFrom start cs
    sliceTo (stop - start) rest

/-- The characters with their places, the first at `offset`. -/
def charIndicesFrom (offset : Nat) : List Char → List (Nat × Char)
  | [] => []
  | c :: rest => (offset, c) :: charIndicesFrom (offset + c.utf8Size) rest

def charIndices (cs : List Char) : List (Nat × Char) := charIndicesFrom 0 cs

/-- The element at a position where there has to be one. -/
def elementAt {α : Type} (l : List α) (n : Nat) : Except Misplaced α :=
  match l[n]? with
  | some a => .ok a
  | none => .error .beyond

variable {cs a b : List Char} {n k offset : Nat}

/-! ### Cuts -/

/-- A text is cut where a piece from its front ends, and nowhere else. -/
theorem cut_eq_ok : cut n cs = .ok (a, b) ↔ cs = a ++ b ∧ utf8Len a = n := by
  fun_induction cut n cs generalizing a with
  | case1 cs =>
    rw [Except.ok.injEq, Prod.mk.injEq, String.utf8Len_eq_zero]
    constructor
    · rintro ⟨rfl, rfl⟩
      exact ⟨rfl, rfl⟩
    · rintro ⟨rfl, rfl⟩
      exact ⟨rfl, rfl⟩
  | case2 n => cases a <;> simp
  | case3 n c rest hsize ih =>
    have hpositive := Char.utf8Size_pos c
    rw [Outcome.map_eq_ok]
    constructor
    · rintro ⟨⟨front, back⟩, hrest, heq⟩
      obtain ⟨rfl, rfl⟩ := Prod.mk.inj heq
      obtain ⟨rfl, hfront⟩ := ih.mp hrest
      exact ⟨rfl, by rw [utf8Len_cons]; omega⟩
    · rintro ⟨hcs, hlength⟩
      cases a with
      | nil => cases hlength
      | cons c' front =>
        obtain ⟨rfl, rfl⟩ := List.cons.inj hcs
        rw [utf8Len_cons] at hlength
        exact ⟨(front, b), ih.mpr ⟨rfl, by omega⟩, rfl⟩
  | case4 n c rest hsize =>
    refine ⟨nofun, ?_⟩
    rintro ⟨hcs, hlength⟩
    cases a with
    | nil => cases hlength
    | cons c' front =>
      obtain ⟨rfl, rfl⟩ := List.cons.inj hcs
      rw [utf8Len_cons] at hlength
      omega

theorem cut_take : cut (utf8Len (cs.take n)) cs = .ok (cs.take n, cs.drop n) :=
  cut_eq_ok.mpr ⟨(List.take_append_drop n cs).symm, rfl⟩

theorem sliceTo_take : sliceTo (utf8Len (cs.take n)) cs = .ok (cs.take n) := by
  rw [sliceTo, cut_take]
  rfl

theorem sliceFrom_take : sliceFrom (utf8Len (cs.take n)) cs = .ok (cs.drop n) := by
  rw [sliceFrom, cut_take]
  rfl

theorem utf8Len_take_le (h : n ≤ k) : utf8Len (cs.take n) ≤ utf8Len (cs.take k) :=
  String.utf8Len_le_of_prefix (List.take_prefix_take_left h)

/-- A piece that is not the whole takes fewer bytes. -/
theorem utf8Len_take_lt (h : n < cs.length) : utf8Len (cs.take n) < utf8Len cs := by
  have hsplit := utf8Len_append (cs.take n) (cs.drop n)
  have hrest : utf8Len (cs.drop n) ≠ 0 := by simp [h]
  rw [List.take_append_drop] at hsplit
  omega

theorem slice_take (h : n ≤ k) :
    slice (utf8Len (cs.take n)) (utf8Len (cs.take k)) cs = .ok ((cs.take k).drop n) := by
  have hpiece : utf8Len (cs.take k) - utf8Len (cs.take n) = utf8Len ((cs.drop n).take (k - n)) := by
    have hsplit : cs.take k = cs.take n ++ (cs.drop n).take (k - n) := by
      rw [← List.take_add, Nat.add_sub_cancel' h]
    rw [hsplit, utf8Len_append, Nat.add_sub_cancel_left]
  rw [slice, if_neg (utf8Len_take_le h).not_gt, sliceFrom_take, hpiece]
  exact sliceTo_take.trans (congrArg Except.ok List.drop_take.symm)

/-! ### Characters with their places -/

theorem getElem?_charIndicesFrom : (charIndicesFrom offset cs)[n]? =
    cs[n]?.map fun c => (offset + utf8Len (cs.take n), c) := by
  induction cs generalizing offset n with
  | nil => rfl
  | cons c rest ih =>
    cases n with
    | zero => rfl
    | succ n => simp [charIndicesFrom, ih, Nat.add_assoc, Nat.add_comm c.utf8Size]

theorem getElem?_charIndices : (charIndices cs)[n]? = cs[n]?.map fun c => (utf8Len (cs.take n), c) := by
  simp [charIndices, getElem?_charIndicesFrom]

theorem length_charIndicesFrom : (charIndicesFrom offset cs).length = cs.length := by
  induction cs generalizing offset with
  | nil => rfl
  | cons c rest ih => simp [charIndicesFrom, ih]

end GoalCompiler.Text
