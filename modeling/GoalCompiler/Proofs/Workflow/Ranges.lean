import GoalCompiler.Proofs.Json.Members
import GoalCompiler.Proofs.Number.Digits
import GoalCompiler.Proofs.Text.Blanks
import GoalCompiler.Workflow.Document

/-! Ranges that are read and written. Both forms of a range are written as one text, with two dots between the
bounds, and reading cuts a text at its first two dots. So a range comes back from its text exactly if its first
bound has no two dots in a row and no dot at its end; and a loop exactly if all its ranges do. -/
namespace GoalCompiler

/-! ### Bounds -/

namespace Bound

variable {b : Bound} {whole : String} {cs : List Char}

/-- A bound as reading leaves it: an expression is trimmed and no whole number. -/
def Plain : Bound → Prop
  | .literal _ => True
  | .expression s => Text.trimChars s.toList = s.toList ∧ s ≠ "" ∧ Number.word? s = none

theorem plain_of_read (h : read whole cs = .ok b) : b.Plain := by
  unfold read at h
  dsimp only at h
  split at h
  · cases h
  · rename_i hempty
    split at h
    · cases h
      trivial
    · rename_i hword
      cases h
      refine ⟨?_, ?_, hword⟩
      · rw [String.toList_ofList, Text.trimChars_trimChars]
      · rintro h
        simp [h] at hempty

theorem read_write (h : b.Plain) : read whole b.write.toList = .ok b := by
  cases b with
  | literal n =>
    have htrim : Text.trimChars (toString n.toInt).toList = (toString n.toInt).toList := by
      refine Text.trimChars_of_forall fun c hc => ?_
      rcases Number.isDigit_or_of_mem_repr hc with h | rfl
      · exact Text.isBlank_of_isDigit h
      · decide
    have hne : (toString n.toInt).isEmpty = false := by
      simp [Number.repr_ne_empty]
    unfold read
    simp only [write, htrim, String.ofList_toList, hne, Number.word?_toString]
    rfl
  | expression s =>
    obtain ⟨htrim, hne, hword⟩ := h
    simp [read, write, htrim, hne, hword]

end Bound

namespace Range

theorem infix_concat_dot {cs : List Char} :
    ['.', '.'] <:+: cs ++ ['.'] ↔ ['.', '.'] <:+: cs ∨ cs.getLast? = some '.' := by
  have hsuffix : ['.', '.'] <:+ cs ++ ['.'] ↔ cs.getLast? = some '.' := by
    rw [List.getLast?_eq_some_iff]
    constructor
    · rintro ⟨ds, h⟩
      have h : ds ++ ['.'] ++ ['.'] = cs ++ ['.'] := by simpa using h
      exact ⟨ds, (List.append_cancel_right h).symm⟩
    · rintro ⟨ds, rfl⟩
      exact ⟨ds, by simp⟩
  rw [List.infix_concat_iff, hsuffix, or_comm]

/-- Reading cuts at the first two dots. -/
theorem splitDots_eq_some_iff {cs before after : List Char} :
    splitDots cs = some (before, after) ↔
      cs = before ++ '.' :: '.' :: after ∧ ¬ ['.', '.'] <:+: before ++ ['.'] := by
  fun_induction splitDots cs generalizing before after with
  | case1 rest =>
    simp only [Option.some.injEq, Prod.mk.injEq]
    constructor
    · rintro ⟨rfl, rfl⟩
      exact ⟨rfl, by decide⟩
    · rintro ⟨h, hdots⟩
      rcases before with _ | ⟨c, before⟩
      · cases h
        exact ⟨rfl, rfl⟩
      · refine absurd ?_ hdots
        rcases before with _ | ⟨d, before⟩
        · cases h
          exact List.infix_rfl
        · cases h
          exact (List.prefix_append ['.', '.'] (before ++ ['.'])).isInfix
  | case2 c rest hdots ih =>
    rw [Option.map_eq_some_iff]
    constructor
    · rintro ⟨⟨before', after'⟩, h, he⟩
      cases he
      obtain ⟨rfl, hinfix⟩ := ih.mp h
      refine ⟨rfl, ?_⟩
      rw [List.cons_append, List.infix_cons_iff]
      rintro (hfront | h)
      · obtain ⟨ds, hds⟩ := hfront
        rcases before' with _ | ⟨d, before'⟩
        · cases hds
          exact hdots _ rfl rfl
        · cases hds
          exact hdots _ rfl rfl
      · exact hinfix h
    · rintro ⟨h, hinfix⟩
      rcases before with _ | ⟨c', before⟩
      · cases h
        exact absurd rfl (hdots _ rfl)
      · cases h
        refine ⟨(before, after), ih.mpr ⟨rfl, fun h => hinfix ?_⟩, rfl⟩
        exact List.infix_cons h
  | case3 => simp

end Range

namespace Bound

variable {b : Bound} {whole : String} {cs : List Char}

/-- There are two dots in a row in the bound, or a dot at its end. -/
def Dotted (b : Bound) : Prop :=
  ['.', '.'] <:+: b.write.toList ∨ b.write.toList.getLast? = some '.'

instance (b : Bound) : Decidable b.Dotted := inferInstanceAs (Decidable (_ ∨ _))

theorem not_dotted_literal (n : Int64) : ¬ (literal n).Dotted := by
  have hdot : '.' ∉ n.toInt.repr.toList := by
    intro h
    rcases Number.isDigit_or_of_mem_repr h with h | h
    · exact absurd h (by decide)
    · exact absurd h (by decide)
  rintro (h | h)
  · exact hdot (h.subset List.mem_cons_self)
  · exact hdot (List.mem_of_getLast? h)

/-- A dotted bound is no longer than what it was read from. -/
theorem length_le_of_read (h : read whole cs = .ok b) (hdotted : b.Dotted) :
    b.write.toList.length ≤ cs.length := by
  unfold read at h
  dsimp only at h
  split at h
  · cases h
  · split at h
    · cases h
      exact absurd hdotted (not_dotted_literal _)
    · cases h
      rw [write, String.toList_ofList]
      exact Text.length_trimChars_le cs

theorem plain_of_decode {j : Json} {x : Except RangeError Bound} (h : decode j = .ok x)
    (hx : toldOf x = .ok b) : b.Plain := by
  unfold decode at h
  split at h
  · split at h
    · cases h
      cases hx
      trivial
    · cases h
  · cases h
    exact plain_of_read (Outcome.mapError_eq_ok.mp hx)
  · cases h

end Bound

namespace Range

variable {r : Range} {j : Json} {text : String}

theorem read_eq_ok :
    read text = .ok r ↔ ∃ before after, splitDots text.toList = some (before, after) ∧
      Bound.read text before = .ok r.first ∧ Bound.read text after = .ok r.last := by
  unfold read
  cases splitDots text.toList with
  | none => simp
  | some parts =>
    obtain ⟨before, after⟩ := parts
    simp only [Option.some.injEq, Prod.mk.injEq]
    constructor
    · intro h
      obtain ⟨first, hfirst, h⟩ := Outcome.bind_eq_ok.mp h
      obtain ⟨last, hlast, rfl⟩ := Outcome.map_eq_ok.mp h
      exact ⟨before, after, ⟨rfl, rfl⟩, hfirst, hlast⟩
    · rintro ⟨_, _, ⟨rfl, rfl⟩, hfirst, hlast⟩
      exact Outcome.bind_eq_ok.mpr ⟨r.first, hfirst, Outcome.map_eq_ok.mpr ⟨r.last, hlast, rfl⟩⟩

theorem toList_write (r : Range) :
    r.write.toList = r.first.write.toList ++ '.' :: '.' :: r.last.write.toList := by
  simp [write]

theorem read_write_iff (hfirst : r.first.Plain) (hlast : r.last.Plain) :
    read r.write = .ok r ↔ ¬ r.first.Dotted := by
  rw [read_eq_ok]
  constructor
  · rintro ⟨before, after, hsplit, hread, -⟩ hdotted
    obtain ⟨hcut, hinfix⟩ := splitDots_eq_some_iff.mp hsplit
    -- the first bound is not longer than what stands before the cut, so the dots in it stand there too
    have hlength := Bound.length_le_of_read hread hdotted
    have hbound : r.first.write.toList ++ ['.'] <+: r.write.toList :=
      ⟨'.' :: r.last.write.toList, by simp [toList_write]⟩
    have hbefore : before ++ ['.'] <+: r.write.toList := ⟨'.' :: after, by simp [hcut]⟩
    have hfront := List.prefix_of_prefix_length_le hbound hbefore (by simpa using hlength)
    exact hinfix ((infix_concat_dot.mpr hdotted).trans hfront.isInfix)
  · intro hdotted
    refine ⟨r.first.write.toList, r.last.write.toList, ?_, Bound.read_write hfirst, Bound.read_write hlast⟩
    exact splitDots_eq_some_iff.mpr ⟨toList_write r, fun h => hdotted (infix_concat_dot.mp h)⟩

theorem plain_of_decode (h : decode j = .ok r) : r.first.Plain ∧ r.last.Plain := by
  unfold decode at h
  split at h
  · obtain ⟨before, after, -, hfirst, hlast⟩ := read_eq_ok.mp (Outcome.mapError_eq_ok.mp h)
    exact ⟨Bound.plain_of_read hfirst, Bound.plain_of_read hlast⟩
  · obtain ⟨⟨x, y⟩, hpair, h⟩ := Outcome.bind_eq_ok.mp h
    obtain ⟨first, hfirst, h⟩ := Outcome.bind_eq_ok.mp h
    obtain ⟨last, hlast, h⟩ := Outcome.bind_eq_ok.mp h
    cases h
    unfold Decoder.pair at hpair
    split at hpair
    · obtain ⟨x, hx, hpair⟩ := Outcome.bind_eq_ok.mp hpair
      obtain ⟨y, hy, hpair⟩ := Outcome.bind_eq_ok.mp hpair
      cases hpair
      exact ⟨Bound.plain_of_decode hx hfirst, Bound.plain_of_decode hy hlast⟩
    · cases hpair

theorem decode_toJson_iff (h : decode j = .ok r) : decode r.toJson = .ok r ↔ ¬ r.first.Dotted := by
  obtain ⟨hfirst, hlast⟩ := plain_of_decode h
  rw [← read_write_iff hfirst hlast]
  exact Outcome.mapError_eq_ok

end Range

/-! ### Loops -/

/-- The ranges that a loop goes over. -/
def Iteration.ranges : Iteration → List Range
  | .range _ r => [r]
  | .values _ _ => []
  | .product _ rs => rs

namespace Loop

open Decoder

variable {l : Loop} {j : Json}

/-- The members of a document give the iteration. -/
def Gives (ms : Dict Json) : Iteration → Prop
  | .range name range =>
    possible ms "variable" text = .ok (some name) ∧ possible ms "range" Range.decode = .ok (some range) ∧
      possible ms "values" (list any) = .ok none ∧ possible ms "variables" (list text) = .ok none ∧
      possible ms "ranges" (list Range.decode) = .ok none
  | .values name values =>
    possible ms "variable" text = .ok (some name) ∧ possible ms "range" Range.decode = .ok none ∧
      possible ms "values" (list any) = .ok (some values) ∧ possible ms "variables" (list text) = .ok none ∧
      possible ms "ranges" (list Range.decode) = .ok none
  | .product names ranges =>
    possible ms "variable" text = .ok none ∧ possible ms "range" Range.decode = .ok none ∧
      possible ms "values" (list any) = .ok none ∧ possible ms "variables" (list text) = .ok (some names) ∧
      possible ms "ranges" (list Range.decode) = .ok (some ranges) ∧
      names ≠ [] ∧ names.length = ranges.length

theorem decode_eq_ok :
    decode j = .ok l ↔ ∃ ms, record fieldNames j = .ok ms ∧ possible ms "group" text = .ok l.group ∧
      Gives ms l.iteration := by
  constructor
  · intro h
    obtain ⟨ms, hms, h⟩ := Outcome.bind_eq_ok.mp h
    obtain ⟨group, hgroup, h⟩ := Outcome.bind_eq_ok.mp h
    obtain ⟨range, hrange, h⟩ := Outcome.bind_eq_ok.mp h
    obtain ⟨ranges, hranges, h⟩ := Outcome.bind_eq_ok.mp h
    obtain ⟨values, hvalues, h⟩ := Outcome.bind_eq_ok.mp h
    obtain ⟨name, hname, h⟩ := Outcome.bind_eq_ok.mp h
    obtain ⟨names, hnames, h⟩ := Outcome.bind_eq_ok.mp h
    refine ⟨ms, hms, ?_⟩
    split at h
    · cases h
      exact ⟨hgroup, hname, hrange, hvalues, hnames, hranges⟩
    · cases h
      exact ⟨hgroup, hname, hrange, hvalues, hnames, hranges⟩
    · split at h
      · cases h
      · rename_i hlength
        cases h
        simp only [Bool.or_eq_true, List.isEmpty_iff, bne_iff_ne, not_or, not_not] at hlength
        exact ⟨hgroup, hname, hrange, hvalues, hnames, hranges, hlength⟩
    · cases h
  · rintro ⟨ms, hms, hgroup, hgives⟩
    obtain ⟨iteration, group⟩ := l
    refine Outcome.bind_eq_ok.mpr ⟨ms, hms, Outcome.bind_eq_ok.mpr ⟨group, hgroup, ?_⟩⟩
    cases iteration with
    | range name range =>
      obtain ⟨hname, hrange, hvalues, hnames, hranges⟩ := hgives
      rw [hname, hrange, hvalues, hnames, hranges]
      rfl
    | values name values =>
      obtain ⟨hname, hrange, hvalues, hnames, hranges⟩ := hgives
      rw [hname, hrange, hvalues, hnames, hranges]
      rfl
    | product names ranges =>
      obtain ⟨hname, hrange, hvalues, hnames, hranges, hne, hlength⟩ := hgives
      rw [hname, hrange, hvalues, hnames, hranges]
      exact if_neg (by simp [hne, hlength])

/-- The members of a written loop give its iteration if the lists and ranges in it are read back. -/
theorem decode_toJson_eq_ok : decode l.toJson = .ok l ↔
    match l.iteration with
    | .range _ range => Range.decode range.toJson = .ok range
    | .values _ values => list any (.arr values) = .ok values
    | .product names ranges =>
      list text (.arr (names.map .str)) = .ok names ∧
        list Range.decode (.arr (ranges.map Range.toJson)) = .ok ranges ∧
        names ≠ [] ∧ names.length = ranges.length := by
  obtain ⟨iteration, group⟩ := l
  rw [decode_eq_ok]
  cases iteration <;> cases group
  all_goals
    simp [toJson, Json.ofMembers, record, Gives, possible, defaulted, Dict.get?_ofList, fields, Json.present,
      Json.strings, Dict.get?, Decoder.optional, Outcome.map_eq_ok, text, Range.toJson]

theorem decode_toJson_iff (h : decode j = .ok l) :
    decode l.toJson = .ok l ↔ ∀ r ∈ l.iteration.ranges, ¬ r.first.Dotted := by
  obtain ⟨ms, -, -, hgives⟩ := decode_eq_ok.mp h
  obtain ⟨iteration, group⟩ := l
  rw [decode_toJson_eq_ok]
  cases iteration with
  | range name range =>
    obtain ⟨-, hrange, -⟩ := hgives
    obtain ⟨i, hi⟩ := exists_of_possible hrange
    simpa [Iteration.ranges] using Range.decode_toJson_iff hi
  | values name values =>
    obtain ⟨-, -, hvalues, -⟩ := hgives
    obtain ⟨i, hi⟩ := exists_of_possible hvalues
    have hfinite : ∀ v ∈ values, any (id v) = .ok v := by
      intro v hv
      obtain ⟨u, hu⟩ := exists_of_list hi v hv
      cases hu
      exact congrArg Except.ok (Json.finite_finite u)
    simpa [Iteration.ranges] using list_map_iff.mpr hfinite
  | product names ranges =>
    obtain ⟨-, -, -, -, hranges, hne, hlength⟩ := hgives
    obtain ⟨i, hi⟩ := exists_of_possible hranges
    have htext : list text (.arr (names.map .str)) = .ok names := list_map_iff.mpr fun _ _ => rfl
    have hback : ∀ r ∈ ranges, (Range.decode r.toJson = .ok r ↔ ¬ r.first.Dotted) := fun r hr =>
      (exists_of_list hi r hr).elim fun _ => Range.decode_toJson_iff
    simp only [htext, list_map_iff, hne, hlength, ne_eq, not_false_eq_true, and_true, true_and,
      Iteration.ranges]
    exact forall₂_congr hback

end Loop

/-- A range that is admitted comes back from its text, and a loop from its document, exactly if no first bound
has two dots in a row or a dot at its end. -/
theorem comesBack_iff (j : Json) :
    (∀ r, Range.decode j = .ok r → (Range.read r.write = .ok r ↔ ¬ r.first.Dotted)) ∧
      ∀ l, Loop.decode j = .ok l →
        (Loop.decode l.toJson = .ok l ↔ ∀ r ∈ l.iteration.ranges, ¬ r.first.Dotted) := by
  refine ⟨fun r h => ?_, fun l h => Loop.decode_toJson_iff h⟩
  obtain ⟨hfirst, hlast⟩ := Range.plain_of_decode h
  exact Range.read_write_iff hfirst hlast

/-- A board whose pegs stand in two rows. -/
def pegBoard : Json :=
  .obj [("ranges", .arr [.str "1..2", .arr [.int 0, .str "pegs - 1"]]),
    ("variables", .arr [.str "row", .str "peg"])]

/-- The board as a loop. -/
def pegs : Loop :=
  ⟨.product ["row", "peg"] [⟨.literal 1, .literal 2⟩, ⟨.literal 0, .expression "pegs - 1"⟩], none⟩

theorem comesBack_pegs :
    Range.read "0..pegs - 1" = .ok ⟨.literal 0, .expression "pegs - 1"⟩ ∧
      Loop.decode pegs.toJson = .ok pegs := by
  obtain ⟨hrange, -⟩ := comesBack_iff (.arr [.int 0, .str "pegs - 1"])
  obtain ⟨-, hloop⟩ := comesBack_iff pegBoard
  refine ⟨?_, ?_⟩
  · exact (hrange ⟨.literal 0, .expression "pegs - 1"⟩ rfl).mpr (by decide)
  · exact (hloop pegs rfl).mpr (by decide)

/-- A dot at the end of the first bound is taken for one of the two between the bounds, and a first bound that
starts with two dots for an empty one. -/
theorem lost_in_writing :
    (∃ r, Range.decode (.arr [.str "1.", .int 3]) = .ok r ∧ r.write = "1...3" ∧
      Range.read r.write ≠ .ok r ∧ Range.read r.write = .ok ⟨.literal 1, .expression ".3"⟩) ∧
    ∃ r, Range.decode (.arr [.str "..x", .int 3]) = .ok r ∧ r.write = "..x..3" ∧
      Range.read r.write = .error (.emptyBound "..x..3") := by
  refine ⟨⟨⟨.expression "1.", .literal 3⟩, rfl, rfl, ?_, rfl⟩,
    ⟨.expression "..x", .literal 3⟩, rfl, rfl, rfl⟩
  intro h
  have hread : Range.read "1...3" = .ok ⟨.literal 1, .expression ".3"⟩ := rfl
  cases hread.symm.trans h

end GoalCompiler
