import GoalCompiler.Expression.Template
import GoalCompiler.Proofs.Dictionary
import GoalCompiler.Proofs.Text.Blanks

/-! Templates that are rendered from texts and variables. A brace in a text is doubled and a variable stands in
braces, so the two use the same characters; where they meet, three or more braces stand in a row. Reading from the
left parts them as they were meant: after an even number of opening braces a name begins, and what follows a name is
closed first. So filling a rendered template gives the texts and the values in their order. -/
namespace GoalCompiler.Template

open Expression (Scope)

/-- A variable of a template: a name in braces, with blanks on its sides or none. -/
structure Slot where
  before : List Char
  name : String
  after : List Char
  before_blank : ∀ c ∈ before, Text.isBlank c
  isName : Text.isName name
  after_blank : ∀ c ∈ after, Text.isBlank c

/-- A part of a template: a text of any characters that stands for itself, or a variable. -/
inductive Piece where
  | text (s : String)
  | slot (v : Slot)

def doubled (c : Char) : List Char := if c = '{' ∨ c = '}' then [c, c] else [c]

def Slot.inside (v : Slot) : List Char := v.before ++ (v.name.toList ++ v.after)

def Piece.render : Piece → List Char
  | .text s => s.toList.flatMap doubled
  | .slot v => '{' :: (v.inside ++ ['}'])

def render (ps : List Piece) : String := String.ofList (ps.flatMap Piece.render)

/-- The names of the variables, in their order. -/
def names (ps : List Piece) : List String :=
  ps.filterMap fun
    | .text _ => none
    | .slot v => some v.name

/-- What a piece stands for where the scope binds its variable. -/
def Piece.meaning (scope : Scope) : Piece → String
  | .text s => s
  | .slot v => ((scope v.name).map valueText).getD ""

/-! ### Reading a rendered template -/

def Piece.segments : Piece → List Segment
  | .text s => s.toList.map .char
  | .slot v => [.slot v.name]

section Slot

variable (v : Slot)

theorem continuesName_of_mem_name {c : Char} (h : c ∈ v.name.toList) : Text.continuesName c := by
  have hname := v.isName
  unfold Text.isName at hname
  split at hname
  · cases hname
  · rename_i d rest heq
    rw [Bool.and_eq_true, List.all_eq_true] at hname
    rw [heq] at h
    rcases List.mem_cons.mp h with rfl | h
    · exact Expression.Token.continuesName_of_startsName hname.1
    · exact hname.2 c h

theorem trim_inside : Text.trim (String.ofList v.inside) = v.name := by
  have hname (c) (h : c ∈ v.name.toList) : Text.isBlank c = false := by
    by_contra hblank
    have := Text.not_continuesName_of_isBlank (eq_true_of_ne_false hblank)
    rw [continuesName_of_mem_name v h] at this
    cases this
  rw [Text.trim, String.toList_ofList, Slot.inside, Text.trimChars_between v.before_blank hname v.after_blank,
    String.ofList_toList]

/-- There is no brace between the braces. -/
theorem not_brace_of_mem_inside {c : Char} (h : c ∈ v.inside) : c ≠ '{' ∧ c ≠ '}' := by
  have hblank (h : Text.isBlank c) : c ≠ '{' ∧ c ≠ '}' := by
    constructor <;> rintro rfl <;> exact absurd h (by decide +kernel)
  rcases List.mem_append.mp h with h | h
  · exact hblank (v.before_blank c h)
  · rcases List.mem_append.mp h with h | h
    · have hc := continuesName_of_mem_name v h
      constructor <;> rintro rfl <;> exact absurd hc (by decide +kernel)
    · exact hblank (v.after_blank c h)

end Slot

theorem read_doubled (c : Char) (rest : List Char) (position : Nat) :
    ∃ q, Segment.read position (doubled c ++ rest) = .char c :: Segment.read q rest := by
  by_cases hopen : c = '{'
  · subst hopen
    exact ⟨position + 2, by rw [doubled, if_pos (.inl rfl)]; exact Segment.read.eq_2 ..⟩
  · by_cases hclose : c = '}'
    · subst hclose
      exact ⟨position + 2, by rw [doubled, if_pos (.inr rfl)]; exact Segment.read.eq_3 ..⟩
    · refine ⟨position + 1, ?_⟩
      rw [doubled, if_neg (by simp [hopen, hclose]), List.singleton_append, Segment.read.eq_def]
      split
      all_goals simp_all

theorem read_slot (v : Slot) (rest : List Char) (position : Nat) :
    ∃ q, Segment.read position ('{' :: (v.inside ++ '}' :: rest)) = .slot v.name :: Segment.read q rest := by
  have hclose : ∀ c ∈ v.inside, (c != '}') = true := fun c hc => bne_iff_ne.mpr (not_brace_of_mem_inside v hc).2
  have htake : (v.inside ++ '}' :: rest).takeWhile (· != '}') = v.inside := by
    rw [List.takeWhile_append_of_pos hclose, List.takeWhile_cons_of_neg (by decide), List.append_nil]
  have hdrop : (v.inside ++ '}' :: rest).dropWhile (· != '}') = '}' :: rest := by
    rw [List.dropWhile_append_of_pos hclose, List.dropWhile_cons_of_neg (by decide)]
  -- the brace is no half of a doubled one
  have hopen : ∀ r, v.inside ++ '}' :: rest ≠ '{' :: r := by
    intro r h
    rcases List.append_eq_cons_iff.mp h with ⟨-, h⟩ | ⟨w, h, -⟩
    · exact absurd (List.cons.inj h).1 (by decide)
    · exact (not_brace_of_mem_inside v (h ▸ List.mem_cons_self)).1 rfl
  refine ⟨position + v.inside.length + 2, ?_⟩
  rw [Segment.read.eq_4 _ _ (fun r h => hopen r h)]
  split
  · rename_i h
    rw [hdrop] at h
    cases h
  · rename_i h
    rw [hdrop] at h
    cases h
    rw [htake]
    dsimp only
    rw [trim_inside, if_pos v.isName]

theorem read_render (ps : List Piece) (position : Nat) :
    Segment.read position (ps.flatMap Piece.render) = ps.flatMap Piece.segments := by
  have htext (cs rest : List Char) (position : Nat) :
      ∃ q, Segment.read position (cs.flatMap doubled ++ rest) = cs.map .char ++ Segment.read q rest := by
    induction cs generalizing position with
    | nil => exact ⟨position, rfl⟩
    | cons c cs ih =>
      obtain ⟨q, hq⟩ := read_doubled c (cs.flatMap doubled ++ rest) position
      obtain ⟨q', hq'⟩ := ih q
      exact ⟨q', by rw [List.flatMap_cons, List.append_assoc, hq, hq', List.map_cons, List.cons_append]⟩
  induction ps generalizing position with
  | nil => exact Segment.read.eq_1 _
  | cons p ps ih =>
    rw [List.flatMap_cons, List.flatMap_cons]
    cases p with
    | text s =>
      obtain ⟨q, hq⟩ := htext s.toList (ps.flatMap Piece.render) position
      rw [Piece.render, hq, ih, Piece.segments]
    | slot v =>
      obtain ⟨q, hq⟩ := read_slot v (ps.flatMap Piece.render) position
      rw [Piece.render, List.cons_append, List.append_assoc, List.singleton_append, hq, ih]
      rfl

/-! ### Filling a rendered template -/

section Filling

variable {scope : Scope} {text : String} {referenced : NameSet}

theorem fillSegments_chars (cs : List Char) (rest : List Segment) :
    fillSegments scope text referenced (cs.map .char ++ rest) =
      fillSegments scope (text ++ String.ofList cs) referenced rest := by
  induction cs generalizing text with
  | nil => simp
  | cons c cs ih =>
    have hpush : text.push c ++ String.ofList cs = text ++ String.ofList (c :: cs) := by
      apply String.toList_injective
      simp
    rw [List.map_cons, List.cons_append, fillSegments, ih, hpush]

/-- The segments give the texts and values in their order, up to the first variable that is not bound. -/
theorem fillSegments_segments (ps : List Piece) :
    fillSegments scope text referenced (ps.flatMap Piece.segments) =
      match (names ps).find? fun name => (scope name).isNone with
      | some name => .error (.unresolved name)
      | none =>
        .ok ⟨text ++ String.join (ps.map (Piece.meaning scope)), (names ps).foldl NameSet.insert referenced⟩ := by
  induction ps generalizing text referenced with
  | nil => simp [fillSegments, names]
  | cons p ps ih =>
    rw [List.flatMap_cons, List.map_cons, String.join_cons, ← String.append_assoc]
    cases p with
    | text s =>
      have hnames : names (.text s :: ps) = names ps := rfl
      rw [Piece.segments, fillSegments_chars, String.ofList_toList, ih, hnames, Piece.meaning]
    | slot v =>
      have hnames : names (.slot v :: ps) = v.name :: names ps := rfl
      rw [Piece.segments, List.singleton_append, fillSegments, hnames, List.find?_cons, Piece.meaning]
      cases hv : scope v.name with
      | none => rfl
      | some j =>
        dsimp only
        rw [ih]
        rfl

end Filling

theorem fill_pieces (scope : Scope) (ps : List Piece) :
    fill scope (render ps) =
      match (names ps).find? fun name => (scope name).isNone with
      | some name => .error ⟨.unresolved name, render ps⟩
      | none => .ok ⟨String.join (ps.map (Piece.meaning scope)), NameSet.ofList (names ps)⟩ := by
  have hread : Segment.read 0 (render ps).toList = ps.flatMap Piece.segments := by
    rw [render, String.toList_ofList, read_render]
  rw [fill, hread, fillSegments_segments, String.empty_append]
  cases (names ps).find? fun name => (scope name).isNone <;> rfl

/-- A rendered template whose variables are all bound is filled with its texts and the values of its variables, in
their order, and refers to these variables and no others. Otherwise the first variable that is not bound is
reported. -/
theorem fill_render (scope : Scope) (ps : List Piece) :
    ((∀ name ∈ names ps, scope name ≠ none) →
      ∃ referenced, fill scope (render ps) = .ok ⟨String.join (ps.map (Piece.meaning scope)), referenced⟩ ∧
        referenced.Pairwise (· < ·) ∧ ∀ name, name ∈ referenced ↔ name ∈ names ps) ∧
    ∀ (before after : List Piece) (v : Slot), ps = before ++ .slot v :: after →
      (∀ name ∈ names before, scope name ≠ none) → scope v.name = none →
        fill scope (render ps) = .error ⟨.unresolved v.name, render ps⟩ := by
  constructor
  · intro hbound
    have hfind : (names ps).find? (fun name => (scope name).isNone) = none := by
      simpa using hbound
    refine ⟨NameSet.ofList (names ps), ?_, NameSet.pairwise_ofList _, fun name => NameSet.mem_ofList⟩
    rw [fill_pieces, hfind]
  · rintro before after v rfl hbound hv
    have hfind : (names (before ++ .slot v :: after)).find? (fun name => (scope name).isNone) = some v.name := by
      have hnames : names (before ++ .slot v :: after) = names before ++ v.name :: names after :=
        List.filterMap_append
      have hbefore : (names before).find? (fun name => (scope name).isNone) = none := by
        simpa using hbound
      rw [hnames, List.find?_append, hbefore, List.find?_cons]
      simp [hv]
    rw [fill_pieces, hfind]

/-- A name with blanks around it. -/
def side : Slot where
  before := [' ']
  name := "side"
  after := ['\t', ' ']
  before_blank := List.all_eq_true.mp (by decide +kernel)
  isName := by decide +kernel
  after_blank := List.all_eq_true.mp (by decide +kernel)

def index : Slot where
  before := []
  name := "i"
  after := []
  before_blank := nofun
  isName := by decide +kernel
  after_blank := nofun

def sides : Scope := Scope.ofDict [("side", .str "left")]

/-- Braces of a text stand at those of a variable; and the first variable that is not bound is not the last. -/
theorem fill_render_braced :
    (∀ name ∈ names [.text "\x7b", .slot side, .text "\x7d\x7d"], sides name ≠ none) ∧
    (∃ referenced, fill sides "\x7b\x7b\x7b side\t \x7d\x7d\x7d\x7d\x7d" = .ok ⟨"\x7bleft\x7d\x7d", referenced⟩) ∧
    fill sides "\x7b side\t \x7d\x7bi\x7d\x7bi\x7d" =
      .error ⟨.unresolved "i", "\x7b side\t \x7d\x7bi\x7d\x7bi\x7d"⟩ := by
  have hbound : ∀ name ∈ names [.text "\x7b", .slot side, .text "\x7d\x7d"], sides name ≠ none := by decide
  obtain ⟨referenced, hfill, -⟩ := (fill_render sides [.text "\x7b", .slot side, .text "\x7d\x7d"]).1 hbound
  have hfirst := (fill_render sides [.slot side, .slot index, .slot index]).2 [.slot side] [.slot index] index rfl
    (by decide) rfl
  exact ⟨hbound, ⟨referenced, hfill⟩, hfirst⟩

/-- A text without braces is a template of itself. -/
theorem fill_of_not_hasPlaceholders {scope : Scope} {template : String} (h : hasPlaceholders template = false) :
    fill scope template = .ok ⟨template, []⟩ := by
  have hplain : template.toList.flatMap doubled = template.toList.flatMap ([·]) := by
    rw [hasPlaceholders, List.any_eq_false] at h
    refine List.flatMap_congr fun c hc => if_neg ?_
    simpa using h c hc
  have hrender : render [.text template] = template := by
    rw [render, List.flatMap_singleton, Piece.render, hplain, List.flatMap_singleton', String.ofList_toList]
  have hfill := fill_pieces scope [.text template]
  rw [hrender] at hfill
  rw [hfill]
  simp [names, Piece.meaning, NameSet.ofList]

end GoalCompiler.Template
