import GoalCompiler.Goal.ModifierMatch
import GoalCompiler.Proofs.Dictionary
import GoalCompiler.Proofs.Outcome
import Mathlib.Data.List.Infix

/-! What a goal says about a modifier. It is said of the modifier alone: which other modifiers there are, in what
order, and which words they have in common makes no difference, though what is found out about a word for one of
them is used for all that follow. -/
namespace GoalCompiler

/-! ### Words in a row -/

namespace Text

theorem mem_windows_iff {α : Type} {n : Nat} {xs run : List α} (hn : 0 < n) :
    run ∈ windows n xs ↔ run.length = n ∧ run <:+: xs := by
  refine ⟨fun h => ⟨length_of_mem_windows h, infix_of_mem_windows h⟩, ?_⟩
  rintro ⟨rfl, h⟩
  induction xs with
  | nil => simp [List.infix_nil.mp h] at hn
  | cons x rest ih =>
    have hfits : run.length ≤ rest.length + 1 := h.length_le
    rw [windows, if_pos hfits, List.mem_cons]
    rcases List.infix_cons_iff.mp h with hprefix | hinfix
    · exact .inl (List.prefix_iff_eq_take.mp hprefix)
    · exact .inr (ih hinfix)

theorem hasRun_iff {words run : List String} : hasRun words run ↔ run ≠ [] ∧ run <:+: words := by
  rw [hasRun, Bool.and_eq_true, Bool.not_eq_true', List.isEmpty_eq_false_iff, List.contains_iff_mem]
  refine and_congr_right fun hne => ?_
  rw [mem_windows_iff (List.length_pos_iff.mpr hne)]
  exact and_iff_right rfl

end Text

/-- The outcome for the modifier at this place. -/
def ModifierOutcome.movedTo (index : Nat) : ModifierOutcome → ModifierOutcome
  | .found m => .found { m with index }
  | o => o

namespace Modifier

variable {m : Modifier} {goal : Goal} {embedder : Embedder} {vector : String → Embedding} {threshold : Float32}

/-! ### One modifier -/

/-- The words of the signal stand one after another in the goal. -/
def Stands (goal : Goal) (signal : String) : Prop :=
  Text.tokens signal ≠ [] ∧ Text.tokens signal <:+: goal.words

/-- Of the negative signals this is the first that stands in the goal. -/
def RuledOutBy (m : Modifier) (goal : Goal) (signal : String) : Prop :=
  Stands goal signal ∧ ∃ before after, m.negativeSignals = before ++ signal :: after ∧
    ∀ other ∈ before, ¬ Stands goal other

/-- The word stands in the goal, or the phrase of the goal that is nearest to it is near enough. -/
def AlignsWith (goal : Goal) (vector : String → Embedding) (threshold : Float32) (word : String) : Prop :=
  word ∈ goal.words ∨ ∃ near ∈ goal.nearestPhrase? (vector word), threshold ≤ near.2

instance : DecidablePred (AlignsWith goal vector threshold) := fun _ => inferInstanceAs (Decidable (_ ∨ _))

/-- How many words of the phrase align with the goal; a word that it has twice counts twice. -/
def alignedWords (m : Modifier) (goal : Goal) (vector : String → Embedding) (threshold : Float32) : Nat :=
  (Text.tokens m.phrase).countP (AlignsWith goal vector threshold)

/-- The phrase has words, and enough of them align: one, or two where it has more. -/
def Suffices (m : Modifier) (goal : Goal) (vector : String → Embedding) (threshold : Float32) : Prop :=
  Text.tokens m.phrase ≠ [] ∧ min (Text.tokens m.phrase).length 2 ≤ m.alignedWords goal vector threshold

/-- What the goal says about a modifier that is the only one, for each of the outcomes. -/
structure Judged (m : Modifier) (goal : Goal) (vector : String → Embedding) (threshold : Float32)
    (o : ModifierOutcome) : Prop where
  ruledOut : ∀ signal, o = .ruledOut signal ↔ m.RuledOutBy goal signal
  found : ∀ f, o = .found f ↔ (∀ signal, ¬ m.RuledOutBy goal signal) ∧ m.Suffices goal vector threshold ∧
    f = ⟨0, m.alignedWords goal vector threshold, (Text.tokens m.phrase).length⟩
  tooFew : ∀ aligned required, o = .tooFew aligned required ↔ (∀ signal, ¬ m.RuledOutBy goal signal) ∧
    ¬ m.Suffices goal vector threshold ∧ aligned = m.alignedWords goal vector threshold ∧
    required = min (Text.tokens m.phrase).length 2

/-- What the goal says about the modifier at a place. -/
def verdict (m : Modifier) (goal : Goal) (vector : String → Embedding) (threshold : Float32) (index : Nat) :
    ModifierOutcome :=
  match m.signal? goal with
  | some signal => .ruledOut signal
  | none => judge index (Text.tokens m.phrase) (m.alignedWords goal vector threshold)

theorem signal?_eq_some_iff {signal : String} : m.signal? goal = some signal ↔ m.RuledOutBy goal signal := by
  simp only [signal?, List.find?_eq_some_iff_append, Goal.hasRun, Bool.not_eq_true', ← Bool.not_eq_true,
    Text.hasRun_iff, RuledOutBy, Stands]

theorem judge_of_suffices {index : Nat} (h : m.Suffices goal vector threshold) :
    judge index (Text.tokens m.phrase) (m.alignedWords goal vector threshold) =
      .found ⟨index, m.alignedWords goal vector threshold, (Text.tokens m.phrase).length⟩ := by
  obtain ⟨hne, henough⟩ := h
  rw [judge, if_neg]
  simp [hne, requiredWords, henough.not_gt]

theorem judge_of_not_suffices {index : Nat} (h : ¬ m.Suffices goal vector threshold) :
    judge index (Text.tokens m.phrase) (m.alignedWords goal vector threshold) =
      .tooFew (m.alignedWords goal vector threshold) (min (Text.tokens m.phrase).length 2) := by
  rw [judge, if_pos]
  · rfl
  · rw [Bool.or_eq_true, List.isEmpty_iff, decide_eq_true_eq, or_iff_not_imp_left]
    exact fun hne => not_le.mp fun hle => h ⟨hne, hle⟩

theorem judged_verdict : m.Judged goal vector threshold (m.verdict goal vector threshold 0) := by
  unfold verdict
  cases hsignal : m.signal? goal with
  | some signal =>
    have hruled := signal?_eq_some_iff.mp hsignal
    have hsome : ¬ ∀ signal, ¬ m.RuledOutBy goal signal := fun hnone => hnone signal hruled
    refine ⟨fun other => ?_, by simp [hsome], by simp [hsome]⟩
    rw [← signal?_eq_some_iff, hsignal]
    simp
  | none =>
    have hnone : ∀ signal, ¬ m.RuledOutBy goal signal := by
      intro signal hruled
      rw [← signal?_eq_some_iff, hsignal] at hruled
      cases hruled
    by_cases hsuffices : m.Suffices goal vector threshold
    · simp only [judge_of_suffices hsuffices]
      refine ⟨by simp [hnone], ?_, by simp [hsuffices]⟩
      simp [hnone, hsuffices, eq_comm]
    · simp only [judge_of_not_suffices hsuffices]
      refine ⟨by simp [hnone], by simp [hsuffices], ?_⟩
      simp [hnone, hsuffices, eq_comm]

/-- The place is all that the outcome owes to the place. -/
theorem movedTo_verdict (index : Nat) : (m.verdict goal vector threshold 0).movedTo index =
    m.verdict goal vector threshold index := by
  unfold verdict
  split
  · rfl
  · by_cases hsuffices : m.Suffices goal vector threshold
    · rw [judge_of_suffices hsuffices, judge_of_suffices hsuffices]
      rfl
    · rw [judge_of_not_suffices hsuffices, judge_of_not_suffices hsuffices]
      rfl

/-! ### All modifiers, one after another -/

variable {test : String → Except ServiceError Bool} {known : Aligned}

/-- What is known about words is what testing them gives. -/
def Right (test : String → Except ServiceError Bool) (known : Aligned) : Prop :=
  ∀ word b, Dict.get? known word = some b → test word = .ok b

theorem Right.insert {word : String} {b : Bool} (h : Right test known) (hword : test word = .ok b) :
    Right test (Dict.insert known word b) := Dict.forall_get?_insert h hword

/-- Where the test never fails, counting with what is known is counting. -/
theorem countAligned_of_right {hit : String → Bool} (htest : ∀ word, test word = .ok (hit word))
    (h : Right test known) (n : Nat) (words : List String) :
    ∃ known', countAligned test known n words = .ok (n + words.countP hit, known') ∧ Right test known' := by
  induction words generalizing known n with
  | nil => exact ⟨known, rfl, h⟩
  | cons word rest ih =>
    have hcount : n + (word :: rest).countP hit = n + (hit word).toNat + rest.countP hit := by
      rw [List.countP_cons]
      cases hit word with
      | false => rfl
      | true => simpa using by omega
    rw [countAligned, hcount]
    cases hget : Dict.get? known word with
    | some b =>
      obtain rfl : b = hit word := Except.ok.inj ((h word b hget).symm.trans (htest word))
      exact ih h _
    | none =>
      simp only [htest]
      exact ih (h.insert (htest word)) _

section

variable (hembed : ∀ text, embedder.embed text = .ok (vector text))
include hembed

theorem aligns_eq (word : String) :
    aligns goal embedder threshold word = .ok (decide (AlignsWith goal vector threshold word)) := by
  unfold aligns Goal.hasWord
  rw [hembed]
  by_cases hword : word ∈ goal.words
  · have haligns : AlignsWith goal vector threshold word := .inl hword
    simp [hword, haligns]
  · simp only [hword, List.contains_eq_mem, decide_false, Bool.false_eq_true, if_false, Except.map,
      AlignsWith, false_or]
    congr 1
    cases goal.nearestPhrase? (vector word) <;> simp

theorem outcomes_of_right (ms : List (Modifier × Nat))
    (h : Right (aligns goal embedder threshold) known) :
    outcomes goal (aligns goal embedder threshold) known ms =
      .ok (ms.map fun x => x.1.verdict goal vector threshold x.2) := by
  induction ms generalizing known with
  | nil => rfl
  | cons x rest ih =>
    obtain ⟨m, index⟩ := x
    rw [outcomes, List.map_cons, verdict]
    cases m.signal? goal with
    | some signal =>
      -- what is known stays, for nothing was found out
      simp only [ih h]
      rfl
    | none =>
      obtain ⟨known', hcount, h'⟩ := countAligned_of_right (aligns_eq hembed) h 0 (Text.tokens m.phrase)
      simp only [hcount, Nat.zero_add]
      change (outcomes goal _ known' rest >>= _) = _
      rw [ih h']
      rfl

end

end Modifier

namespace Workflow

variable {w : Workflow} {goal : Goal} {embedder : Embedder} {vector : String → Embedding} {threshold : Float32}

theorem modifierOutcomes_eq (hembed : ∀ text, embedder.embed text = .ok (vector text)) :
    w.modifierOutcomes goal embedder threshold =
      .ok (w.modifiers.zipIdx.map fun x => x.1.verdict goal vector threshold x.2) :=
  Modifier.outcomes_of_right hembed _ fun _ _ h => nomatch h

/-- Where every text has a vector, each modifier is judged as if it were the only one: it is ruled out by the first
of its negative signals that stands in the goal, or found if enough of its words align. Wherever it stands among
whatever other modifiers, the outcome is the same but for its place. -/
theorem judged_alone (hembed : ∀ text, embedder.embed text = .ok (vector text)) :
    ∃ outcomes, w.modifierOutcomes goal embedder threshold = .ok outcomes ∧
      outcomes.length = w.modifiers.length ∧
      ∀ i m, w.modifiers[i]? = some m → ∃ alone,
        { w with modifiers := [m] }.modifierOutcomes goal embedder threshold = .ok [alone] ∧
        outcomes[i]? = some (alone.movedTo i) ∧ m.Judged goal vector threshold alone ∧
        ∀ (w' : Workflow) (j : Nat), w'.modifiers[j]? = some m → ∃ outcomes',
          w'.modifierOutcomes goal embedder threshold = .ok outcomes' ∧
          outcomes'[j]? = some (alone.movedTo j) := by
  have hplace : ∀ (w' : Workflow) (j : Nat) (m : Modifier), w'.modifiers[j]? = some m →
      (w'.modifiers.zipIdx.map fun x => x.1.verdict goal vector threshold x.2)[j]? =
        some ((m.verdict goal vector threshold 0).movedTo j) := by
    intro w' j m hm
    rw [List.getElem?_map, List.getElem?_zipIdx, hm, Modifier.movedTo_verdict]
    simp
  refine ⟨_, modifierOutcomes_eq hembed, by simp, fun i m hm => ?_⟩
  refine ⟨m.verdict goal vector threshold 0, modifierOutcomes_eq hembed, hplace w i m hm,
    Modifier.judged_verdict, fun w' j hm' => ?_⟩
  exact ⟨_, modifierOutcomes_eq hembed, hplace w' j m hm'⟩

/-- Two modifiers that speak of legs, one of them straight ones, and one that is ruled out. -/
def trestle : Workflow where
  name := "trestle"
  modifiers :=
    [{ phrase := "legs with braces", negativeSignals := ["no braces", "plain", "upright legs"] },
     { phrase := "crossed legs" },
     { phrase := "straight legs", negativeSignals := ["X"] }]

/-- Straight and upright are much the same. -/
def legVector (text : String) : Embedding :=
  if text = "upright" then [1.0, 0.0] else if text = "straight" then [1.0, 0.25] else [0.0, 0.0]

def legEmbedder : Embedder := .oneByOne "table" "table" fun text => .ok (legVector text)

def legGoal (text : String) : Goal :=
  ⟨text, Text.tokens text, Text.phrases (Text.tokens text), (Text.phrases (Text.tokens text)).map legVector,
    legVector text⟩

theorem analyse_legs (text : String) : Goal.analyse legEmbedder text = .ok (legGoal text) := by
  have hall : ∀ texts : List String, legEmbedder.embedAll texts = .ok (texts.map legVector) := by
    intro texts
    refine Outcome.mapM_eq_ok.mpr ?_
    rw [List.forall₂_map_right_iff]
    exact List.forall₂_same.mpr fun _ _ => rfl
  exact Outcome.bind_eq_ok.mpr ⟨_, hall _, rfl⟩

def uprightTable : Goal := legGoal "a table with upright legs"

/-- One word of the phrase stands in the goal, the other is near to one there. -/
theorem judged_alone_trestle :
    (∀ text, legEmbedder.embed text = .ok (legVector text)) ∧
    Goal.analyse legEmbedder "a table with upright legs" = .ok uprightTable ∧
    ∃ outcomes, trestle.modifierOutcomes uprightTable legEmbedder 0.65 = .ok outcomes ∧
      outcomes[0]? = some (.ruledOut "upright legs") ∧ outcomes[2]? = some (.found ⟨2, 2, 2⟩) ∧
      trestle.modifiers[2].Suffices uprightTable legVector 0.65 := by
  have hembed : ∀ text, legEmbedder.embed text = .ok (legVector text) := fun _ => rfl
  obtain ⟨outcomes, houtcomes, -, hjudged⟩ :=
    @judged_alone trestle uprightTable legEmbedder legVector 0.65 hembed
  have halone : ∀ {i : Nat} {m : Modifier} {o : ModifierOutcome}, trestle.modifiers[i]? = some m →
      { trestle with modifiers := [m] }.modifierOutcomes uprightTable legEmbedder 0.65 = .ok [o] →
      outcomes[i]? = some (o.movedTo i) ∧ m.Judged uprightTable legVector 0.65 o := by
    intro i m o hm ho
    obtain ⟨alone, hok, hplace, hspec, -⟩ := hjudged i m hm
    obtain rfl : alone = o := List.singleton_inj.mp (Except.ok.inj (hok.symm.trans ho))
    exact ⟨hplace, hspec⟩
  obtain ⟨hbraces, -⟩ := halone (i := 0) (o := .ruledOut "upright legs") rfl (by decide +kernel)
  obtain ⟨hstraight, hspec⟩ := halone (i := 2) (o := .found ⟨0, 2, 2⟩) rfl (by decide +kernel)
  exact ⟨hembed, analyse_legs _, outcomes, houtcomes, hbraces, hstraight, ((hspec.found _).mp rfl).2.1⟩

end Workflow

end GoalCompiler
