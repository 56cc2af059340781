import GoalCompiler.Embedding.Cache
import GoalCompiler.Proofs.Dictionary
import GoalCompiler.Proofs.Outcome

/-! Embedding through kept vectors. Every vector that is kept is the one that embedding its text gives, so the
texts that are found, woven together with those that are fetched, are what embedding all of them gives. -/
namespace GoalCompiler

variable {f : String → Except ServiceError Embedding} {inner : Embedder} {c c' : Cache} {text t : String}
  {texts absent : List String} {v : Embedding} {vectors : List Embedding} {e : ServiceError}

/-- The provider embeds a text by `f`. Several texts it embeds one by one, or it sends another number of vectors
than was asked for. -/
structure Embedder.Follows (inner : Embedder) (f : String → Except ServiceError Embedding) : Prop where
  embed : inner.embed = f
  embedAll : ∀ texts, inner.embedAll texts = texts.mapM f ∨
    ∃ vectors, inner.embedAll texts = .ok vectors ∧ vectors.length ≠ texts.length

namespace Cache

/-- What is kept when texts are embedded by providers that follow `f`, and any of it may be lost in between. -/
inductive Reached (f : String → Except ServiceError Embedding) : Cache → Prop
  | empty : Reached f []
  | embed {c : Cache} {inner : Embedder} (h : Reached f c) (hinner : inner.Follows f) (text : String) :
    Reached f (c.embed inner text).cache
  | embedAll {c : Cache} {inner : Embedder} (h : Reached f c) (hinner : inner.Follows f) (texts : List String) :
    Reached f (c.embedAll inner texts).cache
  | lose {c c' : Cache} (h : Reached f c) (hkept : ∀ t v, Dict.get? c' t = some v → Dict.get? c t = some v) :
    Reached f c'

/-- Every kept vector is that of its text. -/
def Right (f : String → Except ServiceError Embedding) (c : Cache) : Prop :=
  ∀ t v, Dict.get? c t = some v → f t = .ok v

theorem Right.insert (h : Right f c) (hv : f t = .ok v) : Right f (Dict.insert c t v) :=
  Dict.forall_get?_insert h hv

theorem Right.update (h : Right f c) (hv : List.Forall₂ (fun t v => f t = .ok v) absent vectors) :
    Right f (Dict.update c (absent.zip vectors)) := by
  induction hv generalizing c with
  | nil => exact h
  | cons hv _ ih => exact ih (h.insert hv)

/-- The weaving: what is found and what is fetched, each in its place, is what embedding all texts gives. -/
theorem fill_missing (h : Right f c) (texts : List String) :
    ((missing c texts).mapM f).map (fill (texts.map (Dict.get? c))) = texts.mapM f := by
  induction texts with
  | nil => rfl
  | cons t rest ih =>
    rw [List.mapM_cons, ← ih]
    cases hget : Dict.get? c t with
    | some v =>
      have hmissing : missing c (t :: rest) = missing c rest := by
        simp [missing, Dict.contains, hget]
      rw [hmissing, h t v hget, List.map_cons, hget]
      cases (missing c rest).mapM f <;> rfl
    | none =>
      have hmissing : missing c (t :: rest) = t :: missing c rest := by
        simp [missing, Dict.contains, hget]
      rw [hmissing, List.mapM_cons, List.map_cons, hget]
      cases f t with
      | error e => rfl
      | ok v => cases (missing c rest).mapM f <;> rfl

theorem embedAll_of_found (h : missing c texts = []) :
    c.embedAll inner texts = ⟨.ok (fill (texts.map (Dict.get? c)) []), c, .nothing⟩ := by
  simp only [embedAll, h]

theorem embedAll_of_missing (h : missing c texts ≠ []) :
    c.embedAll inner texts = match inner.embedAll (missing c texts) with
      | .error e => ⟨.error e, c, .several (missing c texts)⟩
      | .ok vectors =>
        if vectors.length = (missing c texts).length then
          ⟨.ok (fill (texts.map (Dict.get? c)) vectors), Dict.update c ((missing c texts).zip vectors),
            .several (missing c texts)⟩
        else ⟨.error (Embedder.miscounted inner.provider (missing c texts).length vectors.length), c,
          .several (missing c texts)⟩ := by
  rw [embedAll]
  split
  · next hnil => exact absurd hnil h
  · rfl

/-- Without a wrong number of vectors it is as if all texts were embedded. -/
theorem embedAll_of_agrees (h : Right f c)
    (hagrees : missing c texts ≠ [] → inner.embedAll (missing c texts) = (missing c texts).mapM f) :
    (c.embedAll inner texts).result = texts.mapM f ∧ Right f (c.embedAll inner texts).cache ∧
      ∀ e, (c.embedAll inner texts).result = .error e → (c.embedAll inner texts).cache = c := by
  have hfill := fill_missing h texts
  by_cases hmissing : missing c texts = []
  · rw [embedAll_of_found hmissing]
    rw [hmissing] at hfill
    exact ⟨hfill, h, fun _ _ => rfl⟩
  · rw [embedAll_of_missing hmissing, hagrees hmissing]
    cases hv : (missing c texts).mapM f with
    | error e =>
      rw [hv] at hfill
      exact ⟨hfill, h, fun _ _ => rfl⟩
    | ok vectors =>
      have hvectors := Outcome.mapM_eq_ok.mp hv
      rw [hv] at hfill
      simp only [hvectors.length_eq, if_true]
      exact ⟨hfill, h.update hvectors, nofun⟩

/-- A wrong number of vectors is told of, and none of them is used. -/
theorem embedAll_of_miscounted (hmissing : missing c texts ≠ [])
    (hv : inner.embedAll (missing c texts) = .ok vectors) (hlength : vectors.length ≠ (missing c texts).length) :
    c.embedAll inner texts = ⟨.error (Embedder.miscounted inner.provider (missing c texts).length vectors.length), c,
      .several (missing c texts)⟩ := by
  rw [embedAll_of_missing hmissing, hv]
  exact if_neg hlength

theorem Right.embed (h : Right f c) (hinner : inner.Follows f) :
    (c.embed inner text).result = f text ∧ Right f (c.embed inner text).cache ∧
      ∀ e, (c.embed inner text).result = .error e → (c.embed inner text).cache = c := by
  unfold Cache.embed
  rw [hinner.embed]
  cases hget : Dict.get? c text with
  | some v => exact ⟨(h text v hget).symm, h, fun _ _ => rfl⟩
  | none =>
    cases hf : f text with
    | ok v => exact ⟨rfl, h.insert hf, nofun⟩
    | error e => exact ⟨rfl, h, fun _ _ => rfl⟩

theorem asked_embedAll : (c.embedAll inner texts).asked =
    if missing c texts = [] then .nothing else .several (missing c texts) := by
  split_ifs with hmissing
  · rw [embedAll_of_found hmissing]
  · rw [embedAll_of_missing hmissing]
    split
    · rfl
    · split <;> rfl

/-- A batch with a wrong number of vectors changes nothing, and any other is as if all texts were embedded. -/
theorem Right.embedAll (h : Right f c) (hinner : inner.Follows f) : Right f (c.embedAll inner texts).cache ∧
    ∀ e, (c.embedAll inner texts).result = .error e → (c.embedAll inner texts).cache = c := by
  by_cases hmissing : missing c texts = []
  · exact (embedAll_of_agrees h (absurd hmissing)).2
  · rcases hinner.embedAll (missing c texts) with hagrees | ⟨vectors, hv, hlength⟩
    · exact (embedAll_of_agrees h fun _ => hagrees).2
    · rw [embedAll_of_miscounted hmissing hv hlength]
      exact ⟨h, fun _ _ => rfl⟩

theorem right_of_reached (h : Reached f c) : Right f c := by
  induction h with
  | empty => nofun
  | embed _ hinner text ih => exact (ih.embed hinner).2.1
  | embedAll _ hinner texts ih => exact (ih.embedAll hinner).1
  | lose _ hkept ih => exact fun t v hget => ih t v (hkept t v hget)

/-- Whatever is kept, embedding through it is embedding: a text, or several of which those that are not kept are
asked for. Only a wrong number of vectors shows, as an error, and no error is kept. -/
theorem transparent (hc : Reached f c) (hinner : inner.Follows f) :
    (∀ text, (c.embed inner text).result = f text) ∧
    (∀ texts, (∀ absent, (c.embedAll inner texts).asked = .several absent →
        inner.embedAll absent = absent.mapM f) →
      (c.embedAll inner texts).result = texts.mapM f) ∧
    (∀ texts absent vectors, (c.embedAll inner texts).asked = .several absent →
      inner.embedAll absent = .ok vectors → vectors.length ≠ absent.length →
      (c.embedAll inner texts).result =
        .error (Embedder.miscounted inner.provider absent.length vectors.length)) ∧
    (∀ text e, (c.embed inner text).result = .error e → (c.embed inner text).cache = c) ∧
    ∀ texts e, (c.embedAll inner texts).result = .error e → (c.embedAll inner texts).cache = c := by
  have hright := right_of_reached hc
  refine ⟨fun text => (hright.embed hinner).1, fun texts hagrees => ?_,
    fun texts absent vectors hasked hv hlength => ?_, fun text => (hright.embed hinner).2.2,
    fun texts => (hright.embedAll hinner).2⟩
  · refine (embedAll_of_agrees hright fun hmissing => hagrees _ ?_).1
    rw [asked_embedAll, if_neg hmissing]
  · rw [asked_embedAll] at hasked
    split_ifs at hasked with hmissing
    obtain rfl := Asked.several.inj hasked
    rw [embedAll_of_miscounted hmissing hv hlength]

/-- Two texts have vectors. -/
def lookup : String → Except ServiceError Embedding
  | "leg" => .ok [1.0, 0.0]
  | "width" => .ok [0.0, 1.0]
  | _ => .error (.provider "table" "No vector")

def diligent : Embedder := .oneByOne "table" "table" lookup

/-- Sends nothing for several texts. -/
def silent : Embedder := ⟨"table", "table", lookup, fun _ => .ok []⟩

theorem diligent_follows : diligent.Follows lookup := ⟨rfl, fun _ => .inl rfl⟩

theorem silent_follows : silent.Follows lookup where
  embed := rfl
  embedAll texts := by
    cases texts with
    | nil => exact .inl rfl
    | cons t rest => exact .inr ⟨[], rfl, nofun⟩

/-- The leg is kept, the width was lost again. -/
def keptLeg : Cache := [("leg", [1.0, 0.0])]

theorem keptLeg_reached : Reached lookup keptLeg := by
  refine .lose (.embedAll .empty diligent_follows ["width", "leg"]) fun t v hget => ?_
  rw [keptLeg, Dict.get?] at hget
  split_ifs at hget with ht
  · rw [ht, ← hget]
    decide +kernel
  · cases hget

/-- Two places of a batch are found and two are fetched, both for one text. A text without a vector fails it. -/
theorem transparent_keptLeg :
    Reached lookup keptLeg ∧ diligent.Follows lookup ∧ silent.Follows lookup ∧
    (keptLeg.embedAll diligent ["leg", "width", "leg", "width"]).asked = .several ["width", "width"] ∧
    (keptLeg.embedAll diligent ["leg", "width", "leg", "width"]).result =
      .ok [[1.0, 0.0], [0.0, 1.0], [1.0, 0.0], [0.0, 1.0]] ∧
    (keptLeg.embedAll silent ["leg", "width", "leg", "width"]).result =
      .error (Embedder.miscounted "table" 2 0) ∧
    (keptLeg.embedAll diligent ["leg", "depth", "width"]).result = .error (.provider "table" "No vector") ∧
    (keptLeg.embedAll diligent ["leg", "depth", "width"]).cache = keptLeg := by
  obtain ⟨-, hbatch, -, -, herror⟩ := transparent keptLeg_reached diligent_follows
  obtain ⟨-, -, hmiscounted, -, -⟩ := transparent keptLeg_reached silent_follows
  have hfails : (keptLeg.embedAll diligent ["leg", "depth", "width"]).result =
      .error (.provider "table" "No vector") :=
    hbatch _ fun _ _ => rfl
  exact ⟨keptLeg_reached, diligent_follows, silent_follows, by decide +kernel, hbatch _ fun _ _ => rfl,
    hmiscounted _ ["width", "width"] [] (by decide +kernel) rfl nofun, hfails, herror _ _ hfails⟩

end Cache

end GoalCompiler
