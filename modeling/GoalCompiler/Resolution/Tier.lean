import GoalCompiler.Goal.Excerpt
import GoalCompiler.Goal.ModifierMatch
import GoalCompiler.Resolution.Session
import GoalCompiler.Settings
import GoalCompiler.Workflow.Bindings

/-! The tiers that settle a parameter. A modifier in the goal comes before a remembered answer, and that
before the default, which is used unless the goal speaks of the parameter. -/
namespace GoalCompiler

inductive Tier where
  | modifier | learned | fallback
deriving DecidableEq, Repr

def Tier.words : List (String × Tier) :=
  [("modifier", .modifier), ("learned", .learned), ("fallback", .fallback)]

def Tier.name : Tier → String
  | .modifier => "modifier"
  | .learned => "learned"
  | .fallback => "fallback"

/-- What a tier looks at. -/
structure Case where
  workflow : Workflow
  parameter : Parameter
  goal : Goal
  assignments : Dict Assignment

inductive Settlement where
  /-- An answer may cover several parameters. -/
  | values (entries : List (String × Json)) (source : Source)
  | unsettled (u : Unresolved)
deriving Repr

namespace Case

def settled (c : Case) (v : Json) (source : Source) : Settlement :=
  .values [(c.parameter.name, v)] source

/-- The value that a modifier assigns. -/
def byModifier (c : Case) : Option Settlement :=
  (Dict.get? c.assignments c.parameter.name).map fun a => c.settled a.value .modifier

end Case

/-- How many remembered answers are looked at. -/
def recallLimit : Nat := 5

namespace Case
variable {σ : Type}

def query (c : Case) (settings : ResolverSettings) : Query where
  workflow := c.workflow.name
  parameter := c.parameter.name
  embedding := c.goal.vector
  least := settings.memory
  limit := recallLimit

/-- The first match whose value the parameter takes. -/
def firstValid? (c : Case) (least : Float32) : List Match → Option (Match × Json)
  | [] => none
  | m :: rest =>
    if m.similarity < least then firstValid? c least rest
    else match c.parameter.accept m.mapping.value with
      | .ok v => some (m, v)
      | .error _ => firstValid? c least rest

/-- The best remembered answer that is valid; its use is counted. Nothing is remembered by a memory that
fails. -/
def byMemory (c : Case) (env : Services σ) (settings : ResolverSettings) (s : Session σ) :
    Option Settlement × Session σ :=
  match env.memory.search s.memory (c.query settings) with
  | .error _ => (none, s)
  | .ok found =>
    match c.firstValid? settings.memory found with
    | none => (none, s)
    | some (m, v) =>
      let (_, memory) := env.memory.recordUsage s.memory m.mapping.id (env.stamp s.made).moment
      (some (c.settled v .learned), { s with memory })

/-- How much a goal speaks of a parameter, and the words of the goal that do. -/
structure Relevance where
  degree : Float32 := 0.0
  term : Option String := none

/-- A hint in the goal settles the matter; otherwise the nearest phrase counts. -/
def hinted (goal : Goal) (embedder : Embedder) (best : Relevance) :
    List String → Except ServiceError (Relevance × Bool)
  | [] => .ok (best, false)
  | hint :: rest =>
    if goal.hasRun (Text.tokens hint) then .ok (⟨1.0, some hint⟩, true)
    else do
      match goal.nearestPhrase? (← embedder.embed hint) with
      | some (phrase, s) =>
        hinted goal embedder (if s > best.degree then ⟨s, some phrase⟩ else best) rest
      | none => hinted goal embedder best rest

/-- The relevance by the hints, or by the description if that is nearer to the goal. -/
def relevance (c : Case) (embedder : Embedder) : Except ServiceError Relevance := do
  let (best, sure) ← hinted c.goal embedder {} c.parameter.hints
  let description := Text.trim c.parameter.description
  if sure || description.isEmpty then return best
  let s := Embedding.similarity (← embedder.embed description) c.goal.vector
  return if s > best.degree then { best with degree := s } else best

def byDefault (c : Case) : Settlement := c.settled c.parameter.default .default

/-- The question as it is put: it names the members when an answer is for more than one. -/
def firstQuestion (c : Case) (context : String) : Question :=
  let q := Question.ofParameter c.parameter context
  match c.parameter.group with
  | none => q
  | some group =>
    let members := (c.workflow.targets c.parameter.name context).map Parameter.name
    if 1 < members.length then { q with group := some group, members } else q

/-- What comes of asking. -/
inductive Clarified where
  | answer (v : Json)
  | nothing
  | timedOut

/-- Asks until an answer is valid, up to `left` times more. -/
def clarify (c : Case) (handler : Handler) (attempt : Nat) (q : Question) (s : Session σ) :
    Nat → Clarified × Session σ
  | 0 => (.nothing, s)
  | left + 1 =>
    match s.ask handler ⟨c.workflow.name, q, attempt⟩ with
    | (.timedOut, s) => (.timedOut, s)
    | (.declined, s) | (.failed _, s) => (.nothing, s)
    | (.value v, s) =>
      match c.parameter.accept v with
      | .ok v => (.answer v, s)
      | .error e => clarify c handler (attempt + 1) { q with rejected := some e.message } s left

/-- Binds the answer to all that it is meant for and remembers it, if the memory can. -/
def adopt (c : Case) (env : Services σ) (context : String) (v : Json) (s : Session σ) :
    Settlement × Session σ :=
  let values := c.workflow.targetValues c.parameter.name context v
  let (_, s) := env.remember s c.workflow.name context values
  (.values values .clarified, s)

/-- Asks the handler; without an answer the default is used. -/
def byAsking (c : Case) (env : Services σ) (settings : ResolverSettings) (handler : Handler)
    (context : String) (s : Session σ) : Except Failure Settlement × Session σ :=
  match c.clarify handler 1 (c.firstQuestion context) s (max 1 settings.attempts) with
  | (.answer v, s) =>
    let (answer, s) := c.adopt env context v s
    (.ok answer, s)
  | (.nothing, s) => (.ok c.byDefault, s)
  | (.timedOut, s) =>
    if settings.fallbackOnTimeout then (.ok c.byDefault, s)
    else (.error (.unanswered c.parameter.name settings.timeoutSeconds), s)

/-- The default, unless the goal speaks of the parameter. -/
def byFallback (c : Case) (env : Services σ) (settings : ResolverSettings) (s : Session σ) :
    Except Failure Settlement × Session σ :=
  match c.relevance env.embedder with
  | .error e => (.error (.service e), s)
  | .ok r =>
    if r.degree < settings.relevance then (.ok c.byDefault, s)
    else
      match Excerpt.of? c.goal.text r.term settings.snippetMaxChars settings.snippetWindow with
      | none => (.error .noWindow, s)
      | some context =>
        match env.handler with
        | none => (.ok (.unsettled ⟨c.parameter.name, context, r.degree⟩), s)
        | some handler => c.byAsking env settings handler context s

end Case

variable {σ : Type}

/-- What the tier says; nothing if it leaves the parameter to the next. -/
def Tier.settle (t : Tier) (env : Services σ) (settings : ResolverSettings) (c : Case)
    (s : Session σ) : Except Failure (Option Settlement) × Session σ :=
  match t with
  | .modifier => (.ok c.byModifier, s)
  | .learned =>
    let (found, s) := c.byMemory env settings s
    (.ok found, s)
  | .fallback =>
    let (result, s) := c.byFallback env settings s
    (result.map some, s)

end GoalCompiler
