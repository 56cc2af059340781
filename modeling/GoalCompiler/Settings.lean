import GoalCompiler.Compilation.HostState
import GoalCompiler.Failure
import GoalCompiler.Settings.Reading
import GoalCompiler.Workflow.Unrolling

/-! Settings of the program. Every section and every field has a value of its own where the document says
nothing. -/
namespace GoalCompiler

open Decoder

/-- A rule of simulation as it is written down. -/
structure RuleSettings where
  pattern : String := ""
  set : Dict Json := []
  fromParam : Dict String := []
deriving DecidableEq, Repr

namespace RuleSettings

def decode (r : Reading := .exact) : Decoder RuleSettings := fun j => do
  let ms ← record ["pattern", "set", "from_param"] j
  return {
    pattern := ← defaulted ms "pattern" r.text ""
    set := ← defaulted ms "set" (dict any) []
    fromParam := ← defaulted ms "from_param" (dict r.text) [] }

/-- The rule, if its pattern is one. -/
def rule (r : RuleSettings) : Except ServiceError HostRule :=
  match Text.Pattern.read? r.pattern with
  | none => .error (.configuration ("Invalid simulation pattern '" ++ r.pattern ++ "'"))
  | some pattern =>
    .ok { pattern, effects :=
      r.set.map (fun (key, value) => (key, .set value)) ++
        r.fromParam.map (fun (key, parameter) => (key, .copy parameter)) }

end RuleSettings

structure CompilerSettings where
  maxSteps : Nat := defaultStepLimit
  enableSimulation : Bool := true
  initialState : HostState := Simulator.defaultStart
  rules : List RuleSettings := []
deriving DecidableEq, Repr

namespace CompilerSettings

def decode (r : Reading := .exact) : Decoder CompilerSettings := fun j => do
  let ms ← record ["max_steps", "enable_simulation", "initial_state", "simulation_rules"] j
  return {
    maxSteps := ← defaulted ms "max_steps" (r.natural 64) defaultStepLimit
    enableSimulation := ← defaulted ms "enable_simulation" r.flag true
    initialState := ← defaulted ms "initial_state" (dict any) Simulator.defaultStart
    rules := ← defaulted ms "simulation_rules" (list (RuleSettings.decode r)) [] }

/-- The simulator with the standard rules and the configured ones; none if simulation is off. -/
def simulator (s : CompilerSettings) : Except ServiceError (Option Simulator) :=
  if s.enableSimulation then do return some (.new s.initialState (← s.rules.mapM RuleSettings.rule))
  else .ok none

end CompilerSettings

structure ResolverSettings where
  /-- The least similarity at which words align. -/
  word : Float32 := 0.65
  /-- The least similarity at which a remembered answer counts. -/
  memory : Float32 := 0.85
  /-- The least similarity at which a goal speaks of a parameter. -/
  relevance : Float32 := 0.50
  /-- The least similarity at which a workflow is chosen. -/
  workflowMatch : Float32 := 0.60
  timeoutSeconds : Nat := 30
  attempts : Nat := 3
  fallbackOnTimeout : Bool := true
  snippetMaxChars : Nat := 500
  snippetWindow : Nat := 100
deriving DecidableEq, Repr

def ResolverSettings.decode (r : Reading := .exact) : Decoder ResolverSettings := fun j => do
  let d : ResolverSettings := {}
  let ms ← record ["word_similarity_threshold", "memory_similarity_threshold", "relevance_threshold",
    "workflow_match_threshold", "clarification_timeout_secs", "max_clarification_attempts",
    "fallback_on_timeout", "snippet_max_chars", "snippet_window"] j
  return {
    word := ← defaulted ms "word_similarity_threshold" r.single d.word
    memory := ← defaulted ms "memory_similarity_threshold" r.single d.memory
    relevance := ← defaulted ms "relevance_threshold" r.single d.relevance
    workflowMatch := ← defaulted ms "workflow_match_threshold" r.single d.workflowMatch
    timeoutSeconds := ← defaulted ms "clarification_timeout_secs" (r.natural 64) d.timeoutSeconds
    attempts := ← defaulted ms "max_clarification_attempts" (r.natural 32) d.attempts
    fallbackOnTimeout := ← defaulted ms "fallback_on_timeout" r.flag d.fallbackOnTimeout
    snippetMaxChars := ← defaulted ms "snippet_max_chars" (r.natural 64) d.snippetMaxChars
    snippetWindow := ← defaulted ms "snippet_window" (r.natural 64) d.snippetWindow }

inductive EmbeddingBackend where
  | hashing | openai
deriving DecidableEq, Repr

def EmbeddingBackend.words : List (String × EmbeddingBackend) :=
  [("hashing", .hashing), ("openai", .openai)]

structure EmbeddingSettings where
  backend : EmbeddingBackend := .hashing
  model : Option String := none
  baseUrl : Option String := none
  /-- The environment variable that holds the key. -/
  keyVariable : String := "OPENAI_API_KEY"
  dimensions : Option Nat := none
  /-- With no capacity nothing is cached. -/
  cacheCapacity : Nat := 10000
  cacheSeconds : Nat := 3600
  requestSeconds : Nat := 30
deriving DecidableEq, Repr

def EmbeddingSettings.decode (r : Reading := .exact) : Decoder EmbeddingSettings := fun j => do
  let d : EmbeddingSettings := {}
  let ms ← record ["provider", "model", "base_url", "api_key_env", "dimensions", "cache_capacity",
    "cache_ttl_secs", "request_timeout_secs"] j
  return {
    backend := ← defaulted ms "provider" (r.choice EmbeddingBackend.words) d.backend
    model := ← possible ms "model" r.text
    baseUrl := ← possible ms "base_url" r.text
    keyVariable := ← defaulted ms "api_key_env" r.text d.keyVariable
    dimensions := ← possible ms "dimensions" (r.natural 64)
    cacheCapacity := ← defaulted ms "cache_capacity" (r.natural 64) d.cacheCapacity
    cacheSeconds := ← defaulted ms "cache_ttl_secs" (r.natural 64) d.cacheSeconds
    requestSeconds := ← defaulted ms "request_timeout_secs" (r.natural 64) d.requestSeconds }

inductive LogFormat where
  | pretty | json
deriving DecidableEq, Repr

def LogFormat.words : List (String × LogFormat) := [("pretty", .pretty), ("json", .json)]

structure LoggingSettings where
  level : String := "info"
  format : LogFormat := .pretty
deriving DecidableEq, Repr

def LoggingSettings.decode (r : Reading := .exact) : Decoder LoggingSettings := fun j => do
  let ms ← record ["level", "format"] j
  return {
    level := ← defaulted ms "level" r.text "info"
    format := ← defaulted ms "format" (r.choice LogFormat.words) .pretty }

structure Settings where
  logging : LoggingSettings := {}
  compiler : CompilerSettings := {}
  resolver : ResolverSettings := {}
  embedding : EmbeddingSettings := {}
  /-- The directory of the workflows. -/
  workflows : String := "workflows"
  /-- The file of remembered answers; without one they last as long as the program. -/
  memory : Option String := none
deriving DecidableEq, Repr

def Settings.decode (r : Reading := .exact) : Decoder Settings := fun j => do
  let ms ← record ["logging", "compiler", "resolver", "embedding", "registry", "memory"] j
  let directory : Decoder String := fun j => do
    defaulted (← record ["workflows_dir"] j) "workflows_dir" r.text "workflows"
  let path : Decoder (Option String) := fun j => do
    possible (← record ["path"] j) "path" r.text
  return {
    logging := ← defaulted ms "logging" (LoggingSettings.decode r) {}
    compiler := ← defaulted ms "compiler" (CompilerSettings.decode r) {}
    resolver := ← defaulted ms "resolver" (ResolverSettings.decode r) {}
    embedding := ← defaulted ms "embedding" (EmbeddingSettings.decode r) {}
    workflows := ← defaulted ms "registry" directory "workflows"
    memory := ← defaulted ms "memory" path none }

end GoalCompiler
