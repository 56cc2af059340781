import GoalCompiler.Workflow.Bindings
import GoalCompiler.Workflow.Document

/-! Instructions: tool calls with all values settled, each with the sources of the values it was made of. -/
namespace GoalCompiler

structure Instruction where
  id : Option String := none
  tool : String
  params : Dict Json
  description : Option String := none
  timeout : Option Float := none
  maxRetries : Option Nat := none
  retryDelay : Option Float := none
  onFailure : FailurePolicy := .stop
  priority : Option Int := none
  /-- Where each variable that the step read had its value from. -/
  provenance : Dict Source := []
  extensions : Dict Json := []
deriving DecidableEq, Repr

namespace Instruction

open Decoder

def ofStep (s : Step) (provenance : Dict Source) : Instruction where
  id := s.id
  tool := s.tool
  params := s.params
  description := s.description
  timeout := s.timeout
  maxRetries := s.maxRetries
  retryDelay := s.retryDelay
  onFailure := s.onFailure
  priority := s.priority
  provenance := provenance
  extensions := s.extensions

def fieldNames : List String :=
  ["id", "tool", "params", "description", "timeout", "max_retries", "retry_delay", "on_failure",
   "priority", "provenance"]

def decode : Decoder Instruction
  | .obj ms => do
    return {
      id := ← possible ms "id" text
      tool := ← required ms "tool" text
      params := ← required ms "params" (dict any)
      description := ← possible ms "description" text
      timeout := ← possible ms "timeout" real
      maxRetries := ← possible ms "max_retries" (natural 32)
      retryDelay := ← possible ms "retry_delay" real
      onFailure := ← defaulted ms "on_failure" (oneOf FailurePolicy.words) .stop
      priority := ← possible ms "priority" (integer Int32.minValue.toInt Int32.maxValue.toInt)
      provenance := ← defaulted ms "provenance" (dict (oneOf Source.words)) []
      extensions := ← dict any (.obj (Step.unknown fieldNames ms)) }
  | _ => .error .shape

/-- The members in the order in which they are written. An extension may have the name of a field. -/
def fields (i : Instruction) : List (String × Json) :=
  Json.present "id" .str i.id ++ [("tool", .str i.tool), ("params", .obj i.params)] ++
    Json.present "description" .str i.description ++
    Json.present "timeout" .float i.timeout ++
    Json.present "max_retries" Json.ofNat i.maxRetries ++
    Json.present "retry_delay" .float i.retryDelay ++
    [("on_failure", .str i.onFailure.name)] ++
    Json.present "priority" .int i.priority ++
    [("provenance", .obj (Dict.mapValues (fun s : Source => .str s.name) i.provenance))] ++
    i.extensions

def toJson (i : Instruction) : Json := Json.ofMembers i.fields

end Instruction

end GoalCompiler
