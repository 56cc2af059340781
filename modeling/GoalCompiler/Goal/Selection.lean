import GoalCompiler.Goal.Analysis
import GoalCompiler.Registry

/-! The workflow that a goal asks for: one with a trigger in the goal, else the one whose name and
description are nearest to the goal, if it is near enough. -/
namespace GoalCompiler

inductive Reason where
  | trigger
  | similarity (s : Float32)
deriving DecidableEq, Repr

namespace Workflow

/-- The text that stands for a workflow. -/
def summary (w : Workflow) : String :=
  Text.trim (String.ofList (w.name.toList.map fun c => if c == '_' then ' ' else c) ++ " " ++
    w.description)

end Workflow

namespace Registry

def withVectors (r : Registry) (embedder : Embedder) :
    Except ServiceError (List (Workflow × Embedding)) :=
  r.workflows.mapM fun w => (embedder.embed w.summary).map fun v => (w, v)

def select (r : Registry) (goal : Goal) (embedder : Embedder) (threshold : Float32) :
    Except ServiceError (Option (Workflow × Reason)) :=
  match r.triggered? goal.text with
  | some w => .ok (some (w, .trigger))
  | none => do
    match goal.vector.nearest? (← r.withVectors embedder) with
    | some (w, s) => return if threshold ≤ s then some (w, .similarity s) else none
    | none => return none

end Registry

end GoalCompiler
