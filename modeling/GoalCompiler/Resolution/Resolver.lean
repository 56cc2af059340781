import GoalCompiler.Resolution.Tier

/-! Resolution: every parameter that is neither given by the caller nor computed goes through the tiers and
takes the first answer. -/
namespace GoalCompiler

structure Resolution where
  bindings : Bindings := []
  unresolved : List Unresolved := []
deriving DecidableEq, Repr

namespace Resolution

def isComplete (r : Resolution) : Bool := r.unresolved.isEmpty

/-- Whether the parameter has a value that is no default. -/
def isSettled (r : Resolution) (name : String) : Bool :=
  match Bindings.source? r.bindings name with
  | none | some .default => false
  | some _ => true

/-- A value takes the place of nothing but a default. -/
def record (r : Resolution) (name : String) (b : Binding) : Resolution :=
  if r.isSettled name then r else { r with bindings := Dict.insert r.bindings name b }

/-- Adds what a tier said, apart from what the caller gave. -/
def add (r : Resolution) (given : Bindings) : Settlement → Resolution
  | .values entries source =>
    (entries.filter fun e => !given.isExplicit e.1).foldl
      (fun r (name, value) => r.record name ⟨value, source⟩) r
  | .unsettled u => { r with unresolved := r.unresolved ++ [u] }

end Resolution

variable {σ : Type}

/-- The tiers in the order in which they are asked. -/
def Tier.standard : List Tier := [.modifier, .learned, .fallback]

/-- The first answer of the tiers. -/
def Tier.firstAnswer (env : Services σ) (settings : ResolverSettings) (c : Case) (s : Session σ) :
    List Tier → Except Failure (Option Settlement) × Session σ
  | [] => (.ok none, s)
  | t :: rest =>
    match t.settle env settings c s with
    | (.ok none, s) => firstAnswer env settings c s rest
    | answer => answer

/-- What stays the same during a resolution. -/
structure Resolver (σ : Type) where
  services : Services σ
  settings : ResolverSettings := {}
  tiers : List Tier := Tier.standard

namespace Resolver

/-- Goes through the parameters as they are declared. -/
def resolveFrom (r : Resolver σ) (w : Workflow) (goal : Goal) (assignments : Dict Assignment)
    (given : Bindings) (done : Resolution) (s : Session σ) :
    List Parameter → Except Failure Resolution × Session σ
  | [] => (.ok done, s)
  | p :: rest =>
    if p.isComputed || given.isExplicit p.name || done.isSettled p.name then
      resolveFrom r w goal assignments given done s rest
    else
      match Tier.firstAnswer r.services r.settings ⟨w, p, goal, assignments⟩ s r.tiers with
      | (.error e, s) => (.error e, s)
      | (.ok none, s) => resolveFrom r w goal assignments given done s rest
      | (.ok (some answer), s) =>
        resolveFrom r w goal assignments given (done.add given answer) s rest

/-- The values of the parameters for a goal, and the parameters that are left open. -/
def resolve (r : Resolver σ) (w : Workflow) (goal : Goal) (given : Bindings) (s : Session σ) :
    Except Failure Resolution × Session σ :=
  match w.modifierOutcomes goal r.services.embedder r.settings.word with
  | .error e => (.error (.service e), s)
  | .ok outcomes =>
    let assignments := w.assignments (outcomes.filterMap ModifierOutcome.match?)
    r.resolveFrom w goal assignments given {} s w.parameters

end Resolver

end GoalCompiler
