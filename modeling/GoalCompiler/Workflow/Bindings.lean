import GoalCompiler.Expression.Evaluation

/-! The variables of one request: what each name is bound to and where the value comes from. A value that
the caller gave is replaced by nothing but another one that the caller gave. -/
namespace GoalCompiler

inductive Source where
  | explicit | default | computed | modifier | learned | clarified | loop
deriving DecidableEq, Repr

def Source.name : Source → String
  | .explicit => "explicit"
  | .default => "default"
  | .computed => "computed"
  | .modifier => "modifier"
  | .learned => "learned"
  | .clarified => "clarified"
  | .loop => "loop"

def Source.words : List (String × Source) :=
  [("explicit", .explicit), ("default", .default), ("computed", .computed), ("modifier", .modifier),
   ("learned", .learned), ("clarified", .clarified), ("loop", .loop)]

structure Binding where
  value : Json
  source : Source
deriving DecidableEq, Repr

abbrev Bindings := Dict Binding

namespace Bindings

def value? (b : Bindings) (name : String) : Option Json := (Dict.get? b name).map Binding.value

def source? (b : Bindings) (name : String) : Option Source := (Dict.get? b name).map Binding.source

def isExplicit (b : Bindings) (name : String) : Bool := source? b name == some .explicit

/-- Whether a value from this source takes effect. -/
def admits (b : Bindings) (name : String) (source : Source) : Bool :=
  !isExplicit b name || source == .explicit

/-- Binds the name, unless the caller bound it and the source is another one. -/
def bind (b : Bindings) (name : String) (value : Json) (source : Source) : Bindings :=
  if admits b name source then Dict.insert b name ⟨value, source⟩ else b

def scope (b : Bindings) : Expression.Scope := value? b

def valueDict (b : Bindings) : Dict Json := Dict.mapValues Binding.value b

def sourceDict (b : Bindings) : Dict Source := Dict.mapValues Binding.source b

theorem bind_of_explicit {b : Bindings} {name : String} {value : Json} {source : Source}
    (h : isExplicit b name) (hs : source ≠ .explicit) : bind b name value source = b := by
  simp [bind, admits, h, hs]

theorem value?_bind_self {b : Bindings} {name : String} {value : Json} {source : Source}
    (h : admits b name source) : value? (bind b name value source) name = some value := by
  simp [bind, h, value?, Dict.get?_insert_self]

theorem value?_bind_of_ne {b : Bindings} {name other : String} {value : Json} {source : Source}
    (h : other ≠ name) : value? (bind b name value source) other = value? b other := by
  unfold bind
  split
  · simp [value?, Dict.get?_insert_of_ne _ _ h]
  · rfl

end Bindings

end GoalCompiler
