import GoalCompiler.Expression.Arithmetic
import GoalCompiler.Expression.Function
import GoalCompiler.Expression.Grammar

/-! The value of an expression. Names are looked up in a scope; a name that the scope does not bind is a
fault, and operands that the value does not hang on are not looked at. -/
namespace GoalCompiler.Expression

/-- What names stand for. -/
abbrev Scope := String → Option Json

def Scope.ofDict (m : Dict Json) : Scope := Dict.get? m

/-- Two scopes of which the first hides the second. -/
def Scope.over (top base : Scope) : Scope := fun name => (top name).or (base name)

def ofValue (name : String) (j : Json) : Except Fault Scalar :=
  match Scalar.ofJson? j, j with
  | some s, _ => .ok s
  | none, .null => .error (.type (.null name))
  | none, _ => .error (.type (.notScalar name))

def lookUp (scope : Scope) (name : String) : Except Fault Scalar :=
  match scope name with
  | some j => ofValue name j
  | none => .error (.unknownSymbol name)

mutual

def eval (scope : Scope) : Expr → Except Fault Scalar
  | .int n => .ok (.int n)
  | .float x => .ok (.float x)
  | .str s => .ok (.str s)
  | .bool b => .ok (.bool b)
  | .ident name => lookUp scope name
  | .neg e => (eval scope e).bind negate
  | .not e => (eval scope e).map fun v => .bool !v.truthy
  | .binary op l r =>
    (eval scope l).bind fun a => (eval scope r).bind fun b => calculate op a b
  | .compare first rest => (eval scope first).bind fun a => evalChain scope a rest
  | .and l r =>
    (eval scope l).bind fun a =>
      if a.truthy then (eval scope r).map fun b => .bool b.truthy else .ok (.bool false)
  | .or l r =>
    (eval scope l).bind fun a =>
      if a.truthy then .ok (.bool true) else (eval scope r).map fun b => .bool b.truthy
  | .ifElse c t e =>
    (eval scope c).bind fun a => if a.truthy then eval scope t else eval scope e
  | .call function args =>
    match Function.ofName? function with
    | none => .error (.unknownFunction function)
    | some f => (evalArgs scope args).bind f.apply

/-- A chain holds if each of its comparisons does; the first that does not ends it. -/
def evalChain (scope : Scope) (left : Scalar) : List (Comparison × Expr) → Except Fault Scalar
  | [] => .ok (.bool true)
  | (op, e) :: rest =>
    (eval scope e).bind fun right =>
      (compareBy op left right).bind fun holds =>
        if holds then evalChain scope right rest else .ok (.bool false)

def evalArgs (scope : Scope) : List Expr → Except Fault (List Scalar)
  | [] => .ok []
  | e :: rest => (eval scope e).bind fun v => (evalArgs scope rest).map (v :: ·)

end

/-- An expression that was read, with its text. -/
structure Compiled where
  source : String
  tree : Expr

namespace Compiled

def read (source : String) : Except Error Compiled :=
  match Expression.read source with
  | .ok tree => .ok ⟨source, tree⟩
  | .error (position, cause) => .error ⟨.syntaxError position cause, source⟩

def identifiers (c : Compiled) : NameSet := c.tree.identifiers

def value (c : Compiled) (scope : Scope) : Except Error Scalar :=
  (eval scope c.tree).mapError fun fault => ⟨fault, c.source⟩

/-- A condition is true or false and nothing else. -/
def holds (c : Compiled) (scope : Scope) : Except Error Bool :=
  match c.value scope with
  | .ok (.bool b) => .ok b
  | .ok s => .error ⟨.type (.notCondition s.kind), c.source⟩
  | .error e => .error e

end Compiled

def evaluate (source : String) (scope : Scope) : Except Error Scalar :=
  (Compiled.read source).bind (·.value scope)

def evaluateCondition (source : String) (scope : Scope) : Except Error Bool :=
  (Compiled.read source).bind (·.holds scope)

end GoalCompiler.Expression
