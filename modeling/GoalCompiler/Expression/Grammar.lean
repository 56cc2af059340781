import GoalCompiler.Expression.Token
import GoalCompiler.Expression.Tree

/-! Reading tokens as an expression. From the loosest binding to the tightest:

    conditional  disjunction ("if" disjunction "else" conditional)?
    disjunction  conjunction ("or" conjunction)*
    conjunction  comparison ("and" comparison)*
    comparison   sum (("<" | "<=" | ">" | ">=" | "==" | "!=") sum)*
    sum          product (("+" | "-") product)*
    product      power (("*" | "/" | "%") power)*
    power        unary ("**" power)?
    unary        ("-" | "+" | "not") unary | atom
    atom         number | text | truth value | name | name "(" arguments ")" | "(" conditional ")"

Each bracket, sign, branch and fold costs one level of nesting while it is read. `Levels` holds the
readers at one depth, and `layer` makes them from the readers one level deeper. -/
namespace GoalCompiler.Expression

/-- What was wrong and where: `none` is the end of the text. -/
structure Refusal where
  position : Option Nat
  cause : Misreading
deriving DecidableEq, Repr

/-- A value read off the front of the tokens. -/
structure Taken (α : Type) (ts : List Placed) where
  value : α
  rest : List Placed
  shorter : rest.length < ts.length

/-- A value that may have taken more tokens, or none. -/
structure Extended (α : Type) (ts : List Placed) where
  value : α
  rest : List Placed
  notLonger : rest.length ≤ ts.length

abbrev Reading := (ts : List Placed) → Except Refusal (Taken Expr ts)

abbrev Extension := Expr → (ts : List Placed) → Except Refusal (Extended Expr ts)

def refuse (ts : List Placed) (cause : Misreading) : Except Refusal α :=
  .error ⟨ts.head?.map Placed.position, cause⟩

structure Levels where
  conditional : Reading
  conjunction : Reading
  comparison : Reading
  product : Reading
  power : Reading
  unary : Reading
  disjuncts : Extension
  conjuncts : Extension
  summands : Extension
  factors : Extension

/-- Below the last level nothing is read. -/
def Levels.floor : Levels where
  conditional ts := refuse ts .tooDeep
  conjunction ts := refuse ts .tooDeep
  comparison ts := refuse ts .tooDeep
  product ts := refuse ts .tooDeep
  power ts := refuse ts .tooDeep
  unary ts := refuse ts .tooDeep
  disjuncts _ ts := refuse ts .tooDeep
  conjuncts _ ts := refuse ts .tooDeep
  summands _ ts := refuse ts .tooDeep
  factors _ ts := refuse ts .tooDeep

def Token.asFactor : Token → Option Operator
  | .star => some .mul
  | .slash => some .div
  | .percent => some .mod
  | _ => none

def Token.asSummand : Token → Option Operator
  | .plus => some .add
  | .minus => some .sub
  | _ => none

def Token.asComparison : Token → Option Comparison
  | .less => some .lt
  | .atMost => some .le
  | .greater => some .gt
  | .atLeast => some .ge
  | .equal => some .eq
  | .unequal => some .ne
  | _ => none

/-- A reading whose first token was taken already. -/
def Taken.after {t : Placed} {ts : List Placed} (r : Taken α ts) (f : α → β) : Taken β (t :: ts) :=
  ⟨f r.value, r.rest, Nat.lt_succ_of_lt r.shorter⟩

/-- One wanted token off the front. -/
def expect (wanted : Token) (ts : List Placed) : Except Refusal (Taken Unit ts) :=
  match ts with
  | ⟨t, _⟩ :: rest =>
    if t = wanted then .ok ⟨(), rest, Nat.lt_succ_self _⟩
    else refuse ts (.expected wanted (some t))
  | [] => refuse ts (.expected wanted none)

/-- A reading, then what extends it. -/
def Reading.thenExtend (first : Reading) (more : Extension) : Reading := fun ts =>
  match first ts with
  | .error e => .error e
  | .ok a =>
    match more a.value a.rest with
    | .error e => .error e
    | .ok b => .ok ⟨b.value, b.rest, Nat.lt_of_le_of_lt b.notLonger a.shorter⟩

/-- A fold: while the token at the front is such an operator, one more operand is taken to the right, one
level deeper each time. -/
def fold (operator : Token → Option (Expr → Expr → Expr)) (operand : Reading) (more : Extension) :
    Extension := fun left ts =>
  match ts with
  | [] => .ok ⟨left, [], Nat.le_refl _⟩
  | t :: rest =>
    match operator t.token with
    | none => .ok ⟨left, t :: rest, Nat.le_refl _⟩
    | some join =>
      match operand rest with
      | .error e => .error e
      | .ok right =>
        match more (join left right.value) right.rest with
        | .error e => .error e
        | .ok b =>
          .ok ⟨b.value, b.rest, Nat.le_succ_of_le (Nat.le_trans b.notLonger (Nat.le_of_lt right.shorter))⟩

/-- The comparisons that follow an operand. They chain at one level. -/
def comparisons (operand : Reading) (ts : List Placed) :
    Except Refusal (Extended (List (Comparison × Expr)) ts) :=
  match ts with
  | [] => .ok ⟨[], [], Nat.le_refl _⟩
  | t :: rest =>
    match t.token.asComparison with
    | none => .ok ⟨[], t :: rest, Nat.le_refl _⟩
    | some op =>
      match operand rest with
      | .error e => .error e
      | .ok a =>
        have := a.shorter
        match comparisons operand a.rest with
        | .error e => .error e
        | .ok b =>
          .ok ⟨(op, a.value) :: b.value, b.rest,
            Nat.le_succ_of_le (Nat.le_trans b.notLonger (Nat.le_of_lt a.shorter))⟩
termination_by ts.length

/-- Arguments up to the closing bracket; there is at least one. -/
def arguments (argument : Reading) (ts : List Placed) : Except Refusal (Taken (List Expr) ts) :=
  match argument ts with
  | .error e => .error e
  | .ok a =>
    match h : a.rest with
    | ⟨.comma, _⟩ :: rest =>
      have shorter : rest.length < ts.length := by
        have := a.shorter
        rw [h] at this
        exact Nat.lt_of_succ_lt this
      match arguments argument rest with
      | .error e => .error e
      | .ok b => .ok ⟨a.value :: b.value, b.rest, Nat.lt_trans b.shorter shorter⟩
    | _ =>
      match expect .closing a.rest with
      | .error e => .error e
      | .ok b => .ok ⟨[a.value], b.rest, Nat.lt_trans b.shorter a.shorter⟩
termination_by ts.length

/-- Expressions that begin and end with tokens of their own. -/
def atom (inner : Reading) : Reading := fun ts =>
  match ts with
  | [] => refuse [] .unexpectedEnd
  | ⟨.int n, _⟩ :: rest => .ok ⟨.int n, rest, Nat.lt_succ_self _⟩
  | ⟨.float x, _⟩ :: rest => .ok ⟨.float x, rest, Nat.lt_succ_self _⟩
  | ⟨.str s, _⟩ :: rest => .ok ⟨.str s, rest, Nat.lt_succ_self _⟩
  | ⟨.yes, _⟩ :: rest => .ok ⟨.bool true, rest, Nat.lt_succ_self _⟩
  | ⟨.no, _⟩ :: rest => .ok ⟨.bool false, rest, Nat.lt_succ_self _⟩
  | ⟨.ident f, _⟩ :: ⟨.opening, _⟩ :: ⟨.closing, _⟩ :: rest =>
    .ok ⟨.call f [], rest, by simp only [List.length_cons]; omega⟩
  | ⟨.ident f, _⟩ :: ⟨.opening, _⟩ :: rest =>
    match arguments inner rest with
    | .error e => .error e
    | .ok args => .ok ((args.after (.call f)).after id)
  | ⟨.ident name, _⟩ :: rest => .ok ⟨.ident name, rest, Nat.lt_succ_self _⟩
  | ⟨.opening, _⟩ :: rest =>
    match inner rest with
    | .error e => .error e
    | .ok a =>
      match expect .closing a.rest with
      | .error e => .error e
      | .ok b => .ok ⟨a.value, b.rest, Nat.lt_succ_of_lt (Nat.lt_trans b.shorter a.shorter)⟩
  | t :: rest => refuse (t :: rest) (.unexpected t.token)

/-- Signs before an operand; a plus changes nothing. -/
def signed (operand inner : Reading) : Reading := fun ts =>
  match ts with
  | ⟨.minus, _⟩ :: rest => (operand rest).map (·.after .neg)
  | ⟨.not, _⟩ :: rest => (operand rest).map (·.after .not)
  | ⟨.plus, _⟩ :: rest => (operand rest).map (·.after id)
  | ts => atom inner ts

/-- A base and, to the right, its exponent. -/
def raised (base exponent : Reading) : Reading :=
  base.thenExtend fun left ts =>
    match ts with
    | ⟨.power, _⟩ :: rest =>
      match exponent rest with
      | .error e => .error e
      | .ok a => .ok ⟨.binary .pow left a.value, a.rest, Nat.le_succ_of_le (Nat.le_of_lt a.shorter)⟩
    | ts => .ok ⟨left, ts, Nat.le_refl _⟩

/-- A single operand is no comparison. -/
def compared (operand : Reading) : Reading :=
  operand.thenExtend fun first ts =>
    (comparisons operand ts).map fun r =>
      ⟨if r.value.isEmpty then first else .compare first r.value, r.rest, r.notLonger⟩

/-- An expression that may choose between two others. -/
def chosen (operand otherwise : Reading) : Reading :=
  operand.thenExtend fun whenTrue ts =>
    match ts with
    | ⟨.ifWord, _⟩ :: rest =>
      match operand rest with
      | .error e => .error e
      | .ok condition =>
        match expect .elseWord condition.rest with
        | .error e => .error e
        | .ok word =>
          match otherwise word.rest with
          | .error e => .error e
          | .ok a =>
            .ok ⟨.ifElse condition.value whenTrue a.value, a.rest, by
              have := condition.shorter
              have := word.shorter
              have := a.shorter
              simp only [List.length_cons]
              omega⟩
    | ts => .ok ⟨whenTrue, ts, Nat.le_refl _⟩

/-- The readers at one depth from those one level deeper. -/
def Levels.layer (d : Levels) : Levels :=
  let unary := signed d.unary d.conditional
  let power := raised unary d.power
  let factors := fold (fun t => t.asFactor.map Expr.binary) d.power d.factors
  let product := power.thenExtend factors
  let summands := fold (fun t => t.asSummand.map Expr.binary) d.product d.summands
  let sum := product.thenExtend summands
  let comparison := compared sum
  let conjuncts := fold (fun t => if t = .and then some .and else none) d.comparison d.conjuncts
  let conjunction := comparison.thenExtend conjuncts
  let disjuncts := fold (fun t => if t = .or then some .or else none) d.conjunction d.disjuncts
  let disjunction := conjunction.thenExtend disjuncts
  let conditional := chosen disjunction d.conditional
  { conditional, conjunction, comparison, product, power, unary, disjuncts, conjuncts, summands, factors }

/-- The readers from which `n` more levels can be opened. -/
def Levels.at : Nat → Levels
  | 0 => Levels.floor.layer
  | n + 1 => (Levels.at n).layer

/-- Reads all tokens as one expression. The expression itself is the first level. -/
def ofTokens (ts : List Placed) : Except Refusal Expr :=
  if ts.isEmpty then .error ⟨some 0, .empty⟩
  else
    match (Levels.at (maxNesting - 1)).conditional ts with
    | .error e => .error e
    | .ok r =>
      match r.rest with
      | [] => .ok r.value
      | t :: rest => refuse (t :: rest) (.unexpected t.token)

/-- Reads a text as an expression; a refusal names a position in the text. -/
def read (source : String) : Except (Nat × Misreading) Expr :=
  match Token.tokens source with
  | .error e => .error e
  | .ok ts =>
    match ofTokens ts with
    | .error r => .error (r.position.getD source.length, r.cause)
    | .ok e => .ok e

end GoalCompiler.Expression
