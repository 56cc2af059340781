import GoalCompiler.Expression.Evaluation
import GoalCompiler.Json.Writer

/-! Texts with placeholders. A name in braces stands for the text of a variable; a doubled brace stands for
one brace. A template is read into segments, and filling it goes through them from the left. -/
namespace GoalCompiler

/-- Why a text is no template. -/
inductive TemplateFlaw where
  | unclosed
  | notName (text : String)
  | loneClosing
deriving DecidableEq, Repr

def TemplateFlaw.message : TemplateFlaw → String
  | .unclosed => "unclosed '\x7b'"
  | .notName text => "'" ++ text ++ "' is not a variable name"
  | .loneClosing => "single '\x7d' must be escaped as '\x7d\x7d'"

inductive Segment where
  | char (c : Char)
  | slot (name : String)
  /-- Nothing is read past a flaw, which stands `position` characters into the template. -/
  | flaw (position : Nat) (cause : TemplateFlaw)
deriving DecidableEq, Repr

namespace Segment

/-- The segments of a template whose first character is at `position`. -/
def read (position : Nat) (cs : List Char) : List Segment :=
  match cs with
  | [] => []
  | '{' :: '{' :: rest => .char '{' :: read (position + 2) rest
  | '}' :: '}' :: rest => .char '}' :: read (position + 2) rest
  | '{' :: rest =>
    match h : rest.dropWhile (· != '}') with
    | [] => [.flaw position .unclosed]
    | _ :: after =>
      have : after.length < rest.length := by
        have := (List.dropWhile_sublist (l := rest) (· != '}')).length_le
        rw [h, List.length_cons] at this
        omega
      let inside := rest.takeWhile (· != '}')
      let name := Text.trim (String.ofList inside)
      if Text.isName name then .slot name :: read (position + inside.length + 2) after
      else [.flaw position (.notName name)]
  | '}' :: _ => [.flaw position .loneClosing]
  | c :: rest => .char c :: read (position + 1) rest
termination_by cs.length

end Segment

inductive TemplateFault where
  | unresolved (name : String)
  | malformed (position : Nat) (cause : TemplateFlaw)
deriving DecidableEq, Repr

/-- A fault together with the template that has it. -/
structure TemplateError where
  fault : TemplateFault
  template : String
deriving DecidableEq, Repr

def TemplateError.message (e : TemplateError) : String :=
  match e.fault with
  | .unresolved name => "Unresolved placeholder '\x7b" ++ name ++ "\x7d' in '" ++ e.template ++ "'"
  | .malformed position cause =>
    "Malformed template '" ++ e.template ++ s!"' at position {position}: " ++ cause.message

/-- A text with the names that it was made from. -/
structure Filled where
  text : String
  referenced : NameSet
deriving DecidableEq, Repr

namespace Template

open Expression (Scope)

def hasPlaceholders (template : String) : Bool :=
  template.toList.any fun c => c == '{' || c == '}'

/-- A value as it reads inside a text: a text is itself, any other value is written as a document. -/
def valueText : Json → String
  | .str s => s
  | j => j.write

/-- The text of the segments, in order; the first that has none ends it. -/
def fillSegments (scope : Scope) (text : String) (referenced : NameSet) :
    List Segment → Except TemplateFault Filled
  | [] => .ok ⟨text, referenced⟩
  | .char c :: rest => fillSegments scope (text.push c) referenced rest
  | .slot name :: rest =>
    match scope name with
    | some j => fillSegments scope (text ++ valueText j) (NameSet.insert referenced name) rest
    | none => .error (.unresolved name)
  | .flaw position cause :: _ => .error (.malformed position cause)

/-- The template with every placeholder replaced from the scope. -/
def fill (scope : Scope) (template : String) : Except TemplateError Filled :=
  (fillSegments scope "" [] (Segment.read 0 template.toList)).mapError fun fault => ⟨fault, template⟩

end Template

/-- What a text in the place of a value asks for. -/
inductive Request where
  /-- The value of an expression. -/
  | calculate (body : String)
  /-- The value of a variable. -/
  | reference (name : String)
  | none
deriving DecidableEq, Repr

namespace Request

/-- The text between the brackets of `$CALCULATE( )`, when that is all there is. -/
def calculateBody? (text : String) : Option String :=
  let opening := "$CALCULATE(".toList
  let cs := Text.trimChars text.toList
  if opening.isPrefixOf cs then
    match (cs.drop opening.length).reverse with
    | ')' :: body => some (String.ofList body.reverse)
    | _ => Option.none
  else Option.none

/-- An ASCII letter or low line. -/
def startsReference (c : Char) : Bool := c.isAlpha || c == '_'

/-- The name after a dollar sign, when that is all there is. -/
def referenceName? (text : String) : Option String :=
  match Text.trimChars text.toList with
  | '$' :: c :: rest =>
    if startsReference c && rest.all (fun c => startsReference c || c.isDigit) then
      some (String.ofList (c :: rest))
    else Option.none
  | _ => Option.none

def ofText (text : String) : Request :=
  match calculateBody? text, referenceName? text with
  | some body, _ => .calculate body
  | Option.none, some name => .reference name
  | Option.none, Option.none => .none

end Request

end GoalCompiler
