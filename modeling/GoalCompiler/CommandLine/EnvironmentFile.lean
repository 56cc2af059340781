import GoalCompiler.CommandLine.Prompt
import GoalCompiler.Dict

/-! Variables of the environment in a file, one a line, as `name=value`. A value may be in quotes and may
name other variables after a dollar sign. What the environment has already stays; the first line that makes
no sense ends the reading. -/
namespace GoalCompiler.CommandLine.EnvironmentFile

/-! ### Lines -/

/-- Where in a line the reading is. -/
inductive Place where
  | plain | gap | escape | strong | strongEscape | weak | weakEscape
deriving DecidableEq, Repr

def Place.opened : Char → Place
  | '\\' => .escape
  | '"' => .weak
  | '\'' => .strong
  | _ => .plain

def Place.next (p : Place) (c : Char) : Place :=
  match p with
  | .gap => .opened c
  | .plain => if Text.isBlank c && c != '\n' && c != '\r' then .gap else .opened c
  | .escape => .plain
  | .weak => if c = '\\' then .weakEscape else if c = '"' then .plain else .weak
  | .weakEscape => .weak
  | .strong => if c = '\\' then .strongEscape else if c = '\'' then .plain else .strong
  | .strongEscape => .strong

/-- A line, which goes on while a quote is open, and what follows it. A comment starts after a blank. -/
def line? (p : Place) (kept : List Char) : List Char → Option (List Char × List Char)
  | [] => if p = .plain && !kept.isEmpty then some (kept.reverse, []) else none
  | c :: rest =>
    if p = .gap && c = '#' then some (kept.reverse, afterLine rest)
    else
      let next := p.next c
      if c = '\n' && next = .plain then some (kept.reverse, rest) else line? next (c :: kept) rest

/-- Whether there is only a comment on the line. -/
def isComment (cs : List Char) : Bool :=
  (cs.dropWhile fun c => Text.isBlank c && c != '\n').head? == some '#'

/-! ### Values -/

/-- Where in a value the reading is. -/
inductive Part where
  | plain
  | weak
  | strong
  | escape (quoted : Bool)
  /-- After a dollar sign, perhaps within braces; the name so far is in reverse order. -/
  | name (quoted braced : Bool) (name : List Char)
  /-- Only a comment may follow. -/
  | done

def Part.resume (quoted : Bool) : Part := if quoted then .weak else .plain

def valueOf (known : Dict String) (name : List Char) : List Char :=
  ((Dict.get? known (String.ofList name.reverse)).getD "").toList

def unescape? : Char → Option Char
  | 'n' => some '\n'
  | c => if ['\\', '\'', '"', '$', ' '].contains c then some c else none

/-- The value that a text stands for. -/
def value? (known : Dict String) (out : List Char) (p : Part) : List Char → Option String
  | [] =>
    match p with
    | .plain | .done | .escape false => some (String.ofList out)
    | .name false false name => some (String.ofList (out ++ valueOf known name))
    | _ => none
  | c :: rest =>
    match p with
    | .done =>
      if c = ' ' || c = '\t' then value? known out .done rest
      else if c = '#' then some (String.ofList out)
      else none
    | .escape quoted =>
      match unescape? c with
      | some c => value? known (out ++ [c]) (.resume quoted) rest
      | none => none
    | .strong => if c = '\'' then value? known out .plain rest else value? known (out ++ [c]) .strong rest
    | .name quoted braced name =>
      if Text.isAlphanumeric c then value? known out (.name quoted braced (c :: name)) rest
      else if braced then
        if c = '}' then value? known (out ++ valueOf known name) (.resume quoted) rest
        else value? known out (.name quoted true (c :: name)) rest
      else if c = '{' && name.isEmpty then value? known out (.name quoted true []) rest
      else if c = '$' then value? known (out ++ valueOf known name) (.name quoted false []) rest
      else value? known (out ++ valueOf known name ++ [c]) (.resume quoted) rest
    | .weak =>
      if c = '$' then value? known out (.name true false []) rest
      else if c = '"' then value? known out .plain rest
      else if c = '\\' then value? known out (.escape true) rest
      else value? known (out ++ [c]) .weak rest
    | .plain =>
      match c with
      | '$' => value? known out (.name false false []) rest
      | '\'' => value? known out .strong rest
      | '"' => value? known out .weak rest
      | '\\' => value? known out (.escape false) rest
      | ' ' | '\t' => value? known out .done rest
      | c => value? known (out ++ [c]) .plain rest

/-! ### Entries -/

def skipBlanks (cs : List Char) : List Char := cs.dropWhile Text.isBlank

def startsKey (c : Char) : Bool := c.isAlpha || c == '_'

def continuesKey (c : Char) : Bool := c.isAlphanum || c == '_' || c == '.'

/-- The key at the front and the text after the blanks behind it. -/
def key? (cs : List Char) : Option (List Char × List Char) :=
  if (cs.head?.map startsKey).getD false then
    some (cs.takeWhile continuesKey, skipBlanks (cs.dropWhile continuesKey))
  else none

/-- A key and the text after its equals sign. A word in front may say that the variable is for all. -/
def assignment? (cs : List Char) : Option (List Char × List Char) :=
  match key? cs with
  | some (key, '=' :: rest) => some (key, rest)
  | some (['e', 'x', 'p', 'o', 'r', 't'], rest) =>
    match key? rest with
    | some (key, '=' :: rest) => some (key, rest)
    | _ => none
  | _ => none

/-- The variable of a line with something in it. -/
def entry? (known : Dict String) (cs : List Char) : Option (String × String) := do
  let (key, rest) ← assignment? cs
  match skipBlanks rest with
  | [] | '#' :: _ => return (String.ofList key, "")
  | text => return (String.ofList key, ← value? known [] .plain text)

/-- Adds a variable that the environment has not got. -/
def add (environment : Dict String) (e : String × String) : Dict String :=
  if Dict.contains environment e.1 then environment else Dict.insert environment e.1 e.2

/-- Adds the variables of the lines, at most `n` of them. The variables of lines before count in values
where the environment has none of the name. -/
def addLines (environment seen : Dict String) (cs : List Char) : Nat → Dict String
  | 0 => environment
  | n + 1 =>
    if isComment cs then addLines environment seen (afterLine (cs.dropWhile (· != '\n'))) n
    else
      match line? .plain [] cs with
      | none => environment
      | some (line, rest) =>
        match Text.trimChars line with
        | [] | '#' :: _ => addLines environment seen rest n
        | text =>
          match entry? (Dict.update seen environment) text with
          | none => environment
          | some e => addLines (add environment e) (Dict.insert seen e.1 e.2) rest n

/-- The environment with the variables of a file. -/
def read (environment : Dict String) (content : String) : Dict String :=
  let cs := match content.toList with
    | c :: rest => if c.toNat = 0xFEFF then rest else c :: rest
    | [] => []
  addLines environment [] cs (cs.length + 1)

end GoalCompiler.CommandLine.EnvironmentFile
