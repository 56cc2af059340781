import GoalCompiler.Json.Value

/-! Tables while a file is read. A header declares a table or adds one to a list of tables; a dotted key
makes tables on its way, which no header may declare and no other key may reopen. -/
namespace GoalCompiler.Toml

/-- How a table came to be there. -/
inductive Standing where
  /-- On the way of a header. -/
  | implied
  | declared
  /-- On the way of a dotted key. -/
  | dotted
deriving DecidableEq, Repr

inductive Node where
  | value (j : Json)
  | table (standing : Standing) (members : List (String × Node))
  /-- The last one is still being read. -/
  | tables (before : List (List (String × Node))) (last : List (String × Node))

abbrev Members := List (String × Node)

namespace Members

def get? (ms : Members) (key : String) : Option Node := List.lookup key ms

def put (ms : Members) (key : String) (n : Node) : Members :=
  (key, n) :: ms.filter (·.1 != key)

/-- Changes the table at the end of a path. Tables that are not there are made, with the standing `made`;
one that a header declared is no way for a dotted key. -/
def at? (made : Standing) (change : Standing → Members → Option Members) (here : Standing) (ms : Members) :
    List String → Option Members
  | [] => change here ms
  | key :: rest =>
    match get? ms key with
    | none => (at? made change made [] rest).map fun sub => put ms key (.table made sub)
    | some (.table standing sub) =>
      if made == .dotted && standing == .declared then none
      else (at? made change standing sub rest).map fun sub => put ms key (.table standing sub)
    | some (.tables before last) =>
      (at? made change .declared last rest).map fun last => put ms key (.tables before last)
    | some (.value _) => none

/-- Adds a value that is not there yet. -/
def add? (key : String) (j : Json) (ms : Members) : Option Members :=
  match get? ms key with
  | none => some (put ms key (.value j))
  | some _ => none

/-- Sets a dotted key below a table. All but the first table on the way belong to dotted keys. -/
def set? (ms : Members) (path : List String) (j : Json) : Option Members :=
  match path.getLast? with
  | none => none
  | some key =>
    let change (here : Standing) (ms : Members) : Option Members :=
      if path.length = 1 || here == .dotted then add? key j ms else none
    at? .dotted change .declared ms path.dropLast

/-- Opens the table of a header. -/
def declare? (ms : Members) (path : List String) : Option Members :=
  match path.getLast? with
  | none => none
  | some key =>
    let change (_ : Standing) (ms : Members) : Option Members :=
      match get? ms key with
      | none => some (put ms key (.table .declared []))
      | some (.table .implied sub) => some (put ms key (.table .declared sub))
      | _ => none
    at? .implied change .declared ms path.dropLast

/-- Opens one more table in the list of a header. -/
def append? (ms : Members) (path : List String) : Option Members :=
  match path.getLast? with
  | none => none
  | some key =>
    let change (_ : Standing) (ms : Members) : Option Members :=
      match get? ms key with
      | none => some (put ms key (.tables [] []))
      | some (.tables before last) => some (put ms key (.tables (before ++ [last]) []))
      | _ => none
    at? .implied change .declared ms path.dropLast

/-- Sets a dotted key below the table of a header. -/
def setIn? (ms : Members) (header path : List String) (j : Json) : Option Members :=
  at? .implied (fun _ ms => set? ms path j) .declared ms header

end Members

mutual

def Node.document : Node → Json
  | .value j => j
  | .table _ ms => Json.ofMembers (documents ms)
  | .tables before last => .arr (tableDocuments before ++ [Json.ofMembers (documents last)])

def documents : List (String × Node) → List (String × Json)
  | [] => []
  | (key, n) :: rest => (key, n.document) :: documents rest

def tableDocuments : List (List (String × Node)) → List Json
  | [] => []
  | ms :: rest => Json.ofMembers (documents ms) :: tableDocuments rest

end

def Members.document (ms : Members) : Json := Json.ofMembers (documents ms)

end GoalCompiler.Toml
