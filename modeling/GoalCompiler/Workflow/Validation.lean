import GoalCompiler.Workflow.Computed
import GoalCompiler.Workflow.Sequence

/-! What makes a workflow fit to be compiled, checked before any request. The first flaw found is told. -/
namespace GoalCompiler

/-- Names of simulated state; a condition would not see a parameter of the same name. -/
def stateKeys : List String := ["current_mode", "has_selection", "selected_count"]

def isWordChar (c : Char) : Bool := c.isAlphanum || c == '_' || c == '-'

/-- A name for a workflow: ASCII letters and digits, and after the first of them `_` and `-` too. -/
def isWorkflowName (s : String) : Bool :=
  match s.toList with
  | [] => false
  | c :: rest => c.isAlphanum && rest.all isWordChar

/-- A name for a parameter: an ASCII letter or `_`, then letters, digits and `_`. -/
def isIdentifier (s : String) : Bool :=
  match s.toList with
  | [] => false
  | c :: rest => (c.isAlpha || c == '_') && rest.all fun c => c.isAlphanum || c == '_'

def nameFlaw? (name : String) : Option DefinitionFlaw :=
  if name.isEmpty then some .emptyName
  else if maxNameLength < name.utf8ByteSize then some .longName
  else if isWorkflowName name then none
  else some .badName

/-- Refuses a text that is no name for a workflow. -/
def checkWorkflowName (name : String) : Except Failure Unit :=
  match nameFlaw? name with
  | some flaw => .error (.invalidWorkflow name flaw)
  | none => .ok ()

namespace Workflow

def require (w : Workflow) (condition : Bool) (flaw : DefinitionFlaw) : Except Failure Unit :=
  if condition then .ok () else .error (.invalidWorkflow w.name flaw)

def requireValue (w : Workflow) (r : Except ValueError Json) (flaw : ValueError → DefinitionFlaw) :
    Except Failure Unit :=
  match r with
  | .ok _ => .ok ()
  | .error e => .error (.invalidWorkflow w.name (flaw e))

def checkParameter (w : Workflow) (before : List Parameter) (p : Parameter) : Except Failure Unit := do
  w.require (isIdentifier p.name) (.parameterName p.name)
  w.require (!stateKeys.contains p.name) (.reservedParameter p.name)
  w.require (!before.any (·.name == p.name)) (.repeatedParameter p.name)
  match p.range with
  | some (least, greatest) => w.require (!(greatest < least)) (.emptyRange p.name least greatest)
  | none => pure ()
  if p.isComputed then pure () else w.requireValue (p.accept p.default) .parameterDefault

/-- Parameters are distinct, well named, and take their own defaults. -/
def checkParameters (w : Workflow) (before : List Parameter) : List Parameter → Except Failure Unit
  | [] => .ok ()
  | p :: rest => do
    w.checkParameter before p
    checkParameters w (before ++ [p]) rest

def checkDependencies (w : Workflow) : Except Failure Unit :=
  w.parameters.forM fun p => p.dependsOn.forM fun d =>
    w.require (w.parameter? d).isSome (.unknownDependency p.name d)

def checkModifier (w : Workflow) (m : Modifier) : Except Failure Unit := do
  w.require (!(Text.trim m.phrase).isEmpty) .blankPhrase
  m.values.forM fun (name, value) =>
    match w.parameter? name with
    | none => .error (.invalidWorkflow w.name (.unknownTarget m.phrase name))
    | some p => w.requireValue (p.accept value) (.modifierValue m.phrase)

def checkDefaults (w : Workflow) : Except Failure Unit :=
  w.defaults.forM fun (key, value) => do
    w.require (!stateKeys.contains key) (.reservedDefault key)
    match w.parameter? key with
    | none => pure ()
    | some p => w.requireValue (p.accept value) .defaultValue

/-- Loop variables are distinct names. -/
def checkVariables (label : String) (seen : List String) : List String → Except Failure Unit
  | [] => .ok ()
  | v :: rest =>
    if isIdentifier v && !seen.contains v then checkVariables label (v :: seen) rest
    else .error (.invalidLoop label (.badVariable v))

/-- A product has as many ranges as variables, and at least one. -/
def checkProduct (label : String) : Iteration → Except Failure Unit
  | .product names ranges =>
    if names.isEmpty || names.length != ranges.length then
      .error (.invalidLoop label (.unequal names.length ranges.length))
    else .ok ()
  | _ => .ok ()

def checkStep (w : Workflow) (s : Step) : Except Failure Unit := do
  w.require (!(Text.trim s.tool).isEmpty) (.noTool s.label)
  match s.loop with
  | none => pure ()
  | some l =>
    checkProduct s.label l.iteration
    checkVariables s.label [] l.names

/-- A step whose id is known before loops are unrolled. -/
def hasLiteralId (s : Step) : Bool :=
  s.loop.isNone && (s.id.map fun id => !id.toList.contains '{').getD false

def literalSteps (w : Workflow) : List Dependent :=
  (w.steps.filter hasLiteralId).map Step.dependent

/-- Everything that can be refused without a request. -/
def validate (w : Workflow) : Except Failure Unit := do
  checkWorkflowName w.name
  w.checkParameters [] w.parameters
  w.checkDependencies
  let _ ← ComputedParameter.inOrder w
  w.modifiers.forM w.checkModifier
  w.checkDefaults
  w.steps.forM w.checkStep
  match Dependent.cycle? w.literalSteps with
  | some path => throw (.cycle .steps path)
  | none => pure ()

end Workflow

end GoalCompiler
