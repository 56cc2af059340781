import GoalCompiler.Expression.Template
import GoalCompiler.ServiceError
import GoalCompiler.Workflow.Basic

/-! What can stop a compilation. -/
namespace GoalCompiler

/-- Why a workflow is refused before any request. -/
inductive DefinitionFlaw where
  | emptyName
  | longName
  | badName
  | parameterName (parameter : String)
  | reservedParameter (parameter : String)
  | repeatedParameter (parameter : String)
  | emptyRange (parameter : String) (least greatest : Float)
  | parameterDefault (cause : ValueError)
  | unknownDependency (parameter dependency : String)
  | blankPhrase
  | unknownTarget (phrase parameter : String)
  | modifierValue (phrase : String) (cause : ValueError)
  | reservedDefault (key : String)
  | defaultValue (cause : ValueError)
  | noTool (step : String)
  | repeatedName
deriving DecidableEq, Repr

/-- The greatest length of a workflow's name, in bytes. -/
def maxNameLength : Nat := 100

def DefinitionFlaw.message : DefinitionFlaw → String
  | .emptyName => "Workflow name cannot be empty"
  | .longName => s!"Workflow name exceeds maximum length of {maxNameLength} characters"
  | .badName => "must be alphanumeric with underscores or hyphens, starting with alphanumeric"
  | .parameterName p => "parameter name '" ++ p ++ "' is not an identifier"
  | .reservedParameter p => "parameter name '" ++ p ++ "' is reserved for simulated state"
  | .repeatedParameter p => "parameter '" ++ p ++ "' declared twice"
  | .emptyRange p least greatest =>
    "parameter '" ++ p ++ "' has range [" ++ writeBound least ++ ", " ++ writeBound greatest ++
      "] with min > max"
  | .parameterDefault cause => "default: " ++ cause.message
  | .unknownDependency p d => "parameter '" ++ p ++ "' depends on undeclared parameter '" ++ d ++ "'"
  | .blankPhrase => "modifier phrase cannot be empty"
  | .unknownTarget phrase p => "modifier '" ++ phrase ++ "' sets undeclared parameter '" ++ p ++ "'"
  | .modifierValue phrase cause => "modifier '" ++ phrase ++ "': " ++ cause.message
  | .reservedDefault key => "defaults key '" ++ key ++ "' is reserved for simulated state"
  | .defaultValue cause => "defaults: " ++ cause.message
  | .noTool step => "step '" ++ step ++ "' has no tool"
  | .repeatedName => "duplicate workflow name"

inductive LoopFlaw where
  | unequal (names ranges : Nat)
  | badVariable (name : String)
  | notWhole (source : String) (value : Expression.Scalar)
deriving DecidableEq, Repr

def LoopFlaw.message : LoopFlaw → String
  | .unequal names ranges => s!"{names} variables but {ranges} ranges"
  | .badVariable name => "bad or repeated loop variable '" ++ name ++ "'"
  | .notWhole source value =>
    "range bound '" ++ source ++ "' evaluated to non-integer " ++ value.describe

/-- What depends on what, around in a circle. -/
inductive Dependents where
  | steps | parameters
deriving DecidableEq, Repr

def Dependents.name : Dependents → String
  | .steps => "step"
  | .parameters => "computed parameter"

inductive Failure where
  | expression (e : Expression.Error)
  | template (e : TemplateError)
  | stepLimit (limit attempted : Nat)
  /-- A closed path of dependencies. -/
  | cycle (among : Dependents) (path : List String)
  | value (e : ValueError)
  | unknownParameter (parameter workflow : String)
  | unanswered (parameter : String) (seconds : Nat)
  | unequalGroup (group step : String) (expected found : Nat)
  | invalidLoop (step : String) (cause : LoopFlaw)
  | duplicateId (id : String)
  | unknownDependency (step dependency : String)
  | condition (step : String) (e : Expression.Error)
  | inStep (step : String) (cause : Failure)
  | unknownWorkflow (name : String)
  | invalidWorkflow (name : String) (cause : DefinitionFlaw)
  | service (e : ServiceError)
  /-- The settings allow no window for an excerpt. -/
  | noWindow
deriving DecidableEq, Repr

namespace Failure

def message : Failure → String
  | .expression e => e.message
  | .template e => e.message
  | .stepLimit limit attempted =>
    s!"Step limit of {limit} exceeded: expansion would emit {attempted} steps"
  | .cycle among path => "Cyclic " ++ among.name ++ " dependency: " ++ " -> ".intercalate path
  | .value e => e.message
  | .unknownParameter p w => "Unknown parameter '" ++ p ++ "' for workflow '" ++ w ++ "'"
  | .unanswered p seconds => "Clarification for '" ++ p ++ s!"' timed out after {seconds}s"
  | .unequalGroup group step expected found =>
    "Loop group '" ++ group ++ "' mismatch: step '" ++ step ++
      s!"' has {found} iterations, expected {expected}"
  | .invalidLoop step cause => "Invalid loop on step '" ++ step ++ "': " ++ cause.message
  | .duplicateId id => "Duplicate step id: " ++ id
  | .unknownDependency step d => "Step '" ++ step ++ "' depends on unknown step '" ++ d ++ "'"
  | .condition step e => "Condition of step '" ++ step ++ "' failed: " ++ e.message
  | .inStep step cause => "In step '" ++ step ++ "': " ++ cause.message
  | .unknownWorkflow name => "Workflow not found: " ++ name
  | .invalidWorkflow name cause => "Invalid workflow definition '" ++ name ++ "': " ++ cause.message
  | .service e => e.message
  | .noWindow => "The window of an excerpt is empty"

/-- The cause below the names of steps. -/
def root : Failure → Failure
  | .inStep _ cause => cause.root
  | f => f

def code : Failure → String
  | .expression e => e.code
  | .template e =>
    match e.fault with
    | .unresolved _ => "unresolved_placeholder"
    | .malformed _ _ => "syntax_error"
  | .stepLimit _ _ => "step_limit_exceeded"
  | .cycle _ _ => "cyclic_dependency"
  | .value e => e.code
  | .unknownParameter _ _ => "unknown_parameter"
  | .unanswered _ _ => "clarification_timeout"
  | .unequalGroup _ _ _ _ => "loop_group_mismatch"
  | .invalidLoop _ _ => "invalid_loop"
  | .duplicateId _ => "duplicate_step_id"
  | .unknownDependency _ _ => "unknown_dependency"
  | .condition _ e => e.code
  | .inStep _ cause => cause.code
  | .unknownWorkflow _ => "workflow_not_found"
  | .invalidWorkflow _ _ => "invalid_definition"
  | .service _ => "collaborator_error"
  | .noWindow => "empty_window"

/-- Names the step that a failure arose in, unless it names one already. -/
def inside (step : String) : Failure → Failure
  | .inStep s cause => .inStep s cause
  | .condition s e => .condition s e
  | f => .inStep step f

end Failure

end GoalCompiler
