/-! What goes wrong outside the compiler. -/
namespace GoalCompiler

/-- A failure of something outside the compiler: an embedding provider, a store, a source of workflows. -/
inductive ServiceError where
  | notFound (message : String)
  | validation (message : String)
  | provider (name message : String)
  | configuration (message : String)
  | internal (message : String)
  | storage (message : String)
deriving DecidableEq, Repr

def ServiceError.code : ServiceError → String
  | .notFound _ => "not_found"
  | .validation _ => "validation"
  | .provider _ _ => "provider"
  | .configuration _ => "configuration"
  | .internal _ => "internal"
  | .storage _ => "storage"

def ServiceError.message : ServiceError → String
  | .notFound m => "Not found: " ++ m
  | .validation m => "Validation error: " ++ m
  | .provider name m => "Provider error: " ++ name ++ " - " ++ m
  | .configuration m => "Configuration error: " ++ m
  | .internal m => "Internal error: " ++ m
  | .storage m => "Storage error: " ++ m

end GoalCompiler
