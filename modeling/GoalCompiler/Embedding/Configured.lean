import GoalCompiler.Embedding.Hashing
import GoalCompiler.Embedding.Remote
import GoalCompiler.Settings

/-! The embedder that the settings ask for. Whether vectors are kept makes no difference to the answers. -/
namespace GoalCompiler

/-- The environment has no key for the server. -/
structure MissingKey where
  variableName : String
deriving DecidableEq, Repr

def MissingKey.message (m : MissingKey) : String :=
  m.variableName ++ " environment variable is required for openai embeddings"

namespace EmbeddingSettings

/-- The server and the model, once the key is known. -/
def remote (s : EmbeddingSettings) (key : String) : RemoteModel :=
  let r : RemoteModel := { key, dimensions := s.dimensions }
  { r with baseUrl := s.baseUrl.getD r.baseUrl, model := s.model.getD r.model }

def embedder (s : EmbeddingSettings) (environment : Dict String)
    (post : Message → Except ServiceError Json) : Except MissingKey Embedder :=
  match s.backend with
  | .hashing => .ok (Hashing.embedder (s.dimensions.getD Hashing.defaultDimensions))
  | .openai =>
    match Dict.get? environment s.keyVariable with
    | some key => .ok ((s.remote key).embedder post)
    | none => .error ⟨s.keyVariable⟩

end EmbeddingSettings

end GoalCompiler
