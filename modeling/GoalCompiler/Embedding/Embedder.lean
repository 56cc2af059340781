import GoalCompiler.Embedding.Similarity
import GoalCompiler.ServiceError

/-! Providers of vectors for texts. -/
namespace GoalCompiler

structure Embedder where
  provider : String
  model : String
  embed : String → Except ServiceError Embedding
  /-- The vectors of several texts, in the order of the texts. -/
  embedAll : List String → Except ServiceError (List Embedding)

/-- Several texts are embedded one by one. -/
def Embedder.oneByOne (provider model : String) (embed : String → Except ServiceError Embedding) :
    Embedder :=
  ⟨provider, model, embed, List.mapM embed⟩

/-- A provider has sent another number of vectors than was asked for. -/
def Embedder.miscounted (provider : String) (expected found : Nat) : ServiceError :=
  .provider provider s!"Expected {expected} embeddings, got {found}"

end GoalCompiler
