import GoalCompiler.Embedding.Embedder
import GoalCompiler.Text.Phrases

/-! A goal taken apart: its words, its phrases with their vectors, and the vector of the whole. -/
namespace GoalCompiler

structure Goal where
  text : String
  words : List String
  phrases : List String
  vectors : List Embedding
  vector : Embedding

namespace Goal

def analyse (embedder : Embedder) (text : String) : Except ServiceError Goal := do
  let words := Text.tokens text
  let phrases := Text.phrases words
  let vectors ← embedder.embedAll phrases
  let vector ← embedder.embed text
  return ⟨text, words, phrases, vectors, vector⟩

def hasWord (g : Goal) (word : String) : Bool := g.words.contains word

def hasRun (g : Goal) (run : List String) : Bool := Text.hasRun g.words run

/-- The phrase whose vector is nearest. -/
def nearestPhrase? (g : Goal) (v : Embedding) : Option (String × Float32) :=
  v.nearest? (g.phrases.zip g.vectors)

end Goal

end GoalCompiler
