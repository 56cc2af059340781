import GoalCompiler.Embedding.Embedder
import GoalCompiler.Text.Phrases

/-! Vectors without a model: each word and each run of three characters of a word adds to the place that
its hash gives. Texts that share words or stems come out near to each other. -/
namespace GoalCompiler.Hashing

/-- The hash of a text: its bytes are mixed in one by one and multiplied by a prime. -/
def hash (text : String) : UInt64 :=
  text.toUTF8.toList.foldl (fun h b => (h ^^^ b.toUInt64) * 0x100000001b3) 0xcbf29ce484222325

def place (dimensions : Nat) (feature : String) : Nat := (hash feature).toNat % dimensions

/-- The word and, with a blank before and after it, its runs of three characters, each with its weight. -/
def features (word : String) : List (String × Float32) :=
  let padded := ' ' :: word.toList ++ [' ']
  (word, 0.5) :: (Text.windows 3 padded).map fun gram => (String.ofList gram, 1.0)

def add (dimensions : Nat) (v : Array Float32) (feature : String × Float32) : Array Float32 :=
  v.modify (place dimensions feature.1) (· + feature.2)

/-- The vector scaled to length one; one without length stays. -/
def normalise (v : Embedding) : Embedding :=
  let n := v.norm
  if n > 0.0 then v.map (· / n) else v

def embed (dimensions : Nat) (text : String) : Embedding :=
  let weights := (Text.tokens text).flatMap features
  normalise (weights.foldl (add dimensions) (Array.replicate dimensions 0.0)).toList

def defaultDimensions : Nat := 384

/-- The embedder with so many dimensions, at least one. -/
def embedder (dimensions : Nat) : Embedder :=
  .oneByOne "hashing" "char-trigram" fun text => .ok (embed (max 1 dimensions) text)

end GoalCompiler.Hashing
