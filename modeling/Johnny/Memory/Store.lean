import Johnny.Foundation.Values

/-!
# The durable memory

The rows of episodic and semantic memory, and the similarity of their embeddings.
Embeddings of one store all have the same length.
-/
namespace Johnny

structure EpisodeRow (K : Type) where
  id : ℕ
  ts : K
  kind : String
  content : String
  actors : List String := []
  emotionTags : List String := []
  salience : K
  embedding : List K
  deriving DecidableEq

/-- A remembered event apart from its row; `score` is filled by a recall alone. -/
structure Episode (K : Type) where
  id : Option ℕ := none
  ts : Option K := none
  kind : String
  content : String
  actors : List String := []
  emotionTags : List String := []
  salience : K
  score : Option K := none
  deriving DecidableEq

structure SemanticFactRow (K : Type) where
  id : ℕ
  subject : String
  predicate : String
  object : String
  confidence : K
  sourceEpisodeIds : List ℕ := []
  embedding : List K
  deriving DecidableEq

structure SemanticEdgeRow where
  id : ℕ
  fromFact : ℕ
  toFact : ℕ
  relation : String
  deriving DecidableEq

/-- The tables of one store, and the numbers their next rows get. -/
structure MemoryStore (K : Type) where
  episodes : List (EpisodeRow K) := []
  facts : List (SemanticFactRow K) := []
  edges : List SemanticEdgeRow := []
  nextEpisode : ℕ := 1
  nextFact : ℕ := 1

namespace MemoryStore
variable {K : Type}

/-- `_consolidated_source_ids`: the episodes some fact was distilled from. -/
def consolidatedSourceIds (s : MemoryStore K) : List ℕ :=
  s.facts.flatMap SemanticFactRow.sourceEpisodeIds

def episode? (s : MemoryStore K) (id : ℕ) : Option (EpisodeRow K) :=
  s.episodes.find? fun row => row.id == id

end MemoryStore

section similarity
variable {K : Type} [Field K] [LinearOrder K]

def dot (a b : List K) : K := (List.zipWith (· * ·) a b).sum

/-- `cosine_similarity`, over the square root of `math`: zero for a vector without direction. -/
def cosineSimilarity (sqrt : K → K) (a b : List K) : K :=
  let normA := sqrt (dot a a)
  let normB := sqrt (dot b b)
  if normA = 0 ∨ normB = 0 then 0 else dot a b / (normA * normB)

end similarity
end Johnny
