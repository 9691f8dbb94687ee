import Johnny.Lib.Exponential
import Johnny.Memory.Semantic
import Mathlib.Data.List.Sort

/-!
# Recall from the stores

A recall of episodes blends the similarity of the embeddings with recency and salience, and
keeps the best of a pool of nearest rows. A recall of facts goes by similarity alone.
-/
namespace Johnny

structure RecallWeights (K : Type) where
  similarity : K
  recency : K
  salience : K
  recencyHalflifeSeconds : K

/-- A fact as a recall returns it. -/
structure RecalledFact (K : Type) extends SemanticFact where
  score : Option K := none

variable {K ω : Type} [Field K] [LinearOrder K]

def similarityFromDistance (distance : K) : K := clamp01 (1 - distance)

def blendedScore (similarity recency salience : K) (weights : RecallWeights K) : K :=
  weights.similarity * similarity + weights.recency * recency + weights.salience * salience

structure EpisodicMemory (K ω : Type) [Field K] [LinearOrder K] where
  embedOne : String → Prog Failure ω (List K)
  /-- Up to so many of the nearest rows, each with its cosine distance. -/
  nearest : List K → ℤ → Prog Failure ω (List (EpisodeRow K × K))
  weights : RecallWeights K
  candidatePool : ℤ
  nowFn : ω → K
  /-- `math.exp`. -/
  exponential : Exponential K
  /-- `math.log(2.0)`. -/
  logTwo : K

namespace EpisodicMemory

/-- One at `now`, and half of it after each half-life. -/
def recencyScore (m : EpisodicMemory K ω) (ts now halflifeSeconds : K) : K :=
  if halflifeSeconds ≤ 0 then 1
  else m.exponential.exp (-m.logTwo * max 0 (now - ts) / halflifeSeconds)

def rowToEpisode (row : EpisodeRow K) (score : Option K) : Episode K :=
  { id := some row.id, ts := some row.ts, kind := row.kind, content := row.content
    actors := row.actors, emotionTags := row.emotionTags, salience := row.salience, score := score }

/-- A candidate with its blended score. -/
def scored (m : EpisodicMemory K ω) (blend : RecallWeights K) (reference : K)
    (candidate : EpisodeRow K × K) : Episode K :=
  rowToEpisode candidate.1 (some (blendedScore (similarityFromDistance candidate.2)
    (m.recencyScore candidate.1.ts reference blend.recencyHalflifeSeconds)
    (clamp01 candidate.1.salience) blend))

/-- `recall`. -/
def recall' (m : EpisodicMemory K ω) (query : String) (k : ℤ) (weights : Option (RecallWeights K)) :
    Prog Failure ω (List (Episode K)) :=
  if k ≤ 0 then pure []
  else do
    let reference ← Prog.reads m.nowFn
    let blend := weights.getD m.weights
    let vector ← m.embedOne query
    let candidates ← m.nearest vector (max m.candidatePool k)
    let episodes := (candidates.map (m.scored blend reference)).insertionSort
      fun a b => b.score.getD 0 ≤ a.score.getD 0
    pure (episodes.take k.toNat)

end EpisodicMemory

/-- Semantic memory with its index. -/
structure SemanticIndex (K ω : Type) extends SemanticMemory K ω where
  /-- Up to so many of the nearest rows, each with its cosine distance. -/
  nearest : List K → ℤ → Prog Failure ω (List (SemanticFactRow K × K))

namespace SemanticIndex

def rowToFact (row : SemanticFactRow K) (score : Option K) : RecalledFact K :=
  { subject := row.subject, predicate := row.predicate, object := row.object, score := score }

/-- `recall`. -/
def recall' (m : SemanticIndex K ω) (query : String) (k : ℤ) :
    Prog Failure ω (List (RecalledFact K)) :=
  if k ≤ 0 then pure []
  else do
    let vector ← m.embedOne query
    let candidates ← m.nearest vector k
    pure (candidates.map fun c => rowToFact c.1 (some (similarityFromDistance c.2)))

end SemanticIndex

/-! ### The scores of what is recalled -/

/-- The weights of a blend count for nothing or more. -/
structure RecallWeights.Nonneg (weights : RecallWeights K) : Prop where
  similarity : 0 ≤ weights.similarity
  recency : 0 ≤ weights.recency
  salience : 0 ≤ weights.salience

section scores
variable [IsStrictOrderedRing K]

theorem blendedScore_nonneg {similarity recency salience : K} {weights : RecallWeights K}
    (nonneg : weights.Nonneg) (hs : 0 ≤ similarity) (hr : 0 ≤ recency) (hl : 0 ≤ salience) :
    0 ≤ blendedScore similarity recency salience weights := by
  have first := mul_nonneg nonneg.similarity hs
  have second := mul_nonneg nonneg.recency hr
  exact add_nonneg (add_nonneg first second) (mul_nonneg nonneg.salience hl)

theorem EpisodicMemory.recencyScore_nonneg (m : EpisodicMemory K ω) (ts now halflife : K) :
    0 ≤ m.recencyScore ts now halflife := by
  unfold recencyScore
  split
  · exact zero_le_one
  · exact m.exponential.exp_nonneg _

/-- Whatever the stored salience, the age and the distance, no recalled score is negative. -/
theorem EpisodicMemory.recall_score {m : EpisodicMemory K ω} {query : String} {k : ℤ}
    {weights : Option (RecallWeights K)} (nonneg : (weights.getD m.weights).Nonneg) {w t : ω}
    {episodes : List (Episode K)} (ran : m.recall' query k weights w = (.ok episodes, t)) :
    ∀ episode ∈ episodes, 0 ≤ episode.score.getD 0 := by
  unfold recall' at ran
  split at ran
  · cases ran
    exact List.forall_mem_nil _
  · rw [Prog.reads_bind] at ran
    obtain ⟨vector, s₁, -, ran⟩ := Prog.ok_of_bind ran
    obtain ⟨candidates, s₂, -, ran⟩ := Prog.ok_of_bind ran
    cases ran
    intro episode member
    have inside := (List.perm_insertionSort _ _).mem_iff.mp (List.mem_of_mem_take member)
    obtain ⟨candidate, -, rfl⟩ := List.mem_map.mp inside
    exact blendedScore_nonneg nonneg (clamp01_nonneg _) (m.recencyScore_nonneg _ _ _)
      (clamp01_nonneg _)

omit [IsStrictOrderedRing K] in
theorem SemanticIndex.recall_score {m : SemanticIndex K ω} {query : String} {k : ℤ} {w t : ω}
    {facts : List (RecalledFact K)} (ran : m.recall' query k w = (.ok facts, t)) :
    ∀ fact ∈ facts, fact.score.getD 0 ≤ 1 := by
  unfold recall' at ran
  split at ran
  · cases ran
    exact List.forall_mem_nil _
  · obtain ⟨vector, s₁, -, ran⟩ := Prog.ok_of_bind ran
    obtain ⟨candidates, s₂, -, ran⟩ := Prog.ok_of_bind ran
    cases ran
    intro fact member
    obtain ⟨candidate, -, rfl⟩ := List.mem_map.mp member
    exact clamp01_le_one _

end scores
end Johnny
