import Johnny.Effectors.Dispatch
import Johnny.Memory.Semantic
import Mathlib.Data.List.Sort

/-!
# Consolidation

Recent episodes are clustered by the similarity of their embeddings, and each cluster
becomes one fact: the triple a model returns, or a fixed one where no model is
available. The router, the validation of its reply and the embedder are outside.
-/
namespace Johnny

def consolidationRole : String := "consolidation"
def consolidationTemperature {K : Type} [Field K] [LinearOrder K] : K := frac 4 10
def fallbackPredicate : String := "recent_experience"
def fallbackConfidence {K : Type} [Field K] [LinearOrder K] : K := frac 3 10
def fallbackObjectMaxChars : ℕ := 480

structure ConsolidationSummary (K : Type) where
  subject : String
  predicate : String
  object : String
  confidence : K

def ConsolidationSummary.key {K : Type} (s : ConsolidationSummary K) : String × String :=
  (s.subject, s.predicate)

/-! ### Clustering -/

/-- A growing cluster with the sum of its embeddings. -/
structure Cluster (K : Type) where
  episodes : List (EpisodeRow K) := []
  sum : List K := []

section clustering
variable {K : Type} [Field K] [LinearOrder K]

omit [LinearOrder K] in
def Cluster.add (c : Cluster K) (episode : EpisodeRow K) : Cluster K where
  episodes := c.episodes ++ [episode]
  sum := if c.sum.isEmpty then episode.embedding else List.zipWith (· + ·) c.sum episode.embedding

omit [LinearOrder K] in
def Cluster.centroid (c : Cluster K) : List K :=
  if c.episodes.isEmpty then c.sum else c.sum.map fun s => s / (c.episodes.length : K)

/-- The first cluster of the greatest similarity above `-1`, with that similarity. -/
def nearestCluster (sqrt : K → K) (clusters : List (Cluster K)) (vector : List K) :
    Option ℕ × K :=
  clusters.zipIdx.foldl (fun best c =>
    let sim := cosineSimilarity sqrt vector c.1.centroid
    if best.2 < sim then (some c.2, sim) else best) (none, -1)

/-- Joins the nearest cluster when it is similar enough or the cap is reached. -/
def placeEpisode (sqrt : K → K) (threshold : K) (maxClusters : ℤ) (clusters : List (Cluster K))
    (episode : EpisodeRow K) : List (Cluster K) :=
  let best := nearestCluster sqrt clusters episode.embedding
  match best.1 with
  | some idx =>
    if threshold ≤ best.2 ∨ max 1 maxClusters ≤ clusters.length then
      clusters.modify idx fun c => c.add episode
    else clusters ++ [Cluster.add {} episode]
  | none => clusters ++ [Cluster.add {} episode]

def clusterEpisodes (sqrt : K → K) (threshold : K) (maxClusters : ℤ)
    (episodes : List (EpisodeRow K)) : List (List (EpisodeRow K)) :=
  (episodes.foldl (placeEpisode sqrt threshold maxClusters) []).map Cluster.episodes

end clustering

/-! ### One pass -/

structure Consolidator (K ω : Type) where
  semantic : SemanticMemory K ω
  /-- `router.complete` for the role, messages, temperature and token limit. -/
  router : Option (String → List Message → K → ℕ → Prog Failure ω Completion)
  prompt : String
  /-- `ConsolidationSummary.model_validate_json`. -/
  parseConsolidation : String → Except Failure (ConsolidationSummary K)
  recentLimit : ℕ
  clusterThreshold : K
  maxClusters : ℤ
  maxTokens : ℕ
  sqrt : K → K

/-- What a pass wrote for one cluster, with the model's reply, where it gave one. -/
structure Written (K : Type) where
  episodes : List (EpisodeRow K)
  reply : Option (ConsolidationSummary K)
  fact : SemanticFact

namespace Consolidator
variable {K ω : Type} [Field K] [LinearOrder K]

/-- The most common kind of a cluster, the first of them on a tie. -/
def dominantKind (episodes : List (EpisodeRow K)) : String :=
  let counts := episodes.foldl (fun counts e =>
    dictSet counts e.kind ((dictGet counts e.kind).getD 0 + 1)) ([] : List (String × ℕ))
  match counts with
  | [] => "experience"
  | first :: rest => (rest.foldl (fun best c => if best.2 < c.2 then c else best) first).1

def fallbackSummary (episodes : List (EpisodeRow K)) : ConsolidationSummary K where
  subject := "my recent " ++ dominantKind episodes
  predicate := fallbackPredicate
  object := String.ofList
    (("; ".intercalate (episodes.map EpisodeRow.content)).toList.take fallbackObjectMaxChars)
  confidence := fallbackConfidence

def render (episodes : List (EpisodeRow K)) : String :=
  let fragments := "\n".intercalate (episodes.map fun e => "- [" ++ e.kind ++ "] " ++ e.content)
  "Here is a cluster of related fragments from your recent experience:\n" ++ fragments ++ "\n\n" ++
    "Distil them into ONE durable fact, as the JSON triple " ++
    "\x7b\"subject\": ..., \"predicate\": ..., \"object\": ..., \"confidence\": <0..1>\x7d."

/-- Nothing where no model is configured or every provider is tired. -/
def summariseWithLlm (c : Consolidator K ω) (episodes : List (EpisodeRow K)) :
    Prog Failure ω (Option (ConsolidationSummary K)) :=
  match c.router with
  | none => pure none
  | some complete =>
    if c.prompt = "" then pure none
    else Prog.rescue Failure.isUnavailable
      (do
        let completion ← complete consolidationRole
          [⟨"system", c.prompt⟩, ⟨"user", render episodes⟩] consolidationTemperature c.maxTokens
        pure (some completion))
      (fun _ => pure none) >>= fun completion =>
        match completion with
        | none => pure none
        | some completion => do
          let summary ← Prog.reraise (c.parseConsolidation completion.content)
          pure (some summary)

/-- The summary of a cluster: the model's, or the fallback. -/
def summaryOf (episodes : List (EpisodeRow K)) (reply : Option (ConsolidationSummary K)) :
    ConsolidationSummary K := reply.getD (fallbackSummary episodes)

def consolidate (c : Consolidator K ω) (episodes : List (EpisodeRow K)) :
    Prog Failure (MemoryWorld K ω) (Written K) := do
  let reply ← MemoryWorld.outside (c.summariseWithLlm episodes)
  let summary := summaryOf episodes reply
  let fact ← c.semantic.upsertFact summary.subject summary.predicate summary.object
    summary.confidence (episodes.map EpisodeRow.id)
  pure ⟨episodes, reply, fact⟩

/-- The most recent episodes; a limit of zero counts as none given. -/
def recent (c : Consolidator K ω) (limit : Option ℕ) (s : MemoryStore K) : List (EpisodeRow K) :=
  let cap := if limit.getD 0 = 0 then c.recentLimit else limit.getD 0
  (s.episodes.insertionSort fun a b => b.ts ≤ a.ts).take cap

def clusters (c : Consolidator K ω) (episodes : List (EpisodeRow K)) :
    List (List (EpisodeRow K)) :=
  clusterEpisodes c.sqrt c.clusterThreshold c.maxClusters episodes

/-- Clusters the recent episodes and writes one fact for each cluster. -/
def run (c : Consolidator K ω) (limit : Option ℕ) :
    Prog Failure (MemoryWorld K ω) (List (Written K)) := do
  let recent ← Prog.reads fun s => c.recent limit s.store
  if recent.isEmpty then pure [] else Prog.collect (c.clusters recent) c.consolidate

end Consolidator

/-! ### Clusters partition the episodes -/

section partition
variable {K : Type} [Field K] [LinearOrder K]

theorem nearestCluster_lt {sqrt : K → K} {clusters : List (Cluster K)} {vector : List K} {idx : ℕ}
    (near : (nearestCluster sqrt clusters vector).1 = some idx) : idx < clusters.length := by
  have bounded (cs : List (Cluster K × ℕ)) (best : Option ℕ × K)
      (places : ∀ c ∈ cs, c.2 < clusters.length)
      (start : ∀ idx, best.1 = some idx → idx < clusters.length) :
      ∀ idx, (cs.foldl (fun best c =>
        let sim := cosineSimilarity sqrt vector c.1.centroid
        if best.2 < sim then (some c.2, sim) else best) best).1 = some idx →
          idx < clusters.length := by
    induction cs generalizing best with
    | nil => exact start
    | cons c cs ih =>
        refine ih _ (fun c member => places c (List.mem_cons_of_mem _ member)) ?_
        intro idx found
        dsimp only at found
        split at found
        · cases found
          exact places c List.mem_cons_self
        · exact start idx found
  refine bounded _ _ ?_ ?_ idx near
  · intro c member
    have := List.snd_lt_add_of_mem_zipIdx member
    omega
  · intro idx none
    cases none

theorem placeEpisode_perm (sqrt : K → K) (threshold : K) (maxClusters : ℤ)
    (clusters : List (Cluster K)) (episode : EpisodeRow K) :
    ((placeEpisode sqrt threshold maxClusters clusters episode).flatMap Cluster.episodes).Perm
      (clusters.flatMap Cluster.episodes ++ [episode]) := by
  have seeded : ((clusters ++ [Cluster.add {} episode]).flatMap Cluster.episodes).Perm
      (clusters.flatMap Cluster.episodes ++ [episode]) := by
    rw [List.flatMap_append]
    exact .refl _
  unfold placeEpisode
  dsimp only
  split
  case h_1 idx near =>
    split
    · have inside := nearestCluster_lt near
      rw [List.modify_eq_take_cons_drop inside]
      conv_rhs => rw [← List.take_append_drop idx clusters, List.drop_eq_getElem_cons inside]
      simp only [List.flatMap_append, List.flatMap_cons, Cluster.add, List.append_assoc]
      refine .append_left _ (.append_left _ ?_)
      exact List.perm_append_comm
    · exact seeded
  case h_2 => exact seeded

/-- Every episode is in exactly one cluster. -/
theorem clusterEpisodes_perm (sqrt : K → K) (threshold : K) (maxClusters : ℤ)
    (episodes : List (EpisodeRow K)) :
    (clusterEpisodes sqrt threshold maxClusters episodes).flatten.Perm episodes := by
  have placed (cs : List (Cluster K)) :
      ((episodes.foldl (placeEpisode sqrt threshold maxClusters) cs).flatMap
        Cluster.episodes).Perm (cs.flatMap Cluster.episodes ++ episodes) := by
    induction episodes generalizing cs with
    | nil => rw [List.append_nil, List.foldl_nil]
    | cons episode episodes ih =>
        refine (ih _).trans ?_
        rw [← List.singleton_append (l := episodes), ← List.append_assoc]
        exact (placeEpisode_perm sqrt threshold maxClusters cs episode).append_right episodes
  exact placed []

end partition
end Johnny
