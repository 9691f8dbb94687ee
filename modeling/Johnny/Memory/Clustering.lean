import Johnny.Lib.Costs
import Johnny.Lib.OrderedPartition
import Johnny.Lib.Runs
import Johnny.Memory.Consolidator
import Mathlib.Data.List.Induction
import Mathlib.Data.Rat.Floor

/-!
# Clusters are a bounded partition

Clustering loses no episode and keeps their order. The cap on the clusters is kept by
folding an episode into its nearest cluster; an episode exactly opposite to every centroid
has no nearest cluster, and seeds one past the cap.
-/
namespace Johnny
variable {K ω : Type} [Field K] [LinearOrder K]

/-! ### One episode -/

/-- The cap is reached, and the episode is opposite to every cluster. -/
def Opposed (sqrt : K → K) (maxClusters : ℤ) (clusters : List (Cluster K))
    (episode : EpisodeRow K) : Prop :=
  max 1 maxClusters ≤ clusters.length ∧
    ∀ c ∈ clusters, cosineSimilarity sqrt episode.embedding c.centroid ≤ -1

theorem nearestCluster_none_iff {sqrt : K → K} {clusters : List (Cluster K)} {vector : List K} :
    (nearestCluster sqrt clusters vector).1 = none ↔
      ∀ c ∈ clusters, cosineSimilarity sqrt vector c.centroid ≤ -1 := by
  have fold (cs : List (Cluster K × ℕ)) (best : Option ℕ × K) :
      (cs.foldl (fun best c =>
        let sim := cosineSimilarity sqrt vector c.1.centroid
        if best.2 < sim then (some c.2, sim) else best) best).1 = none ↔
        best.1 = none ∧ ∀ c ∈ cs, cosineSimilarity sqrt vector c.1.centroid ≤ best.2 := by
    induction cs generalizing best with
    | nil => simp
    | cons c cs ih =>
        rw [List.foldl_cons, ih, List.forall_mem_cons]
        dsimp only
        by_cases nearer : best.2 < cosineSimilarity sqrt vector c.1.centroid
        · rw [if_pos nearer]
          exact iff_of_false (fun h => Option.some_ne_none _ h.1)
            fun h => absurd h.2.1 (not_le.mpr nearer)
        · rw [if_neg nearer]
          exact and_congr_right fun _ => ⟨fun rest => ⟨not_lt.mp nearer, rest⟩, fun h => h.2⟩
  unfold nearestCluster
  rw [fold]
  constructor
  · rintro ⟨_, far⟩ c member
    obtain ⟨i, inside, rfl⟩ := List.mem_iff_getElem.mp member
    exact far (clusters[i], i) (List.mk_mem_zipIdx_iff_getElem?.mpr (List.getElem?_eq_getElem inside))
  · intro far
    refine ⟨rfl, fun c member => far c.1 ?_⟩
    exact (List.mem_zipIdx member).2.2 ▸ List.getElem_mem _

/-- An episode joins one cluster, or seeds one: below the cap, or opposite to all. -/
theorem placeEpisode_cases (sqrt : K → K) (threshold : K) (maxClusters : ℤ)
    (clusters : List (Cluster K)) (episode : EpisodeRow K) :
    (¬ Opposed sqrt maxClusters clusters episode ∧
      ∃ before c after, clusters = before ++ c :: after ∧
        placeEpisode sqrt threshold maxClusters clusters episode =
          before ++ c.add episode :: after) ∨
    ((clusters.length < max 1 maxClusters ∨ Opposed sqrt maxClusters clusters episode) ∧
      placeEpisode sqrt threshold maxClusters clusters episode =
        clusters ++ [Cluster.add {} episode]) := by
  unfold placeEpisode
  dsimp only
  split
  case h_1 idx near =>
    have inside := nearestCluster_lt near
    have close : ¬ Opposed sqrt maxClusters clusters episode := by
      rintro ⟨_, far⟩
      rw [nearestCluster_none_iff.mpr far] at near
      cases near
    split
    · refine .inl ⟨close, clusters.take idx, clusters[idx], clusters.drop (idx + 1), ?_, ?_⟩
      · rw [← List.drop_eq_getElem_cons inside, List.take_append_drop]
      · exact List.modify_eq_take_cons_drop inside
    · next apart =>
        exact .inr ⟨.inl (not_le.mp fun full => apart (.inr full)), rfl⟩
  case h_2 none =>
    refine .inr ⟨?_, rfl⟩
    by_cases full : max 1 maxClusters ≤ clusters.length
    · exact .inr ⟨full, nearestCluster_none_iff.mp none⟩
    · exact .inl (not_le.mp full)

/-! ### All episodes -/

theorem placeEpisode_partition {sqrt : K → K} {threshold : K} {maxClusters : ℤ}
    {done : List (EpisodeRow K)} {clusters : List (Cluster K)}
    (partition : OrderedPartition done (clusters.map Cluster.episodes)) (episode : EpisodeRow K) :
    OrderedPartition (done ++ [episode])
      ((placeEpisode sqrt threshold maxClusters clusters episode).map Cluster.episodes) := by
  rcases placeEpisode_cases sqrt threshold maxClusters clusters episode with
    ⟨_, before, c, after, rfl, joined⟩ | ⟨_, seeded⟩
  · rw [joined, List.map_append, List.map_cons]
    rw [List.map_append, List.map_cons] at partition
    exact partition.join episode
  · rw [seeded, List.map_append]
    exact partition.seed episode

/-- The clusters after the episodes, one after the other. -/
def clustersAfter (sqrt : K → K) (threshold : K) (maxClusters : ℤ)
    (episodes : List (EpisodeRow K)) : List (Cluster K) :=
  episodes.foldl (placeEpisode sqrt threshold maxClusters) []

section run
variable (sqrt : K → K) (threshold : K) (maxClusters : ℤ)

theorem clustersAfter_snoc (episodes : List (EpisodeRow K)) (episode : EpisodeRow K) :
    clustersAfter sqrt threshold maxClusters (episodes ++ [episode]) =
      placeEpisode sqrt threshold maxClusters (clustersAfter sqrt threshold maxClusters episodes)
        episode := by
  unfold clustersAfter
  rw [List.foldl_append]
  rfl

theorem clusterEpisodes_partition (episodes : List (EpisodeRow K)) :
    OrderedPartition episodes (clusterEpisodes sqrt threshold maxClusters episodes) := by
  change OrderedPartition episodes
    ((clustersAfter sqrt threshold maxClusters episodes).map Cluster.episodes)
  induction episodes using List.reverseRecOn with
  | nil => exact .nil
  | append_singleton episodes episode ih =>
      rw [clustersAfter_snoc]
      exact placeEpisode_partition ih episode

/-- One episode leaves the clusters within the cap exactly if they were, and it is not opposite
to as many as there may be. -/
theorem placeEpisode_bound_iff (clusters : List (Cluster K)) (episode : EpisodeRow K) :
    ((placeEpisode sqrt threshold maxClusters clusters episode).length : ℤ) ≤ max 1 maxClusters ↔
      (clusters.length : ℤ) ≤ max 1 maxClusters ∧
        ¬ Opposed sqrt maxClusters clusters episode := by
  rcases placeEpisode_cases sqrt threshold maxClusters clusters episode with
    ⟨close, before, c, after, rfl, joined⟩ | ⟨room, seeded⟩
  · rw [joined, and_iff_left close]
    simp
  · rw [seeded, List.length_append, List.length_singleton]
    push_cast
    constructor
    · intro bound
      exact ⟨by omega, fun opposed => by have := opposed.1; omega⟩
    · rintro ⟨bound, close⟩
      rcases room with below | opposed
      · omega
      · exact absurd opposed close

theorem clustersAfter_bound_iff (episodes : List (EpisodeRow K)) :
    ((clustersAfter sqrt threshold maxClusters episodes).length : ℤ) ≤ max 1 maxClusters ↔
      ∀ before episode after, episodes = before ++ episode :: after →
        ¬ Opposed sqrt maxClusters (clustersAfter sqrt threshold maxClusters before) episode := by
  have counted : ((runSteps (fun e cs => placeEpisode sqrt threshold maxClusters cs e) episodes
      []).length : ℤ) ≤ max 1 maxClusters ↔ _ :=
    runSteps_iff (P := fun cs => (cs.length : ℤ) ≤ max 1 maxClusters)
      (C := fun e cs => ¬ Opposed sqrt maxClusters cs e) (I := fun _ => True)
      (fun _ _ _ _ => trivial)
      (fun e _ cs _ => placeEpisode_bound_iff sqrt threshold maxClusters cs e) trivial
  simp only [runSteps_eq_foldl] at counted
  refine counted.trans (and_iff_right ?_)
  simp

end run

/-! ### The cost of a pass -/

namespace Consolidator

/-- A count of the completions asked for, which nothing else moves. -/
structure Counts (c : Consolidator K ω) (calls : ω → ℕ) : Prop where
  router : ∀ complete, c.router = some complete → ∀ role messages temperature maxTokens w,
    calls (complete role messages temperature maxTokens w).2 = calls w + 1
  embed : ∀ text w, calls (c.semantic.embedOne text w).2 = calls w

variable {c : Consolidator K ω} {calls : ω → ℕ}

theorem summariseWithLlm_calls (counts : c.Counts calls) (episodes : List (EpisodeRow K)) :
    Prog.Costs calls 1 (c.summariseWithLlm episodes) := by
  unfold summariseWithLlm
  split
  · exact (Prog.Costs.pure _).mono (Nat.zero_le _)
  · next complete wired =>
      split
      · exact (Prog.Costs.pure _).mono (Nat.zero_le _)
      · have asked : Prog.Costs calls 1 (complete consolidationRole
            [⟨"system", c.prompt⟩, ⟨"user", render episodes⟩] consolidationTemperature
            c.maxTokens) := fun w => (counts.router complete wired _ _ _ _ w).le
        have rescued : Prog.Costs calls 1 (Prog.rescue Failure.isUnavailable
            (complete consolidationRole [⟨"system", c.prompt⟩, ⟨"user", render episodes⟩]
              consolidationTemperature c.maxTokens >>= fun completion => pure (some completion))
            fun _ => pure none) :=
          (asked.bind fun completion => .pure (some completion)).rescue fun _ => .pure none
        refine rescued.bind (n := 0) fun completion => ?_
        cases completion with
        | none => exact .pure none
        | some completion => exact (Prog.Costs.reraise _).bind fun summary => .pure (some summary)

/-- The pass over a cluster asks for one completion at most. -/
theorem consolidate_calls (counts : c.Counts calls) (episodes : List (EpisodeRow K)) :
    Prog.Costs (fun s : MemoryWorld K ω => calls s.world) 1 (c.consolidate episodes) := by
  have reply : Prog.Costs (fun s : MemoryWorld K ω => calls s.world) 1
      (MemoryWorld.outside (c.summariseWithLlm episodes)) :=
    fun s => summariseWithLlm_calls counts episodes s.world
  have embedded (text : String) : Prog.Costs (fun s : MemoryWorld K ω => calls s.world) 0
      (MemoryWorld.outside (c.semantic.embedOne text)) :=
    fun s => (counts.embed text s.world).le
  refine reply.bind (n := 0) fun reply => ?_
  refine Prog.Costs.bind (n := 0) ?_ fun fact => .pure _
  exact (embedded _).bind fun embedding =>
    Prog.Costs.bind (m := 0) (fun _ => Nat.le_refl _) fun _ => .pure _

/-- A pass asks for as many completions as it has clusters, at most. -/
theorem run_calls (counts : c.Counts calls) (limit : Option ℕ) (s : MemoryWorld K ω) :
    calls (c.run limit s).2.world ≤
      calls s.world + (c.clusters (c.recent limit s.store)).length := by
  unfold run
  rw [Prog.reads_bind]
  split
  · exact Nat.le_add_right _ _
  · have all := Prog.Costs.collect (c.clusters (c.recent limit s.store)) (consolidate_calls counts)
    rw [Nat.mul_one] at all
    exact all s

end Consolidator

/-! ### The whole -/

/-- The clusters hold every episode once, in order, and the first of each in order; there are
at most as many as the cap, and a pass over the episodes asks for no more completions. -/
structure BoundedPartition (ω : Type) (sqrt : K → K) (threshold : K) (maxClusters : ℤ)
    (episodes : List (EpisodeRow K)) (clusters : List (List (EpisodeRow K))) : Prop where
  partition : OrderedPartition episodes clusters
  capped : (clusters.length : ℤ) ≤ max 1 maxClusters
  calls : ∀ (c : Consolidator K ω) (calls : ω → ℕ) (limit : Option ℕ) (s : MemoryWorld K ω),
    c.Counts calls → c.sqrt = sqrt → c.clusterThreshold = threshold →
      c.maxClusters = maxClusters → c.recent limit s.store = episodes →
        (calls (c.run limit s).2.world : ℤ) ≤ calls s.world + max 1 maxClusters

/-- Over any episodes, threshold and cap: the clusters are a bounded partition exactly if no
episode arrives, with the cap reached, opposite to the centroid of every cluster so far. -/
theorem clusterEpisodes_bounded_iff (ω : Type) (sqrt : K → K) (threshold : K) (maxClusters : ℤ)
    (episodes : List (EpisodeRow K)) :
    BoundedPartition ω sqrt threshold maxClusters episodes
        (clusterEpisodes sqrt threshold maxClusters episodes) ↔
      ∀ before episode after, episodes = before ++ episode :: after →
        ¬ Opposed sqrt maxClusters (clustersAfter sqrt threshold maxClusters before) episode := by
  have length : (clusterEpisodes sqrt threshold maxClusters episodes).length =
      (clustersAfter sqrt threshold maxClusters episodes).length := List.length_map ..
  rw [← clustersAfter_bound_iff, ← length]
  constructor
  · exact fun bounded => bounded.capped
  · intro capped
    refine ⟨clusterEpisodes_partition sqrt threshold maxClusters episodes, capped, ?_⟩
    rintro c calls limit s counts rfl rfl rfl rfl
    have asked := Consolidator.run_calls counts limit s
    have same : c.clusters (c.recent limit s.store) =
      clusterEpisodes c.sqrt c.clusterThreshold c.maxClusters (c.recent limit s.store) := rfl
    rw [same] at asked
    omega

/-! ### Opposite episodes -/

namespace OppositeEpisodes

def episode (id : ℕ) (x y : ℚ) : EpisodeRow ℚ :=
  { id := id, ts := id, kind := "observation", content := "", salience := 1, embedding := [x, y] }

end OppositeEpisodes

open OppositeEpisodes in
/-- Of two episodes with opposite embeddings, the second is a cluster past a cap of one. -/
theorem opposite_past_cap :
    ¬ BoundedPartition Unit id (3 / 5) 1 [episode 1 1 0, episode 2 (-1) 0]
      (clusterEpisodes id (3 / 5) 1 [episode 1 1 0, episode 2 (-1) 0]) := by
  intro bounded
  have two : (clusterEpisodes id (3 / 5) 1 [episode 1 1 0, episode 2 (-1) 0]).length = 2 := by
    decide +kernel
  have capped := bounded.capped
  rw [two] at capped
  norm_num at capped

end Johnny
