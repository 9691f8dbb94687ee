import Johnny.Memory.Consolidator
import Mathlib.Data.Rat.Floor

/-!
# The provenance a consolidation leaves

A pass writes one key for each cluster, and the last write of a key wins. So an episode
keeps a fact it was distilled into exactly where no later cluster writes the key of its
own, or a fact outside the pass already names it.
-/
namespace Johnny
variable {K ω : Type}

/-- The episode occurs in the sources of a stored fact. -/
def MemoryStore.Names (s : MemoryStore K) (id : ℕ) : Prop :=
  ∃ fact ∈ s.facts, id ∈ fact.sourceEpisodeIds

theorem MemoryStore.names_iff {s : MemoryStore K} {id : ℕ} :
    s.Names id ↔ ∃ key sources, s.Holds key sources ∧ id ∈ sources := by
  constructor
  · rintro ⟨fact, stored, named⟩
    exact ⟨fact.key, fact.sourceEpisodeIds, ⟨fact, stored, rfl, rfl⟩, named⟩
  · rintro ⟨key, sources, ⟨fact, stored, rfl, rfl⟩, named⟩
    exact ⟨fact, stored, named⟩

namespace Consolidator
variable [Field K] [LinearOrder K] {c : Consolidator K ω} {s t : MemoryWorld K ω}

/-- The key a cluster is written under, given the model's reply. -/
def keyOf (w : Written K) : String × String := (summaryOf w.episodes w.reply).key

/-- The write a cluster amounts to. -/
def writeOf (w : Written K) : (String × String) × List ℕ :=
  (keyOf w, w.episodes.map EpisodeRow.id)

/-! ### What a pass writes -/

theorem consolidate_holds {episodes : List (EpisodeRow K)} {w : Written K}
    (ran : c.consolidate episodes s = (.ok w, t)) :
    w.episodes = episodes ∧ t.store.Holds = LastWrite.written s.store.Holds (writeOf w) := by
  obtain ⟨reply, s₁, replied, ran⟩ := Prog.ok_of_bind ran
  obtain ⟨fact, s₂, asserted, ran⟩ := Prog.ok_of_bind ran
  cases ran
  rw [← MemoryWorld.outside_store replied]
  exact ⟨rfl, SemanticMemory.upsertFact_holds asserted⟩

theorem collect_holds {clusters : List (List (EpisodeRow K))} {written : List (Written K)}
    (ran : Prog.collect clusters c.consolidate s = (.ok written, t)) :
    written.map Written.episodes = clusters ∧
      t.store.Holds = (written.map writeOf).foldl LastWrite.written s.store.Holds := by
  induction clusters generalizing s written with
  | nil =>
      cases ran
      exact ⟨rfl, rfl⟩
  | cons episodes clusters ih =>
      obtain ⟨w, s₁, first, ran⟩ := Prog.ok_of_bind ran
      obtain ⟨ws, s₂, rest, ran⟩ := Prog.ok_of_bind ran
      cases ran
      obtain ⟨same, holds⟩ := consolidate_holds first
      obtain ⟨others, after⟩ := ih rest
      refine ⟨by rw [List.map_cons, same, others], ?_⟩
      rw [List.map_cons, List.foldl_cons, ← holds]
      exact after

/-- A completed pass wrote its clusters in order, each under its key. -/
theorem run_holds {limit : Option ℕ} {written : List (Written K)}
    (ran : c.run limit s = (.ok written, t)) :
    written.map Written.episodes = c.clusters (c.recent limit s.store) ∧
      t.store.Holds = (written.map writeOf).foldl LastWrite.written s.store.Holds := by
  unfold run at ran
  rw [Prog.reads_bind] at ran
  cases none : (c.recent limit s.store).isEmpty with
  | true =>
      rw [if_pos none] at ran
      cases ran
      rw [List.isEmpty_iff.mp none]
      exact ⟨rfl, rfl⟩
  | false =>
      rw [if_neg (by simp [none])] at ran
      exact collect_holds ran

/-! ### What becomes of an episode -/

/-- Each cluster of the pass is the last of its key, or its episodes are named by facts
that the pass does not touch. -/
def KeysApart (written : List (Written K)) (s : MemoryStore K) : Prop :=
  ∀ earlier w later, written = earlier ++ w :: later →
    (∀ w' ∈ later, keyOf w' ≠ keyOf w) ∨
      ∀ row ∈ w.episodes, ∃ fact ∈ s.facts, row.id ∈ fact.sourceEpisodeIds ∧
        fact.key ∉ written.map keyOf

theorem keys_map (written : List (Written K)) :
    (written.map writeOf).map Prod.fst = written.map keyOf := by
  rw [List.map_map]
  rfl

omit [Field K] [LinearOrder K] in
theorem id_mem {ws : List (Written K)} {w : Written K} {id : ℕ} (member : w ∈ ws)
    (inside : id ∈ w.episodes.map EpisodeRow.id) :
    id ∈ (ws.flatMap Written.episodes).map EpisodeRow.id := by
  obtain ⟨row, inCluster, rfl⟩ := List.mem_map.mp inside
  exact List.mem_map_of_mem (List.mem_flatMap.mpr ⟨w, member, inCluster⟩)

omit [Field K] [LinearOrder K] in
/-- Where no episode is twice in the clusters, an episode has one cluster and one place. -/
theorem own_cluster {written earlier later earlier' later' : List (Written K)} {w w' : Written K}
    {id : ℕ} (unique : ((written.flatMap Written.episodes).map EpisodeRow.id).Nodup)
    (split : written = earlier ++ w :: later) (split' : written = earlier' ++ w' :: later')
    (inside : id ∈ w.episodes.map EpisodeRow.id) (inside' : id ∈ w'.episodes.map EpisodeRow.id) :
    w' = w ∧ later' = later := by
  rw [split, List.flatMap_append, List.flatMap_cons, List.map_append, List.map_append] at unique
  obtain ⟨-, tail, apartEarlier⟩ := List.nodup_append.mp unique
  obtain ⟨-, -, apartLater⟩ := List.nodup_append.mp tail
  rcases List.append_eq_append_iff.mp (split.symm.trans split') with
    ⟨middle, front, back⟩ | ⟨middle, front, back⟩
  · cases middle with
    | nil =>
        injection back with same tails
        exact ⟨same.symm, tails.symm⟩
    | cons x middle =>
        injection back with _ tails
        have among : w' ∈ later := by
          rw [show later = middle ++ w' :: later' from tails]
          exact List.mem_append_right _ List.mem_cons_self
        exact absurd rfl (apartLater id inside id (id_mem among inside'))
  · cases middle with
    | nil =>
        injection back with same tails
        exact ⟨same, tails⟩
    | cons x middle =>
        injection back with same _
        have among : w' ∈ earlier := by
          rw [front, same]
          exact List.mem_append_right _ List.mem_cons_self
        refine absurd rfl (apartEarlier id (id_mem among inside') id ?_)
        exact List.mem_append_left _ inside

theorem isLast_writeOf {written : List (Written K)} {key : String × String} {sources : List ℕ} :
    LastWrite.IsLast (written.map writeOf) key sources ↔
      ∃ w, (∃ earlier later, written = earlier ++ w :: later ∧
        ∀ w' ∈ later, keyOf w' ≠ keyOf w) ∧ key = keyOf w ∧
          sources = w.episodes.map EpisodeRow.id := by
  constructor
  · rintro ⟨earlier, later, split, last⟩
    obtain ⟨before, rest, rfl, rfl, tail⟩ := List.map_eq_append_iff.mp split
    obtain ⟨w, after, rfl, same, rfl⟩ := List.map_eq_cons_iff.mp tail
    injection same with same_key same_sources
    refine ⟨w, ⟨before, after, rfl, ?_⟩, same_key.symm, same_sources.symm⟩
    intro w' member same
    apply last
    rw [keys_map, ← same_key]
    exact List.mem_map.mpr ⟨w', member, same⟩
  · rintro ⟨w, ⟨earlier, later, rfl, fresh⟩, rfl, rfl⟩
    refine ⟨earlier.map writeOf, later.map writeOf, by rw [List.map_append]; rfl, ?_⟩
    rw [keys_map]
    intro member
    obtain ⟨w', later, same⟩ := List.mem_map.mp member
    exact fresh w' later same

/-- After a completed pass every recent episode is named by a stored fact exactly where
the keys of its clusters are apart. -/
theorem provenance_kept_iff (c : Consolidator K ω) (limit : Option ℕ) {written : List (Written K)}
    (ran : c.run limit s = (.ok written, t))
    (keyed : (s.store.episodes.map EpisodeRow.id).Nodup) :
    (∀ row ∈ c.recent limit s.store, t.store.Names row.id) ↔ KeysApart written s.store := by
  obtain ⟨clustered, holds⟩ := run_holds ran
  have parted : (written.flatMap Written.episodes).Perm (c.recent limit s.store) := by
    rw [List.flatMap_def, clustered]
    exact clusterEpisodes_perm _ _ _ _
  have unique : ((written.flatMap Written.episodes).map EpisodeRow.id).Nodup := by
    refine (parted.map _).nodup_iff.mpr ?_
    refine List.Nodup.sublist ((List.take_sublist _ _).map _) ?_
    exact (((List.perm_insertionSort _ _).map _).nodup_iff).mpr keyed
  have named (id : ℕ) : t.store.Names id ↔
      (∃ earlier w later, written = earlier ++ w :: later ∧ id ∈ w.episodes.map EpisodeRow.id ∧
        ∀ w' ∈ later, keyOf w' ≠ keyOf w) ∨
      ∃ fact ∈ s.store.facts, id ∈ fact.sourceEpisodeIds ∧ fact.key ∉ written.map keyOf := by
    rw [MemoryStore.names_iff, holds]
    constructor
    · rintro ⟨key, sources, held, inside⟩
      rcases (LastWrite.foldl_written_iff _ _ _ _).mp held with last | ⟨untouched, fact, stored, rfl, rfl⟩
      · obtain ⟨w, ⟨earlier, later, split, fresh⟩, rfl, rfl⟩ := isLast_writeOf.mp last
        exact .inl ⟨earlier, w, later, split, inside, fresh⟩
      · rw [keys_map] at untouched
        exact .inr ⟨fact, stored, inside, untouched⟩
    · rintro (⟨earlier, w, later, split, inside, fresh⟩ | ⟨fact, stored, inside, untouched⟩)
      · refine ⟨keyOf w, w.episodes.map EpisodeRow.id, ?_, inside⟩
        refine (LastWrite.foldl_written_iff _ _ _ _).mpr (.inl ?_)
        exact isLast_writeOf.mpr ⟨w, ⟨earlier, later, split, fresh⟩, rfl, rfl⟩
      · refine ⟨fact.key, fact.sourceEpisodeIds, ?_, inside⟩
        refine (LastWrite.foldl_written_iff _ _ _ _).mpr (.inr ⟨?_, fact, stored, rfl, rfl⟩)
        rwa [keys_map]
  constructor
  · intro all earlier w later split
    by_cases last : ∀ w' ∈ later, keyOf w' ≠ keyOf w
    · exact .inl last
    refine .inr fun row inCluster => ?_
    have inside : row.id ∈ w.episodes.map EpisodeRow.id := List.mem_map_of_mem inCluster
    have recent : row ∈ c.recent limit s.store := by
      refine parted.mem_iff.mp (List.mem_flatMap.mpr ⟨w, ?_, inCluster⟩)
      rw [split]
      exact List.mem_append_right _ List.mem_cons_self
    -- the cluster that still names the episode can only be its own, which is not the last
    rcases (named row.id).mp (all row recent) with ⟨_, w', later', split', inside', fresh⟩ | older
    · obtain ⟨rfl, rfl⟩ := own_cluster unique split split' inside inside'
      exact absurd fresh last
    · exact older
  · intro apart row recent
    obtain ⟨w, inWritten, inCluster⟩ := List.mem_flatMap.mp (parted.mem_iff.mpr recent)
    obtain ⟨earlier, later, split⟩ := List.append_of_mem inWritten
    rcases apart earlier w later split with last | older
    · exact (named row.id).mpr (.inl ⟨earlier, w, later, split, List.mem_map_of_mem inCluster, last⟩)
    · exact (named row.id).mpr (.inr (older row inCluster))

end Consolidator

/-! ### Two themes of one kind -/

namespace TwoThemes

/-- Every provider is tired, so every cluster gets the fallback fact. -/
def consolidator : Consolidator ℚ Unit where
  semantic := ⟨fun _ => pure [1, 0]⟩
  router := some fun _ _ _ _ => Prog.raise (.exception .llmUnavailable "all providers tired")
  prompt := "Distil the fragments."
  parseConsolidation _ := .error (.exception .validationError "unreachable")
  recentLimit := 80
  clusterThreshold := frac 6 10
  maxClusters := 8
  maxTokens := 4096
  sqrt x := x

def tea : EpisodeRow ℚ where
  id := 1
  ts := 0
  kind := "interaction"
  content := "Dan said: tea?"
  salience := frac 1 2
  embedding := [1, 0]

def storm (kind : String) : EpisodeRow ℚ where
  id := 2
  ts := 1
  kind := kind
  content := "Dan said: a storm is coming"
  salience := frac 1 2
  embedding := [0, 1]

def memory (kind : String) : MemoryWorld ℚ Unit :=
  { store := { episodes := [tea, storm kind], nextEpisode := 3 }, world := () }

end TwoThemes

open TwoThemes in
/-- Two clusters of interactions share the fallback key, and the second overwrites the
sources of the first. -/
theorem fallback_key_overwrites :
    let r := consolidator.run none (memory "interaction")
    r.1.toOption.any (fun written =>
        decide (written.filterMap fun w => w.reply.map ConsolidationSummary.key).Nodup) = true ∧
      storm "interaction" ∈ consolidator.recent none (memory "interaction").store ∧
      ¬ r.2.store.Names (storm "interaction").id := by
  refine ⟨by decide +kernel, by decide +kernel, ?_⟩
  unfold MemoryStore.Names
  decide +kernel

open TwoThemes in
theorem kinds_apart_keep :
    ∃ written t, consolidator.run none (memory "ambient") = (.ok written, t) ∧
      ((∀ row ∈ consolidator.recent none (memory "ambient").store, t.store.Names row.id) ↔
        Consolidator.KeysApart written (memory "ambient").store) := by
  have returned : (consolidator.run none (memory "ambient")).1.toOption.isSome = true := by
    decide +kernel
  rcases ran : consolidator.run none (memory "ambient") with ⟨r, t⟩
  rw [ran] at returned
  cases r with
  | error e => cases returned
  | ok written =>
      exact ⟨written, t, rfl, Consolidator.provenance_kept_iff consolidator none ran
        (by decide +kernel)⟩

end Johnny
