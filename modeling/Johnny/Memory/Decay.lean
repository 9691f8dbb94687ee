import Johnny.Lib.Halving
import Johnny.Brain.State
import Johnny.Memory.Store
import Mathlib.Data.List.Sort

/-!
# Memory decay and merge

One pass re-scores a bounded number of episodes by age, strengthens the charged ones,
and merges near-duplicate facts. A pass runs in one transaction.
-/
namespace Johnny

structure MemoryDecay (K : Type) [Field K] [LinearOrder K] where
  episodeLimit : ℕ
  halflifeSeconds : K
  salienceFloor : K
  chargedBoost : K
  mergeThreshold : K
  /-- A salience is rewritten only when it moves by more than this. -/
  writeTolerance : K
  /-- `0.5 ** x`. -/
  halving : Halving K
  /-- `math.sqrt`. -/
  sqrt : K → K

section projection
variable {K : Type} [Field K] [LinearOrder K]

/-- The new salience of an episode given its age. -/
def adjustedSalience (halving : Halving K) (salience ts now halflifeSeconds floor : K)
    (charged : Bool) (chargedBoost : K) : K :=
  let age := max 0 (now - ts)
  let retained := if 0 < halflifeSeconds then halving.pow (age / halflifeSeconds) else 1
  let value := relax floor retained salience
  clamp01 (if charged then value + chargedBoost * (1 - value) else value)

end projection

namespace MemoryDecay
variable {K : Type} [Field K] [LinearOrder K]

/-! ### Episodic decay -/

/-- The sweep: the oldest episodes, up to the limit. -/
def sweep (d : MemoryDecay K) (s : MemoryStore K) : List (EpisodeRow K) :=
  (s.episodes.insertionSort fun a b => a.ts ≤ b.ts).take d.episodeLimit

/-- Emotion-tagged, or distilled into a fact. -/
def charged (s : MemoryStore K) (row : EpisodeRow K) : Bool :=
  !row.emotionTags.isEmpty || decide (row.id ∈ s.consolidatedSourceIds)

def rescored (d : MemoryDecay K) (s : MemoryStore K) (now : K) (row : EpisodeRow K) : K :=
  adjustedSalience d.halving row.salience row.ts now d.halflifeSeconds d.salienceFloor
    (charged s row) d.chargedBoost

def lowers (d : MemoryDecay K) (s : MemoryStore K) (now : K) (row : EpisodeRow K) : Bool :=
  decide (d.rescored s now row < row.salience - d.writeTolerance)

def raises (d : MemoryDecay K) (s : MemoryStore K) (now : K) (row : EpisodeRow K) : Bool :=
  decide (row.salience + d.writeTolerance < d.rescored s now row)

/-- The row as the pass leaves it, where the sweep reaches it. -/
def decayRow (d : MemoryDecay K) (s : MemoryStore K) (now : K) (row : EpisodeRow K) :
    EpisodeRow K :=
  if d.lowers s now row || d.raises s now row then { row with salience := d.rescored s now row }
  else row

def inSweep (d : MemoryDecay K) (s : MemoryStore K) (id : ℕ) : Bool :=
  (d.sweep s).any fun row => row.id == id

/-- Re-scores the sweep, with the numbers of faded and strengthened rows. -/
def decayEpisodes (d : MemoryDecay K) (s : MemoryStore K) (now : K) : MemoryStore K × ℕ × ℕ :=
  ({ s with episodes := s.episodes.map fun row =>
      if d.inSweep s row.id then d.decayRow s now row else row },
    (d.sweep s).countP (d.lowers s now),
    (d.sweep s).countP fun row => !d.lowers s now row && d.raises s now row)

/-! ### Semantic merge -/

/-- Joins the first group whose earliest member is similar enough, or seeds its own. -/
def joinGroup (similar : SemanticFactRow K → SemanticFactRow K → Bool) (fact : SemanticFactRow K) :
    List (List (SemanticFactRow K)) → List (List (SemanticFactRow K))
  | [] => [[fact]]
  | group :: groups =>
    if group.head?.any (similar fact) then (group ++ [fact]) :: groups
    else group :: joinGroup similar fact groups

def duplicateFactGroups (d : MemoryDecay K) (facts : List (SemanticFactRow K)) :
    List (List (SemanticFactRow K)) :=
  facts.foldl (fun groups fact => joinGroup (fun fact representative =>
    decide (d.mergeThreshold ≤ cosineSimilarity d.sqrt fact.embedding representative.embedding))
      fact groups) []

/-- Re-aims the edges of the duplicates at the survivor; a loop or a repeated
`(from, to, relation)` is dropped. -/
def repointEdges (edges : List SemanticEdgeRow) (dupIds : List ℕ) (survivor : ℕ) :
    List SemanticEdgeRow :=
  let aim (id : ℕ) := if id ∈ dupIds then survivor else id
  let affected := edges.filter fun e => decide (e.fromFact ∈ dupIds ∨ e.toFact ∈ dupIds)
  let others := edges.filter fun e => !decide (e.fromFact ∈ dupIds ∨ e.toFact ∈ dupIds)
  affected.foldl (fun kept e =>
    let moved := { e with fromFact := aim e.fromFact, toFact := aim e.toFact }
    if moved.fromFact = moved.toFact ∨ kept.any (fun k =>
        decide (k.fromFact = moved.fromFact ∧ k.toFact = moved.toFact ∧
          k.relation = moved.relation)) then kept
    else kept ++ [moved]) others

/-- Collapses a group into its earliest member. -/
def mergeGroup (s : MemoryStore K) : List (SemanticFactRow K) → MemoryStore K
  | [] => s
  | survivor :: dups =>
    if dups = [] then s
    else
      let provenance := ((survivor :: dups).flatMap SemanticFactRow.sourceEpisodeIds).dedup
      let merged := { survivor with
        sourceEpisodeIds := provenance.insertionSort (· ≤ ·)
        confidence := dups.foldl (fun c dup => max c dup.confidence) survivor.confidence }
      let dupIds := dups.map SemanticFactRow.id
      { s with
        facts := (s.facts.filter fun f => !decide (f.id ∈ dupIds)).map fun f =>
          if f.id = survivor.id then merged else f
        edges := repointEdges s.edges dupIds survivor.id }

/-- Merges near-duplicate facts, with the number of rows merged away. -/
def mergeFacts (d : MemoryDecay K) (s : MemoryStore K) : MemoryStore K × ℕ :=
  let groups := d.duplicateFactGroups (s.facts.insertionSort fun a b => a.id ≤ b.id)
  (groups.foldl mergeGroup s, (groups.map fun group => group.tail.length).sum)

/-- Both passes, at `now`. -/
def run (d : MemoryDecay K) (now : K) (s : MemoryStore K) : MemoryStore K × DecayReport :=
  let faded := d.decayEpisodes s now
  let merged := d.mergeFacts faded.1
  (merged.1, { episodesDecayed := faded.2.1, episodesStrengthened := faded.2.2,
               factsMerged := merged.2 })

/-! ### What a pass does to an episode -/

variable {d : MemoryDecay K} {s : MemoryStore K}

omit [Field K] in
theorem mergeGroup_episodes (s : MemoryStore K) (group : List (SemanticFactRow K)) :
    (mergeGroup s group).episodes = s.episodes := by
  cases group with
  | nil => rfl
  | cons survivor dups =>
      simp only [mergeGroup]
      split <;> rfl

/-- The merge leaves episodic memory alone. -/
theorem mergeFacts_episodes (d : MemoryDecay K) (s : MemoryStore K) :
    (d.mergeFacts s).1.episodes = s.episodes := by
  unfold mergeFacts
  generalize d.duplicateFactGroups _ = groups
  dsimp only
  induction groups generalizing s with
  | nil => rfl
  | cons group groups ih => rw [List.foldl_cons, ih, mergeGroup_episodes]

theorem decayRow_id (now : K) (row : EpisodeRow K) : (d.decayRow s now row).id = row.id := by
  unfold decayRow
  split <;> rfl

/-- No episode is deleted: each is re-scored in place, where the sweep reaches it. -/
theorem run_episode? (d : MemoryDecay K) (now : K) (s : MemoryStore K) (id : ℕ) :
    (d.run now s).1.episode? id = (s.episode? id).map fun row =>
      if d.inSweep s id then d.decayRow s now row else row := by
  have found (rows : List (EpisodeRow K)) :
      (rows.map fun row => if d.inSweep s row.id then d.decayRow s now row else row).find?
          (fun row => row.id == id) =
        (rows.find? fun row => row.id == id).map fun row =>
          if d.inSweep s id then d.decayRow s now row else row := by
    induction rows with
    | nil => rfl
    | cons row rows ih =>
        have same : (if d.inSweep s row.id then d.decayRow s now row else row).id = row.id := by
          split
          · exact decayRow_id now row
          · rfl
        rw [List.map_cons, List.find?_cons, List.find?_cons, same]
        by_cases here : row.id = id
        · simp [here]
        · rw [beq_eq_false_iff_ne.mpr here]
          exact ih
  unfold MemoryStore.episode? run
  dsimp only
  rw [mergeFacts_episodes]
  exact found s.episodes

end MemoryDecay
end Johnny
