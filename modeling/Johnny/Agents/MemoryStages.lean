import Johnny.Agents.Experience
import Johnny.Memory.Recall

/-!
# The RECALL and LEARN stages

RECALL asks the memory stores about the most salient of the focus and brings what they
return into the workspace, below the ceiling. LEARN writes every interaction at once, and
an idle thought only on a slow cadence. The stores are outside.
-/
namespace Johnny

def queryFocusItems : ℕ := 3

structure MemoryRecaller (K ω : Type) where
  recallEpisodes : String → ℤ → Option (RecallWeights K) → Prog Failure ω (List (Episode K))
  recallFacts : String → ℤ → Prog Failure ω (List (RecalledFact K))
  episodesK : ℤ
  factsK : ℤ
  ceiling : K
  baseWeights : RecallWeights K
  arousalGain : K

namespace MemoryRecaller
variable {K ω : Type} [Field K] [LinearOrder K]

/-- `_biased_weights`: nothing where the mood is at rest. -/
def biasedWeights (r : MemoryRecaller K ω) (mood : Option (Mood K)) : Option (RecallWeights K) :=
  match mood with
  | none => none
  | some mood =>
    let excess := max 0 (mood.arousal - frac 3 10)
    if excess ≤ 0 then none
    else some { r.baseWeights with
      salience := r.baseWeights.salience * (1 + r.arousalGain * excess) }

omit [Field K] in
/-- `_build_query`: the most salient of the focus that are not ambient, if there are any. -/
def buildQuery (focus : List (WorkspaceItem K)) : String :=
  let notable := focus.filter fun item => item.kind != .ambient
  let chosen := if notable = [] then focus else notable
  let first := (chosen.insertionSort fun a b => b.salience ≤ a.salience).take queryFocusItems
  strip (" ".intercalate (first.map WorkspaceItem.content))

/-- `_episodes_to_items`: scores are relative to the best of the batch. -/
def episodesToItems (r : MemoryRecaller K ω) (episodes : List (Episode K)) :
    List (WorkspaceItem K) :=
  let score (episode : Episode K) := episode.score.getD 0
  let best := (episodes.map score).foldl max ((episodes.map score).headD 0)
  let top := if best = 0 then 1 else best
  episodes.map fun episode =>
    { kind := .memory, content := episode.content
      salience := clamp01 (score episode / top * r.ceiling), source := "episodic" }

def factsToItems (r : MemoryRecaller K ω) (facts : List (RecalledFact K)) :
    List (WorkspaceItem K) :=
  facts.map fun fact =>
    { kind := .fact, content := fact.subject ++ " " ++ fact.predicate ++ " " ++ fact.object
      salience := clamp01 (fact.score.getD 0 * r.ceiling), source := "semantic" }

/-- `recall`, in a mood. -/
def recallFor (r : MemoryRecaller K ω) (mood : Option (Mood K)) (focus : List (WorkspaceItem K)) :
    Prog Failure ω (List (WorkspaceItem K)) := do
  let query := buildQuery focus
  if query = "" then pure []
  else do
    let episodes ← r.recallEpisodes query r.episodesK (r.biasedWeights mood)
    let facts ← r.recallFacts query r.factsK
    pure (r.episodesToItems episodes ++ r.factsToItems facts)

end MemoryRecaller

/-! ### LEARN -/

structure EpisodicLearner (K ω : Type) where
  write : Episode K → Prog Failure ω Unit
  idleEveryTicks : ℤ

namespace EpisodicLearner
variable {K ω : Type} [Field K]

/-- What `_write_interaction` writes. -/
def interaction (heard : List String) (thought : Option String) : Episode K :=
  let said := "Dan said: " ++ " / ".intercalate heard ++ "."
  { kind := "interaction"
    content := match thought with
      | none => said
      | some thought => if thought = "" then said else said ++ " I thought: " ++ thought
    actors := ["dan", "johnny"]
    salience := frac 3 4 }

/-- What `_write_reflection` writes. -/
def reflection (thought : String) : Episode K :=
  { kind := "reflection", content := thought, actors := ["johnny"], salience := frac 1 2 }

def writeInteraction (l : EpisodicLearner K ω) (heard : List String) (thought : Option String) :
    Prog Failure (Experience K ω) Unit := do
  Experience.note fun tick => .wrote tick heard
  Experience.outside (l.write (interaction heard thought))

def writeReflection (l : EpisodicLearner K ω) (thought : String) :
    Prog Failure (Experience K ω) Unit :=
  Experience.outside (l.write (reflection thought))

/-- The texts of the inputs among the contents. -/
def heardIn (contents : List (WorkspaceItem K)) : List String :=
  (contents.filter fun item => item.kind == .input).map WorkspaceItem.content

/-- `learn`: an interaction always, an idle thought rarely. -/
def learn (l : EpisodicLearner K ω) (contents : List (WorkspaceItem K)) (thought : Option String) :
    Prog Failure (Experience K ω) Unit := do
  Prog.modify fun e => { e with learnerTicks := e.learnerTicks + 1 }
  let ticks ← Prog.reads Experience.learnerTicks
  let heard := heardIn contents
  if heard ≠ [] then l.writeInteraction heard thought
  else Prog.onSome thought fun text =>
    Prog.onlyIf (text ≠ "" ∧ (ticks : ℤ) % max 1 l.idleEveryTicks = 0) (l.writeReflection text)

end EpisodicLearner
end Johnny
