import Johnny.Brain.Cycle

/-!
# Attention

Every candidate, percept or working-memory item, is scored by its salience and its
novelty under the affective bias, and the best few are admitted. Contents surfaced lately
count as less novel. Equal contents compete for one slot.
-/
namespace Johnny

structure Attention (K : Type) where
  capacity : ℕ
  weightSalience : K
  weightNovelty : K
  repeatPenalty : K
  weightArousal : K
  noveltyHorizon : ℕ

/-- What a selection remembers, and the bias of the next one. -/
structure AttentionState (K : Type) where
  /-- The contents surfaced lately, oldest first. -/
  recent : List String := []
  bias : AttentionBias K

namespace Attention
variable {K : Type}

section dedupe
variable [LT K] [DecidableLT K]

/-- The better of an item and the one that holds its slot. -/
def compete (best : List (String × WorkspaceItem K)) (item : WorkspaceItem K) :
    List (String × WorkspaceItem K) :=
  match dictGet best item.content with
  | none => dictSet best item.content item
  | some existing =>
    if existing.salience < item.salience then dictSet best item.content item else best

def dedupe (items : List (WorkspaceItem K)) : List (WorkspaceItem K) :=
  (items.foldl compete []).map Prod.snd

theorem mem_compete {best : List (String × WorkspaceItem K)} {item : WorkspaceItem K}
    {entry : String × WorkspaceItem K} (member : entry ∈ compete best item) :
    entry ∈ best ∨ entry.2 = item := by
  have placed (inside : entry ∈ dictSet best item.content item) : entry ∈ best ∨ entry.2 = item := by
    rcases mem_dictSet inside with old | rfl
    · exact .inl old
    · exact .inr rfl
  unfold compete at member
  split at member
  · exact placed member
  · split at member
    · exact placed member
    · exact .inl member

theorem mem_dedupe {items : List (WorkspaceItem K)} {item : WorkspaceItem K}
    (member : item ∈ dedupe items) : item ∈ items := by
  have source (best : List (String × WorkspaceItem K)) :
      ∀ entry ∈ items.foldl compete best, entry ∈ best ∨ entry.2 ∈ items := by
    clear member
    induction items generalizing best with
    | nil => exact fun entry inside => .inl inside
    | cons first items ih =>
        intro entry inside
        rcases ih (compete best first) entry inside with old | new
        · rcases mem_compete old with older | rfl
          · exact .inl older
          · exact .inr List.mem_cons_self
        · exact .inr (List.mem_cons_of_mem first new)
  obtain ⟨entry, inside, rfl⟩ := List.mem_map.mp member
  rcases source [] entry inside with none | given
  · cases none
  · exact given

end dedupe

variable [Field K] [LinearOrder K]

/-- `_novelty`: one for unseen content, less each time it recurs. -/
def novelty (a : Attention K) (s : AttentionState K) (content : String) : K :=
  a.repeatPenalty ^ s.recent.count content

def score (a : Attention K) (s : AttentionState K) (item : WorkspaceItem K) : K :=
  let base := a.weightSalience * item.salience + a.weightNovelty * a.novelty s item.content +
    (dictGet s.bias.kindBoosts item.kind.label).getD 0
  let sharpen := 1 + a.weightArousal * (s.bias.arousal - frac 3 10) * (item.salience - frac 1 2)
  max 0 (base * sharpen)

/-- `_remember`, in a window of bounded length. -/
def remember (a : Attention K) (contents : List String) (s : AttentionState K) : AttentionState K :=
  let all := s.recent ++ contents
  { s with recent := all.drop (all.length - a.noveltyHorizon) }

/-- The admitted items, each with its score for a salience. -/
def admitted (a : Attention K) (s : AttentionState K)
    (working percepts : List (WorkspaceItem K)) : List (WorkspaceItem K) :=
  let scored := (dedupe (percepts ++ working)).map fun item => (a.score s item, item)
  ((scored.insertionSort fun x y => y.1 ≤ x.1).take a.capacity).map fun pair =>
    { pair.2 with salience := clamp01 pair.1 }

def select (a : Attention K) (working percepts : List (WorkspaceItem K)) :
    Prog Failure (AttentionState K) (List (WorkspaceItem K)) := do
  let s ← Prog.reads fun s => s
  let selected := a.admitted s working percepts
  Prog.modify (a.remember (selected.map WorkspaceItem.content))
  pure selected

def setBias (bias : AttentionBias K) : Prog Failure (AttentionState K) Unit :=
  Prog.modify fun s => { s with bias := bias }

/-- What is admitted is a candidate, but for its salience. -/
theorem mem_admitted {a : Attention K} {s : AttentionState K}
    {working percepts : List (WorkspaceItem K)} {item : WorkspaceItem K}
    (member : item ∈ a.admitted s working percepts) :
    ∃ candidate ∈ percepts ++ working,
      item.kind = candidate.kind ∧ item.content = candidate.content := by
  obtain ⟨pair, taken, rfl⟩ := List.mem_map.mp member
  have scored := (List.perm_insertionSort _ _).mem_iff.mp (List.mem_of_mem_take taken)
  obtain ⟨candidate, inside, rfl⟩ := List.mem_map.mp scored
  exact ⟨candidate, mem_dedupe inside, rfl, rfl⟩

end Attention
end Johnny
