import Johnny.Lib.LastWrite
import Johnny.Lib.Prog
import Johnny.Brain.State
import Johnny.Memory.Store

/-!
# Semantic memory

Facts are keyed by subject and predicate. Asserting a fact again overwrites its object,
confidence, provenance and embedding in place.
-/
namespace Johnny

/-- The memory tables beside the world outside. -/
structure MemoryWorld (K ω : Type) where
  store : MemoryStore K
  world : ω

namespace MemoryWorld
variable {K ω α : Type}

def outside (p : Prog Failure ω α) : Prog Failure (MemoryWorld K ω) α :=
  Prog.zoom MemoryWorld.world (fun w s => { s with world := w }) p

theorem outside_store {p : Prog Failure ω α} {s t : MemoryWorld K ω} {a : α}
    (ran : outside p s = (.ok a, t)) : t.store = s.store :=
  (congrArg (fun r => r.2.store) ran).symm

/-- A transaction on the tables. -/
def transact (f : MemoryStore K → MemoryStore K) : Prog Failure (MemoryWorld K ω) Unit :=
  Prog.modify fun s => { s with store := f s.store }

end MemoryWorld

structure SemanticMemory (K ω : Type) where
  embedOne : String → Prog Failure ω (List K)

variable {K ω : Type}

def SemanticFactRow.key (f : SemanticFactRow K) : String × String := (f.subject, f.predicate)

/-- The text a fact is embedded as. -/
def factText (subject predicate obj : String) : String := subject ++ " " ++ predicate ++ " " ++ obj

/-- The insert, or, on a conflict of the key, the update in place. -/
def MemoryStore.upsert (s : MemoryStore K) (fact : SemanticFactRow K) : MemoryStore K :=
  if s.facts.any fun f => f.key == fact.key then
    { s with facts := s.facts.map fun f =>
        if f.key = fact.key then { fact with id := f.id } else f }
  else { s with facts := s.facts ++ [{ fact with id := s.nextFact }], nextFact := s.nextFact + 1 }

namespace SemanticMemory
variable [Field K] [LinearOrder K]

def upsertFact (m : SemanticMemory K ω) (subject predicate obj : String) (confidence : K)
    (sourceEpisodeIds : List ℕ) : Prog Failure (MemoryWorld K ω) SemanticFact := do
  let embedding ← MemoryWorld.outside (m.embedOne (factText subject predicate obj))
  MemoryWorld.transact fun s => s.upsert {
    id := 0, subject := subject, predicate := predicate, object := obj
    confidence := clamp01 confidence
    sourceEpisodeIds := sourceEpisodeIds, embedding := embedding }
  pure ⟨subject, predicate, obj⟩

end SemanticMemory

/-! ### The provenance a store holds -/

namespace MemoryStore

/-- Some stored fact of this key has these sources. -/
def Holds (s : MemoryStore K) (key : String × String) (sources : List ℕ) : Prop :=
  ∃ fact ∈ s.facts, fact.key = key ∧ fact.sourceEpisodeIds = sources

/-- The upsert is a write of the key: nothing of its old provenance is kept. -/
theorem holds_upsert (s : MemoryStore K) (fact : SemanticFactRow K) :
    (s.upsert fact).Holds = LastWrite.written s.Holds (fact.key, fact.sourceEpisodeIds) := by
  funext key sources
  apply propext
  unfold upsert LastWrite.written
  split
  case isTrue known =>
    obtain ⟨old, stored, same⟩ := List.any_eq_true.mp known
    have same : old.key = fact.key := beq_iff_eq.mp same
    constructor
    · rintro ⟨row, member, rfl, rfl⟩
      obtain ⟨f, inFacts, rfl⟩ := List.mem_map.mp member
      by_cases hit : f.key = fact.key
      · rw [if_pos hit]
        exact .inl ⟨rfl, rfl⟩
      · rw [if_neg hit]
        exact .inr ⟨hit, f, inFacts, rfl, rfl⟩
    · rintro (⟨rfl, rfl⟩ | ⟨other, f, inFacts, rfl, rfl⟩)
      · exact ⟨_, List.mem_map_of_mem stored, by rw [if_pos same]; rfl, by rw [if_pos same]⟩
      · exact ⟨_, List.mem_map_of_mem inFacts, by rw [if_neg other], by rw [if_neg other]⟩
  case isFalse unknown =>
    have fresh : ∀ f ∈ s.facts, f.key ≠ fact.key := by
      intro f inFacts same
      exact unknown (List.any_eq_true.mpr ⟨f, inFacts, beq_iff_eq.mpr same⟩)
    constructor
    · rintro ⟨row, member, rfl, rfl⟩
      rcases List.mem_append.mp member with old | new
      · exact .inr ⟨fresh row old, row, old, rfl, rfl⟩
      · rw [List.mem_singleton.mp new]
        exact .inl ⟨rfl, rfl⟩
    · rintro (⟨rfl, rfl⟩ | ⟨other, f, inFacts, rfl, rfl⟩)
      · exact ⟨_, List.mem_append_right _ (List.mem_singleton_self _), rfl, rfl⟩
      · exact ⟨f, List.mem_append_left _ inFacts, rfl, rfl⟩

end MemoryStore

theorem SemanticMemory.upsertFact_holds [Field K] [LinearOrder K] {m : SemanticMemory K ω}
    {subject predicate obj : String} {confidence : K} {sources : List ℕ} {fact : SemanticFact}
    {s t : MemoryWorld K ω}
    (ran : m.upsertFact subject predicate obj confidence sources s = (.ok fact, t)) :
    t.store.Holds = LastWrite.written s.store.Holds ((subject, predicate), sources) := by
  obtain ⟨embedding, s₁, embedded, ran⟩ := Prog.ok_of_bind ran
  cases ran
  rw [← MemoryWorld.outside_store embedded]
  exact MemoryStore.holds_upsert _ _

end Johnny
