import Johnny.Agents.Sensorium
import Johnny.Lib.Runs
import Mathlib.Data.Rat.Floor

/-!
# What becomes of a popped input

Over any run of pushes and perceives, returned inputs keep the order of the pushes and
none is returned twice. A popped input is accounted for exactly where its batch holds
no malformed entry and no write of its perceive fails.
-/
namespace Johnny
namespace Sensorium
variable {K ω : Type} {s : Sensorium K ω} {entries : List (String × ℕ)}

/-! ### Reading a batch -/

def WellFormed (s : Sensorium K ω) (text : String) : Prop := ∃ raw, s.validateJson text = .ok raw

/-- The inputs of the well-formed entries. -/
def inputsOf (s : Sensorium K ω) (entries : List (String × ℕ)) : List (RawInput × ℕ) :=
  entries.filterMap fun entry => (s.validateEntry entry).toOption

theorem readBatch_cons (s : Sensorium K ω) (entry : String × ℕ) (entries : List (String × ℕ)) :
    s.readBatch (entry :: entries) = match s.validateEntry entry with
      | .error e => .error e
      | .ok raw => (s.readBatch entries).map (raw :: ·) := by
  unfold readBatch
  rw [List.mapM_cons]
  cases s.validateEntry entry with
  | error e => rfl
  | ok raw => cases entries.mapM s.validateEntry <;> rfl

theorem inputsOf_cons {entry : String × ℕ} {raw : RawInput}
    (parsed : s.validateJson entry.1 = .ok raw) :
    s.inputsOf (entry :: entries) = (raw, entry.2) :: s.inputsOf entries := by
  simp [inputsOf, validateEntry, parsed, Except.map, Except.toOption]

theorem readBatch_of_wellFormed (valid : ∀ entry ∈ entries, s.WellFormed entry.1) :
    s.readBatch entries = .ok (s.inputsOf entries) := by
  induction entries with
  | nil => rfl
  | cons entry entries ih =>
      obtain ⟨raw, parsed⟩ := valid entry List.mem_cons_self
      have rest := ih fun e member => valid e (List.mem_cons_of_mem entry member)
      rw [readBatch_cons, validateEntry, parsed, rest, inputsOf_cons parsed]
      rfl

/-- One malformed entry anywhere fails the whole batch. -/
theorem readBatch_of_malformed {entry : String × ℕ} (member : entry ∈ entries)
    (malformed : ¬ s.WellFormed entry.1) : ∃ e, s.readBatch entries = .error e := by
  induction entries with
  | nil => cases member
  | cons first entries ih =>
      rw [readBatch_cons]
      rcases List.mem_cons.mp member with rfl | later
      · cases parsed : s.validateJson entry.1 with
        | ok raw => exact absurd ⟨raw, parsed⟩ malformed
        | error e =>
            simp only [validateEntry, parsed, Except.map]
            exact ⟨e, rfl⟩
      · obtain ⟨e, failed⟩ := ih later
        cases s.validateEntry first with
        | error e' => exact ⟨e', rfl⟩
        | ok raw => exact ⟨e, by rw [failed]; rfl⟩

theorem inputsOf_places (valid : ∀ entry ∈ entries, s.WellFormed entry.1) :
    (s.inputsOf entries).map Prod.snd = entries.map Prod.snd := by
  induction entries with
  | nil => rfl
  | cons entry entries ih =>
      obtain ⟨raw, parsed⟩ := valid entry List.mem_cons_self
      have rest := ih fun e member => valid e (List.mem_cons_of_mem entry member)
      rw [inputsOf_cons parsed, List.map_cons, List.map_cons, rest]

theorem mem_inputsOf {entry : String × ℕ} {raw : RawInput} (member : entry ∈ entries)
    (parsed : s.validateJson entry.1 = .ok raw) : (raw, entry.2) ∈ s.inputsOf entries := by
  refine List.mem_filterMap.mpr ⟨entry, member, ?_⟩
  rw [validateEntry, parsed]
  rfl

/-! ### One perceive -/

variable [Field K] [LinearOrder K] [FloorRing K]

/-- Every well-formed entry popped by this perceive is returned by it, or still queued. -/
def Accounts (s : Sensorium K ω) (senses : Senses ω) : Prop :=
  ∀ entry ∈ senses.queue.batch maxDrainPerTick, ∀ raw, s.validateJson entry.1 = .ok raw →
    (∃ items, (s.perceive senses).1 = .ok items ∧ s.inputItem (raw, entry.2) ∈ items) ∨
      entry ∈ (s.perceive senses).2.queue.placed

/-- The batch ahead holds no well-formed entry; or it holds no malformed one, and the
writes of its percepts and of a due ambient percept all return. -/
def Safe (s : Sensorium K ω) (senses : Senses ω) : Prop :=
  let batch := senses.queue.batch maxDrainPerTick
  (∀ entry ∈ batch, ¬ s.WellFormed entry.1) ∨
    (∀ entry ∈ batch, s.WellFormed entry.1) ∧
      (s.writes (senses.ticks + 1) (s.inputsOf batch) senses.world).1 = .ok ()

theorem accounts_iff_safe (s : Sensorium K ω) (senses : Senses ω) :
    s.Accounts senses ↔ s.Safe senses := by
  obtain ⟨gone, ended⟩ := s.perceive_spec senses
  have taken {entry : String × ℕ} (member : entry ∈ senses.queue.batch maxDrainPerTick) :
      entry ∉ (s.perceive senses).2.queue.placed := by
    rw [gone]
    exact Fifo.not_mem_rest member
  constructor
  · intro accounts
    by_cases useless : ∀ entry ∈ senses.queue.batch maxDrainPerTick, ¬ s.WellFormed entry.1
    · exact .inl useless
    -- some input of the batch was returned, so the whole batch was read and stored
    push Not at useless
    obtain ⟨entry, member, raw, parsed⟩ := useless
    obtain ⟨items, returned, -⟩ := (accounts entry member raw parsed).resolve_right (taken member)
    have valid : ∀ e ∈ senses.queue.batch maxDrainPerTick, s.WellFormed e.1 := by
      intro e among
      by_contra malformed
      obtain ⟨cause, failed⟩ := readBatch_of_malformed among malformed
      rw [failed, returned] at ended
      cases ended
    refine .inr ⟨valid, ?_⟩
    rw [readBatch_of_wellFormed valid] at ended
    dsimp only at ended
    cases stored : (s.writes (senses.ticks + 1)
        (s.inputsOf (senses.queue.batch maxDrainPerTick)) senses.world).1 with
    | ok u => rfl
    | error e =>
        rw [stored, returned] at ended
        cases ended
  · intro safe entry member raw parsed
    rcases safe with useless | ⟨valid, stored⟩
    · exact absurd ⟨raw, parsed⟩ (useless entry member)
    · rw [readBatch_of_wellFormed valid] at ended
      dsimp only at ended
      rw [stored] at ended
      obtain ⟨w, returned⟩ := ended
      refine .inl ⟨_, returned, List.mem_append_left _ ?_⟩
      exact List.mem_map_of_mem (mem_inputsOf member parsed)

/-- The places of the inputs that a perceive returned. -/
def placesOf : Except Failure (List (Sensed K)) → List ℕ
  | .ok items => items.filterMap Sensed.place
  | .error _ => []

theorem placesOf_perceive (s : Sensorium K ω) (senses : Senses ω) :
    placesOf (s.perceive senses).1 = [] ∨
      placesOf (s.perceive senses).1 = (senses.queue.batch maxDrainPerTick).map Prod.snd := by
  obtain ⟨-, ended⟩ := s.perceive_spec senses
  by_cases valid : ∀ entry ∈ senses.queue.batch maxDrainPerTick, s.WellFormed entry.1
  · rw [readBatch_of_wellFormed valid] at ended
    dsimp only at ended
    split at ended
    · exact .inl (by rw [ended]; rfl)
    · obtain ⟨w, returned⟩ := ended
      right
      rw [returned, ← inputsOf_places valid, placesOf, List.filterMap_append]
      simp [ambientItem, List.filterMap_map, Function.comp_def, inputItem]
  · push Not at valid
    obtain ⟨entry, member, malformed⟩ := valid
    obtain ⟨e, failed⟩ := readBatch_of_malformed member malformed
    rw [failed] at ended
    exact .inl (by rw [ended]; rfl)

/-! ### Runs -/

/-- What happens to the Sensorium: an entry is pushed, a tick perceives, or the world
outside changes. -/
inductive Turn (ω : Type) where
  | push (text : String)
  | perceive
  | elsewhere (change : ω → ω)

def turn (s : Sensorium K ω) : Turn ω → Senses ω → Senses ω
  | .push text, senses => { senses with queue := senses.queue.push text }
  | .perceive, senses => (s.perceive senses).2
  | .elsewhere change, senses => { senses with world := change senses.world }

/-- The state after the turns; a failed perceive does not end the run. -/
def run (s : Sensorium K ω) (turns : List (Turn ω)) (senses : Senses ω) : Senses ω :=
  runSteps s.turn turns senses

def returnedBy (s : Sensorium K ω) : Turn ω → Senses ω → List ℕ
  | .perceive, senses => placesOf (s.perceive senses).1
  | _, _ => []

/-- The places of all the inputs the run returned, in the order they were returned. -/
def returned (s : Sensorium K ω) : List (Turn ω) → Senses ω → List ℕ
  | [], _ => []
  | t :: turns, senses => s.returnedBy t senses ++ s.returned turns (s.turn t senses)

/-- A turn returns places the queue had not handed out yet, in order, and hands them out. -/
theorem returnedBy_spec (s : Sensorium K ω) (t : Turn ω) (senses : Senses ω) :
    (s.returnedBy t senses).Pairwise (· < ·) ∧
      (∀ place ∈ s.returnedBy t senses,
        senses.queue.popped ≤ place ∧ place < (s.turn t senses).queue.popped) ∧
      senses.queue.popped ≤ (s.turn t senses).queue.popped := by
  cases t with
  | push text => exact ⟨.nil, List.forall_mem_nil _, le_rfl⟩
  | elsewhere change => exact ⟨.nil, List.forall_mem_nil _, le_rfl⟩
  | perceive =>
      have gone := (s.perceive_spec senses).1
      simp only [returnedBy, turn, gone]
      refine ⟨?_, ?_, Fifo.rest_popped_le _ _⟩
      · rcases s.placesOf_perceive senses with none | all
        · rw [none]
          exact .nil
        · rw [all]
          exact Fifo.batch_pairwise _ _
      · intro place member
        rcases s.placesOf_perceive senses with none | all
        · rw [none] at member
          cases member
        · rw [all] at member
          obtain ⟨entry, inBatch, rfl⟩ := List.mem_map.mp member
          exact ⟨Fifo.mem_batch_le inBatch, Fifo.mem_batch_lt inBatch⟩

theorem returned_spec (s : Sensorium K ω) (turns : List (Turn ω)) (senses : Senses ω) :
    (s.returned turns senses).Pairwise (· < ·) ∧
      ∀ place ∈ s.returned turns senses, senses.queue.popped ≤ place := by
  induction turns generalizing senses with
  | nil => exact ⟨.nil, List.forall_mem_nil _⟩
  | cons t turns ih =>
      obtain ⟨sorted, bounds, grows⟩ := s.returnedBy_spec t senses
      obtain ⟨later, fresh⟩ := ih (s.turn t senses)
      refine ⟨List.pairwise_append.mpr ⟨sorted, later, ?_⟩, ?_⟩
      · intro a first b second
        exact (bounds a first).2.trans_le (fresh b second)
      · intro place member
        rcases List.mem_append.mp member with now | then'
        · exact (bounds place now).1
        · exact grows.trans (fresh place then')

/-- Every perceive of the run accounts for what it popped, and the inputs were returned
in the order of their pushes, none of them twice. -/
structure KeepsInputs (s : Sensorium K ω) (turns : List (Turn ω)) (senses : Senses ω) : Prop where
  accounts : ∀ before after, turns = before ++ .perceive :: after →
    s.Accounts (s.run before senses)
  ordered : (s.returned turns senses).Pairwise (· < ·)

/-- A run keeps its inputs exactly where each of its perceives is safe. -/
theorem keepsInputs_iff (s : Sensorium K ω) (turns : List (Turn ω)) (senses : Senses ω) :
    s.KeepsInputs turns senses ↔
      ∀ before after, turns = before ++ .perceive :: after → s.Safe (s.run before senses) := by
  constructor
  · intro kept before after split
    exact (s.accounts_iff_safe _).mp (kept.accounts before after split)
  · intro safe
    refine ⟨fun before after split => ?_, (s.returned_spec turns senses).1⟩
    exact (s.accounts_iff_safe _).mpr (safe before after split)

end Sensorium

/-! ### A malformed neighbour -/

namespace MalformedNeighbour

def hello : String := "\x7b\"raw\": \"hello\", \"source\": \"repl\"\x7d"

def sensorium : Sensorium ℚ Unit where
  validateJson text :=
    if text = hello then .ok { raw := "hello", source := "repl" }
    else .error (.exception .validationError "Invalid JSON: expected ident at line 1 column 2")
  persist _ := pure ()
  clock _ := 0
  loadavg _ := none
  isoformat _ := "2025-01-01T00:00:00+00:00"
  showFloat _ := "0.0"
  dumps _ := "\x7b\"time\": \"2025-01-01T00:00:00+00:00\"\x7d"
  inputSalience := frac 85 100
  ambientSalience := frac 15 100
  ambientPersistEveryTicks := 15

/-- A message, and an entry that is no JSON. -/
def senses : Senses Unit := { queue := ⟨0, [hello, "hello"]⟩, world := () }

end MalformedNeighbour

open MalformedNeighbour in
/-- The message is popped with its neighbour, and is neither returned nor put back. -/
theorem malformed_neighbour_loses : ¬ sensorium.KeepsInputs [.perceive] senses := by
  intro kept
  have wellFormed : sensorium.WellFormed hello := ⟨{ raw := "hello", source := "repl" }, rfl⟩
  have malformed : ¬ sensorium.WellFormed "hello" := by
    rintro ⟨raw, parsed⟩
    cases parsed
  rcases (sensorium.accounts_iff_safe senses).mp (kept.accounts [] [] rfl) with useless | ⟨valid, -⟩
  · exact useless (hello, 0) List.mem_cons_self wellFormed
  · exact malformed (valid ("hello", 1) (List.mem_cons_of_mem _ List.mem_cons_self))

end Johnny
