import Johnny.Lib.Fifo
import Johnny.Lib.Footprint
import Johnny.Brain.State

/-!
# The perception agent

Inputs wait on a queue as JSON texts. A perceive pops a bounded batch, reads every
entry, stores a percept for each input and then samples the host. The reader of an
entry, the percept table and the host are outside.
-/
namespace Johnny

def modalityText : String := "text"
def modalitySystem : String := "system"
def sourceSystemMetrics : String := "system_metrics"

def maxDrainPerTick : ℕ := 16

structure RawInput where
  raw : String
  source : String
  modality : String := modalityText
  deriving DecidableEq

structure Percept (K : Type) where
  ts : K
  modality : String
  raw : String
  normalised : Dict K
  source : String

/-- An item of a perceive, and for an input its place in the order of the pushes. The
place is not in the source: it tells two equal messages apart. -/
structure Sensed (K : Type) where
  item : WorkspaceItem K
  place : Option ℕ := none

/-- What Sensorium works on: the input queue, its tick count and the world outside. -/
structure Senses (ω : Type) where
  queue : Fifo String := {}
  ticks : ℕ := 0
  world : ω

structure Sensorium (K ω : Type) where
  /-- `RawInput.model_validate_json`. -/
  validateJson : String → Except Failure RawInput
  persist : Percept K → Prog Failure ω Unit
  clock : ω → K
  /-- `os.getloadavg()`, where the host has it. -/
  loadavg : ω → Option (K × K × K)
  isoformat : K → String
  showFloat : K → String
  dumps : Dict K → String
  inputSalience : K
  ambientSalience : K
  ambientPersistEveryTicks : ℤ

namespace Sensorium
variable {K ω α : Type}

def outside (p : Prog Failure ω α) : Prog Failure (Senses ω) α :=
  Prog.zoom Senses.world (fun w s => { s with world := w }) p

/-- `lpop(key, _MAX_DRAIN_PER_TICK)`, with the places of the entries. -/
def lpop : Prog Failure (Senses ω) (List (String × ℕ)) := fun s =>
  (.ok (s.queue.batch maxDrainPerTick), { s with queue := s.queue.rest maxDrainPerTick })

def validateEntry (s : Sensorium K ω) (entry : String × ℕ) : Except Failure (RawInput × ℕ) :=
  (s.validateJson entry.1).map fun raw => (raw, entry.2)

/-- The whole batch is popped before its first entry is read. -/
def drain (s : Sensorium K ω) : Prog Failure (Senses ω) (List (RawInput × ℕ)) := do
  let entries ← lpop
  Prog.collect entries fun entry => Prog.reraise (s.validateEntry entry)

/-! ### Inputs -/

def inputPercept (raw : RawInput) (now : K) : Percept K where
  ts := now
  modality := raw.modality
  raw := raw.raw
  normalised := [("text", .str (strip raw.raw)), ("source", .str raw.source)]
  source := raw.source

def inputItem (s : Sensorium K ω) (input : RawInput × ℕ) : Sensed K where
  item := { kind := .input, content := strip input.1.raw, salience := s.inputSalience,
            source := input.1.source }
  place := some input.2

def storeInput (s : Sensorium K ω) (raw : RawInput) : Prog Failure ω Unit := do
  let now ← Prog.reads s.clock
  s.persist (inputPercept raw now)

def perceiveInput (s : Sensorium K ω) (input : RawInput × ℕ) :
    Prog Failure (Senses ω) (Sensed K) := do
  outside (s.storeInput input.1)
  pure (s.inputItem input)

/-! ### The ambient percept -/

section ambient
variable [Field K] [LinearOrder K] [FloorRing K]

/-- `_system_metrics`: the time, and the load where the host reports it. -/
def systemMetrics (s : Sensorium K ω) (now : K) (w : ω) : Dict K :=
  let metrics := [("time", Json.str (s.isoformat now))]
  match s.loadavg w with
  | none => metrics
  | some (load1, load5, load15) =>
    metrics ++ [("load_1m", .num (roundTo 2 load1)), ("load_5m", .num (roundTo 2 load5)),
      ("load_15m", .num (roundTo 2 load15))]

omit [Field K] [LinearOrder K] [FloorRing K] in
def describeSystem (s : Sensorium K ω) (metrics : Dict K) : String :=
  let time := match dictGet metrics "time" with
    | some (.str time) => time
    | _ => ""
  let clock := if 16 ≤ time.length then String.ofList ((time.toList.take 16).drop 11) else time
  match dictGet metrics "load_1m" with
  | some (.num load) =>
    "All quiet — it's " ++ clock ++ " UTC, the host is idling (load " ++ s.showFloat load ++ ")."
  | _ => "All quiet — it's " ++ clock ++ " UTC, nothing new has come in."

/-- Whether the ambient percept of this tick is stored: only on a slow cadence. -/
def storesAmbient (s : Sensorium K ω) (ticks : ℕ) : Bool :=
  let every := max 1 s.ambientPersistEveryTicks
  (ticks : ℤ) % every == 1 || every == 1

def ambientPercept (s : Sensorium K ω) (w : ω) : Percept K where
  ts := s.clock w
  modality := modalitySystem
  raw := s.dumps (s.systemMetrics (s.clock w) w)
  normalised := s.systemMetrics (s.clock w) w
  source := sourceSystemMetrics

def ambientItem (s : Sensorium K ω) (w : ω) : Sensed K where
  item := { kind := .ambient, content := s.describeSystem (s.systemMetrics (s.clock w) w),
            salience := s.ambientSalience, source := sourceSystemMetrics }

def storeAmbient (s : Sensorium K ω) (ticks : ℕ) : Prog Failure ω Unit := do
  let percept ← Prog.reads s.ambientPercept
  Prog.onlyIf (s.storesAmbient ticks = true) (s.persist percept)

def perceiveSystem (s : Sensorium K ω) : Prog Failure (Senses ω) (Sensed K) := do
  let senses ← Prog.reads fun senses => senses
  outside (s.storeAmbient senses.ticks)
  pure (s.ambientItem senses.world)

/-- Drains queued inputs, then samples the ambient percept of this tick. -/
def perceive (s : Sensorium K ω) : Prog Failure (Senses ω) (List (Sensed K)) := do
  Prog.modify fun senses => { senses with ticks := senses.ticks + 1 }
  let raws ← s.drain
  let inputs ← Prog.collect raws s.perceiveInput
  let ambient ← s.perceiveSystem
  pure (inputs ++ [ambient])

end ambient

/-! ### What one perceive does -/

/-- The entries of a batch read in order, up to the first that does not validate. -/
def readBatch (s : Sensorium K ω) (entries : List (String × ℕ)) :
    Except Failure (List (RawInput × ℕ)) := entries.mapM s.validateEntry

theorem drain_apply (s : Sensorium K ω) (senses : Senses ω) :
    s.drain senses = (s.readBatch (senses.queue.batch maxDrainPerTick),
      { senses with queue := senses.queue.rest maxDrainPerTick }) := by
  have reading (entries : List (String × ℕ)) (t : Senses ω) :
      Prog.collect entries (fun entry => Prog.reraise (s.validateEntry entry)) t =
        (s.readBatch entries, t) := by
    unfold readBatch
    induction entries with
    | nil => rfl
    | cons entry entries ih =>
        rw [List.mapM_cons, Prog.collect, Prog.bind_apply]
        cases s.validateEntry entry with
        | error e => rfl
        | ok raw =>
            simp only [Prog.reraise_ok, Prog.pure_apply]
            rw [Prog.bind_apply, ih]
            cases entries.mapM s.validateEntry <;> rfl
  exact reading _ _

theorem mem_readBatch {s : Sensorium K ω} {entries : List (String × ℕ)}
    {raws : List (RawInput × ℕ)} (read : s.readBatch entries = .ok raws) {input : RawInput × ℕ}
    (member : input ∈ raws) :
    ∃ entry ∈ entries, ∃ raw, s.validateJson entry.1 = .ok raw ∧ input = (raw, entry.2) := by
  unfold readBatch at read
  induction entries generalizing raws with
  | nil =>
      cases read
      cases member
  | cons entry entries ih =>
      rw [List.mapM_cons, validateEntry] at read
      cases parsed : s.validateJson entry.1 with
      | error e =>
          rw [parsed] at read
          cases read
      | ok raw =>
          rw [parsed] at read
          cases rest : entries.mapM s.validateEntry with
          | error e =>
              rw [rest] at read
              cases read
          | ok others =>
              rw [rest] at read
              cases read
              rcases List.mem_cons.mp member with rfl | later
              · exact ⟨entry, List.mem_cons_self, raw, parsed, rfl⟩
              · obtain ⟨found, among, which⟩ := ih rest later
                exact ⟨found, List.mem_cons_of_mem entry among, which⟩

theorem collect_perceiveInput (s : Sensorium K ω) (raws : List (RawInput × ℕ))
    (senses : Senses ω) :
    Prog.collect raws s.perceiveInput senses =
      let r := Prog.forEach raws (fun input => s.storeInput input.1) senses.world
      (r.1.map fun _ => raws.map s.inputItem, { senses with world := r.2 }) := by
  induction raws generalizing senses with
  | nil => rfl
  | cons raw raws ih =>
      simp only [Prog.collect, Prog.forEach, perceiveInput, outside, Prog.bind_apply, Prog.zoom]
      rcases s.storeInput raw.1 senses.world with ⟨r, w⟩
      cases r with
      | error e => rfl
      | ok u =>
          simp only [Prog.pure_apply, ih]
          rcases Prog.forEach raws (fun input => s.storeInput input.1) w with ⟨r, w'⟩
          cases r <;> rfl

section ambient
variable [Field K] [LinearOrder K] [FloorRing K]

/-- The writes of a perceive that read these inputs. -/
def writes (s : Sensorium K ω) (ticks : ℕ) (raws : List (RawInput × ℕ)) : Prog Failure ω Unit := do
  Prog.forEach raws fun input => s.storeInput input.1
  s.storeAmbient ticks

theorem perceiveSystem_apply (s : Sensorium K ω) (senses : Senses ω) :
    s.perceiveSystem senses =
      let r := s.storeAmbient senses.ticks senses.world
      (r.1.map fun _ => s.ambientItem senses.world, { senses with world := r.2 }) :=
  Prog.bind_pure_apply _ _ _

/-- A perceive returns the items of its whole batch exactly where every entry validates
and every write returns; the batch is gone in any case. -/
theorem perceive_spec (s : Sensorium K ω) (senses : Senses ω) :
    (s.perceive senses).2.queue = senses.queue.rest maxDrainPerTick ∧
      match s.readBatch (senses.queue.batch maxDrainPerTick) with
      | .error e => (s.perceive senses).1 = .error e
      | .ok raws => match (s.writes (senses.ticks + 1) raws senses.world).1 with
        | .error e => (s.perceive senses).1 = .error e
        | .ok _ => ∃ w, (s.perceive senses).1 = .ok (raws.map s.inputItem ++ [s.ambientItem w]) := by
  unfold perceive writes
  rw [Prog.modify_bind, Prog.bind_apply, drain_apply]
  cases s.readBatch (senses.queue.batch maxDrainPerTick) with
  | error e => exact ⟨rfl, rfl⟩
  | ok raws =>
      simp only [Prog.bind_apply, collect_perceiveInput]
      rcases Prog.forEach raws (fun input => s.storeInput input.1) senses.world with ⟨r, w⟩
      cases r with
      | error e => exact ⟨rfl, rfl⟩
      | ok u =>
          simp only [Except.map, perceiveSystem_apply]
          rcases s.storeAmbient (senses.ticks + 1) w with ⟨r, w'⟩
          cases r with
          | error e => exact ⟨rfl, rfl⟩
          | ok u => exact ⟨rfl, w, rfl⟩

/-- Every end of a perceive has counted its tick. -/
theorem perceive_ticks (s : Sensorium K ω) (senses : Senses ω) :
    (s.perceive senses).2.ticks = senses.ticks + 1 := by
  unfold perceive
  rw [Prog.modify_bind, Prog.bind_apply, drain_apply]
  cases s.readBatch (senses.queue.batch maxDrainPerTick) with
  | error e => rfl
  | ok raws =>
      simp only [Prog.bind_apply, collect_perceiveInput, perceiveSystem_apply]
      cases Prog.forEach raws (fun input => s.storeInput input.1) senses.world with
      | mk r w =>
          cases r with
          | error e => rfl
          | ok u =>
              simp only [Except.map]
              rcases s.storeAmbient (senses.ticks + 1) w with ⟨_ | _, w'⟩
              · rfl
              · rfl

/-- A perceive calls nothing outside but the percept table. -/
theorem perceive_world {V : Frame ω} {s : Sensorium K ω}
    (persist : ∀ percept, Prog.Keeps V (s.persist percept)) (senses : Senses ω) :
    V.rel senses.world (s.perceive senses).2.world := by
  have calls {p : Prog Failure ω Unit} (kept : Prog.Keeps V p) :
      Prog.Within (Frame.via Senses.world V).rel (outside p) := .zoom fun t => kept t.world
  have collecting {β γ : Type} (f : β → Prog Failure (Senses ω) γ)
      (each : ∀ b, Prog.Within (Frame.via Senses.world V).rel (f b)) (bs : List β) :
      Prog.Within (Frame.via Senses.world V).rel (Prog.collect bs f) := by
    induction bs with
    | nil => exact .pure _
    | cons b bs ih => exact .bind (each b) fun _ => .bind ih fun _ => .pure _
  have input (raw : RawInput × ℕ) :
      Prog.Within (Frame.via Senses.world V).rel (s.perceiveInput raw) :=
    .bind (calls fun w => persist _ w) fun _ => .pure _
  have ambient (ticks : ℕ) : Prog.Keeps V (s.storeAmbient ticks) := by
    intro w
    unfold storeAmbient Prog.onlyIf
    rw [Prog.reads_bind]
    split
    · exact persist _ w
    · exact V.refl w
  have moves : Prog.Within (Frame.via Senses.world V).rel s.perceive :=
    .bind (.modify fun t => V.refl t.world) fun _ =>
    .bind (.bind (fun t => .single (V.refl t.world)) fun entries =>
      collecting _ (fun _ => .reraise _) entries) fun raws =>
    .bind (collecting _ input raws) fun _ =>
    .bind (.bind (.reads _) fun t => .bind (calls (ambient t.ticks)) fun _ => .pure _) fun _ =>
      .pure _
  exact moves.keeps (F := Frame.via Senses.world V) (fun _ _ moved => moved) senses

/-- Whatever a perceive returns is the ambient item or the input of an entry it popped. -/
theorem mem_perceive {s : Sensorium K ω} {senses : Senses ω} {items : List (Sensed K)}
    (returned : (s.perceive senses).1 = .ok items) {x : Sensed K} (member : x ∈ items) :
    (∃ w, x = s.ambientItem w) ∨ ∃ entry ∈ senses.queue.batch maxDrainPerTick, ∃ raw,
      s.validateJson entry.1 = .ok raw ∧ x = s.inputItem (raw, entry.2) := by
  have ended := (s.perceive_spec senses).2
  cases read : s.readBatch (senses.queue.batch maxDrainPerTick) with
  | error e =>
      rw [read, returned] at ended
      cases ended
  | ok raws =>
      rw [read] at ended
      dsimp only at ended
      split at ended
      · rw [returned] at ended
        cases ended
      · obtain ⟨w, same⟩ := ended
        rw [returned] at same
        cases same
        rcases List.mem_append.mp member with input | ambient
        · obtain ⟨input, among, rfl⟩ := List.mem_map.mp input
          obtain ⟨entry, popped, raw, parsed, rfl⟩ := mem_readBatch read among
          exact .inr ⟨entry, popped, raw, parsed, rfl⟩
        · exact .inl ⟨w, List.mem_singleton.mp ambient⟩

end ambient
end Sensorium
end Johnny
