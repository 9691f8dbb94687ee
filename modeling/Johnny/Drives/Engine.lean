import Johnny.Brain.State
import Johnny.Drives.Parameters
import Johnny.Lib.Runs

/-!
# The drive engine

Seven drives, one row each. A step advances every row by the time since its last update and
applies the events; a restart follows the config again and leaves the pressures alone. While
nothing happens, only the whole time counts, not the steps it is cut into.
-/
namespace Johnny

inductive Drive where
  | curiosity
  | boredom
  | connection
  | mastery
  | coherence
  | energy
  | continuity
  deriving DecidableEq, Repr

def Drive.label : Drive → String
  | .curiosity => "curiosity"
  | .boredom => "boredom"
  | .connection => "connection"
  | .mastery => "mastery"
  | .coherence => "coherence"
  | .energy => "energy"
  | .continuity => "continuity"

def driveNames : List Drive :=
  [.curiosity, .boredom, .connection, .mastery, .coherence, .energy, .continuity]

/-- A drive from the table, under its key. -/
structure DriveStateRow (K : Type) where
  value : K
  setpoint : K
  accrualRate : K
  decayRate : K
  threshold : K
  updatedAt : K
  deriving DecidableEq

abbrev DriveTable (K : Type) := Drive → Option (DriveStateRow K)

/-- The parameters of each drive, and the signed weights of each kind of event. -/
structure DriveConfig (K : Type) where
  drives : Drive → DriveParams K
  satisfaction : List (String × List (String × K))

namespace DriveConfig
variable {K : Type}

def params (c : DriveConfig K) (drive : Drive) : DriveParams K := c.drives drive

/-- None if the kind is not mapped. -/
def deltasFor (c : DriveConfig K) (eventKind : String) : List (String × K) :=
  (dictGet c.satisfaction eventKind).getD []

end DriveConfig

def rowToReading {K : Type} (drive : Drive) (row : DriveStateRow K) : DriveReading K where
  drive := drive.label
  value := row.value
  setpoint := row.setpoint
  accrualRate := row.accrualRate
  decayRate := row.decayRate
  threshold := row.threshold
  updatedAt := some row.updatedAt

structure DriveEngine (K : Type) [Field K] [LinearOrder K] where
  config : DriveConfig K
  /-- `math.exp`. -/
  exp : Exponential K

namespace DriveEngine
variable {K : Type} [Field K] [LinearOrder K]

/-- The row under the parameters of the config. -/
def synced (p : DriveParams K) (row : DriveStateRow K) : DriveStateRow K :=
  { row with
    setpoint := p.setpoint
    accrualRate := p.accrualRate
    decayRate := p.decayRate
    threshold := p.threshold }

/-- A new row, at the setpoint. -/
def created (p : DriveParams K) (now : K) : DriveStateRow K where
  value := p.setpoint
  setpoint := p.setpoint
  accrualRate := p.accrualRate
  decayRate := p.decayRate
  threshold := p.threshold
  updatedAt := now

/-- Writes one row after the other, and reads each back. -/
def eachDrive (row : Drive → Option (DriveStateRow K) → DriveStateRow K) :
    List Drive → DriveTable K → List (DriveReading K) × DriveTable K
  | [], rows => ([], rows)
  | drive :: drives, rows =>
    let new := row drive (rows drive)
    let rest := eachDrive row drives (Function.update rows drive (some new))
    (rowToReading drive new :: rest.1, rest.2)

/-- `bootstrap`, with the time the clock shows. -/
def bootstrap (e : DriveEngine K) (now : K) (rows : DriveTable K) :
    List (DriveReading K) × DriveTable K :=
  eachDrive (fun drive row =>
    synced (e.config.params drive) (row.getD (created (e.config.params drive) now))) driveNames rows

/-- `_aggregate_deltas`: one delta for each drive. -/
def aggregateDeltas (e : DriveEngine K) (events : List (DriveEvent K)) : List (String × K) :=
  events.foldl (fun totals event =>
    (e.config.deltasFor event.kind.label).foldl (fun totals entry =>
      dictSet totals entry.1 ((dictGet totals entry.1).getD 0 + entry.2 * event.intensity)) totals) []

/-- The row of a drive after a step. -/
def stepRow (e : DriveEngine K) (deltas : List (String × K)) (reference : K) (drive : Drive)
    (row : Option (DriveStateRow K)) : DriveStateRow K :=
  let params := e.config.params drive
  let row := row.getD (created params reference)
  let dt := max 0 (reference - row.updatedAt)
  let value := params.advance e.exp row.value dt
  { synced params row with
    value := clamp01 (value + (dictGet deltas drive.label).getD 0)
    updatedAt := reference }

/-- `step`, at the given time or the one the clock shows. -/
def step (e : DriveEngine K) (events : List (DriveEvent K)) (reference : K) (rows : DriveTable K) :
    List (DriveReading K) × DriveTable K :=
  eachDrive (e.stepRow (e.aggregateDeltas events) reference) driveNames rows

/-- The persisted state, without any time passing. -/
def current (rows : DriveTable K) : List (DriveReading K) :=
  driveNames.filterMap fun drive => (rows drive).map (rowToReading drive)

/-- A drive over its threshold, as an urge. -/
def urge (r : DriveReading K) : Urge K where
  drive := r.drive
  value := r.value
  threshold := r.threshold
  urgency := r.urgency

/-- The drives over their thresholds, the most urgent first. -/
def urges (readings : List (DriveReading K)) : List (Urge K) :=
  ((readings.filter DriveReading.overThreshold).map urge).insertionSort fun a b =>
    b.urgency ≤ a.urgency

/-! ### Each drive on its own -/

omit [Field K] [LinearOrder K] in
theorem eachDrive_of_not_mem (row : Drive → Option (DriveStateRow K) → DriveStateRow K)
    {drives : List Drive} {drive : Drive} (other : drive ∉ drives) (rows : DriveTable K) :
    (eachDrive row drives rows).2 drive = rows drive := by
  induction drives generalizing rows with
  | nil => rfl
  | cons d drives ih =>
      rw [List.mem_cons, not_or] at other
      simp only [eachDrive]
      rw [ih other.2, Function.update_of_ne other.1]

omit [Field K] [LinearOrder K] in
theorem eachDrive_of_mem (row : Drive → Option (DriveStateRow K) → DriveStateRow K)
    {drives : List Drive} (once : drives.Nodup) {drive : Drive} (member : drive ∈ drives)
    (rows : DriveTable K) :
    (eachDrive row drives rows).2 drive = some (row drive (rows drive)) := by
  induction drives generalizing rows with
  | nil => cases member
  | cons d drives ih =>
      obtain ⟨new, rest⟩ := List.nodup_cons.mp once
      simp only [eachDrive]
      rcases List.mem_cons.mp member with rfl | member
      · rw [eachDrive_of_not_mem row new, Function.update_self]
      · have differs : drive ≠ d := fun same => new (same ▸ member)
        rw [ih rest member, Function.update_of_ne differs]

theorem mem_driveNames (drive : Drive) : drive ∈ driveNames := by
  cases drive <;> decide

variable {e : DriveEngine K} {rows : DriveTable K} {drive : Drive} {row : DriveStateRow K}

theorem step_row (e : DriveEngine K) (events : List (DriveEvent K)) (reference : K)
    (rows : DriveTable K) (drive : Drive) : (e.step events reference rows).2 drive =
      some (e.stepRow (e.aggregateDeltas events) reference drive (rows drive)) :=
  eachDrive_of_mem _ (by decide) (mem_driveNames drive) rows

/-- A restart keeps the pressure and its time. -/
theorem bootstrap_row (held : rows drive = some row) (now : K) :
    (e.bootstrap now rows).2 drive = some (synced (e.config.params drive) row) := by
  refine (eachDrive_of_mem _ (by decide) (mem_driveNames drive) rows).trans ?_
  rw [held]
  rfl

/-- A step without events. -/
theorem idle_row [IsStrictOrderedRing K] (held : rows drive = some row) {reference : K}
    (later : row.updatedAt ≤ reference) :
    ∃ new, (e.step [] reference rows).2 drive = some new ∧ new.updatedAt = reference ∧
      new.value = (e.config.params drive).advance e.exp row.value (reference - row.updatedAt) := by
  refine ⟨_, step_row e [] reference rows drive, rfl, ?_⟩
  have stays : DriveParams.Pressure ((e.config.params drive).advance e.exp row.value
    (reference - row.updatedAt)) := DriveParams.advance_pressure _ _
  have none : (dictGet (e.aggregateDeltas []) drive.label).getD 0 = 0 := rfl
  simp only [stepRow, held, Option.getD_some, none, add_zero]
  rw [max_eq_right (sub_nonneg.mpr later), clamp01_of_mem stays.nonneg stays.le_one]

/-! ### Idle time -/

/-- What happens while nothing else does. -/
inductive Idle (K : Type) where
  | step (reference : K)
  | restart (now : K)

def idle (e : DriveEngine K) : Idle K → DriveTable K → DriveTable K
  | .step reference, rows => (e.step [] reference rows).2
  | .restart now, rows => (e.bootstrap now rows).2

/-- The times of the steps. -/
def stepTimes : List (Idle K) → List K
  | [] => []
  | .step reference :: is => reference :: stepTimes is
  | .restart _ :: is => stepTimes is

omit [Field K] in
theorem head_le_getLast {a : K} {as : List K} (ordered : (a :: as).Pairwise (· ≤ ·)) :
    a ≤ (a :: as).getLast (List.cons_ne_nil _ _) := by
  rcases List.mem_cons.mp (List.getLast_mem (List.cons_ne_nil a as)) with same | later
  · exact same.ge
  · exact (List.pairwise_cons.mp ordered).1 _ later

/-- The pressure after any steps and restarts is that after the time from the start to the last
of them. -/
theorem idle_run [IsStrictOrderedRing K] (is : List (Idle K)) (held : rows drive = some row)
    (pressure : DriveParams.Pressure row.value)
    (ordered : (row.updatedAt :: stepTimes is).Pairwise (· ≤ ·)) :
    ∃ new, runSteps e.idle is rows drive = some new ∧
      new.updatedAt = (row.updatedAt :: stepTimes is).getLast (List.cons_ne_nil _ _) ∧
      new.value = (e.config.params drive).advance e.exp row.value
        ((row.updatedAt :: stepTimes is).getLast (List.cons_ne_nil _ _) - row.updatedAt) := by
  induction is generalizing rows row with
  | nil =>
      refine ⟨row, held, rfl, ?_⟩
      rw [stepTimes, List.getLast_singleton, sub_self, DriveParams.advance_of_nonpos pressure le_rfl]
  | cons i is ih =>
      cases i with
      | restart now =>
          have restarted : e.idle (.restart now) rows drive =
            some (synced (e.config.params drive) row) := bootstrap_row held now
          have run := ih restarted
          exact run pressure ordered
      | step reference =>
          simp only [stepTimes] at ordered ⊢
          obtain ⟨first, rest⟩ := List.pairwise_cons.mp ordered
          obtain ⟨mid, stepped, time, value⟩ := idle_row (e := e) held (first _ List.mem_cons_self)
          have inside : DriveParams.Pressure mid.value := value ▸ DriveParams.advance_pressure _ _
          obtain ⟨new, ran, last, moved⟩ := ih (show e.idle (.step reference) rows drive = some mid from stepped) inside
            (by rw [time]; exact rest)
          rw [time] at last moved
          refine ⟨new, ran, last, ?_⟩
          have later : row.updatedAt ≤ reference := first _ List.mem_cons_self
          have onwards : reference ≤ (reference :: stepTimes is).getLast (List.cons_ne_nil _ _) :=
            head_le_getLast rest
          rw [moved, value, DriveParams.advance_advance pressure (sub_nonneg.mpr later)
            (sub_nonneg.mpr onwards), sub_add_sub_cancel']
          rfl

/-! ### Urges -/

instance : Std.Total fun a b : Urge K => b.urgency ≤ a.urgency :=
  ⟨fun a b => le_total b.urgency a.urgency⟩

instance : IsTrans (Urge K) fun a b => b.urgency ≤ a.urgency :=
  ⟨fun _ _ _ first second => second.trans first⟩

/-- The urges are those of the drives at or above their thresholds, by urgency. -/
structure Reported (readings : List (DriveReading K)) (urges : List (Urge K)) : Prop where
  whole : urges.Perm ((readings.filter fun r => decide (r.threshold ≤ r.value)).map urge)
  ordered : urges.Pairwise fun a b => b.urgency ≤ a.urgency

theorem urges_reported (readings : List (DriveReading K)) : Reported readings (urges readings) :=
  ⟨List.perm_insertionSort _ _, List.pairwise_insertionSort _ _⟩

/-! ### Homeostasis -/

/-- Idle time acts on a drive as a whole: cut into steps, with restarts in between, it leaves
the pressure that one step at its end does. -/
def WholeTime (e : DriveEngine K) (rows : DriveTable K) (drive : Drive) (is : List (Idle K))
    (last : K) : Prop :=
  ∃ parts whole, runSteps e.idle is rows drive = some parts ∧
    (e.step [] last rows).2 drive = some whole ∧ parts.value = whole.value

/-- Between a start and its equilibrium a pressure relaxes, over any partition of the time; the
urges are the drives over their thresholds. -/
theorem drive_homeostasis [IsStrictOrderedRing K] (e : DriveEngine K) {rows : DriveTable K}
    {drive : Drive} {row : DriveStateRow K} (held : rows drive = some row)
    (pressure : DriveParams.Pressure row.value) (is : List (Idle K))
    (ordered : (row.updatedAt :: stepTimes is).Pairwise (· ≤ ·)) :
    (∀ (p : DriveParams K) (value : K), 0 < p.kappa → DriveParams.Pressure value →
      p.Relaxes e.exp value) ∧
    e.WholeTime rows drive is
      ((row.updatedAt :: stepTimes is).getLast (List.cons_ne_nil _ _)) ∧
    ∀ readings : List (DriveReading K), Reported readings (urges readings) := by
  refine ⟨fun p value moving stored => p.relaxes stored moving, ?_, urges_reported⟩
  obtain ⟨parts, ran, -, value⟩ := idle_run (e := e) is held pressure ordered
  obtain ⟨whole, stepped, -, same⟩ := idle_row (e := e) held (head_le_getLast ordered)
  exact ⟨parts, whole, ran, stepped, value.trans same.symm⟩

end DriveEngine

/-! ### A lonely hour -/

namespace LonelyHour

noncomputable def engine : DriveEngine ℝ where
  config := { drives := fun _ => ⟨frac 2 10, frac 1 1000, frac 1 2000, frac 7 10⟩, satisfaction := [] }
  exp := .real

def start : DriveStateRow ℝ := ⟨0, 0, 0, 0, 0, 0⟩

def rows : DriveTable ℝ := fun _ => some start

/-- A step, a restart, and another step. -/
def hour : List (DriveEngine.Idle ℝ) := [.step 1800, .restart 1900, .step 3600]

end LonelyHour

open LonelyHour in
theorem lonely_hour_relaxes :
    (∀ (p : DriveParams ℝ) (value : ℝ), 0 < p.kappa → DriveParams.Pressure value →
      p.Relaxes engine.exp value) ∧
    engine.WholeTime rows .connection hour 3600 ∧
    ∀ readings : List (DriveReading ℝ),
      DriveEngine.Reported readings (DriveEngine.urges readings) :=
  DriveEngine.drive_homeostasis engine (show rows .connection = some start from rfl)
    ⟨le_rfl, zero_le_one⟩ hour (by norm_num [hour, DriveEngine.stepTimes, start])

end Johnny
