import Johnny.Foundation.Values

/-!
# What the stages of a tick hand to each other

Workspace items and events, drives and urges, the mood, goals, actions and the
sleep report, with the payloads the state surface carries.
-/
namespace Johnny

/-! ### The workspace -/

/-- The kinds of workspace item the code names; `other` is any further label. -/
inductive ItemKind where
  | input
  | ambient
  | memory
  | fact
  | note
  | other (label : String)
  deriving DecidableEq, Repr

def ItemKind.label : ItemKind → String
  | .input => "input"
  | .ambient => "ambient"
  | .memory => "memory"
  | .fact => "fact"
  | .note => "note"
  | .other label => label

structure WorkspaceItem (K : Type) where
  kind : ItemKind
  content : String
  salience : K
  source : String := ""
  deriving DecidableEq

/-- A typed broadcast; `id` and `ts` are filled by the broadcast itself. -/
structure WorkspaceEvent (K : Type) where
  id : Option ℕ := none
  ts : Option K := none
  module : String
  type : String
  payload : Dict K := []
  hops : ℕ := 0

/-! ### Drives and mood -/

def sleepDrive : String := "energy"

inductive DriveEventKind where
  | interaction
  | learning
  | success
  | failure
  | reflection
  | persistenceConfirmed
  | shutdownSignal
  | rest
  deriving DecidableEq, Repr

def DriveEventKind.label : DriveEventKind → String
  | .interaction => "interaction"
  | .learning => "learning"
  | .success => "success"
  | .failure => "failure"
  | .reflection => "reflection"
  | .persistenceConfirmed => "persistence_confirmed"
  | .shutdownSignal => "shutdown_signal"
  | .rest => "rest"

structure DriveEvent (K : Type) where
  kind : DriveEventKind
  intensity : K
  deriving DecidableEq

structure DriveReading (K : Type) where
  drive : String
  value : K
  setpoint : K
  accrualRate : K
  decayRate : K
  threshold : K
  updatedAt : Option K := none
  deriving DecidableEq

structure Urge (K : Type) where
  drive : String
  value : K
  threshold : K
  urgency : K
  deriving DecidableEq

/-- Energy over threshold is a request to sleep, not a goal to pursue. -/
def Urge.isSleepSignal {K : Type} (u : Urge K) : Bool := u.drive == sleepDrive

structure Mood (K : Type) where
  id : Option ℕ := none
  valence : K
  arousal : K
  emotions : List (String × K) := []

/-! ### Goals and actions -/

inductive GoalStatus where
  | active
  | resolved
  | abandoned
  deriving DecidableEq, Repr

def GoalStatus.label : GoalStatus → String
  | .active => "active"
  | .resolved => "resolved"
  | .abandoned => "abandoned"

structure Goal (K : Type) where
  id : Option ℕ := none
  source : String
  description : String
  priority : K
  status : GoalStatus := .active
  plan : Dict K := []
  outcome : Dict K := []
  createdAt : Option K := none
  resolvedAt : Option K := none

/-- An internal action, or, with `tool` set, one for the effector dispatch. -/
structure Action (K : Type) where
  kind : String
  goalId : Option ℕ
  goalSource : String
  description : String
  query : String := ""
  tool : Option String := none
  toolArgs : Dict K := []

def Action.isToolAction {K : Type} (a : Action K) : Bool := a.tool.isSome

structure ActionOutcome (K : Type) where
  actionKind : String
  success : Bool
  summary : String
  driveEvents : List (DriveEvent K) := []

structure DeliberationResult (K : Type) where
  goal : Option (Goal K) := none
  action : Option (Action K) := none

/-! ### Sleep -/

inductive SleepTrigger where
  | energy
  | scheduled
  | manual
  deriving DecidableEq, Repr

def SleepTrigger.label : SleepTrigger → String
  | .energy => "energy"
  | .scheduled => "scheduled"
  | .manual => "manual"

structure SemanticFact where
  subject : String
  predicate : String
  object : String
  deriving DecidableEq, Repr

structure DecayReport where
  episodesDecayed : ℕ := 0
  episodesStrengthened : ℕ := 0
  factsMerged : ℕ := 0

structure IdentityDoc where
  name : String
  selfModelDoc : String
  version : ℕ := 0

structure CheckFinding where
  check : String
  ok : Bool
  detail : String

structure CheckResult where
  ok : Bool
  findings : List CheckFinding := []

def CheckResult.failures (r : CheckResult) : List CheckFinding :=
  r.findings.filter fun f => !f.ok

structure SleepReport (K : Type) where
  trigger : SleepTrigger
  startedAt : K
  endedAt : K
  factsWritten : ℕ := 0
  episodesDecayed : ℕ := 0
  factsMerged : ℕ := 0
  selfModelVersion : Option ℕ := none
  snapshotPath : Option String := none
  selfCheckOk : Bool := false
  reflection : String := ""
  degradedStages : List String := []
  notes : Dict K := []

/-! ### The state surface -/

section surface
variable {K : Type} [Field K] [LinearOrder K] [FloorRing K]

def DriveReading.overThreshold (r : DriveReading K) : Bool := decide (r.threshold ≤ r.value)

/-- Pressure past the threshold, normalised to the unit interval. -/
def DriveReading.urgency (r : DriveReading K) : K :=
  if r.value < r.threshold ∨ 1 ≤ r.threshold then 0
  else clamp01 ((r.value - r.threshold) / (1 - r.threshold))

/-- `max(emotions, key=...)`: the first of the strongest. -/
def Mood.dominantEmotion (m : Mood K) : Option String :=
  (m.emotions.foldl (fun best e =>
    match best with
    | none => some e
    | some b => if b.2 < e.2 then some e else some b) none).map Prod.fst

def Mood.descriptor (m : Mood K) : String :=
  let excited := decide (frac 1 2 ≤ m.arousal)
  let quadrant :=
    if frac 15 100 ≤ m.valence then if excited then "bright and energised" else "calm and content"
    else if m.valence ≤ -frac 15 100 then if excited then "tense and on edge" else "low and flat"
    else if excited then "alert and neutral" else "quiet and even"
  match m.dominantEmotion with
  | some dominant => quadrant ++ ", with a thread of " ++ dominant
  | none => quadrant

def jsonId : Option ℕ → Json K
  | some n => .int n
  | none => .null

def serializeDrive (d : DriveReading K) : Json K :=
  .obj [("drive", .str d.drive), ("value", .num (roundTo 4 d.value)),
    ("setpoint", .num (roundTo 4 d.setpoint)), ("threshold", .num (roundTo 4 d.threshold)),
    ("over_threshold", .bool d.overThreshold)]

def serializeMood (m : Mood K) : Dict K :=
  [("valence", .num (roundTo 4 m.valence)), ("arousal", .num (roundTo 4 m.arousal)),
    ("emotions", .obj (m.emotions.map fun e => (e.1, .num (roundTo 4 e.2)))),
    ("descriptor", .str m.descriptor), ("mood_id", jsonId m.id)]

def goalsToPayload (goals : List (Goal K)) : Json K :=
  .arr (goals.map fun g => .obj [("id", jsonId g.id), ("source", .str g.source),
    ("description", .str g.description), ("priority", .num (roundTo 4 g.priority)),
    ("status", .str g.status.label), ("plan", .obj g.plan)])

/-- The last-sleep summary, from the in-memory report (the live frame). -/
def sleepSummaryFromReport : Option (SleepReport K) → Json K
  | none => .null
  | some r => .obj [("trigger", .str r.trigger.label), ("ended_at", .num r.endedAt),
      ("facts_written", .int r.factsWritten), ("episodes_decayed", .int r.episodesDecayed),
      ("facts_merged", .int r.factsMerged), ("self_model_version", jsonId r.selfModelVersion),
      ("self_check_ok", .bool r.selfCheckOk),
      ("degraded_stages", .arr (r.degradedStages.map .str))]

def serializeSleepBlock (asleep fullAgency : Bool) (last : Json K) : Json K :=
  .obj [("asleep", .bool asleep), ("full_agency", .bool fullAgency), ("last", last)]

def serializeState (tick : ℕ) (drives : List (DriveReading K)) (mood : Option (Mood K))
    (goals : List (Goal K)) (interval : K) (sleep : Json K) : Dict K :=
  [("tick", .int tick), ("drives", .arr (drives.map serializeDrive)),
    ("mood", match mood with
      | some m => .obj (serializeMood m)
      | none => .null),
    ("goals", goalsToPayload goals), ("interval", .num (roundTo 3 interval)), ("sleep", sleep)]

end surface

end Johnny
