import Johnny.Brain.Sleep
import Johnny.Effectors.Dispatch
import Mathlib.Data.List.Sort

/-!
# The cognitive cycle

One tick runs ten stages, each isolated, over the tick's scratchpad. Between ticks
the run loop fires due wakeups and may enter sleep. The stages' collaborators are
optional and outside; the cycle owns the order, the gates and the feedback.
-/
namespace Johnny

/-! ### The collaborators -/

/-- The affective context handed to Attention. -/
structure AttentionBias (K : Type) where
  arousal : K
  kindBoosts : List (String × K) := []

structure AttentionStage (K ω : Type) where
  /-- From working memory and percepts, in this order. -/
  select : List (WorkspaceItem K) → List (WorkspaceItem K) →
    Prog Failure ω (List (WorkspaceItem K))
  setBias : AttentionBias K → Prog Failure ω Unit := fun _ => pure ()

structure RecallStage (K ω : Type) where
  recallFor : List (WorkspaceItem K) → Prog Failure ω (List (WorkspaceItem K))
  setMood : Option (Mood K) → Prog Failure ω Unit := fun _ => pure ()

structure NarrationStage (K ω : Type) where
  narrate : List (WorkspaceItem K) → Prog Failure ω (Option String)
  setMood : Option (Mood K) → Prog Failure ω Unit := fun _ => pure ()

structure DriveStage (K ω : Type) where
  step : List (DriveEvent K) → Prog Failure ω (List (DriveReading K))
  urges : List (DriveReading K) → List (Urge K)

structure DeliberationStage (K ω : Type) where
  deliberate : List (Urge K) → Option (Mood K) → List (WorkspaceItem K) →
    Prog Failure ω (DeliberationResult K)
  act : Action K → Goal K → List (WorkspaceItem K) → Prog Failure ω (ActionOutcome K)
  settleToolAction : Option (Goal K → String → Bool → Prog Failure ω (List (DriveEvent K)))

structure WorkingMemoryStage (K ω : Type) where
  put : String → ItemKind → K → Prog Failure ω Unit
  decay : Prog Failure ω Unit
  contents : Prog Failure ω (List (WorkspaceItem K))

structure CognitiveCycle (K ω : Type) where
  broadcast : WorkspaceEvent K → Prog Failure ω Unit
  setContents : List (WorkspaceItem K) → Prog Failure ω Unit
  clock : ω → K
  sleepFn : K → Prog Failure ω Unit
  perception : Option (Prog Failure ω (List (WorkspaceItem K))) := none
  attention : Option (AttentionStage K ω) := none
  recaller : Option (RecallStage K ω) := none
  narration : Option (NarrationStage K ω) := none
  learning : Option (List (WorkspaceItem K) → Option String → Prog Failure ω Unit) := none
  drives : Option (DriveStage K ω) := none
  affect : Option (List (WorkspaceItem K) → List (DriveReading K) → List (DriveEvent K) →
    Prog Failure ω (Mood K)) := none
  deliberation : Option (DeliberationStage K ω) := none
  dispatch : Option (EffectorDispatch K ω) := none
  sleepCycle : Option (SleepCycle K ω) := none
  fireDue : Option (Prog Failure ω Unit) := none
  /-- `consolidate_tool_result`, and whether its result is not `None`. -/
  webConsolidator : Option (String → Dict K → Prog Failure ω Bool) := none
  workingMemory : Option (WorkingMemoryStage K ω) := none
  interval : K
  minInterval : K
  maxInterval : K
  arousalSpeedup : K
  tiredSlowdown : K
  attentionDriveWeight : K
  capacity : ℕ

def stateEvent : String := "state"

def webReadTools : List String := ["web_fetch", "web_search", "news"]

def driveKindRelevance (drive : String) : List String :=
  if drive = "connection" then ["input"]
  else if drive = "curiosity" then ["memory", "fact"]
  else if drive = "boredom" then ["input", "memory"]
  else []

structure TickReport where
  tick : ℕ
  perceptCount : ℕ
  contentCount : ℕ
  thought : Option String
  stageErrors : List (String × String)

namespace CognitiveCycle
variable {K ω : Type}

def stageError (stage message : String) : Stage K ω Unit :=
  Mind.setCtx fun c => { c with stageErrors := dictSet c.stageErrors stage message }

/-- Runs one stage; a failure degrades that stage but never the tick. -/
def stage (name : String) (fn : Stage K ω Unit) : Stage K ω Unit :=
  Prog.rescue Failure.isException fn fun e => stageError name e.describe

/-- Broadcasts a stage output; a failure degrades the owning stage. -/
def emit (c : CognitiveCycle K ω) (module type : String) (payload : Dict K)
    (owner : Option String) : Stage K ω Unit :=
  Prog.rescue Failure.isException
    (Mind.outside (c.broadcast { module := module, type := type, payload := payload }))
    fun e => Prog.onSome owner fun name => stageError name ("broadcast failed: " ++ e.text)

def enqueueDriveEvent (event : DriveEvent K) : Stage K ω Unit := do
  Mind.note (.enqueued event)
  Prog.modify fun s => { s with pendingEvents := s.pendingEvents ++ [event] }

/-! ### Perceiving and attending -/

def perceive (c : CognitiveCycle K ω) : Stage K ω Unit :=
  Prog.onSome c.perception fun perceive => do
    let percepts ← Mind.outside perceive
    Mind.setCtx fun ctx => { ctx with percepts := percepts }
    Prog.forEach percepts fun p =>
      c.emit "sensorium" "percept"
        [("kind", .str p.kind.label), ("content", .str p.content), ("source", .str p.source)]
        (some "perceive")

def refreshWorkingMemory (c : CognitiveCycle K ω) (percepts : List (WorkspaceItem K)) :
    Stage K ω (List (WorkspaceItem K)) :=
  match c.workingMemory with
  | none => pure percepts
  | some wm => do
    Prog.forEach percepts fun p => Mind.outside (wm.put p.content p.kind p.salience)
    Mind.outside wm.decay
    Mind.outside wm.contents

/-- Without an Attention the percepts pass through. -/
def selectContents (c : CognitiveCycle K ω) (working percepts : List (WorkspaceItem K)) :
    Stage K ω (List (WorkspaceItem K)) :=
  match c.attention with
  | some attention => Mind.outside (attention.select working percepts)
  | none => pure percepts

def attend (c : CognitiveCycle K ω) : Stage K ω Unit := do
  let percepts ← Prog.reads fun s => s.ctx.percepts
  let working ← c.refreshWorkingMemory percepts
  let selected ← c.selectContents working percepts
  let contents := selected.take c.capacity
  Mind.setCtx fun ctx => { ctx with contents := contents }
  Mind.outside (c.setContents contents)
  c.emit "attention" "attention.selected"
    [("count", .int contents.length), ("items", .arr (contents.map fun i => .str i.content))]
    (some "attend")

section ordered
variable [LinearOrder K]

/-- The merge of RECALL: most salient first, equal ones in their old order, bounded. -/
def mergeRecalled (capacity : ℕ) (contents recalled : List (WorkspaceItem K)) :
    List (WorkspaceItem K) :=
  ((contents ++ recalled).insertionSort fun a b => b.salience ≤ a.salience).take capacity

def recallStage (c : CognitiveCycle K ω) : Stage K ω Unit :=
  Prog.onSome c.recaller fun memory => do
    let focus ← Prog.reads fun s => s.ctx.contents
    let recalled ← Mind.outside (memory.recallFor focus)
    Prog.onlyIf (recalled.length ≠ 0) do
      let merged := mergeRecalled c.capacity focus recalled
      Mind.setCtx fun ctx => { ctx with contents := merged }
      Mind.outside (c.setContents merged)
      c.emit "memory" "recall" [("recalled", .int recalled.length)] (some "recall")

end ordered

def narrate (c : CognitiveCycle K ω) : Stage K ω Unit :=
  Prog.onSome c.narration fun narrator => do
    let contents ← Prog.reads fun s => s.ctx.contents
    let thought ← Mind.outside (narrator.narrate contents)
    Mind.setCtx fun ctx => { ctx with thought := thought }
    Prog.onSome thought fun text => Prog.onlyIf (text ≠ "")
      (c.emit "narrator" "thought" [("text", .str text)] (some "narrate"))

def learn (c : CognitiveCycle K ω) : Stage K ω Unit :=
  Prog.onSome c.learning fun learn => do
    let ctx ← Prog.reads Mind.ctx
    Mind.outside (learn ctx.contents ctx.thought)

/-! ### Deliberating, checking and acting -/

section tools
variable [Field K] [LinearOrder K] [FloorRing K]

def deliberate (c : CognitiveCycle K ω) : Stage K ω Unit := do
  let agency ← Prog.reads Mind.fullAgency
  Prog.onSome c.deliberation fun d => Prog.onlyIf (agency = true) do
    let ctx ← Prog.reads Mind.ctx
    let time ← Prog.reads fun s => c.clock s.world
    Mind.note .deliberating
    let result ← Mind.outside (d.deliberate ctx.urges ctx.mood ctx.contents)
    Mind.note (.deliberated time result)
    Mind.setCtx fun ctx => { ctx with goal := result.goal, action := result.action }
    Prog.onSome result.goal fun goal =>
      c.emit "deliberation" "goal.active"
        [("id", jsonId goal.id), ("source", .str goal.source),
          ("description", .str goal.description), ("priority", .num (roundTo 4 goal.priority))]
        (some "deliberate")

end tools

def proposalOf (action : Action K) (tool : String) : ProposedAction K where
  tool := tool
  args := action.toolArgs
  goalId := action.goalId
  goalDescription := action.description

def check (c : CognitiveCycle K ω) : Stage K ω Unit := do
  let s ← Prog.reads fun s => s
  Prog.onlyIf (s.fullAgency = true) <| Prog.onSome c.dispatch fun dispatch =>
    Prog.onSome s.ctx.action fun action => Prog.onSome action.tool fun tool => do
      let vetted ← dispatch.vet (proposalOf action tool) s.ctx.contents
      Mind.setCtx fun ctx => { ctx with vetted := some vetted }

/-- A failed or missing consolidation counts as not remembered. -/
def consolidateWebRead (c : CognitiveCycle K ω) (tool : String) (output : Dict K) :
    Stage K ω Bool :=
  match c.webConsolidator with
  | none => pure false
  | some consolidate =>
    Prog.rescue Failure.isException (Mind.outside (consolidate tool output)) fun _ => pure false

/-- Whether the tool's result settles its goal: a web read must also be remembered. -/
def settledBy (c : CognitiveCycle K ω) (tool : Option String) (outcome : DispatchOutcome K) :
    Stage K ω Bool :=
  let ranOk := outcome.ran && outcome.result.any ToolResult.success
  match tool, outcome.result with
  | some tool, some result =>
    if ranOk ∧ tool ∈ webReadTools then c.consolidateWebRead tool result.output else pure ranOk
  | _, _ => pure ranOk

def dispatchToolAction (c : CognitiveCycle K ω) : Stage K ω Unit := do
  let ctx ← Prog.reads Mind.ctx
  Prog.onSome c.dispatch fun dispatch => Prog.onSome ctx.vetted fun vetted =>
    Prog.onSome ctx.goal fun goal => do
      let outcome ← dispatch.commit vetted
      let success ← c.settledBy (ctx.action.bind Action.tool) outcome
      Prog.onSome (c.deliberation.bind DeliberationStage.settleToolAction) fun settle => do
        let events ← Mind.outside (settle goal outcome.summary success)
        Prog.forEach events enqueueDriveEvent

/-- The lighter seam of internal cognition: its outcome goes on the bus. -/
def dispatchAction (c : CognitiveCycle K ω) (payload : Dict K) : Stage K ω Unit :=
  Mind.outside (c.broadcast
    { module := "effectors", type := "action.dispatched", payload := payload })

def actInternally (c : CognitiveCycle K ω) (action : Action K) (goal : Goal K) :
    Stage K ω Unit :=
  Prog.onSome c.deliberation fun d => do
    let contents ← Prog.reads fun s => s.ctx.contents
    Mind.note (.acting action)
    let outcome ← Mind.outside (d.act action goal contents)
    c.dispatchAction [("action", .str action.kind), ("goal_id", jsonId goal.id),
      ("goal_source", .str goal.source), ("summary", .str outcome.summary),
      ("success", .bool outcome.success)]
    Prog.forEach outcome.driveEvents enqueueDriveEvent

def act (c : CognitiveCycle K ω) : Stage K ω Unit := do
  let s ← Prog.reads fun s => s
  Prog.onlyIf (s.fullAgency = true) <| Prog.onSome s.ctx.action fun action =>
    Prog.onSome s.ctx.goal fun goal =>
      if action.isToolAction then c.dispatchToolAction else c.actInternally action goal

/-! ### Appraising -/

/-- Queued outcomes, then an interaction for each fresh input; the queue is cleared. -/
def collectEvents [One K] : Stage K ω (List (DriveEvent K)) := do
  let s ← Prog.reads fun s => s
  Prog.modify fun s => { s with pendingEvents := [] }
  let inputs := s.ctx.percepts.countP fun p => p.kind == .input
  pure (s.pendingEvents ++ List.replicate inputs ⟨.interaction, 1⟩)

section appraisal
variable [Field K] [LinearOrder K]

def arousalNeutral : K := frac 3 10

def attentionBias [FloorRing K] (c : CognitiveCycle K ω) (mood : Option (Mood K))
    (drives : List (DriveReading K)) : AttentionBias K :=
  let pulls := (drives.filter fun d => d.overThreshold && d.drive != sleepDrive).flatMap fun d =>
    (driveKindRelevance d.drive).map fun kind => (kind, c.attentionDriveWeight * d.urgency)
  { arousal := (mood.map Mood.arousal).getD arousalNeutral
    kindBoosts := pulls.foldl (fun boosts p =>
      dictSet boosts p.1 ((dictGet boosts p.1).getD 0 + p.2)) [] }

/-- Arousal shortens the interval, tiredness lengthens it, within the bounds. -/
def modulateInterval [FloorRing K] (c : CognitiveCycle K ω) (mood : Option (Mood K))
    (drives : List (DriveReading K)) : K :=
  let arousal := (mood.map Mood.arousal).getD arousalNeutral
  let energyExcess := drives.foldl (fun excess d =>
    if d.drive = sleepDrive ∧ d.overThreshold = true then d.urgency else excess) 0
  let interval := c.interval * (1 + c.tiredSlowdown * energyExcess) /
    (1 + c.arousalSpeedup * arousal)
  min c.maxInterval (max c.minInterval interval)

variable [FloorRing K]

def broadcastDrives (c : CognitiveCycle K ω) : Stage K ω Unit := do
  let ctx ← Prog.reads Mind.ctx
  c.emit "drives" "drive.state"
    [("drives", .obj (ctx.drives.map fun d => (d.drive, .num (roundTo 4 d.value)))),
      ("over_threshold", .arr (ctx.urges.map fun u => .str u.drive))] (some "appraise")
  Prog.forEach ctx.urges fun u =>
    c.emit "drives" (if u.isSleepSignal then "drive.sleep_signal" else "drive.urge")
      [("drive", .str u.drive), ("urgency", .num (roundTo 4 u.urgency)),
        ("value", .num (roundTo 4 u.value))] (some "appraise")

def stepDrives (c : CognitiveCycle K ω) : Stage K ω Unit :=
  Prog.onSome c.drives fun engine => do
    let events ← Prog.reads fun s => s.ctx.events
    let drives ← Mind.outside (engine.step events)
    let urges := engine.urges drives
    Mind.note (.drivesStepped events urges)
    Mind.setCtx fun ctx => { ctx with drives := drives, urges := urges }
    Prog.modify fun s => { s with lastUrges := urges }
    c.broadcastDrives

def appraiseMood (c : CognitiveCycle K ω) : Stage K ω Unit :=
  Prog.onSome c.affect fun appraise => do
    let ctx ← Prog.reads Mind.ctx
    let mood ← Mind.outside (appraise ctx.percepts ctx.drives ctx.events)
    Mind.setCtx fun ctx => { ctx with mood := some mood }
    c.emit "affect" "mood" (serializeMood mood) (some "appraise")

def applyAffectiveContext (c : CognitiveCycle K ω) : Stage K ω Unit := do
  let ctx ← Prog.reads Mind.ctx
  Prog.onSome c.attention fun a => Mind.outside (a.setBias (c.attentionBias ctx.mood ctx.drives))
  Prog.onSome c.recaller fun r => Mind.outside (r.setMood ctx.mood)
  Prog.onSome c.narration fun n => Mind.outside (n.setMood ctx.mood)

def appraise (c : CognitiveCycle K ω) : Stage K ω Unit := do
  let events ← collectEvents
  Mind.setCtx fun ctx => { ctx with events := events }
  c.stepDrives
  c.appraiseMood
  c.applyAffectiveContext
  Prog.modify fun s =>
    { s with nextInterval := c.modulateInterval s.ctx.mood s.ctx.drives }

/-! ### The state surface -/

def sleepBlock (s : Mind K ω) (asleep : Bool) : Json K :=
  serializeSleepBlock asleep s.fullAgency (sleepSummaryFromReport s.lastSleep)

def broadcastState (c : CognitiveCycle K ω) : Stage K ω Unit := do
  let s ← Prog.reads fun s => s
  c.emit "cycle" stateEvent
    (serializeState s.ctx.tick s.ctx.drives s.ctx.mood s.ctx.goal.toList s.nextInterval
      (sleepBlock s false)) (some "state")

/-! ### One tick -/

def stages (c : CognitiveCycle K ω) : List (String × Stage K ω Unit) :=
  [("perceive", c.perceive), ("appraise", c.appraise), ("attend", c.attend),
    ("recall", c.recallStage), ("narrate", c.narrate), ("deliberate", c.deliberate),
    ("check", c.check), ("act", c.act), ("learn", c.learn), ("state", c.broadcastState)]

/-- A new tick number and a fresh scratchpad. -/
def beginTick : Stage K ω Unit := do
  Prog.modify fun s => { s with tick := s.tick + 1, ctx := { tick := s.tick + 1 } }
  let agency ← Prog.reads Mind.fullAgency
  Mind.note (.began agency)

def tick (c : CognitiveCycle K ω) : Stage K ω TickReport := do
  beginTick
  let number ← Prog.reads Mind.tick
  c.emit "cycle" "cycle.tick" [("tick", .int number)] none
  Prog.forEach c.stages fun entry => stage entry.1 entry.2
  let ctx ← Prog.reads Mind.ctx
  Prog.onlyIf (ctx.stageErrors.length ≠ 0)
    (Prog.modify fun s => { s with degradedTicks := s.degradedTicks + 1 })
  pure ⟨ctx.tick, ctx.percepts.length, ctx.contents.length, ctx.thought, ctx.stageErrors⟩

/-! ### Between ticks -/

def fireDueWakeups (c : CognitiveCycle K ω) : Stage K ω Unit :=
  Prog.onSome c.fireDue fun fire =>
    Prog.rescue Failure.isException (Mind.outside fire) fun _ => pure ()

def emitDegradedAlert (c : CognitiveCycle K ω) (failures : Json K) (source : String) :
    Stage K ω Unit :=
  Mind.outside (c.broadcast {
    module := "sleep", type := "sleep.degraded",
    payload := [("reason", .str ("wake self-check failed (" ++ source ++
        ") — autonomous action suspended")),
      ("self_check_failures", failures), ("full_agency", .bool false)] })

def alertDegraded (c : CognitiveCycle K ω) (report : SleepReport K) : Stage K ω Unit :=
  c.emitDegradedAlert
    (match dictGet report.notes "self_check_failures" with
      | some (.arr failures) => .arr failures
      | _ => .arr []) "sleep"

def emitSleepTransition (c : CognitiveCycle K ω) (asleep : Bool) : Stage K ω Unit := do
  let s ← Prog.reads fun s => s
  Mind.outside (c.broadcast {
    module := "sleep", type := stateEvent,
    payload := serializeState s.tick [] none [] s.nextInterval (sleepBlock s asleep) })

/-- What the cycle takes over from a completed sleep. -/
def applyReport (c : CognitiveCycle K ω) (report : SleepReport K) : Stage K ω Unit := do
  Prog.modify fun s =>
    { s with lastSleep := some report, degradedTicks := 0, fullAgency := report.selfCheckOk }
  Prog.onlyIf (report.selfCheckOk = false) (c.alertDegraded report)

def maybeSleep (c : CognitiveCycle K ω) : Stage K ω Unit :=
  Prog.onSome c.sleepCycle fun sleepCycle => do
    let trigger ← Prog.reads fun s => sleepCycle.sleepTrigger s s.lastUrges s.tick
    Prog.onSome trigger fun trigger => do
      c.emitSleepTransition true
      let degradedTicks ← Prog.reads Mind.degradedTicks
      let report ← sleepCycle.sleep trigger none degradedTicks
      Prog.onSome report c.applyReport
      c.emitSleepTransition false

/-- A wake check verdict applied outside sleep, as at startup. -/
def applyWakeCheck (c : CognitiveCycle K ω) (result : CheckResult) : Stage K ω Unit := do
  Mind.note (.wakeChecked result.ok)
  Prog.modify fun s => { s with fullAgency := result.ok }
  Prog.onlyIf (result.ok = false)
    (c.emitDegradedAlert (.arr (result.failures.map fun f => .str f.check)) "startup")

def errorBackoff : K := 1

/-- One pass of the run loop. -/
def beat (c : CognitiveCycle K ω) : Stage K ω Unit :=
  Prog.rescue Failure.isException
    (do
      let _ ← c.tick
      c.fireDueWakeups
      c.maybeSleep
      let interval ← Prog.reads Mind.nextInterval
      Mind.outside (c.sleepFn interval))
    (fun _ => do
      let interval ← Prog.reads Mind.nextInterval
      Mind.outside (c.sleepFn (max interval errorBackoff)))

/-- What the running Mind goes through: a pass of the run loop, a wake check, or a
change of the world by someone else (an input pushed, a row edited). -/
inductive Turn (K ω : Type) where
  | beat
  | wakeCheck (result : CheckResult)
  | elsewhere (change : ω → ω)

def turn (c : CognitiveCycle K ω) : Turn K ω → Stage K ω Unit
  | .beat => c.beat
  | .wakeCheck result => c.applyWakeCheck result
  | .elsewhere change => Prog.modify fun s => { s with world := change s.world }

/-- The turns one after the other, up to a failure that no `except` took. -/
def run (c : CognitiveCycle K ω) (turns : List (Turn K ω)) : Stage K ω Unit :=
  Prog.forEach turns c.turn

end appraisal

/-- The Mind before its first turn. -/
def fresh (c : CognitiveCycle K ω) (world : ω) : Mind K ω :=
  { world := world, nextInterval := c.interval }

end CognitiveCycle
end Johnny
