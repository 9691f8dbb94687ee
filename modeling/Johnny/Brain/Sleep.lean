import Johnny.Brain.Mind

/-!
# The sleep cycle

The offline pipeline, its per-stage isolation, and the exit path that closes the
sleep log row and wakes. The stages' agents and the log store are calls to the
world outside; the wake self-check and the restored drives are the cycle's own.
-/
namespace Johnny

def checkSelfModelPresent : String := "self_model_present"
def checkAnchorConsistency : String := "anchor_consistency"
def checkDriveRanges : String := "drive_ranges"

/-- The local variables of one `sleep()`. -/
structure SleepLocals (K : Type) where
  report : SleepReport K
  notes : Dict K := []
  degraded : List String := []
  sleepId : Option ℕ := none

/-- A stage that also reads and writes the locals of the sleep it belongs to. -/
abbrev Sleeping (K ω α : Type) := Prog Failure (Mind K ω × SleepLocals K) α

structure SleepCycle (K ω : Type) where
  everyTicks : ℤ
  clock : ω → K
  logOpen : SleepTrigger → K → Prog Failure ω ℕ
  logClose : ℕ → K → SleepReport K → Prog Failure ω Unit
  consolidate : Prog Failure ω (List SemanticFact)
  decay : K → Prog Failure ω DecayReport
  refreshSelfModel : List SemanticFact → Prog Failure ω IdentityDoc
  /-- The review of the given number of degraded ticks, as its reflection. -/
  review : ℕ → Prog Failure ω String
  snapshot : Prog Failure ω String
  stepDrives : List (DriveEvent K) → K → Prog Failure ω Unit
  selfModelCurrent : Prog Failure ω IdentityDoc
  drivesCurrent : Prog Failure ω (List (DriveReading K))
  anchorName : String

namespace SleepCycle
variable {K ω α : Type}

/-! ### The wake self-check -/

def selfModelPresent (selfModelDoc : String) : CheckFinding :=
  let present := strip selfModelDoc != ""
  ⟨checkSelfModelPresent, present,
    if present then "self-model doc present" else "self-model doc is empty"⟩

def anchorConsistency (anchorName name : String) : CheckFinding :=
  let consistent := name == anchorName
  ⟨checkAnchorConsistency, consistent,
    if consistent then "self-model name " ++ pyRepr name ++ " matches the anchor"
    else "self-model name " ++ pyRepr name ++ " diverged from anchor " ++ pyRepr anchorName⟩

section ranges
variable [Field K] [LinearOrder K]

def driveRanges (readings : List (DriveReading K)) : CheckFinding :=
  let outOfRange := (readings.filter fun r => !decide (0 ≤ r.value ∧ r.value ≤ 1)).map
    DriveReading.drive
  ⟨checkDriveRanges, outOfRange.isEmpty,
    if outOfRange.isEmpty then "all drives within [0,1]"
    else "drives out of range: [" ++ ", ".intercalate (outOfRange.map pyRepr) ++ "]"⟩

def verify (c : SleepCycle K ω) : Prog Failure ω CheckResult := do
  let doc ← c.selfModelCurrent
  let readings ← c.drivesCurrent
  let findings := [selfModelPresent doc.selfModelDoc, anchorConsistency c.anchorName doc.name,
    driveRanges readings]
  pure ⟨findings.all CheckFinding.ok, findings⟩

end ranges

/-! ### Stages and locals -/

def setLocals (f : SleepLocals K → SleepLocals K) : Sleeping K ω Unit :=
  Prog.modify fun s => (s.1, f s.2)

def setReport (f : SleepReport K → SleepReport K) : Sleeping K ω Unit :=
  setLocals fun l => { l with report := f l.report }

def setNote (key : String) (value : Json K) : Sleeping K ω Unit :=
  setLocals fun l => { l with notes := dictSet l.notes key value }

def inMind (p : Stage K ω α) : Sleeping K ω α :=
  Prog.zoom Prod.fst (fun m s => (m, s.2)) p

/-- A failed stage is listed and noted, and the pipeline goes on without its result. -/
def stage (name : String) (p : Stage K ω α) : Sleeping K ω (Option α) :=
  Prog.rescue Failure.isException
    (do let a ← inMind p; pure (some a))
    (fun e => do
      setLocals fun l => { l with degraded := l.degraded ++ [name] }
      setNote (name ++ "_error") (.str e.describe)
      pure none)

def factLine (f : SemanticFact) : String := f.subject ++ " " ++ f.predicate ++ " " ++ f.object

def sleepTrigger (c : SleepCycle K ω) (s : Mind K ω) (urges : List (Urge K)) (tick : ℕ) :
    Option SleepTrigger :=
  if s.asleep then none
  else if urges.any Urge.isSleepSignal then some .energy
  else if 0 < c.everyTicks ∧ 0 < tick ∧ (tick : ℤ) % c.everyTicks = 0 then some .scheduled
  else none

section pipeline
variable [Field K] [LinearOrder K]

def passed : Except Failure CheckResult → Bool
  | .ok r => r.ok
  | .error _ => false

/-- REST, and a confirmed backup where there is one. -/
def restoreEnergy (c : SleepCycle K ω) (snapshotOk : Bool) (now : K) : Stage K ω Unit :=
  let events := if snapshotOk then [⟨.rest, 1⟩, ⟨.persistenceConfirmed, 1⟩] else [⟨.rest, 1⟩]
  Mind.outside (c.stepDrives events now)

/-- The stages up to the restored energy. -/
def offline (c : SleepCycle K ω) (started : K) (degradedTicks : ℕ) : Sleeping K ω Unit := do
  let facts ← stage "consolidate" (Mind.outside c.consolidate)
  let facts := facts.getD []
  setReport fun r => { r with factsWritten := facts.length }
  Prog.onlyIf (facts ≠ [])
    (setNote "consolidation_summary" (.arr (facts.map fun f => .str (factLine f))))
  let decay ← stage "decay" (Mind.outside (c.decay started))
  Prog.onSome decay fun d => setReport fun r =>
    { r with episodesDecayed := d.episodesDecayed, factsMerged := d.factsMerged }
  let doc ← stage "self_model" (Mind.outside (c.refreshSelfModel facts))
  Prog.onSome doc fun doc => setReport fun r => { r with selfModelVersion := some doc.version }
  let review ← stage "metacognition" (Mind.outside (c.review degradedTicks))
  Prog.onSome review fun reflection => setReport fun r => { r with reflection := reflection }
  let path ← stage "backup" (Mind.outside c.snapshot)
  setReport fun r => { r with snapshotPath := path }
  let _ ← stage "restore_energy" (c.restoreEnergy path.isSome started)
  pure ()

def noteCheck (check : Option CheckResult) : Sleeping K ω Unit := do
  setReport fun r => { r with selfCheckOk := check.any CheckResult.ok }
  Prog.onSome check fun check => Prog.onlyIf (check.ok = false)
    (setNote "self_check_failures" (.arr (check.failures.map fun f => .str f.check)))

def selfCheck (c : SleepCycle K ω) : Sleeping K ω Unit := do
  let check ← stage "self_check"
    (Mind.noting (Mind.outside c.verify) fun r => .selfChecked (passed r))
  noteCheck check

/-- The body of the `try` block. -/
def pipeline (c : SleepCycle K ω) (trigger : SleepTrigger) (started : K) (degradedTicks : ℕ) :
    Sleeping K ω Unit := do
  let sleepId ← inMind (Mind.outside (c.logOpen trigger started))
  setLocals fun l => { l with sleepId := some sleepId }
  c.offline started degradedTicks
  c.selfCheck

/-- The report as the exit path completes it. -/
def finished (c : SleepCycle K ω) (s : Mind K ω × SleepLocals K) : SleepReport K :=
  { s.2.report with
    endedAt := c.clock s.1.world
    notes := dictSet s.2.notes "degraded" (.arr (s.2.degraded.map .str))
    degradedStages := s.2.degraded }

/-- The `finally` block: the flag falls only after the log row was closed. -/
def wake (c : SleepCycle K ω) : Sleeping K ω Unit := do
  let report ← Prog.reads c.finished
  setReport fun _ => report
  let sleepId ← Prog.reads fun s => s.2.sleepId
  Prog.onSome sleepId fun id => inMind (Mind.outside (c.logClose id report.endedAt report))
  inMind (Prog.modify fun m => { m with asleep := false })

def sleep (c : SleepCycle K ω) (trigger : SleepTrigger) (now : Option K) (degradedTicks : ℕ) :
    Stage K ω (Option (SleepReport K)) := do
  let busy ← Prog.reads Mind.asleep
  if busy then pure none
  else do
    Prog.modify fun m => { m with asleep := true }
    let started ← Prog.reads fun m => now.getD (c.clock m.world)
    Prog.withLocals { report := { trigger, startedAt := started, endedAt := started } } (do
      Prog.ensure (c.pipeline trigger started degradedTicks) c.wake
      Prog.reads fun s => some s.2.report)

end pipeline
end SleepCycle
end Johnny
