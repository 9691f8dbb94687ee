import Johnny.Brain.Heartbeat
import Johnny.Drives.Engine
import Johnny.SelfModel.Lineage
import Mathlib.Data.List.TakeWhile

/-!
# What the wake check can find

The check reads the current self-model and the drives against the Core's anchor, which is the
agent's as well. Over any run of boots, drive steps, whole sleeps and checks, with any failures,
the name is the anchor's and every drive is in its range; so a check that was made fails exactly
where the newest self-model is blank, and one that the run wrote is what the model replied to a
sleep.
-/
namespace Johnny

/-- What the wake check looks at: the self-model and the drives. -/
structure Continuity (K ω : Type) [Field K] [LinearOrder K] where
  model : SelfModel K ω
  /-- The agent and the check are both wired without an anchor, and read the Core's. -/
  wired : model.anchor = loadIdentityAnchor model.store.memorySnapshotDir
  engine : DriveEngine K
  drives : Sessions Failure (DriveTable K) Unit ω
  nowFn : ω → K

namespace Continuity
variable {K ω : Type} [Field K] [LinearOrder K] {k : Continuity K ω}

/-! ### The drives in their table -/

/-- A pass of the engine over the table, in a transaction. -/
def pass (k : Continuity K ω) (p : DriveTable K → List (DriveReading K) × DriveTable K) :
    Prog Failure ω (List (DriveReading K)) :=
  k.drives.scope fun t => (.ok (p t.1).1, (p t.1).2, t.2)

def bootstrapDrives (k : Continuity K ω) : Prog Failure ω (List (DriveReading K)) := do
  let now ← Prog.reads k.nowFn
  k.pass (k.engine.bootstrap now)

/-- What a start makes sure of before the first check. -/
def boot (k : Continuity K ω) : Prog Failure ω Unit := do
  let _ ← k.bootstrapDrives
  let _ ← k.model.current
  pure ()

def stepDrives (k : Continuity K ω) (events : List (DriveEvent K)) (now : K) :
    Prog Failure ω (List (DriveReading K)) := k.pass (k.engine.step events now)

def drivesCurrent (k : Continuity K ω) : Prog Failure ω (List (DriveReading K)) :=
  k.pass fun rows => (DriveEngine.current rows, rows)

/-- The sleep cycle with this self-model and these drives. `gather` is
`_build_reflection_inputs`. -/
def onto (k : Continuity K ω) (gather : List SemanticFact → Prog Failure ω ReflectionInputs)
    (c : SleepCycle K ω) : SleepCycle K ω :=
  { c with
    refreshSelfModel := fun facts => do
      let inputs ← gather facts
      let doc ← k.model.refresh inputs
      pure doc.toIdentityDoc
    stepDrives := fun events now => do
      let _ ← k.stepDrives events now
      pure ()
    selfModelCurrent := do
      let doc ← k.model.current
      pure doc.toIdentityDoc
    drivesCurrent := k.drivesCurrent
    anchorName := (loadIdentityAnchor k.model.store.memorySnapshotDir).name }

/-! ### What holds throughout -/

def InRange (rows : DriveTable K) : Prop :=
  ∀ drive row, rows drive = some row → DriveParams.Pressure row.value

/-- For the self-model all is a run of its turns, and drives in their range stay there. -/
def sound (k : Continuity K ω) : Frame ω :=
  .both
    { rel := fun v w => ∃ turns, w = runSteps k.model.turn turns v
      refl := fun _ => ⟨[], rfl⟩
      trans := by
        rintro u v w ⟨first, rfl⟩ ⟨second, rfl⟩
        exact ⟨first ++ second, (runSteps_append _ first second u).symm⟩ }
    { rel := fun v w => InRange (k.drives.db.get v).tables → InRange (k.drives.db.get w).tables
      refl := fun _ => id
      trans := fun first second => second ∘ first }

/-- Both tables are as before. -/
def still (k : Continuity K ω) : Frame ω :=
  .both (.eqOn k.model.store.db.get) (.eqOn k.drives.db.get)

/-- Nobody else writes either table: not the router, not the other stages of a sleep, and neither
of the two agents while the other is awaited. -/
structure Alone (k : Continuity K ω)
    (gather : List SemanticFact → Prog Failure ω ReflectionInputs) (c : SleepCycle K ω) : Prop where
  router : ∀ complete, k.model.router = some complete → ∀ role messages temperature maxTokens,
    Prog.Keeps k.still (complete role messages temperature maxTokens)
  identityPut : ∀ d w, k.drives.db.get (k.model.store.db.put d w) = k.drives.db.get w
  identityMeanwhile : ∀ w, k.drives.db.get (k.model.store.meanwhile w) = k.drives.db.get w
  drivesPut : ∀ d w, k.model.store.db.get (k.drives.db.put d w) = k.model.store.db.get w
  drivesMeanwhile : ∀ w, k.model.store.db.get (k.drives.meanwhile w) = k.model.store.db.get w
  gather : ∀ facts, Prog.Keeps k.still (gather facts)
  logOpen : ∀ trigger started, Prog.Keeps k.still (c.logOpen trigger started)
  logClose : ∀ id ended report, Prog.Keeps k.still (c.logClose id ended report)
  consolidate : Prog.Keeps k.still c.consolidate
  decay : ∀ now, Prog.Keeps k.still (c.decay now)
  review : ∀ n, Prog.Keeps k.still (c.review n)
  snapshot : Prog.Keeps k.still c.snapshot

variable {gather : List SemanticFact → Prog Failure ω ReflectionInputs} {c : SleepCycle K ω}

theorem Alone.model (alone : k.Alone gather c) : k.model.Alone where
  router complete routed role messages temperature maxTokens w :=
    (alone.router complete routed role messages temperature maxTokens w).1

section ordered
variable [IsStrictOrderedRing K]

end ordered

/-! ### What a check finds -/

/-- What happens to both, one after the other. -/
inductive Turn (k : Continuity K ω) where
  | boot
  | tick (events : List (DriveEvent K)) (now : K)
  /-- A whole sleep, whichever of its stages fail. -/
  | sleep (trigger : SleepTrigger) (now : Option K) (degradedTicks : ℕ)
  | check
  /-- Anything else, which leaves both tables alone. -/
  | elsewhere (happens : Mind K ω → Mind K ω)
      (apart : ∀ s, k.still.rel s.world (happens s).world)

def turn (k : Continuity K ω) (gather : List SemanticFact → Prog Failure ω ReflectionInputs)
    (c : SleepCycle K ω) : k.Turn → Mind K ω → Mind K ω
  | .boot, s => { s with world := (k.boot s.world).2 }
  | .tick events now, s => { s with world := (k.stepDrives events now s.world).2 }
  | .sleep trigger now degradedTicks, s => ((k.onto gather c).sleep trigger now degradedTicks s).2
  | .check, s => { s with world := ((k.onto gather c).verify s.world).2 }
  | .elsewhere happens _, s => happens s

variable [IsStrictOrderedRing K]

/-- The turn is a sleep, and the row what the model replied to a refresh in it. -/
def Answered (k : Continuity K ω) (gather : List SemanticFact → Prog Failure ω ReflectionInputs)
    (c : SleepCycle K ω) (t : k.Turn) (s : Mind K ω) (row : IdentityRow K) : Prop :=
  ∃ trigger now degradedTicks earlier inputs later delta created rows id,
    t = .sleep trigger now degradedTicks ∧
    (k.turn gather c t s).world =
      runSteps k.model.turn (earlier ++ .refresh inputs :: later) s.world ∧
    k.model.Replied inputs (runSteps k.model.turn earlier s.world) delta ∧
    row = IdentityStore.rowOf (k.model.reflected delta) created rows id

end Continuity

/-! ### A blank reply -/

namespace BlankReply

structure World where
  identity : Database Failure (List (IdentityRow ℚ)) ℕ := ⟨[], 1, [], []⟩
  drives : Database Failure (DriveTable ℚ) Unit := ⟨fun _ => none, (), [], []⟩

theorem standing_zero : (fun _ : ℚ => (1 : ℚ)) 0 = 1 := rfl

theorem standing_add (a b : ℚ) :
    (fun _ : ℚ => (1 : ℚ)) (a + b) = (fun _ : ℚ => (1 : ℚ)) a * (fun _ : ℚ => (1 : ℚ)) b :=
  (one_mul 1).symm

theorem standing_monotone : Monotone fun _ : ℚ => (1 : ℚ) := monotone_const

/-- All that happens here happens at one time. -/
def standing : Exponential ℚ :=
  ⟨fun _ => 1, standing_zero, standing_add, standing_monotone⟩

def continuity : Continuity ℚ World where
  model := {
    router := some fun _ _ _ _ => pure ⟨" \n"⟩
    parseIdentityDelta := fun content => .ok { selfModelDoc := content }
    store := {
      db := ⟨World.identity, fun d w => { w with identity := d }, fun _ _ => rfl⟩
      meanwhile := id
      apart := fun _ => rfl
      nowFn := fun _ => 0
      memorySnapshotDir := "snapshots" }
    anchor := loadIdentityAnchor "snapshots"
    prompt := "Reflect on who you are becoming."
    maxTokens := 1024 }
  wired := rfl
  engine := {
    config := { drives := fun _ => ⟨1 / 10, 1, 1, 1 / 2⟩, satisfaction := [] }
    exp := standing }
  drives := {
    db := ⟨World.drives, fun d w => { w with drives := d }, fun _ _ => rfl⟩
    meanwhile := id
    apart := fun _ => rfl }
  nowFn _ := 0

def cycle : SleepCycle ℚ World where
  everyTicks := 0
  clock _ := 0
  logOpen _ _ := pure 1
  logClose _ _ _ := pure ()
  consolidate := pure []
  decay _ := pure { episodesDecayed := 0, factsMerged := 0 }
  refreshSelfModel _ := pure { name := "", selfModelDoc := "" }
  review _ := pure ""
  snapshot := pure "snapshots/1"
  stepDrives _ _ := pure ()
  selfModelCurrent := pure { name := "", selfModelDoc := "" }
  drivesCurrent := pure []
  anchorName := ""

def gather (_ : List SemanticFact) : Prog Failure World ReflectionInputs := pure {}

theorem alone : continuity.Alone gather cycle where
  router := by
    rintro _ ⟨⟩ _ _ _ _ w
    exact continuity.still.refl w
  identityPut _ _ := rfl
  identityMeanwhile _ := rfl
  drivesPut _ _ := rfl
  drivesMeanwhile _ := rfl
  gather _ := continuity.still.refl
  logOpen _ _ := continuity.still.refl
  logClose _ _ _ := continuity.still.refl
  consolidate := continuity.still.refl
  decay _ := continuity.still.refl
  review _ := continuity.still.refl
  snapshot := continuity.still.refl

end BlankReply

end Johnny
