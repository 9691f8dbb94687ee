import Johnny.Lib.Footprint
import Johnny.Effectors.Tools

/-!
# The state of the running Mind

The fields of the cognitive cycle and of the sleep cycle, the scratchpad of the
current tick, the world outside, and a history of what happened. The history is
not a field of the source: it records the calls that the results are about, each
under the tick it fell in, newest first. No modelled function reads it.
-/
namespace Johnny

/-- One recorded call or its end. -/
inductive Happening (K ω : Type) where
  /-- A tick began, with or without full agency. -/
  | began (agency : Bool)
  /-- A drive step completed on these events, with these urges. -/
  | drivesStepped (events : List (DriveEvent K)) (urges : List (Urge K))
  | deliberating
  /-- `deliberate`, called at the given clock reading, returned. -/
  | deliberated (time : K) (result : DeliberationResult K)
  | lookedUp (name : String) (found : Option (Tool K ω))
  | argsChecked (args : Dict K) (outcome : Except Failure (Dict K))
  | consulted (action : ProposedAction K) (reply : Except Failure Completion)
  | vetEnded (outcome : Except Failure (VettedAction K ω))
  /-- A tool's `run` was entered with these validated arguments. -/
  | ran (tool : Tool K ω) (args : Dict K)
  /-- The audit sink accepted the record. -/
  | recorded (record : ActionRecord K)
  | commitEnded (outcome : Except Failure (DispatchOutcome K))
  /-- An internal action was handed to Deliberation. -/
  | acting (action : Action K)
  | enqueued (event : DriveEvent K)
  /-- The pipeline's self_check stage ended, and whether the check passed. -/
  | selfChecked (passed : Bool)
  /-- A wake check verdict was applied outside sleep. -/
  | wakeChecked (passed : Bool)

structure Entry (K ω : Type) where
  tick : ℕ
  what : Happening K ω

/-- The scratchpad threaded through one tick's stages. -/
structure CycleContext (K ω : Type) where
  tick : ℕ
  percepts : List (WorkspaceItem K) := []
  contents : List (WorkspaceItem K) := []
  thought : Option String := none
  drives : List (DriveReading K) := []
  mood : Option (Mood K) := none
  urges : List (Urge K) := []
  events : List (DriveEvent K) := []
  goal : Option (Goal K) := none
  action : Option (Action K) := none
  vetted : Option (VettedAction K ω) := none
  stageErrors : List (String × String) := []

structure Mind (K ω : Type) where
  world : ω
  history : List (Entry K ω) := []
  tick : ℕ := 0
  nextInterval : K
  pendingEvents : List (DriveEvent K) := []
  lastUrges : List (Urge K) := []
  degradedTicks : ℕ := 0
  lastSleep : Option (SleepReport K) := none
  fullAgency : Bool := true
  ctx : CycleContext K ω := { tick := 0 }
  /-- `SleepCycle._asleep`. -/
  asleep : Bool := false

/-- A stage of the Mind: it may raise, and keeps what it wrote. -/
abbrev Stage (K ω α : Type) := Prog Failure (Mind K ω) α

namespace Mind
variable {K ω α : Type}

/-- An awaited call to the world outside. -/
def outside (p : Prog Failure ω α) : Stage K ω α :=
  Prog.zoom Mind.world (fun w s => { s with world := w }) p

def note (what : Happening K ω) : Stage K ω Unit :=
  Prog.modify fun s => { s with history := ⟨s.tick, what⟩ :: s.history }

def setCtx (f : CycleContext K ω → CycleContext K ω) : Stage K ω Unit :=
  Prog.modify fun s => { s with ctx := f s.ctx }

/-- Notes how `p` ended, and ends the same way. -/
def noting (p : Stage K ω α) (what : Except Failure α → Happening K ω) : Stage K ω α := do
  let r ← p.outcome
  note (what r)
  Prog.reraise r

theorem outside_apply (p : Prog Failure ω α) (s : Mind K ω) :
    outside p s = ((p s.world).1, { s with world := (p s.world).2 }) := rfl

/-- Nothing but the world outside changes. -/
def worldOnly : Frame (Mind K ω) where
  rel s t := t = { s with world := t.world }
  refl _ := rfl
  trans := by
    intro a b c hab hbc
    rw [hbc, hab]

theorem outside_bind_ok {β : Type} {p : Prog Failure ω α} {f : α → Stage K ω β}
    {s : Mind K ω} {a : α} (h : (p s.world).1 = .ok a) :
    (outside p >>= f) s = f a { s with world := (p s.world).2 } := by
  rw [Prog.bind_apply, outside_apply, h]

theorem outside_bind_error {β : Type} {p : Prog Failure ω α} {f : α → Stage K ω β}
    {s : Mind K ω} {e : Failure} (h : (p s.world).1 = .error e) :
    (outside p >>= f) s = (.error e, { s with world := (p s.world).2 }) := by
  rw [Prog.bind_apply, outside_apply, h]

@[simp] theorem note_apply (what : Happening K ω) (s : Mind K ω) :
    note what s = (.ok (), { s with history := ⟨s.tick, what⟩ :: s.history }) := rfl

@[simp] theorem note_bind {β : Type} (what : Happening K ω) (f : Unit → Stage K ω β)
    (s : Mind K ω) :
    (note what >>= f) s = f () { s with history := ⟨s.tick, what⟩ :: s.history } := rfl

@[simp] theorem setCtx_apply (f : CycleContext K ω → CycleContext K ω) (s : Mind K ω) :
    setCtx f s = (.ok (), { s with ctx := f s.ctx }) := rfl

@[simp] theorem setCtx_bind {β : Type} (g : CycleContext K ω → CycleContext K ω)
    (f : Unit → Stage K ω β) (s : Mind K ω) :
    (setCtx g >>= f) s = f () { s with ctx := g s.ctx } := rfl

theorem noting_apply (p : Stage K ω α) (what : Except Failure α → Happening K ω)
    (s : Mind K ω) :
    noting p what s = ((p s).1, { (p s).2 with
      history := ⟨(p s).2.tick, what (p s).1⟩ :: (p s).2.history }) := by
  simp only [noting, Prog.outcome_bind, note_bind]
  cases (p s).1 <;> rfl

theorem noting_history (p : Stage K ω α) (what : Except Failure α → Happening K ω)
    (s : Mind K ω) :
    ∃ n o, (noting p what s).2.history = ⟨n, what o⟩ :: (p s).2.history :=
  ⟨_, _, congrArg (fun r => r.2.history) (noting_apply p what s)⟩

end Mind
end Johnny
