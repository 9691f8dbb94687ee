import Johnny.Lib.Runs

/-!
# The gate before each tick

The loop waits on an event before each tick. Setting the event only schedules a blocked
loop, which resumes later and without looking at the event again; so a pause in between
comes too late.
-/
namespace Johnny

/-- `CycleGate`; the event is made, set, on first use. -/
structure CycleGate where
  paused : Bool := false
  stepOnce : Bool := false
  proceed : Option Bool := none
  deriving DecidableEq

namespace CycleGate

/-- `_event().is_set()`. -/
def isSet (g : CycleGate) : Bool := g.proceed.getD true

def pause (g : CycleGate) : CycleGate :=
  { g with paused := true, stepOnce := false, proceed := some false }

def resume (g : CycleGate) : CycleGate :=
  { g with paused := false, stepOnce := false, proceed := some true }

def step (g : CycleGate) : CycleGate :=
  { g with paused := true, stepOnce := true, proceed := some true }

/-- The rest of `wait_turn`, once the wait is over: a single step is consumed. -/
def pass (g : CycleGate) : CycleGate :=
  if g.paused && g.stepOnce then { g with stepOnce := false, proceed := some false } else g

end CycleGate

inductive GateCommand where
  | pause
  | resume
  | step
  deriving DecidableEq, Repr

def GateCommand.apply : GateCommand → CycleGate → CycleGate
  | .pause, g => g.pause
  | .resume, g => g.resume
  | .step, g => g.step

/-- Where the run loop stands. -/
inductive LoopPlace where
  /-- Before the check of `_running` and `wait_turn`. -/
  | top
  /-- Blocked on the event. -/
  | waiting
  /-- The event was set; the loop is scheduled to go on. -/
  | woken
  | ticking
  | exited
  deriving DecidableEq, Repr

/-- What can be seen of a run. -/
inductive Seen where
  | command (c : GateCommand)
  | stop
  | tick
  deriving DecidableEq, Repr

structure RunLoop where
  gate : CycleGate := {}
  running : Bool := true
  place : LoopPlace := .top
  /-- What was seen, newest first. Nothing reads it. -/
  seen : List Seen := []

inductive LoopMove where
  | command (c : GateCommand)
  /-- `stop`. -/
  | stop
  /-- The loop comes to `wait_turn`. -/
  | arrive
  /-- The event loop runs what it has scheduled. -/
  | wake
  /-- The tick and the sleep after it are over. -/
  | finish
  | cancel
  deriving DecidableEq, Repr

namespace RunLoop

/-- Setting the event schedules a blocked loop. -/
def notify (s : RunLoop) : RunLoop :=
  if s.gate.isSet ∧ s.place = .waiting then { s with place := .woken } else s

/-- The wait is over: a tick starts, unless the loop was stopped meanwhile. -/
def enter (s : RunLoop) : RunLoop :=
  if s.running then { s with gate := s.gate.pass, place := .ticking, seen := .tick :: s.seen }
  else { s with gate := s.gate.pass, place := .exited }

def move : LoopMove → RunLoop → RunLoop
  | .command c, s => { s with gate := c.apply s.gate, seen := .command c :: s.seen }.notify
  | .stop, s => { s with gate := s.gate.resume, running := false, seen := .stop :: s.seen }.notify
  | .arrive, s =>
    if s.place = .top then
      if !s.running then { s with place := .exited }
      else if s.gate.isSet then s.enter
      else { s with place := .waiting }
    else s
  | .wake, s => if s.place = .woken then s.enter else s
  | .finish, s => if s.place = .ticking then { s with place := .top } else s
  | .cancel, s => { s with running := false, place := .exited }

def run (moves : List LoopMove) (s : RunLoop) : RunLoop := runSteps move moves s

end RunLoop

/-! ### What the gate is for -/

/-- What the commands so far leave to the loop. -/
inductive Permit where
  | running
  | paused
  /-- One tick, and then paused. -/
  | granted
  deriving DecidableEq, Repr

/-- What is left after something was seen; a tick without a permit breaks the rule. -/
def Permit.after (p : Permit) : Seen → Option Permit
  | .command .pause => some .paused
  | .command .resume | .stop => some .running
  | .command .step => some .granted
  | .tick =>
    match p with
    | .running => some .running
    | .granted => some .paused
    | .paused => none

/-- The permit at the end of a run, newest first, that keeps the rule. -/
def permitOf : List Seen → Option Permit
  | [] => some .running
  | now :: before => (permitOf before).bind fun p => p.after now

/-- Ticks start only while nothing is paused, and one for a step. -/
def RunLoop.Obedient (s : RunLoop) : Prop := (permitOf s.seen).isSome

instance (s : RunLoop) : Decidable s.Obedient := inferInstanceAs (Decidable (_ = true))

/-- The permit as the two flags hold it. -/
def CycleGate.permit (g : CycleGate) : Permit :=
  if g.paused then if g.stepOnce then .granted else .paused else .running

namespace RunLoop

/-- The event agrees with the flags, and the flags with what was seen. -/
structure Tracks (s : RunLoop) : Prop where
  event : s.gate.isSet = (!s.gate.paused || s.gate.stepOnce)
  permit : s.place ≠ .exited → ∀ p, permitOf s.seen = some p → p = s.gate.permit

/-- A loop that is woken finds a permit. -/
def Timely (s : RunLoop) : Prop :=
  s.place = .woken → s.running = true → s.gate.paused = true → s.gate.stepOnce = true

theorem begin_tracks : Tracks {} := by
  refine ⟨rfl, fun _ p same => ?_⟩
  cases same
  rfl

variable {s : RunLoop}

@[simp] theorem notify_gate (s : RunLoop) : s.notify.gate = s.gate := by
  unfold notify
  split <;> rfl

@[simp] theorem notify_seen (s : RunLoop) : s.notify.seen = s.seen := by
  unfold notify
  split <;> rfl

theorem notify_exited : s.notify.place = .exited ↔ s.place = .exited := by
  unfold notify
  split
  · next both => simp [both.2]
  · exact Iff.rfl

theorem Tracks.notify (tracks : s.Tracks) : s.notify.Tracks := by
  refine ⟨?_, fun goesOn p => ?_⟩
  · rw [notify_gate]
    exact tracks.event
  · rw [notify_gate, notify_seen]
    exact tracks.permit (fun exited => goesOn (notify_exited.mpr exited)) p

/-- Whatever is commanded is permitted. -/
theorem commanded_tracks (s : RunLoop) (now : Seen) (g : CycleGate) (running : Bool)
    (after : ∀ p : Permit, p.after now = some g.permit)
    (event : g.isSet = (!g.paused || g.stepOnce)) :
    Tracks { s with gate := g, running := running, seen := now :: s.seen } ∧
      (Obedient { s with gate := g, running := running, seen := now :: s.seen } ↔ s.Obedient) := by
  have told : permitOf (now :: s.seen) = (permitOf s.seen).bind fun _ => some g.permit := by
    simp only [permitOf, after]
  refine ⟨⟨event, fun _ p same => ?_⟩, ?_⟩
  · dsimp only at same
    rw [told, Option.bind_eq_some_iff] at same
    obtain ⟨_, -, same⟩ := same
    exact (Option.some.inj same).symm
  · unfold Obedient
    dsimp only
    rw [told]
    cases permitOf s.seen <;> simp

theorem pass_event {g : CycleGate} (event : g.isSet = (!g.paused || g.stepOnce)) :
    g.pass.isSet = (!g.pass.paused || g.pass.stepOnce) := by
  unfold CycleGate.pass
  split
  · next both =>
      simp only [Bool.and_eq_true] at both
      simp [CycleGate.isSet, both.1]
  · exact event

/-- A tick takes what the flags grant. -/
theorem permit_tick (g : CycleGate) : g.permit.after .tick =
    if g.paused = true → g.stepOnce = true then some g.pass.permit else none := by
  obtain ⟨paused, stepOnce, proceed⟩ := g
  cases paused <;> cases stepOnce <;> rfl

/-- A tick that starts is permitted exactly if the flags say so. -/
theorem enter_spec (tracks : s.Tracks) (goesOn : s.place ≠ .exited) :
    s.enter.Tracks ∧ (s.enter.Obedient ↔ s.Obedient ∧
      (s.running = true → s.gate.paused = true → s.gate.stepOnce = true)) := by
  unfold enter
  cases running : s.running with
  | false =>
      refine ⟨⟨pass_event tracks.event, fun exited => absurd rfl exited⟩, ?_⟩
      simp [Obedient]
  | true =>
      have held := tracks.permit goesOn
      have told : permitOf (.tick :: s.seen) = (permitOf s.seen).bind fun p => p.after .tick := rfl
      refine ⟨⟨pass_event tracks.event, fun _ p same => ?_⟩, ?_⟩
      · simp only [if_true] at same
        rw [told, Option.bind_eq_some_iff] at same
        obtain ⟨before, known, after⟩ := same
        rw [held before known, permit_tick] at after
        split at after
        · exact (Option.some.inj after).symm
        · cases after
      · simp only [if_true, Obedient, told, true_implies]
        cases known : permitOf s.seen with
        | none => simp
        | some p =>
            rw [held p known, Option.bind_some, permit_tick]
            split <;> simp_all

theorem move_spec (tracks : s.Tracks) (m : LoopMove) :
    (move m s).Tracks ∧ ((move m s).Obedient ↔ s.Obedient ∧ (m = .wake → s.Timely)) := by
  cases m with
  | command c =>
      have kept := commanded_tracks s (.command c) (c.apply s.gate) s.running
        (by cases c <;> exact fun _ => rfl) (by cases c <;> rfl)
      refine ⟨kept.1.notify, ?_⟩
      simpa [move, Obedient] using kept.2
  | stop =>
      have kept := commanded_tracks s .stop s.gate.resume false (fun _ => rfl) rfl
      refine ⟨kept.1.notify, ?_⟩
      simpa [move, Obedient] using kept.2
  | arrive =>
      simp only [move, reduceCtorEq, false_implies, and_true]
      split
      · next top =>
          have goesOn : s.place ≠ .exited := by
            rw [top]
            nofun
          split
          · exact ⟨⟨tracks.event, fun exited => absurd rfl exited⟩, Iff.rfl⟩
          · split
            · next set =>
                -- the event is set, so the flags permit a tick
                have entered := enter_spec tracks goesOn
                refine ⟨entered.1, entered.2.trans (and_iff_left fun _ paused => ?_)⟩
                have event := tracks.event
                rw [set, paused] at event
                simpa using event.symm
            · exact ⟨⟨tracks.event, fun _ => tracks.permit goesOn⟩, Iff.rfl⟩
      · exact ⟨tracks, Iff.rfl⟩
  | wake =>
      simp only [move, true_implies]
      split
      · next woken =>
          have goesOn : s.place ≠ .exited := by
            rw [woken]
            nofun
          have entered := enter_spec tracks goesOn
          refine ⟨entered.1, entered.2.trans (and_congr_right fun _ => ?_)⟩
          simp [Timely, woken]
      · next asleep => exact ⟨tracks, (and_iff_left fun woken => absurd woken asleep).symm⟩
  | finish =>
      simp only [move, reduceCtorEq, false_implies, and_true]
      split
      · next ticking =>
          refine ⟨⟨tracks.event, fun _ => tracks.permit ?_⟩, Iff.rfl⟩
          rw [ticking]
          nofun
      · exact ⟨tracks, Iff.rfl⟩
  | cancel => exact ⟨⟨tracks.event, fun exited => absurd rfl exited⟩, by simp [move, Obedient]⟩

/-- In any order of commands and steps of the loop, ticks start only as the commands permit,
exactly if the loop is never woken to a gate that was paused after it was scheduled. -/
theorem run_obedient_iff (moves : List LoopMove) : Obedient (run moves {}) ↔
    ∀ before after, moves = before ++ .wake :: after → Timely (run before {}) := by
  unfold run
  rw [runSteps_iff (P := Obedient) (C := fun m t => m = .wake → Timely t) (I := Tracks)
    (fun m _ t tracks => (move_spec tracks m).1) (fun m _ t tracks => (move_spec tracks m).2)
    begin_tracks]
  constructor
  · rintro ⟨-, all⟩ before after split
    exact all before .wake after split rfl
  · intro all
    refine ⟨rfl, fun before m after split wakes => ?_⟩
    rw [wakes] at split
    exact all before after split

/-- The loop blocks; a resume schedules it, and a pause comes before it goes on. -/
theorem paused_loop_ticks :
    ¬ Obedient (run [.command .pause, .arrive, .command .resume, .command .pause, .wake] {}) := by
  decide

end RunLoop
end Johnny
