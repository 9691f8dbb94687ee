import Johnny.Brain.SleepExit
import Johnny.Lib.Runs
import Mathlib.Data.Rat.Floor

/-!
# Sequences of sleep attempts

Each attempt enters the cycle the last one left. No attempt of a sequence leaves
the flag behind exactly where every log row that opens can be closed: the exit
path awaits the close before it lowers the flag.
-/
namespace Johnny

/-- One call of `sleep()`, and what happened to the world before it. -/
structure SleepAttempt (K ω : Type) where
  elsewhere : ω → ω := id
  trigger : SleepTrigger := .manual
  now : Option K := none
  degradedTicks : ℕ := 0

namespace SleepCycle
variable {K ω : Type} [Field K] [LinearOrder K]

omit [Field K] [LinearOrder K] in
/-- The state an attempt starts from. -/
def entered (a : SleepAttempt K ω) (s : Mind K ω) : Mind K ω :=
  { s with world := a.elsewhere s.world }

def attempt (c : SleepCycle K ω) (a : SleepAttempt K ω) (s : Mind K ω) :
    Except Failure (Option (SleepReport K)) × Mind K ω :=
  c.sleep a.trigger a.now a.degradedTicks (entered a s)

/-- The state after the attempts, whether they returned or raised. -/
def attempts (c : SleepCycle K ω) (as : List (SleepAttempt K ω)) (s : Mind K ω) : Mind K ω :=
  runSteps (fun a s => (c.attempt a s).2) as s

/-- The attempt was not turned away as already asleep, and leaves an awake cycle
whose trigger the flag does not hold back. -/
structure Awakes (c : SleepCycle K ω) (a : SleepAttempt K ω) (s : Mind K ω) : Prop where
  entered : (c.attempt a s).1 ≠ .ok none
  awake : (c.attempt a s).2.asleep = false
  triggers : ∀ urges tick, c.sleepTrigger (c.attempt a s).2 urges tick =
    c.sleepTrigger { (c.attempt a s).2 with asleep := false } urges tick

def ClosesRowOf (c : SleepCycle K ω) (a : SleepAttempt K ω) (s : Mind K ω) : Prop :=
  c.ClosesRow a.trigger a.now a.degradedTicks (SleepCycle.entered a s)

theorem awakes_iff_closes (c : SleepCycle K ω) (a : SleepAttempt K ω) {s : Mind K ω}
    (awake : s.asleep = false) : c.Awakes a s ↔ c.ClosesRowOf a s := by
  have flag := sleep_asleep_iff c a.trigger a.now a.degradedTicks
    (s := SleepCycle.entered a s) awake
  constructor
  · intro woken
    exact flag.mp woken.awake
  · intro closes
    have lowered : (c.attempt a s).2.asleep = false := flag.mpr closes
    refine ⟨sleep_not_busy c a.trigger a.now a.degradedTicks awake, lowered, ?_⟩
    intro urges tick
    rw [← lowered]

/-- In every sequence of attempts from an awake cycle, with arbitrary failures, all
attempts wake exactly where each row that was opened could be closed. -/
theorem never_wedged_iff (c : SleepCycle K ω) (as : List (SleepAttempt K ω)) {s : Mind K ω}
    (awake : s.asleep = false) :
    (∀ before a after, as = before ++ a :: after → c.Awakes a (c.attempts before s)) ↔
      (∀ before a after, as = before ++ a :: after →
        c.ClosesRowOf a (c.attempts before s)) := by
  constructor
  · intro woken before a after split
    have down : (c.attempts before s).asleep = false :=
      runSteps_invariant_at (I := fun s => s.asleep = false) (C := c.Awakes)
        (fun _ _ woken _ => woken.awake) woken awake split
    exact (awakes_iff_closes c a down).mp (woken before a after split)
  · intro closes before a after split
    have down : (c.attempts before s).asleep = false :=
      runSteps_invariant_at (I := fun s => s.asleep = false) (C := c.ClosesRowOf)
        (fun a _ closes down => ((awakes_iff_closes c a down).mpr closes).awake)
        closes awake split
    exact (awakes_iff_closes c a down).mpr (closes before a after split)

end SleepCycle

/-! ### A log row that cannot be closed -/

namespace CloseDown

/-- Every call succeeds but the close of the log row. -/
def sleepCycle (close : Except Failure Unit) : SleepCycle ℚ Unit where
  everyTicks := 0
  clock _ := 0
  logOpen _ _ := pure 1
  logClose _ _ _ := Prog.reraise close
  consolidate := pure []
  decay _ := pure {}
  refreshSelfModel _ := pure ⟨"Johnny", "I am Johnny.", 2⟩
  review _ := pure "steady"
  snapshot := pure "/backups/latest"
  stepDrives _ _ := pure ()
  selfModelCurrent := pure ⟨"Johnny", "I am Johnny.", 2⟩
  drivesCurrent := pure []
  anchorName := "Johnny"

def databaseLost : Failure := .exception (.other "OperationalError") "server closed the connection"

def awake : Mind ℚ Unit := { world := (), nextInterval := 0 }

def tired : List (Urge ℚ) := [⟨sleepDrive, 1, frac 4 5, 1⟩]

end CloseDown

open CloseDown in
/-- After one sleep whose close raises, the flag stays up, the next `sleep()` is turned
away, and no urge triggers a sleep. -/
theorem close_down_wedges :
    let c := sleepCycle (.error databaseLost)
    let after := (c.attempt { trigger := .energy } awake).2
    awake.asleep = false ∧ (c.attempt { trigger := .energy } awake).1 = .error databaseLost ∧
      after.asleep = true ∧ (c.attempt {} after).1 = .ok none ∧
      c.sleepTrigger after tired 1 = none ∧
      c.sleepTrigger { after with asleep := false } tired 1 = some .energy :=
  ⟨rfl, rfl, rfl, rfl, rfl, by decide⟩

open CloseDown in
theorem close_returned_wakes :
    (∀ before a after, [{}, {}] = before ++ a :: after →
        (sleepCycle (.ok ())).Awakes a ((sleepCycle (.ok ())).attempts before awake)) ↔
      (∀ before a after, [{}, {}] = before ++ a :: after →
        (sleepCycle (.ok ())).ClosesRowOf a ((sleepCycle (.ok ())).attempts before awake)) :=
  SleepCycle.never_wedged_iff (sleepCycle (.ok ())) [{}, {}] rfl

end Johnny
