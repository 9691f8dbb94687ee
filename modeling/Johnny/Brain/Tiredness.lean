import Johnny.Brain.Feedback
import Johnny.Brain.NeverWedged

/-!
# The tiredness that sends Johnny to sleep

The sleep trigger reads the urges of the last completed drive step. A sleep for
energy is never older news than the sleep before it, exactly where some drive step
completed between the two.
-/
namespace Johnny
variable {K ω : Type}

def Happening.reported : Happening K ω → Option (List (Urge K))
  | .drivesStepped _ urges => some urges
  | _ => none

/-- A completed drive step reported Energy over its threshold. -/
def Happening.reportsEnergy (what : Happening K ω) : Bool :=
  what.reported.any fun urges => urges.any Urge.isSleepSignal

def lastReport (h : List (Entry K ω)) : List (Urge K) :=
  (h.findSome? fun e => e.what.reported).getD []

theorem lastReport_append {new h : List (Entry K ω)}
    (silent : ∀ e ∈ new, e.what.isFeedback = false) : lastReport (new ++ h) = lastReport h := by
  unfold lastReport
  rw [List.findSome?_append, List.findSome?_eq_none_iff.mpr, Option.none_or]
  intro e member
  have other := silent e member
  cases what : e.what <;> rw [what] at other <;> first | rfl | cases other

/-- A last report with Energy in it comes from an entry that every step is older than. -/
theorem exists_lastReport {h : List (Entry K ω)} (sorted : h.Pairwise fun e x => x.tick ≤ e.tick)
    (tired : (lastReport h).any Urge.isSleepSignal = true) :
    ∃ e ∈ h, e.what.reportsEnergy = true ∧
      ∀ x ∈ h, x.what.reported.isSome = true → x.tick ≤ e.tick := by
  induction h with
  | nil => cases tired
  | cons y h ih =>
      obtain ⟨newest, sorted⟩ := List.pairwise_cons.mp sorted
      cases reported : y.what.reported with
      | some urges =>
          have last : lastReport (y :: h) = urges := by
            simp [lastReport, reported]
          refine ⟨y, List.mem_cons_self, ?_, ?_⟩
          · rw [Happening.reportsEnergy, reported]
            rw [last] at tired
            exact tired
          · intro x member _
            rcases List.mem_cons.mp member with rfl | older
            · exact le_refl _
            · exact newest x older
      | none =>
          have last : lastReport (y :: h) = lastReport h := by
            simp [lastReport, reported]
          rw [last] at tired
          obtain ⟨e, member, energy, latest⟩ := ih sorted tired
          refine ⟨e, List.mem_cons_of_mem y member, energy, ?_⟩
          intro x inside stepped
          rcases List.mem_cons.mp inside with rfl | older
          · rw [reported] at stepped
            cases stepped
          · exact latest x older stepped

namespace CognitiveCycle
variable [Field K] [LinearOrder K] [FloorRing K] {c : CognitiveCycle K ω}

omit [LinearOrder K] [FloorRing K] in
/-- The remembered urges are those of the last completed drive step. -/
theorem lastUrges_law (c : CognitiveCycle K ω) :
    FeedbackLaw c (fun s => s.lastUrges = lastReport s.history) fun _ => True where
  apart := by
    intro s t a remembered
    obtain ⟨new, grown, other⟩ := a.history
    rw [a.lastUrges, grown, lastReport_append fun e member => (other e member).2]
    exact remembered
  enqueued := by
    intro s t event e remembered
    rw [e.lastUrges, e.history]
    exact remembered
  begun s remembered := remembered
  appraised := by
    intro s r remembered _ _ _ ended
    cases ended with
    | undriven _ after =>
        rw [after.rest]
        exact remembered
    | raised _ _ => exact remembered
    | stepped _ _ after =>
        rw [after.rest]
        rfl

/-! ### Sleeps of a run -/

/-- The pass after the turns `before` comes to its sleep phase in `s`. -/
def ReachesSleepPhase (c : CognitiveCycle K ω) (turns : List (Turn K ω)) (world : ω)
    (before : List (Turn K ω)) (s : Mind K ω) : Prop :=
  ∃ after t, turns = before ++ .beat :: after ∧ c.run before (c.fresh world) = (.ok (), t) ∧
    c.waking t = (.ok (), s)

/-- The sleep phase from `s` enters a sleep. -/
def EntersSleep (c : CognitiveCycle K ω) (trigger : SleepTrigger) (s : Mind K ω) : Prop :=
  ∃ sc, c.sleepCycle = some sc ∧ sc.sleepTrigger s s.lastUrges s.tick = some trigger ∧
    (c.emitSleepTransition true s).1 = .ok ()

/-- A tick that a sleep followed, before the pass after the turns `before`. -/
def SleptAfter (c : CognitiveCycle K ω) (turns : List (Turn K ω)) (world : ω)
    (before : List (Turn K ω)) (n : ℕ) : Prop :=
  ∃ earlier s trigger, earlier.length < before.length ∧
    ReachesSleepPhase c turns world earlier s ∧ EntersSleep c trigger s ∧ s.tick = n

/-- Every sleep for energy follows a completed drive step that reported Energy over its
threshold, later than every sleep before it. -/
def SleepsOnFreshTiredness (c : CognitiveCycle K ω) (turns : List (Turn K ω)) (world : ω) : Prop :=
  ∀ before s, ReachesSleepPhase c turns world before s → EntersSleep c .energy s →
    ∃ e ∈ s.history, e.what.reportsEnergy = true ∧
      ∀ n, SleptAfter c turns world before n → n < e.tick

/-- Between a sleep and a later one for energy, the drive step of some tick completed. -/
def StepsBetweenSleeps (c : CognitiveCycle K ω) (turns : List (Turn K ω)) (world : ω) : Prop :=
  ∀ before s, ReachesSleepPhase c turns world before s → EntersSleep c .energy s →
    ∀ n, SleptAfter c turns world before n →
      ∃ e ∈ s.history, e.what.reported.isSome = true ∧ n < e.tick

omit [Field K] [LinearOrder K] [FloorRing K] in
theorem sleepTrigger_energy {sc : SleepCycle K ω} {s : Mind K ω} {urges : List (Urge K)}
    {tick : ℕ} (triggered : sc.sleepTrigger s urges tick = some .energy) :
    urges.any Urge.isSleepSignal = true := by
  unfold SleepCycle.sleepTrigger at triggered
  split at triggered
  · cases triggered
  · split at triggered
    · assumption
    · split at triggered <;> cases triggered

theorem ReachesSleepPhase.remembers {turns before : List (Turn K ω)} {world : ω} {s : Mind K ω}
    (reached : ReachesSleepPhase c turns world before s) :
    s.lastUrges = lastReport s.history ∧ Dated s := by
  obtain ⟨after, t, _, ran, woken⟩ := reached
  have running := (lastUrges_law c).run before world rfl fun _ _ _ _ _ _ _ => trivial
  rw [ran] at running
  exact (waking_triple c.confined_any.between (lastUrges_law c).beat).of_ok
    ⟨running, fun _ _ => trivial⟩ woken

/-- Whatever fails in a run: its sleeps for energy are on fresh tiredness exactly where a
drive step completed between each of them and the sleep before it. -/
theorem run_fresh_tiredness_iff (c : CognitiveCycle K ω) (turns : List (Turn K ω)) (world : ω) :
    SleepsOnFreshTiredness c turns world ↔ StepsBetweenSleeps c turns world := by
  constructor
  · intro fresh before s reached sleeps n slept
    obtain ⟨e, member, energy, later⟩ := fresh before s reached sleeps
    refine ⟨e, member, ?_, later n slept⟩
    unfold Happening.reportsEnergy at energy
    cases reported : e.what.reported with
    | none =>
        rw [reported] at energy
        cases energy
    | some urges => rfl
  · intro stepped before s reached sleeps
    obtain ⟨remembered, dated⟩ := reached.remembers
    have tired : (lastReport s.history).any Urge.isSleepSignal = true := by
      obtain ⟨sc, _, triggered, _⟩ := sleeps
      rw [← remembered]
      exact sleepTrigger_energy triggered
    obtain ⟨e, member, energy, latest⟩ := exists_lastReport dated.sorted tired
    refine ⟨e, member, energy, fun n slept => ?_⟩
    obtain ⟨x, inside, reported, later⟩ := stepped before s reached sleeps n slept
    exact later.trans_le (latest x inside reported)

end CognitiveCycle

/-! ### A drive step that fails after a sleep -/

namespace StaleUrge
open CloseDown (tired databaseLost)

/-- The world counts the drive steps; only the first one completes. -/
def engine : DriveStage ℚ ℕ where
  step _ n := if n = 0 then (.ok [⟨sleepDrive, 1, 0, 0, 0, frac 4 5, none⟩], 1)
    else (.error databaseLost, n)
  urges _ := tired

def sleepCycle : SleepCycle ℚ ℕ where
  everyTicks := 0
  clock _ := 0
  logOpen _ _ := pure 1
  logClose _ _ _ := pure ()
  consolidate := pure []
  decay _ := pure {}
  refreshSelfModel _ := pure ⟨"Johnny", "I am Johnny.", 2⟩
  review _ := pure "steady"
  snapshot := pure "/backups/latest"
  stepDrives _ _ := pure ()
  selfModelCurrent := pure ⟨"Johnny", "I am Johnny.", 2⟩
  drivesCurrent := pure []
  anchorName := "Johnny"

def cycle : CognitiveCycle ℚ ℕ where
  broadcast _ := pure ()
  setContents _ := pure ()
  clock _ := 0
  sleepFn _ := pure ()
  drives := some engine
  sleepCycle := some sleepCycle
  interval := 1
  minInterval := 1
  maxInterval := 1
  arousalSpeedup := 0
  tiredSlowdown := 0
  attentionDriveWeight := 0
  capacity := 7

def rested (passes : List (CognitiveCycle.Turn ℚ ℕ)) : Mind ℚ ℕ :=
  (cycle.run passes (cycle.fresh 0)).2

/-- The Mind before the sleep phase of the pass that follows these. -/
def drowsy (passes : List (CognitiveCycle.Turn ℚ ℕ)) : Mind ℚ ℕ :=
  (cycle.waking (rested passes)).2

theorem reaches {before : List (CognitiveCycle.Turn ℚ ℕ)}
    (after : List (CognitiveCycle.Turn ℚ ℕ)) (split : [.beat, .beat] = before ++ .beat :: after)
    (ran : (cycle.run before (cycle.fresh 0)).1.isOk = true)
    (woken : (cycle.waking (rested before)).1.isOk = true) :
    cycle.ReachesSleepPhase [.beat, .beat] 0 before (drowsy before) := by
  refine ⟨after, rested before, split, ?_, ?_⟩
  · unfold rested
    generalize cycle.run before (cycle.fresh 0) = r at ran ⊢
    rcases r with ⟨_ | _, s⟩
    · cases ran
    · rfl
  · unfold drowsy
    generalize cycle.waking (rested before) = r at woken ⊢
    rcases r with ⟨_ | _, s⟩
    · cases woken
    · rfl

theorem enters {s : Mind ℚ ℕ} (awake : s.asleep = false)
    (tired : s.lastUrges.any Urge.isSleepSignal = true) : cycle.EntersSleep .energy s := by
  refine ⟨sleepCycle, rfl, ?_, rfl⟩
  unfold SleepCycle.sleepTrigger
  rw [awake, tired]
  rfl

theorem first_pass : cycle.ReachesSleepPhase [.beat, .beat] 0 [] (drowsy []) ∧
    cycle.EntersSleep .energy (drowsy []) :=
  ⟨reaches [.beat] rfl (by decide +kernel) (by decide +kernel),
    enters (by decide +kernel) (by decide +kernel)⟩

theorem second_pass : cycle.ReachesSleepPhase [.beat, .beat] 0 [.beat] (drowsy [.beat]) ∧
    cycle.EntersSleep .energy (drowsy [.beat]) :=
  ⟨reaches [] rfl (by decide +kernel) (by decide +kernel),
    enters (by decide +kernel) (by decide +kernel)⟩

end StaleUrge

open StaleUrge in
/-- The second sleep is for the tiredness that the first one has already answered. -/
theorem stale_urge_sleeps_again : ¬ cycle.SleepsOnFreshTiredness [.beat, .beat] 0 := by
  intro fresh
  obtain ⟨e, member, energy, later⟩ := fresh [.beat] _ second_pass.1 second_pass.2
  have slept : (drowsy []).tick = 1 := by decide +kernel
  have since : 1 < e.tick :=
    later 1 ⟨[], _, .energy, Nat.zero_lt_one, first_pass.1, first_pass.2, slept⟩
  have first : ∀ e ∈ (drowsy [.beat]).history, e.what.reportsEnergy = true → e.tick ≤ 1 := by
    decide +kernel
  exact absurd (first e member energy) (not_le.mpr since)

end Johnny
