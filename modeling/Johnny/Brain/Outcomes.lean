import Johnny.Brain.Feedback
import Mathlib.Data.Rat.Floor

/-!
# From an outcome to the drive it eases

An outcome queued by ACT waits for the first drive step of a later tick that
completes, and is handed to no other. The queue is emptied before the step that is
to take it, so this holds in the runs where no step raises with an outcome in hand.
-/
namespace Johnny
variable {K ω : Type}

/-- The outcomes queued since the last completed drive step, oldest first. -/
def outcomesSince : List (Entry K ω) → List (DriveEvent K)
  | [] => []
  | ⟨_, .drivesStepped _ _⟩ :: _ => []
  | ⟨_, .enqueued event⟩ :: earlier => outcomesSince earlier ++ [event]
  | _ :: earlier => outcomesSince earlier

theorem outcomesSince_other {e : Entry K ω} (earlier : List (Entry K ω))
    (other : e.what.isFeedback = false) :
    outcomesSince (e :: earlier) = outcomesSince earlier := by
  obtain ⟨n, what⟩ := e
  cases what <;> first | rfl | cases other

theorem outcomesSince_append {new h : List (Entry K ω)}
    (other : ∀ e ∈ new, e.what.isFeedback = false) :
    outcomesSince (new ++ h) = outcomesSince h := by
  induction new with
  | nil => rfl
  | cons e new ih =>
      rw [List.cons_append, outcomesSince_other _ (other e List.mem_cons_self)]
      exact ih fun x member => other x (List.mem_cons_of_mem e member)

section taken
variable [One K]

/-- A drive step took every outcome that was waiting, each queued in an earlier tick,
and besides them only interactions. -/
structure TakesWaiting (events : List (DriveEvent K)) (tick : ℕ) (earlier : List (Entry K ω)) :
    Prop where
  taken : ∃ inputs, events = outcomesSince earlier ++ List.replicate inputs ⟨.interaction, 1⟩
  past : ∀ x ∈ earlier, x.what.isFeedback = true → x.tick < tick

/-- Each completed drive step takes what was queued since the completed one before it. -/
def EachAppliedOnce (h : List (Entry K ω)) : Prop :=
  ∀ later n events urges earlier, h = later ++ ⟨n, .drivesStepped events urges⟩ :: earlier →
    TakesWaiting events n earlier

theorem eachAppliedOnce_nil : EachAppliedOnce ([] : List (Entry K ω)) := by
  intro later n events urges earlier split
  exact absurd split.symm (by simp)

theorem EachAppliedOnce.cons {e : Entry K ω} {h : List (Entry K ω)} (once : EachAppliedOnce h)
    (newest : ∀ events urges, e.what = .drivesStepped events urges →
      TakesWaiting events e.tick h) : EachAppliedOnce (e :: h) := by
  intro later n events urges earlier split
  cases later with
  | nil =>
      obtain ⟨rfl, rfl⟩ := List.cons.inj split
      exact newest events urges rfl
  | cons _ later => exact once later n events urges earlier (List.cons.inj split).2

theorem EachAppliedOnce.append {new h : List (Entry K ω)} (once : EachAppliedOnce h)
    (other : ∀ e ∈ new, e.what.isFeedback = false) : EachAppliedOnce (new ++ h) := by
  induction new with
  | nil => exact once
  | cons e new ih =>
      refine (ih fun x member => other x (List.mem_cons_of_mem e member)).cons ?_
      intro events urges what
      have small := other e List.mem_cons_self
      rw [what] at small
      cases small

end taken

namespace CognitiveCycle

/-- What was queued since the last completed drive step waits for the next one, and each
step so far took what waited for it. -/
structure OutcomesKept [One K] (s : Mind K ω) : Prop where
  waiting : s.pendingEvents = outcomesSince s.history
  once : EachAppliedOnce s.history

/-- Before APPRAISE: the drives are wired, and their step does not raise with an outcome
in hand. -/
def StepsWithOutcomes [Field K] (c : CognitiveCycle K ω) (s : Mind K ω) : Prop :=
  s.pendingEvents ≠ [] → ∃ engine readings w, c.drives = some engine ∧
    engine.step (gathered s) s.world = (.ok readings, w)

variable [Field K] [LinearOrder K] [FloorRing K] {c : CognitiveCycle K ω}

omit [LinearOrder K] [FloorRing K] in
theorem outcomesKept_law (c : CognitiveCycle K ω) :
    FeedbackLaw c OutcomesKept c.StepsWithOutcomes where
  apart := by
    intro s t a kept
    obtain ⟨new, grown, other⟩ := a.history
    have small : ∀ e ∈ new, e.what.isFeedback = false := fun e member => (other e member).2
    refine ⟨?_, ?_⟩
    · rw [a.pending, grown, outcomesSince_append small]
      exact kept.waiting
    · rw [grown]
      exact kept.once.append small
  enqueued := by
    intro s t event e kept
    refine ⟨?_, ?_⟩
    · rw [e.pending, e.history, kept.waiting]
      rfl
    · rw [e.history]
      exact kept.once.cons nofun
  begun s kept := ⟨kept.waiting, kept.once.cons nofun⟩
  appraised := by
    intro s r kept _ untold steps ended
    -- without a completed step the queue was empty, and emptying it lost nothing
    have idle (nothing : s.pendingEvents = []) {t : Mind K ω} (pending : t.pendingEvents = [])
        (history : t.history = s.history) : OutcomesKept t := by
      refine ⟨?_, ?_⟩
      · rw [pending, history, ← kept.waiting, nothing]
      · rw [history]
        exact kept.once
    cases ended with
    | undriven unwired after =>
        have nothing : s.pendingEvents = [] := by
          by_contra queued
          obtain ⟨engine, _, _, wired, _⟩ := steps queued
          rw [unwired] at wired
          cases wired
        rw [after.rest]
        exact idle nothing rfl rfl
    | raised wired called =>
        have nothing : s.pendingEvents = [] := by
          by_contra queued
          obtain ⟨engine, _, _, wired', returned⟩ := steps queued
          obtain rfl := Option.some.inj (wired.symm.trans wired')
          rw [called] at returned
          cases returned
        exact idle nothing rfl rfl
    | stepped wired called after =>
        rw [after.rest]
        refine ⟨rfl, kept.once.cons ?_⟩
        rintro events urges ⟨⟩
        exact ⟨⟨_, by rw [gathered, kept.waiting]⟩, untold⟩

/-- Whatever else fails: in a run where no drive step raises with an outcome in hand, each
outcome goes to the first completed drive step of a later tick and to no other, and until
then it stays queued. -/
theorem run_outcomes_kept (c : CognitiveCycle K ω) (turns : List (Turn K ω)) (world : ω)
    (steps : ∀ before after t, turns = before ++ .beat :: after →
      c.run before (c.fresh world) = (.ok (), t) → Foreseen c c.StepsWithOutcomes t) :
    OutcomesKept (c.run turns (c.fresh world)).2 :=
  ((outcomesKept_law c).run turns world ⟨rfl, eachAppliedOnce_nil⟩ steps).1

end CognitiveCycle

/-! ### A drive step that raises with an outcome in hand -/

namespace OutcomeLost

def databaseLost : Failure := .exception (.other "OperationalError") "server closed the connection"

def goal : Goal ℚ :=
  { id := some 1, source := "coherence", description := "reflect", priority := 1 }

def action : Action ℚ :=
  { kind := "reflect", goalId := some 1, goalSource := "coherence", description := "reflect" }

/-- Each tick resolves a goal; the world counts the drive steps, and one may raise. -/
def cycle (raises : ℕ → Bool) : CognitiveCycle ℚ ℕ where
  broadcast _ := pure ()
  setContents _ := pure ()
  clock _ := 0
  sleepFn _ := pure ()
  drives := some
    { step _ n := (if raises n then .error databaseLost else .ok [], n + 1)
      urges _ := [] }
  deliberation := some
    { deliberate _ _ _ := pure ⟨some goal, some action⟩
      act _ _ _ := pure ⟨"reflect", true, "reflected", [⟨.reflection, 1⟩]⟩
      settleToolAction := none }
  interval := 1
  minInterval := 1
  maxInterval := 1
  arousalSpeedup := 0
  tiredSlowdown := 0
  attentionDriveWeight := 0
  capacity := 7

def after (raises : ℕ → Bool) (passes : ℕ) : Mind ℚ ℕ :=
  ((cycle raises).run (List.replicate passes .beat) ((cycle raises).fresh 0)).2

end OutcomeLost

open OutcomeLost in
/-- The step of the second tick raises, and the outcome of the first no longer waits. -/
theorem raised_step_loses_outcome : ¬ CognitiveCycle.OutcomesKept (after (· == 1) 2) := by
  intro kept
  have waiting := congrArg List.length kept.waiting
  have lost : (after (· == 1) 2).pendingEvents.length ≠
      (outcomesSince (after (· == 1) 2).history).length := by
    decide +kernel
  exact lost waiting

open OutcomeLost in
theorem completed_step_keeps_outcome :
    CognitiveCycle.OutcomesKept (after (fun _ => false) 2) ∧
      (after (fun _ => false) 2).pendingEvents = [⟨.reflection, 1⟩] := by
  refine ⟨(cycle fun _ => false).run_outcomes_kept [.beat, .beat] 0 ?_, by decide +kernel⟩
  intro before after t _ _ s _ _
  exact ⟨_, [], s.world + 1, rfl, rfl⟩

end Johnny
