import Johnny.LLM.CircuitBreaker
import Johnny.Lib.Runs
import Mathlib.Tactic.Linarith

/-!
# A breaker under concurrent calls

Calls are admitted, and report later, in any order, while time goes on. A breaker opens for
its failures alone and stays open for the cooldown; but it admits every call that is asked
for while it is half-open, so the trial is single only where nobody asks during it.
-/
namespace Johnny.LLM

/-- A breaker with what is known of its calls. -/
structure Guarded (K : Type) where
  breaker : CircuitBreaker K
  now : K
  /-- The admitted calls that have not reported: whether each is a trial. -/
  outstanding : List Bool := []
  /-- The reports so far, newest first. Nothing reads them. -/
  reports : List Bool := []
  /-- Since when the circuit is open. Nothing reads it. -/
  openSince : Option K := none

inductive BreakerMove (K : Type) [Zero K] [LE K] where
  /-- A call is asked for. -/
  | allow
  /-- An admitted call reports a success or a failure. -/
  | report (call : ℕ) (healthy : Bool)
  | advance (elapsed : K) (onward : 0 ≤ elapsed)

namespace Guarded
variable {K : Type} [Field K] [LinearOrder K]

def reported (call : ℕ) (healthy : Bool) (s : Guarded K) : Guarded K :=
  let breaker := if healthy then s.breaker.recordSuccess else s.breaker.recordFailure s.now
  { s with
    breaker := breaker
    outstanding := s.outstanding.eraseIdx call
    reports := healthy :: s.reports
    openSince :=
      if breaker.state = .opened then
        if s.breaker.state = .opened then s.openSince else some s.now
      else none }

def move : BreakerMove K → Guarded K → Guarded K
  | .allow, s =>
    let asked := s.breaker.allow s.now
    { s with
      breaker := asked.2
      outstanding := if asked.1 then s.outstanding ++ [asked.2.state == .halfOpen]
        else s.outstanding
      openSince := if asked.2.state = .opened then s.openSince else none }
  | .report call healthy, s =>
    match s.outstanding[call]? with
    | none => s
    | some _ => s.reported call healthy
  | .advance elapsed _, s => { s with now := s.now + elapsed }

def fresh (failureThreshold : ℕ) (resetTimeout now : K) : Guarded K where
  breaker := { failureThreshold := failureThreshold, resetTimeout := resetTimeout }
  now := now

/-- Any order of requests, reports and the passing of time. -/
def run (moves : List (BreakerMove K)) (s : Guarded K) : Guarded K := runSteps move moves s

/-! ### What is asked of a breaker -/

omit [Field K] [LinearOrder K] in
def failuresInARow (s : Guarded K) : ℕ := (s.reports.takeWhile fun healthy => !healthy).length

/-- A move opens the circuit only as a failed trial or the last of enough failures. -/
def OpensFor (m : BreakerMove K) (s : Guarded K) : Prop :=
  s.breaker.state ≠ .opened → (move m s).breaker.state = .opened →
    ∃ call, m = .report call false ∧
      (s.breaker.state = .halfOpen ∨ s.breaker.failureThreshold ≤ (move m s).failuresInARow)

/-- Before the cooldown is over, an open circuit admits nothing and stays open. -/
def Denies (s : Guarded K) : Prop :=
  s.breaker.state = .opened → ∃ opened, s.openSince = some opened ∧
    (s.now - opened < s.breaker.resetTimeout →
      (s.breaker.allow s.now).1 = false ∧ (move .allow s).breaker.state = .opened)

omit [Field K] [LinearOrder K] in
/-- While half-open, at most one trial is outstanding. -/
def Single (s : Guarded K) : Prop := s.breaker.state = .halfOpen → s.outstanding.count true ≤ 1

structure Breaks (moves : List (BreakerMove K)) (s : Guarded K) : Prop where
  opens : ∀ before m after, moves = before ++ m :: after → OpensFor m (run before s)
  denies : ∀ before after, moves = before ++ after → (run before s).Denies
  single : ∀ before after, moves = before ++ after → (run before s).Single

/-- A call is not asked for while a trial is outstanding and the circuit is half-open, or has
cooled down to be. -/
def Waits : BreakerMove K → Guarded K → Prop
  | .allow, s => (s.breaker.settled s.now).state = .halfOpen → true ∉ s.outstanding
  | _, _ => True

instance (m : BreakerMove K) (s : Guarded K) : Decidable (Waits m s) :=
  match m with
  | .allow => inferInstanceAs (Decidable (_ → _))
  | .report _ _ => inferInstanceAs (Decidable True)
  | .advance _ _ => inferInstanceAs (Decidable True)

/-! ### Opening -/

/-- The breaker counts the failures in a row, and an open one knows when it was opened last. -/
structure Tracks (threshold : ℕ) (s : Guarded K) : Prop where
  threshold : s.breaker.failureThreshold = threshold
  counts : s.breaker.failures = s.failuresInARow
  opened : s.breaker.state = .opened → ∃ since last, s.openSince = some since ∧
    s.breaker.openedAt = some last ∧ since ≤ last ∧ last ≤ s.now

variable {threshold : ℕ} {s : Guarded K}

theorem settled_cases (b : CircuitBreaker K) (now : K) :
    b.settled now = b ∨
      (b.state = .opened ∧ b.cooldownElapsed now = true ∧
        b.settled now = { b with state := .halfOpen }) := by
  unfold CircuitBreaker.settled
  by_cases cooled : b.state = .opened ∧ b.cooldownElapsed now = true
  · exact .inr ⟨cooled.1, cooled.2, if_pos cooled⟩
  · exact .inl (if_neg cooled)

theorem move_report (call : ℕ) (healthy : Bool) (s : Guarded K) :
    move (.report call healthy) s = s ∨
      move (.report call healthy) s = s.reported call healthy := by
  simp only [move]
  cases s.outstanding[call]? with
  | none => exact .inl rfl
  | some _ => exact .inr rfl

omit [Field K] [LinearOrder K] in
/-- A failure leaves the circuit as it was, or opens it. -/
theorem recordFailure_cases (b : CircuitBreaker K) (now : K) :
    (b.recordFailure now = { b with failures := b.failures + 1 }) ∨
      ((b.state = .halfOpen ∨ b.failureThreshold ≤ b.failures + 1) ∧
        b.recordFailure now =
          { b with failures := b.failures + 1, state := .opened, openedAt := some now }) := by
  unfold CircuitBreaker.recordFailure
  by_cases trips : b.state = .halfOpen ∨ b.failureThreshold ≤ b.failures + 1
  · exact .inr ⟨trips, if_pos trips⟩
  · exact .inl (if_neg trips)

variable [IsStrictOrderedRing K]

omit [IsStrictOrderedRing K] [Field K] in
theorem reported_tracks (call : ℕ) (healthy : Bool) (tracks : s.Tracks threshold) :
    (s.reported call healthy).Tracks threshold := by
  unfold reported
  cases healthy with
  | true => exact ⟨tracks.threshold, rfl, nofun⟩
  | false =>
      have more : s.breaker.failures + 1 =
          ((false :: s.reports).takeWhile fun healthy => !healthy).length :=
        congrArg (· + 1) tracks.counts
      rcases recordFailure_cases s.breaker s.now with kept | ⟨_, trips⟩
      · simp only [Bool.false_eq_true, if_false, kept]
        refine ⟨tracks.threshold, more, fun opened => ?_⟩
        obtain ⟨since, last, known, rest⟩ := tracks.opened opened
        refine ⟨since, last, ?_, rest⟩
        rw [if_pos opened, if_pos opened, known]
      · simp only [Bool.false_eq_true, if_false, trips]
        refine ⟨tracks.threshold, more, fun _ => ?_⟩
        by_cases before : s.breaker.state = .opened
        · obtain ⟨since, last, known, _, order, past⟩ := tracks.opened before
          exact ⟨since, s.now, by rw [if_pos trivial, if_pos before, known], rfl, order.trans past,
            le_refl _⟩
        · exact ⟨s.now, s.now, by rw [if_pos trivial, if_neg before], rfl, le_refl _, le_refl _⟩

theorem move_tracks (m : BreakerMove K) (s : Guarded K) (tracks : s.Tracks threshold) :
    (move m s).Tracks threshold := by
  cases m with
  | allow =>
      rcases settled_cases s.breaker s.now with same | ⟨_, _, half⟩
      · have kept : (s.breaker.allow s.now).2 = s.breaker := same
        refine ⟨?_, ?_, fun opened => ?_⟩
        · exact (congrArg CircuitBreaker.failureThreshold kept).trans tracks.threshold
        · exact (congrArg CircuitBreaker.failures kept).trans tracks.counts
        · have before : s.breaker.state = .opened := by
            rw [← kept]
            exact opened
          obtain ⟨since, last, known, at_last, order, past⟩ := tracks.opened before
          exact ⟨since, last, (if_pos opened).trans known,
            (congrArg CircuitBreaker.openedAt kept).trans at_last, order, past⟩
      · have kept : (s.breaker.allow s.now).2 = { s.breaker with state := .halfOpen } := half
        refine ⟨?_, ?_, fun opened => ?_⟩
        · exact (congrArg CircuitBreaker.failureThreshold kept).trans tracks.threshold
        · exact (congrArg CircuitBreaker.failures kept).trans tracks.counts
        · cases (congrArg CircuitBreaker.state kept).symm.trans opened
  | report call healthy =>
      rcases move_report call healthy s with same | recorded
      · rw [same]
        exact tracks
      · rw [recorded]
        exact reported_tracks call healthy tracks
  | advance elapsed onward =>
      refine ⟨tracks.threshold, tracks.counts, fun opened => ?_⟩
      obtain ⟨since, last, known, at_last, order, past⟩ := tracks.opened opened
      exact ⟨since, last, known, at_last, order, past.trans (le_add_of_nonneg_right onward)⟩

theorem run_tracks (moves : List (BreakerMove K)) (tracks : s.Tracks threshold) :
    (run moves s).Tracks threshold := runSteps_invariant move_tracks moves tracks

omit [IsStrictOrderedRing K] in
theorem move_opens (m : BreakerMove K) (tracks : s.Tracks threshold) : OpensFor m s := by
  intro before after
  cases m with
  | allow =>
      rcases settled_cases s.breaker s.now with same | ⟨opened, _, _⟩
      · exact absurd ((congrArg CircuitBreaker.state same).symm.trans after) before
      · exact absurd opened before
  | report call healthy =>
      rcases move_report call healthy s with same | recorded
      · rw [same] at after
        exact absurd after before
      · rw [recorded] at after ⊢
        cases healthy with
        | true => cases after
        | false =>
            refine ⟨call, rfl, ?_⟩
            rcases recordFailure_cases s.breaker s.now with kept | ⟨tripped | reached, _⟩
            · exact absurd ((congrArg CircuitBreaker.state kept).symm.trans after) before
            · exact .inl tripped
            · rw [tracks.counts] at reached
              exact .inr reached
  | advance elapsed onward => exact absurd after before

theorem tracks_denies (tracks : s.Tracks threshold) : s.Denies := by
  intro opened
  obtain ⟨since, last, known, at_last, order, _⟩ := tracks.opened opened
  refine ⟨since, known, fun early => ?_⟩
  rcases settled_cases s.breaker s.now with same | ⟨_, cooled, _⟩
  · have kept : (s.breaker.allow s.now).2.state = .opened :=
      (congrArg CircuitBreaker.state same).trans opened
    refine ⟨?_, kept⟩
    change ((s.breaker.settled s.now).state == .closed ||
      (s.breaker.settled s.now).state == .halfOpen) = false
    rw [same, opened]
    rfl
  · unfold CircuitBreaker.cooldownElapsed at cooled
    rw [at_last] at cooled
    have elapsed : s.breaker.resetTimeout ≤ s.now - last := of_decide_eq_true cooled
    linarith

/-! ### The trial -/

omit [IsStrictOrderedRing K] in
/-- A breaker with a single trial keeps it single exactly if the move waits for it. -/
theorem move_single_iff (m : BreakerMove K) (s : Guarded K) (single : s.Single) :
    (move m s).Single ↔ Waits m s := by
  cases m with
  | allow =>
      change ((s.breaker.settled s.now).state = .halfOpen →
          (if (s.breaker.allow s.now).1 then
            s.outstanding ++ [(s.breaker.settled s.now).state == .halfOpen]
          else s.outstanding).count true ≤ 1) ↔
        ((s.breaker.settled s.now).state = .halfOpen → true ∉ s.outstanding)
      refine imp_congr_right fun half => ?_
      have admitted : (s.breaker.allow s.now).1 = true := by
        unfold CircuitBreaker.allow
        dsimp only
        rw [half]
        rfl
      rw [admitted, if_pos rfl, half, List.count_append, ← List.count_eq_zero]
      have one : [CircuitState.halfOpen == CircuitState.halfOpen].count true = 1 := rfl
      rw [one]
      omega
  | report call healthy =>
      refine iff_of_true ?_ trivial
      rcases move_report call healthy s with same | recorded
      · rw [same]
        exact single
      · rw [recorded]
        cases healthy with
        | true => exact nofun
        | false =>
            intro half
            rcases recordFailure_cases s.breaker s.now with kept | ⟨_, trips⟩
            · have before := (congrArg CircuitBreaker.state kept).symm.trans half
              have fewer := (List.eraseIdx_sublist s.outstanding call).count_le true
              exact fewer.trans (single before)
            · cases (congrArg CircuitBreaker.state trips).symm.trans half
  | advance elapsed onward => exact iff_of_true single trivial

/-- Over every run, the breaker opens only for its failures and denies every call until the
cooldown is over; and its trial stays single exactly if no call is asked for during it. -/
theorem run_breaks_iff (failureThreshold : ℕ) (resetTimeout start : K)
    (moves : List (BreakerMove K)) :
    Breaks moves (fresh failureThreshold resetTimeout start) ↔
      ∀ before m after, moves = before ++ m :: after →
        Waits m (run before (fresh failureThreshold resetTimeout start)) := by
  have tracks : (fresh failureThreshold resetTimeout start).Tracks failureThreshold :=
    ⟨rfl, rfl, nofun⟩
  have trials : (∀ before after, moves = before ++ after →
      Single (run before (fresh failureThreshold resetTimeout start))) ↔ _ :=
    runSteps_always_iff (C := Waits) (I := fun _ => True) (fun _ _ _ => trivial)
      (fun m s _ => move_single_iff m s) moves trivial nofun
  constructor
  · intro breaks
    exact trials.mp breaks.single
  · intro waits
    refine ⟨fun before m after _ => ?_, fun before after _ => ?_, trials.mpr waits⟩
    · exact move_opens m (run_tracks before tracks)
    · exact tracks_denies (run_tracks before tracks)

/-- Four failures open the circuit, and a minute goes by. -/
def cooledDown : List (BreakerMove ℚ) :=
  [.allow, .report 0 false, .allow, .report 0 false, .allow, .report 0 false, .allow,
    .report 0 false, .advance 60 (by decide)]

/-- Two requests after the cooldown are two trials. -/
theorem two_trials_admitted : ¬ Breaks (cooledDown ++ [.allow, .allow]) (fresh 4 (60 : ℚ) 0) := by
  intro breaks
  have single := breaks.single (cooledDown ++ [.allow, .allow]) [] (by simp)
  have trials : (run (cooledDown ++ [.allow, .allow]) (fresh 4 (60 : ℚ) 0)).outstanding.count true = 2 ∧
      (run (cooledDown ++ [.allow, .allow]) (fresh 4 (60 : ℚ) 0)).breaker.state = .halfOpen := by
    decide +kernel
  have bound := single trials.2
  omega

/-- One that waits for the other's report is none. -/
theorem one_trial_breaks :
    Breaks (cooledDown ++ [.allow, .report 0 true, .allow]) (fresh 4 (60 : ℚ) 0) := by
  refine (run_breaks_iff 4 60 0 _).mpr ?_
  repeat refine each_cons.mpr ⟨by decide +kernel, ?_⟩
  exact each_nil

end Guarded
end Johnny.LLM
