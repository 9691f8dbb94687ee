import Johnny.Brain.Heartbeat
import Johnny.Brain.NeverWedged

/-!
# The agency gate over whole runs

The verdict of a wake self-check reaches the agency flag through the sleep report.
A run acts on no failed verdict as long as no report is lost between a failed check
and the flag, which happens exactly where the log row of that sleep cannot be closed.
-/
namespace Johnny
variable {K ω : Type}

/-- The verdict of a check that ended or was applied. -/
def Happening.verdict : Happening K ω → Option Bool
  | .selfChecked passed => some passed
  | .wakeChecked passed => some passed
  | _ => none

/-- Planning, an internal action or a tool run. -/
def Happening.isAutonomous : Happening K ω → Bool
  | .deliberating => true
  | .acting _ => true
  | .ran _ _ => true
  | _ => false

/-- The most recent verdict of a history. -/
def lastVerdict (h : List (Entry K ω)) : Option Bool := h.findSome? fun e => e.what.verdict

/-- Nothing autonomous follows a failed verdict that no later one replaced. -/
def RespectsVerdicts (h : List (Entry K ω)) : Prop :=
  ∀ later e earlier, h = later ++ e :: earlier → e.what.isAutonomous = true →
    lastVerdict earlier ≠ some false

/-- A failed verdict withholds agency, and was respected so far. -/
structure Guarded (s : Mind K ω) : Prop where
  withheld : lastVerdict s.history = some false → s.fullAgency = false
  respected : RespectsVerdicts s.history

section history
variable {h new : List (Entry K ω)} {e : Entry K ω} {s t : Mind K ω}

theorem respectsVerdicts_cons (respected : RespectsVerdicts h)
    (head : e.what.isAutonomous = true → lastVerdict h ≠ some false) :
    RespectsVerdicts (e :: h) := by
  intro later x earlier split autonomous
  cases later with
  | nil =>
      injection split with same tail
      rw [← tail]
      exact head (same ▸ autonomous)
  | cons y later =>
      injection split with _ tail
      exact respected later x earlier tail autonomous

theorem not_respectsVerdicts (n : ℕ)
    (autonomous : (h.drop n).head?.any (fun e => e.what.isAutonomous) = true)
    (failed : lastVerdict (h.drop (n + 1)) = some false) : ¬ RespectsVerdicts h := by
  intro respected
  cases rest : h.drop n with
  | nil => simp [rest] at autonomous
  | cons e earlier =>
      rw [rest] at autonomous
      rw [← List.tail_drop, rest] at failed
      have split : h = h.take n ++ e :: earlier := by
        rw [← rest, List.take_append_drop]
      exact respected _ e earlier split autonomous failed

/-- Entries without a verdict that are not autonomous. -/
def Neutral (new : List (Entry K ω)) : Prop :=
  ∀ e ∈ new, e.what.verdict = none ∧ e.what.isAutonomous = false

theorem lastVerdict_neutral (neutral : Neutral new) : lastVerdict (new ++ h) = lastVerdict h := by
  induction new with
  | nil => rfl
  | cons e new ih =>
      have first := (neutral e List.mem_cons_self).1
      have rest := ih fun x member => neutral x (List.mem_cons_of_mem e member)
      unfold lastVerdict at rest ⊢
      rw [List.cons_append, List.findSome?_cons, first]
      exact rest

theorem respectsVerdicts_neutral (neutral : Neutral new) (respected : RespectsVerdicts h) :
    RespectsVerdicts (new ++ h) := by
  induction new with
  | nil => exact respected
  | cons e new ih =>
      refine respectsVerdicts_cons (ih fun x member => neutral x (List.mem_cons_of_mem e member)) ?_
      intro autonomous
      rw [(neutral e List.mem_cons_self).2] at autonomous
      cases autonomous

theorem Guarded.grow (guarded : Guarded s) (new : List (Entry K ω)) (neutral : Neutral new)
    (agency : t.fullAgency = s.fullAgency) (grown : t.history = new ++ s.history) :
    Guarded t := by
  refine ⟨?_, ?_⟩
  · rw [grown, lastVerdict_neutral neutral, agency]
    exact guarded.withheld
  · rw [grown]
    exact respectsVerdicts_neutral neutral guarded.respected

/-- With full agency the last verdict is no failure, so an autonomous step respects it. -/
theorem Guarded.autonomous (guarded : Guarded s) (agency : s.fullAgency = true)
    (what : Happening K ω) (silent : what.verdict = none) :
    Guarded { s with history := ⟨s.tick, what⟩ :: s.history } := by
  have passed : lastVerdict s.history ≠ some false := by
    intro failed
    rw [guarded.withheld failed] at agency
    cases agency
  refine ⟨?_, respectsVerdicts_cons guarded.respected fun _ => passed⟩
  intro failed
  unfold lastVerdict at failed passed
  rw [List.findSome?_cons, silent] at failed
  exact absurd failed passed

theorem Happening.neutral_of_feedback {what : Happening K ω}
    (feedback : what.isFeedback = true) : what.verdict = none ∧ what.isAutonomous = false := by
  cases what <;> first | exact ⟨rfl, rfl⟩ | cases feedback

theorem VetTrace.neutral {d : EffectorDispatch K ω} {n : ℕ} {proposal : ProposedAction K}
    {outcome : Except Failure (VettedAction K ω)} (trace : VetTrace d n proposal outcome new) :
    Neutral new := by
  cases trace <;> simp [Neutral, Happening.verdict, Happening.isAutonomous]

theorem Quiet.guarded {W : Frame ω} (q : Quiet W s t) (guarded : Guarded s) : Guarded t := by
  obtain ⟨new, grown, feedback⟩ := q.history
  exact guarded.grow new (fun e member => Happening.neutral_of_feedback (feedback e member).2)
    q.fullAgency grown

end history

/-! ### A tick -/

section tick
open CognitiveCycle
variable {c : CognitiveCycle K ω} {W : Frame ω} {s : Mind K ω}

theorem guarded_deliberated {r : Except Failure Unit × Mind K ω} (guarded : Guarded s)
    (ended : Deliberated c W s r) : Guarded r.2 := by
  cases ended with
  | idle _ => exact guarded
  | raised agency _ _ =>
      exact (guarded.autonomous agency .deliberating rfl).grow [] (List.forall_mem_nil _) rfl rfl
  | @planned _ result _ _ _ agency _ _ after =>
      have started := guarded.autonomous agency .deliberating rfl
      exact after.guarded (started.grow [⟨s.tick, .deliberated (c.clock s.world) result⟩]
        (by simp [Neutral, Happening.verdict, Happening.isAutonomous]) rfl rfl)

theorem guarded_checked {r : Except Failure Unit × Mind K ω} (guarded : Guarded s)
    (ended : Checked c W s r) : Guarded r.2 := by
  cases ended with
  | idle _ => exact guarded
  | refused _ _ _ _ _ trace _ => exact guarded.grow _ trace.neutral rfl rfl
  | vetted _ _ _ _ _ trace _ => exact guarded.grow _ trace.neutral rfl rfl

theorem guarded_committed (c : CognitiveCycle K ω) {d : EffectorDispatch K ω}
    (wired : c.dispatch = some d) (v : VettedAction K ω) (agency : s.fullAgency = true)
    (guarded : Guarded s) : Guarded (d.commit v s).2 := by
  obtain ⟨w, records, grown, -, small⟩ := d.commit_spec (c.confined_any.dispatch d wired)
    (v := v) (fun _ _ => trivial) s
  have started : Guarded { s with history := startedBy v s.tick ++ s.history } := by
    unfold startedBy
    cases v.verdict.allowed with
    | false => exact guarded
    | true => exact guarded.autonomous agency (.ran v.tool v.validated) rfl
  rw [grown]
  refine started.grow (⟨s.tick, .commitEnded (d.commit v s).1⟩ :: records) ?_ rfl (by simp)
  intro e member
  rcases List.mem_cons.mp member with rfl | recorded
  · exact ⟨rfl, rfl⟩
  · obtain ⟨rec, rfl⟩ := small e recorded
    exact ⟨rfl, rfl⟩

theorem guarded_settled {goal : Goal K} {r : Except Failure (DispatchOutcome K) × Mind K ω}
    {r' : Except Failure Unit × Mind K ω} (guarded : Guarded r.2)
    (ended : Settled c W goal r r') : Guarded r'.2 := by
  cases ended with
  | failed => exact guarded
  | unsettled quiet _ => exact quiet.guarded guarded
  | refused quiet _ _ => exact (quiet.guarded guarded).grow [] (List.forall_mem_nil _) rfl rfl
  | settled quiet _ _ after =>
      exact after.guarded ((quiet.guarded guarded).grow [] (List.forall_mem_nil _) rfl rfl)

theorem guarded_acted {r : Except Failure Unit × Mind K ω} (guarded : Guarded s)
    (ended : Acted c W s r) : Guarded r.2 := by
  cases ended with
  | idle _ => exact guarded
  | @raised _ _ action _ _ agency _ _ _ _ _ =>
      exact (guarded.autonomous agency (.acting action) rfl).grow [] (List.forall_mem_nil _) rfl rfl
  | @acted _ _ action _ _ _ _ agency _ _ _ _ _ after =>
      exact after.guarded
        ((guarded.autonomous agency (.acting action) rfl).grow [] (List.forall_mem_nil _) rfl rfl)
  | committed agency wired _ _ _ _ after =>
      exact guarded_settled (guarded_committed c wired _ agency guarded) after

theorem guarded_tickPlan [Field K] [LinearOrder K] [FloorRing K] (c : CognitiveCycle K ω) :
    TickPlan c Frame.any Guarded Guarded Guarded Guarded Guarded
      (fun s => RespectsVerdicts s.history) where
  began s guarded := guarded.grow [⟨s.tick + 1, .began s.fullAgency⟩]
    (by simp [Neutral, Happening.verdict, Happening.isAutonomous]) rfl rfl
  deliberated _ _ guarded ended :=
    ⟨fun _ => guarded_deliberated guarded ended, (guarded_deliberated guarded ended).respected⟩
  checked _ _ guarded ended :=
    ⟨fun _ => guarded_checked guarded ended, (guarded_checked guarded ended).respected⟩
  acted _ _ guarded ended :=
    ⟨fun _ => guarded_acted guarded ended, (guarded_acted guarded ended).respected⟩
  stable₀ _ _ q := q.guarded
  stable₁ _ _ q := q.guarded
  stable₂ _ _ q := q.guarded
  stable _ _ q := q.guarded
  weaken₀ _ guarded := guarded.respected
  weaken _ guarded := guarded.respected

end tick
/-! ### A sleep -/

section sleep
open CognitiveCycle
variable [Field K] [LinearOrder K] [FloorRing K] {c : CognitiveCycle K ω} {W : Frame ω}
  {s t : Mind K ω}

/-- The sleep phase from `s` goes to sleep with full agency, its self_check does not
pass, and the close of its log row raises. -/
def LosesVerdict (c : CognitiveCycle K ω) (s : Mind K ω) : Prop :=
  ∃ sc trigger s₁, c.sleepCycle = some sc ∧
    sc.sleepTrigger s s.lastUrges s.tick = some trigger ∧
    c.emitSleepTransition true s = (.ok (), s₁) ∧ s₁.fullAgency = true ∧
    (sc.exiting trigger none s₁.degradedTicks s₁).1.history =
      ⟨s₁.tick, .selfChecked false⟩ :: s₁.history ∧
    ¬ sc.ClosesRow trigger none s₁.degradedTicks s₁

omit [Field K] [LinearOrder K] [FloorRing K] in
/-- A verdict that agrees with the agency it leaves. -/
theorem Guarded.judged (guarded : Guarded s) (what : Happening K ω) {passed : Bool}
    (verdict : what.verdict = some passed) (agency : passed = false → t.fullAgency = false)
    (grown : t.history = ⟨s.tick, what⟩ :: s.history) : Guarded t := by
  have inert : what.isAutonomous = false := by
    cases what <;> first | rfl | cases verdict
  refine ⟨?_, ?_⟩
  · intro failed
    rw [grown, lastVerdict, List.findSome?_cons, verdict] at failed
    injection failed with failed
    exact agency failed
  · rw [grown]
    refine respectsVerdicts_cons guarded.respected fun autonomous => ?_
    rw [inert] at autonomous
    cases autonomous

theorem guarded_slept {r : Except Failure Unit × Mind K ω} (guarded : Guarded s)
    (kept : ¬ LosesVerdict c s) (slept : Slept c W s r) :
    Leaves Guarded (fun s => RespectsVerdicts s.history) r := by
  cases slept with
  | quietly quiet =>
      have := quiet.guarded guarded
      exact ⟨fun _ => this, this.respected⟩
  | @raised sc trigger s₁ e s₂ wired before _ triggered announced _ ended =>
      have entered := before.guarded guarded
      cases ended with
      | @unchecked _ w asleep _ =>
          have := entered.grow (t := { s₁ with world := w, asleep := asleep }) []
            (List.forall_mem_nil _) rfl rfl
          exact ⟨fun _ => this, this.respected⟩
      | cut _ =>
          -- a cancelled self_check ends the run, so only the past is at stake
          refine ⟨fun running => absurd rfl running, ?_⟩
          refine respectsVerdicts_cons entered.respected fun autonomous => ?_
          cases autonomous
      | @lost _ w verdict stuck checked =>
          have withheld : verdict = false → s₁.fullAgency = false := by
            rintro rfl
            cases agency : s₁.fullAgency with
            | false => rfl
            | true => exact absurd ⟨sc, trigger, s₁, wired, triggered, announced, agency, checked,
                stuck⟩ kept
          have := entered.judged (t := { s₁ with world := w, asleep := true, history := _ })
            (.selfChecked verdict) rfl withheld rfl
          exact ⟨fun _ => this, this.respected⟩
  | @woke sc trigger s₁ report s₂ r t _ before _ ended after =>
      have entered := before.guarded guarded
      cases ended with
      | @woke _ w _ =>
          have := after.guarded (entered.judged (.selfChecked report.selfCheckOk) rfl
            (fun failed => failed) rfl)
          exact ⟨fun _ => this, this.respected⟩

/-- In every run from a fresh Mind in which no pass of the loop loses a verdict, nothing
autonomous follows a failed verdict that no later one replaced. -/
theorem run_respects_verdicts (c : CognitiveCycle K ω) (turns : List (Turn K ω)) (world : ω)
    (kept : ∀ before after t s₁, turns = before ++ .beat :: after →
      c.run before (c.fresh world) = (.ok (), t) → c.waking t = (.ok (), s₁) →
      ¬ LosesVerdict c s₁) :
    RespectsVerdicts (c.run turns (c.fresh world)).2.history := by
  refine run_invariant (W := Frame.any) (I := Guarded)
    (C := fun t => ∀ s₁, c.waking t = (.ok (), s₁) → ¬ LosesVerdict c s₁)
    (E := fun s => RespectsVerdicts s.history) c.confined_any ?_ ?_ (fun _ _ _ => trivial) ?_ ?_
  · refine ⟨?_, ?_, fun _ _ q => q.guarded, fun _ guarded => guarded.respected⟩
    · exact (tick_triple c.confined_any (guarded_tickPlan c)).mono (fun _ pre => pre.1)
        (fun _ _ post => post) fun _ _ cut => cut
    · intro s s₁ r cond woken guarded slept
      exact guarded_slept guarded (cond s₁ woken) slept
  · intro result s guarded
    exact guarded.judged (.wakeChecked result.ok) rfl (fun failed => failed) rfl
  · refine ⟨fun failed => ?_, ?_⟩
    · cases failed
    · intro later e earlier split
      exact absurd split.symm (by simp [fresh])
  · intro before after t split reached s₁ woken
    exact kept before after t s₁ split reached woken

end sleep

/-! ### A lost verdict -/

namespace VerdictLost
open CloseDown (tired databaseLost)

/-- Tired, with a blank self-model, and able to plan. -/
def cycle (close : Except Failure Unit) : CognitiveCycle ℚ Unit where
  broadcast _ := pure ()
  setContents _ := pure ()
  clock _ := 0
  sleepFn _ := pure ()
  drives := some ⟨fun _ => pure [⟨sleepDrive, 1, 0, 0, 0, frac 4 5, none⟩], fun _ => tired⟩
  deliberation := some ⟨fun _ _ _ => pure {}, fun _ _ _ => pure ⟨"reflect", true, "", []⟩, none⟩
  sleepCycle := some { CloseDown.sleepCycle close with selfModelCurrent := pure ⟨"Johnny", "", 3⟩ }
  interval := 1
  minInterval := 1
  maxInterval := 1
  arousalSpeedup := 0
  tiredSlowdown := 0
  attentionDriveWeight := 0
  capacity := 7

def afterwards (close : Except Failure Unit) : List (Entry ℚ Unit) :=
  ((cycle close).run [.beat, .beat] ((cycle close).fresh ())).2.history

end VerdictLost

open VerdictLost in
/-- The first sleep fails its check and cannot close its row, so the second tick plans. -/
theorem lost_verdict_plans :
    ¬ RespectsVerdicts (afterwards (.error CloseDown.databaseLost)) :=
  not_respectsVerdicts 1 (by decide +kernel) (by decide +kernel)

open VerdictLost in
theorem kept_verdict_withholds : RespectsVerdicts (afterwards (.ok ())) := by
  refine run_respects_verdicts (cycle (.ok ())) [.beat, .beat] () ?_
  rintro _ _ _ _ _ _ _ ⟨sc, trigger, s₂, wired, _, _, _, _, stuck⟩
  cases wired
  exact stuck fun _ _ => rfl

end Johnny
