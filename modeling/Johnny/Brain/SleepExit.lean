import Johnny.Brain.Sleep

/-!
# How a sleep ends

The pipeline leaves the Mind as it was but for the world and the self_check's
verdict. The flag falls exactly where the log row, once opened, could be closed.
-/
namespace Johnny
namespace SleepCycle
variable {K ω α : Type}

/-- The world and the locals move; the Mind and the open log row stay. -/
def pipelineFrame : Frame (Mind K ω × SleepLocals K) where
  rel s t := t.1 = { s.1 with world := t.1.world } ∧ t.2.sleepId = s.2.sleepId
  refl _ := ⟨rfl, rfl⟩
  trans hab hbc := ⟨Mind.worldOnly.trans hab.1 hbc.1, hbc.2.trans hab.2⟩

theorem setLocals_within {f : SleepLocals K → SleepLocals K}
    (same : ∀ l, (f l).sleepId = l.sleepId) :
    Prog.Within pipelineFrame.rel (setLocals f : Sleeping K ω Unit) :=
  .modify fun s => ⟨rfl, same s.2⟩

theorem stage_within (name : String) (p : Prog Failure ω α) :
    Prog.Within pipelineFrame.rel (stage (K := K) name (Mind.outside p)) := by
  refine .rescue (.bind (.zoom fun s => ⟨rfl, rfl⟩) fun _ => .pure _) fun e => ?_
  exact .bind (setLocals_within fun _ => rfl) fun _ =>
    .bind (setLocals_within fun _ => rfl) fun _ => .pure _

/-- A stage raises only on cancellation, and moves the Mind as its body does. -/
theorem stage_spec (name : String) (p : Stage K ω α) (s : Mind K ω × SleepLocals K) :
    (stage name p s).2.1 = (p s.1).2 ∧ (stage name p s).2.2.sleepId = s.2.sleepId ∧
      (∃ a, (stage name p s).1 = .ok a ∧ a = (p s.1).1.toOption ∨
        (stage name p s).1 = .error .cancelled ∧ (p s.1).1 = .error .cancelled) := by
  have body : (inMind p >>= fun a => pure (some a)) s =
      ((p s.1).1.map some, ((p s.1).2, s.2)) := Prog.bind_pure_apply _ _ _
  cases ended : (p s.1).1 with
  | ok a =>
      rw [ended] at body
      rw [show stage name p s = _ from Prog.rescue_of_ok body]
      exact ⟨rfl, rfl, some a, .inl ⟨rfl, rfl⟩⟩
  | error e =>
      rw [ended] at body
      cases e with
      | exception cls text =>
          rw [show stage name p s = _ from Prog.rescue_of_caught body rfl]
          exact ⟨rfl, rfl, none, .inl ⟨rfl, rfl⟩⟩
      | cancelled =>
          rw [show stage name p s = _ from Prog.rescue_of_passed body rfl]
          exact ⟨rfl, rfl, none, .inr ⟨rfl, rfl⟩⟩

/-! ### The exit path -/

theorem inMind_bind_ok {β : Type} {p : Stage K ω α} {f : α → Sleeping K ω β}
    {s : Mind K ω × SleepLocals K} {a : α} (h : (p s.1).1 = .ok a) :
    (inMind p >>= f) s = f a ((p s.1).2, s.2) :=
  Prog.bind_of_ok (Prod.ext h rfl)

theorem inMind_bind_error {β : Type} {p : Stage K ω α} {f : α → Sleeping K ω β}
    {s : Mind K ω × SleepLocals K} {e : Failure} (h : (p s.1).1 = .error e) :
    (inMind p >>= f) s = (.error e, ((p s.1).2, s.2)) :=
  Prog.bind_of_error (Prod.ext h rfl)

theorem wake_unopened (c : SleepCycle K ω) {s : Mind K ω × SleepLocals K}
    (row : s.2.sleepId = none) :
    c.wake s = (.ok (), ({ s.1 with asleep := false },
      { s.2 with report := c.finished s })) := by
  rcases s with ⟨m, report, notes, degraded, sleepId⟩
  cases row
  rfl

/-- With an open row the exit path closes it, and lets the flag fall behind. -/
theorem wake_closing (c : SleepCycle K ω) {s : Mind K ω × SleepLocals K} {id : ℕ}
    (row : s.2.sleepId = some id) :
    c.wake s =
      (inMind (Mind.outside (c.logClose id (c.clock s.1.world) (c.finished s))) >>= fun _ =>
        inMind (Prog.modify fun m => { m with asleep := false }))
      (s.1, { s.2 with report := c.finished s }) := by
  rcases s with ⟨m, report, notes, degraded, sleepId⟩
  cases row
  rfl

theorem wake_opened (c : SleepCycle K ω) {s : Mind K ω × SleepLocals K} {id : ℕ}
    (row : s.2.sleepId = some id) :
    ∃ w, ((c.logClose id (c.clock s.1.world) (c.finished s) s.1.world).1 = .ok () ∧
        c.wake s = (.ok (), ({ s.1 with world := w, asleep := false },
          { s.2 with report := c.finished s }))) ∨
      ((c.logClose id (c.clock s.1.world) (c.finished s) s.1.world).1 ≠ .ok () ∧
        ∃ e, c.wake s = (.error e, ({ s.1 with world := w },
          { s.2 with report := c.finished s }))) := by
  have closing := c.wake_closing row
  refine ⟨(c.logClose id (c.clock s.1.world) (c.finished s) s.1.world).2, ?_⟩
  cases closed : (c.logClose id (c.clock s.1.world) (c.finished s) s.1.world).1 with
  | ok _ =>
      refine .inl ⟨rfl, closing.trans ?_⟩
      rw [inMind_bind_ok (a := ())]
      · rfl
      · exact closed
  | error e =>
      refine .inr ⟨nofun, e, closing.trans ?_⟩
      rw [inMind_bind_error (e := e)]
      · rfl
      · exact closed

/-! ### The pipeline -/

section pipeline
variable [Field K] [LinearOrder K]

omit [LinearOrder K] in
theorem offline_within (c : SleepCycle K ω) (started : K) (degradedTicks : ℕ) :
    Prog.Within pipelineFrame.rel (c.offline started degradedTicks) := by
  have written (f : SleepReport K → SleepReport K) :
      Prog.Within pipelineFrame.rel (setReport f : Sleeping K ω Unit) :=
    setLocals_within fun _ => rfl
  exact .bind (stage_within _ _) fun _ => .bind (written _) fun _ =>
    .bind (.onlyIf fun _ => setLocals_within fun _ => rfl) fun _ =>
    .bind (stage_within _ _) fun _ => .bind (.onSome fun _ _ => written _) fun _ =>
    .bind (stage_within _ _) fun _ => .bind (.onSome fun _ _ => written _) fun _ =>
    .bind (stage_within _ _) fun _ => .bind (.onSome fun _ _ => written _) fun _ =>
    .bind (stage_within _ _) fun _ => .bind (written _) fun _ =>
    .bind (stage_within _ _) fun _ => .pure _

omit [LinearOrder K] in
theorem offline_keeps (c : SleepCycle K ω) (started : K) (degradedTicks : ℕ) :
    Prog.Keeps pipelineFrame (c.offline started degradedTicks) :=
  (offline_within c started degradedTicks).keeps fun _ _ h => h

omit [Field K] [LinearOrder K] in
theorem noteCheck_spec (check : Option CheckResult) (s : Mind K ω × SleepLocals K) :
    ∃ l, noteCheck check s = (.ok (), (s.1, l)) ∧ l.sleepId = s.2.sleepId ∧
      l.report.selfCheckOk = check.any CheckResult.ok := by
  cases check with
  | none => exact ⟨_, rfl, rfl, rfl⟩
  | some r =>
      rcases r with ⟨ok, findings⟩
      cases ok
      · exact ⟨_, rfl, rfl, rfl⟩
      · exact ⟨_, rfl, rfl, rfl⟩

/-- The self_check stage notes its verdict, and raises only on cancellation. -/
theorem selfCheck_spec (c : SleepCycle K ω) (s : Mind K ω × SleepLocals K) :
    ∃ w l, l.sleepId = s.2.sleepId ∧
      (c.selfCheck s = (.ok (), ({ s.1 with
          world := w
          history := ⟨s.1.tick, .selfChecked l.report.selfCheckOk⟩ :: s.1.history }, l)) ∨
        c.selfCheck s = (.error .cancelled, ({ s.1 with
          world := w, history := ⟨s.1.tick, .selfChecked false⟩ :: s.1.history }, l))) := by
  let verified : Stage K ω CheckResult :=
    Mind.noting (Mind.outside c.verify) fun r => .selfChecked (passed r)
  have moved : verified s.1 = ((c.verify s.1.world).1, { s.1 with
      world := (c.verify s.1.world).2
      history := ⟨s.1.tick, .selfChecked (passed (c.verify s.1.world).1)⟩ :: s.1.history }) :=
    Mind.noting_apply _ _ s.1
  obtain ⟨mind, row, result, ended⟩ := stage_spec "self_check" verified s
  rw [moved] at mind ended
  refine ⟨(c.verify s.1.world).2, ?_⟩
  rcases h : stage "self_check" verified s with ⟨r, m, l⟩
  rw [h] at mind row ended
  dsimp only at mind row ended
  subst mind
  rcases ended with ⟨rfl, found⟩ | ⟨rfl, cancelled⟩
  · obtain ⟨l', noted, same, checkOk⟩ := noteCheck_spec result (_, l)
    have verdict : passed (c.verify s.1.world).1 = l'.report.selfCheckOk := by
      rw [checkOk, found]
      cases (c.verify s.1.world).1 <;> rfl
    refine ⟨l', same.trans row, .inl ?_⟩
    rw [← verdict]
    exact (Prog.bind_of_ok h).trans noted
  · refine ⟨l, row, .inr ((Prog.bind_of_error h).trans ?_)⟩
    rw [cancelled]
    rfl

/-- What the `try` block leaves behind when the exit path starts. -/
inductive PipelineEnded (c : SleepCycle K ω) (trigger : SleepTrigger) (started : K)
    (s : Mind K ω × SleepLocals K) : Except Failure Unit × (Mind K ω × SleepLocals K) → Prop
  | unopened {e w l} (raised : (c.logOpen trigger started s.1.world).1 = .error e)
      (row : l.sleepId = none) :
      PipelineEnded c trigger started s (.error e, ({ s.1 with world := w }, l))
  | unchecked {id e w l} (opened : (c.logOpen trigger started s.1.world).1 = .ok id)
      (row : l.sleepId = some id) :
      PipelineEnded c trigger started s (.error e, ({ s.1 with world := w }, l))
  | checked {id w l} (opened : (c.logOpen trigger started s.1.world).1 = .ok id)
      (row : l.sleepId = some id) :
      PipelineEnded c trigger started s (.ok (), ({ s.1 with
        world := w
        history := ⟨s.1.tick, .selfChecked l.report.selfCheckOk⟩ :: s.1.history }, l))
  | cut {id w l} (opened : (c.logOpen trigger started s.1.world).1 = .ok id)
      (row : l.sleepId = some id) :
      PipelineEnded c trigger started s (.error .cancelled, ({ s.1 with
        world := w, history := ⟨s.1.tick, .selfChecked false⟩ :: s.1.history }, l))

theorem pipeline_ended (c : SleepCycle K ω) (trigger : SleepTrigger) (started : K)
    (degradedTicks : ℕ) (s : Mind K ω × SleepLocals K) (fresh : s.2.sleepId = none) :
    PipelineEnded c trigger started s (c.pipeline trigger started degradedTicks s) := by
  have opening : inMind (Mind.outside (c.logOpen trigger started)) s =
      ((c.logOpen trigger started s.1.world).1,
        ({ s.1 with world := (c.logOpen trigger started s.1.world).2 }, s.2)) := rfl
  cases opened : (c.logOpen trigger started s.1.world).1 with
  | error e =>
      rw [opened] at opening
      rw [show c.pipeline trigger started degradedTicks s = _ from Prog.bind_of_error opening]
      exact .unopened opened fresh
  | ok id =>
      rw [opened] at opening
      rw [show c.pipeline trigger started degradedTicks s = _ from Prog.bind_of_ok opening]
      let s₁ : Mind K ω × SleepLocals K := ({ s.1 with
        world := (c.logOpen trigger started s.1.world).2 }, { s.2 with sleepId := some id })
      change PipelineEnded c trigger started s
        ((c.offline started degradedTicks >>= fun _ => c.selfCheck) s₁)
      obtain ⟨mind, row⟩ := offline_keeps c started degradedTicks s₁
      rcases h : c.offline started degradedTicks s₁ with ⟨r, m, l⟩
      rw [h] at mind row
      obtain ⟨w, rfl⟩ : ∃ w, m = { s₁.1 with world := w } := ⟨m.world, mind⟩
      cases r with
      | error e =>
          rw [Prog.bind_of_error h]
          exact .unchecked opened row
      | ok _ =>
          rw [Prog.bind_of_ok h]
          obtain ⟨w', l', row', ended | ended⟩ := selfCheck_spec c (_, l)
          · rw [ended]
            exact .checked opened (row'.trans row)
          · rw [ended]
            exact .cut opened (row'.trans row)

/-! ### The whole of `sleep()` -/

variable (c : SleepCycle K ω) (trigger : SleepTrigger) (now : Option K) (degradedTicks : ℕ)

omit [Field K] [LinearOrder K] in
/-- The moment a sleep from `s` starts at. -/
def startOf (s : Mind K ω) : K := now.getD (c.clock s.world)

/-- Where the `try` block of a sleep from `s` starts. -/
def entering (s : Mind K ω) : Mind K ω × SleepLocals K :=
  ({ s with asleep := true },
    { report := { trigger, startedAt := c.startOf now s, endedAt := c.startOf now s } })

/-- Where its exit path starts. -/
def exiting (s : Mind K ω) : Mind K ω × SleepLocals K :=
  (c.pipeline trigger (c.startOf now s) degradedTicks (c.entering trigger now s)).2

/-- If the log row of a sleep from `s` opens, closing it returns. -/
def ClosesRow (s : Mind K ω) : Prop :=
  ∀ id, (c.logOpen trigger (c.startOf now s) s.world).1 = .ok id →
    let exit := c.exiting trigger now degradedTicks s
    (c.logClose id (c.clock exit.1.world) (c.finished exit) exit.1.world).1 = .ok ()

/-- How a sleep entered awake can end: with its report, before the verdict, cut by a
cancellation at the verdict, or with the verdict lost to the failed close. -/
inductive SleepEnded (s : Mind K ω) :
    Except Failure (Option (SleepReport K)) × Mind K ω → Prop
  | woke {report w} (closes : c.ClosesRow trigger now degradedTicks s) :
      SleepEnded s (.ok (some report), { s with
        world := w, asleep := false
        history := ⟨s.tick, .selfChecked report.selfCheckOk⟩ :: s.history })
  | unchecked {e w asleep} (flag : asleep = false ↔ c.ClosesRow trigger now degradedTicks s) :
      SleepEnded s (.error e, { s with world := w, asleep := asleep })
  | cut {w} (closes : c.ClosesRow trigger now degradedTicks s) :
      SleepEnded s (.error .cancelled, { s with
        world := w, asleep := false
        history := ⟨s.tick, .selfChecked false⟩ :: s.history })
  | lost {e w verdict} (stuck : ¬ c.ClosesRow trigger now degradedTicks s)
      (checked : (c.exiting trigger now degradedTicks s).1.history =
        ⟨s.tick, .selfChecked verdict⟩ :: s.history) :
      SleepEnded s (.error e, { s with
        world := w, asleep := true
        history := ⟨s.tick, .selfChecked verdict⟩ :: s.history })

theorem sleep_busy {s : Mind K ω} (asleep : s.asleep = true) :
    c.sleep trigger now degradedTicks s = (.ok none, s) := by
  unfold sleep
  rw [Prog.reads_bind, asleep]
  rfl

theorem sleep_awake {s : Mind K ω} (awake : s.asleep = false) :
    c.sleep trigger now degradedTicks s =
      let r := (Prog.ensure (c.pipeline trigger (c.startOf now s) degradedTicks) c.wake >>=
        fun _ => Prog.reads fun s => some s.2.report) (c.entering trigger now s)
      (r.1, r.2.1) := by
  unfold sleep
  rw [Prog.reads_bind, awake]
  rfl

theorem closesRow_iff {s : Mind K ω} {id : ℕ} {exit : Mind K ω × SleepLocals K}
    (opened : (c.logOpen trigger (c.startOf now s) s.world).1 = .ok id)
    (left : c.exiting trigger now degradedTicks s = exit) :
    c.ClosesRow trigger now degradedTicks s ↔
      (c.logClose id (c.clock exit.1.world) (c.finished exit) exit.1.world).1 = .ok () := by
  subst left
  constructor
  · intro closes
    exact closes id opened
  · intro closed other same
    rw [opened] at same
    cases same
    exact closed

theorem sleep_ended {s : Mind K ω} (awake : s.asleep = false) :
    SleepEnded c trigger now degradedTicks s (c.sleep trigger now degradedTicks s) := by
  rw [sleep_awake c trigger now degradedTicks awake]
  have ended := pipeline_ended c trigger (c.startOf now s) degradedTicks
    (c.entering trigger now s) rfl
  have left : c.exiting trigger now degradedTicks s =
      (c.pipeline trigger (c.startOf now s) degradedTicks (c.entering trigger now s)).2 := rfl
  generalize h : c.pipeline trigger (c.startOf now s) degradedTicks (c.entering trigger now s) = x
    at ended left
  cases ended with
  | unopened raised row =>
      have closes : c.ClosesRow trigger now degradedTicks s := fun id opened => by
        rw [show (c.logOpen trigger (c.startOf now s) s.world).1 = _ from raised] at opened
        cases opened
      rw [Prog.bind_of_error (Prog.ensure_of_ok h (wake_unopened c row))]
      exact .unchecked (iff_of_true rfl closes)
  | @unchecked _ _ w l opened row =>
      have closing := closesRow_iff c trigger now degradedTicks opened left
      obtain ⟨w', ⟨closed, woken⟩ | ⟨stuck, e, woken⟩⟩ :=
        wake_opened c (s := (_, l)) row
      · rw [Prog.bind_of_error (Prog.ensure_of_ok h woken)]
        exact .unchecked (iff_of_true rfl (closing.mpr closed))
      · rw [Prog.bind_of_error (Prog.ensure_of_error h woken)]
        exact .unchecked (iff_of_false nofun fun closes => stuck (closing.mp closes))
  | @checked _ w l opened row =>
      have closing := closesRow_iff c trigger now degradedTicks opened left
      obtain ⟨w', ⟨closed, woken⟩ | ⟨stuck, e, woken⟩⟩ :=
        wake_opened c (s := (_, l)) row
      · rw [Prog.bind_of_ok (Prog.ensure_of_ok h woken)]
        exact .woke (closing.mpr closed)
      · rw [Prog.bind_of_error (Prog.ensure_of_error h woken)]
        exact .lost (fun closes => stuck (closing.mp closes)) (by rw [left]; rfl)
  | @cut _ w l opened row =>
      have closing := closesRow_iff c trigger now degradedTicks opened left
      obtain ⟨w', ⟨closed, woken⟩ | ⟨stuck, e, woken⟩⟩ :=
        wake_opened c (s := (_, l)) row
      · rw [Prog.bind_of_error (Prog.ensure_of_ok h woken)]
        exact .cut (closing.mpr closed)
      · rw [Prog.bind_of_error (Prog.ensure_of_error h woken)]
        exact .lost (fun closes => stuck (closing.mp closes)) (by rw [left]; rfl)

theorem sleep_asleep_iff {s : Mind K ω} (awake : s.asleep = false) :
    (c.sleep trigger now degradedTicks s).2.asleep = false ↔
      c.ClosesRow trigger now degradedTicks s := by
  have ended := sleep_ended c trigger now degradedTicks awake
  generalize c.sleep trigger now degradedTicks s = r at ended ⊢
  cases ended with
  | woke closes => exact iff_of_true rfl closes
  | unchecked flag => exact flag
  | cut closes => exact iff_of_true rfl closes
  | lost stuck _ => exact iff_of_false nofun stuck

theorem sleep_not_busy {s : Mind K ω} (awake : s.asleep = false) :
    (c.sleep trigger now degradedTicks s).1 ≠ .ok none := by
  have ended := sleep_ended c trigger now degradedTicks awake
  generalize c.sleep trigger now degradedTicks s = r at ended ⊢
  cases ended <;> nofun

end pipeline
end SleepCycle
end Johnny
