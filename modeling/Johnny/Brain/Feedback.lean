import Johnny.Brain.Heartbeat

/-!
# The feedback to the drives

Outcome events wait until the next drive step takes them, and the urges of the last
step are remembered for the sleep trigger. Only APPRAISE and the end of ACT touch
either; every other stage, the sleep phase and the wake check leave both alone.
-/
namespace Johnny
variable {K ω α : Type}

/-- Nothing pending or remembered changes, and the history grows by other entries. -/
structure Apart (s t : Mind K ω) : Prop where
  pending : t.pendingEvents = s.pendingEvents
  lastUrges : t.lastUrges = s.lastUrges
  tick : t.tick = s.tick
  history : ∃ new, t.history = new ++ s.history ∧
    ∀ e ∈ new, e.tick = s.tick ∧ e.what.isFeedback = false

def apart : Frame (Mind K ω) where
  rel := Apart
  refl _ := ⟨rfl, rfl, rfl, [], rfl, List.forall_mem_nil _⟩
  trans := by
    rintro a b c ⟨pending, urges, tick, new, hb, small⟩ ⟨pending', urges', tick', newer, hc, small'⟩
    refine ⟨pending'.trans pending, urges'.trans urges, tick'.trans tick, newer ++ new,
      by rw [hc, hb, List.append_assoc], ?_⟩
    intro e member
    rcases List.mem_append.mp member with later | earlier
    · exact ⟨(small' e later).1.trans tick, (small' e later).2⟩
    · exact small e earlier

/-- One outcome event is queued. -/
structure Enqueues (event : DriveEvent K) (s t : Mind K ω) : Prop where
  pending : t.pendingEvents = s.pendingEvents ++ [event]
  lastUrges : t.lastUrges = s.lastUrges
  tick : t.tick = s.tick
  history : t.history = ⟨s.tick, .enqueued event⟩ :: s.history

/-- What ACT does to the feedback. -/
inductive Fed (s t : Mind K ω) : Prop
  | apart (a : Apart s t)
  | enqueued (event : DriveEvent K) (e : Enqueues event s t)

theorem Apart.silent {s t : Mind K ω} (pending : t.pendingEvents = s.pendingEvents)
    (lastUrges : t.lastUrges = s.lastUrges) (tick : t.tick = s.tick)
    (history : t.history = s.history) : Apart s t :=
  ⟨pending, lastUrges, tick, [], history, List.forall_mem_nil _⟩

theorem Light.apart {W : Frame ω} {s t : Mind K ω} (l : Light W s t) : Apart s t := by
  have rest := l.rest
  exact .silent (by rw [rest]) (by rw [rest]) (by rw [rest]) (by rw [rest])

theorem LightProg.apart {W : Frame ω} {p : Stage K ω α} (h : LightProg W p) :
    Prog.Within Apart p := Prog.Within.mono h fun _ _ l => l.apart

theorem fed_of_apart {p : Stage K ω α} (h : Prog.Within Apart p) : Prog.Within Fed p :=
  Prog.Within.mono h fun _ _ a => .apart a

namespace Mind

theorem outside_apart (p : Prog Failure ω α) : Prog.Within Apart (outside (K := K) p) :=
  .zoom fun _ => .silent rfl rfl rfl rfl

theorem setCtx_apart (f : CycleContext K ω → CycleContext K ω) :
    Prog.Within Apart (setCtx f) := .modify fun _ => .silent rfl rfl rfl rfl

theorem note_apart {what : Happening K ω} (other : what.isFeedback = false) :
    Prog.Within Apart (note what) :=
  .modify fun s => ⟨rfl, rfl, rfl, [⟨s.tick, what⟩], rfl, by
    intro e member
    rw [List.mem_singleton.mp member]
    exact ⟨rfl, other⟩⟩

theorem noting_apart {p : Stage K ω α} {what : Except Failure α → Happening K ω}
    (h : Prog.Within Apart p) (other : ∀ r, (what r).isFeedback = false) :
    Prog.Within Apart (noting p what) :=
  .bind (.outcome h) fun r => .bind (note_apart (other r)) fun _ => .reraise r

end Mind

/-! ### The dispatch -/

open Mind

theorem Conscience.vet_apart (c : Conscience K ω) (action : ProposedAction K)
    (contents : List (WorkspaceItem K)) : Prog.Within Apart (c.vet action contents) := by
  refine .bind (.outcome (outside_apart _)) fun reply => .bind (note_apart rfl) fun _ => ?_
  cases reply with
  | ok completion => exact .reraise _
  | error e => exact .ite (.pure _) (.raise _)

namespace EffectorDispatch
variable (d : EffectorDispatch K ω)

theorem vet_apart (action : ProposedAction K) (contents : List (WorkspaceItem K)) :
    Prog.Within Apart (d.vet action contents) := by
  refine noting_apart (.bind (.reads _) fun found => .bind (note_apart rfl) fun _ => ?_) fun _ => rfl
  cases found with
  | none => exact .raise _
  | some tool =>
      exact .bind (note_apart rfl) fun _ => .bind (.reraise _) fun _ =>
        .bind (d.conscience.vet_apart _ _) fun _ => .pure _

theorem record_apart (r : ActionRecord K) : Prog.Within Apart (d.record r) :=
  .bind (outside_apart _) fun _ => note_apart rfl

theorem commit_apart (v : VettedAction K ω) : Prog.Within Apart (d.commit v) :=
  noting_apart (.ite
    (.bind (d.record_apart _) fun _ => .bind (outside_apart _) fun _ => .pure _)
    (.bind (note_apart rfl) fun _ => .bind (outside_apart _) fun _ =>
      .bind (d.record_apart _) fun _ => .bind (outside_apart _) fun _ => .pure _)) fun _ => rfl

end EffectorDispatch

namespace CognitiveCycle
variable (c : CognitiveCycle K ω)

theorem enqueueDriveEvent_fed (event : DriveEvent K) :
    Prog.Within Fed (enqueueDriveEvent event : Stage K ω Unit) :=
  fun _ => .single (.enqueued event ⟨rfl, rfl, rfl, rfl⟩)

theorem check_apart : Prog.Within Apart c.check :=
  .bind (.reads _) fun _ => .onlyIf fun _ => .onSome fun d _ => .onSome fun _ _ =>
    .onSome fun _ _ => .bind (d.vet_apart _ _) fun _ => setCtx_apart _

theorem dispatchToolAction_fed : Prog.Within Fed c.dispatchToolAction :=
  .bind (.reads _) fun _ => .onSome fun d _ => .onSome fun v _ => .onSome fun _ _ =>
    .bind (fed_of_apart (d.commit_apart v)) fun _ =>
    .bind (fed_of_apart (settledBy_light c.confined_any _ _).apart) fun _ => .onSome fun _ _ =>
    .bind (fed_of_apart (outside_apart _)) fun events =>
      .forEach (fun _ => enqueueDriveEvent_fed _) events

theorem actInternally_fed (action : Action K) (goal : Goal K) :
    Prog.Within Fed (c.actInternally action goal) :=
  .onSome fun _ _ => .bind (.reads _) fun _ => .bind (fed_of_apart (note_apart rfl)) fun _ =>
    .bind (fed_of_apart (outside_apart _)) fun outcome =>
    .bind (fed_of_apart (outside_apart _)) fun _ =>
      .forEach (fun _ => enqueueDriveEvent_fed _) outcome.driveEvents

theorem act_fed : Prog.Within Fed c.act :=
  .bind (.reads _) fun _ => .onlyIf fun _ => .onSome fun action _ => .onSome fun goal _ =>
    .ite c.dispatchToolAction_fed (c.actInternally_fed action goal)

section appraisal
variable [Field K] [LinearOrder K] [FloorRing K]

theorem deliberate_apart : Prog.Within Apart c.deliberate :=
  .bind (.reads _) fun _ => .onSome fun _ _ => .onlyIf fun _ => .bind (.reads _) fun _ =>
    .bind (.reads _) fun _ => .bind (note_apart rfl) fun _ => .bind (outside_apart _) fun _ =>
    .bind (note_apart rfl) fun _ => .bind (setCtx_apart _) fun _ =>
      .onSome fun _ _ => (emit_light c.confined_any _ _ _ _).apart

omit [FloorRing K] in
theorem sleep_apart (sc : SleepCycle K ω) (trigger : SleepTrigger) (now : Option K)
    (degradedTicks : ℕ) : Prog.Within Apart (sc.sleep trigger now degradedTicks) := by
  intro s
  refine .single ?_
  cases asleep : s.asleep with
  | true =>
      rw [SleepCycle.sleep_busy sc trigger now degradedTicks asleep]
      exact .silent rfl rfl rfl rfl
  | false =>
      have verdict (w : ω) (flag passed : Bool) : Apart s { s with
          world := w, asleep := flag, history := ⟨s.tick, .selfChecked passed⟩ :: s.history } :=
        ⟨rfl, rfl, rfl, [_], rfl, by simp [Happening.isFeedback]⟩
      have ended := SleepCycle.sleep_ended sc trigger now degradedTicks asleep
      generalize sc.sleep trigger now degradedTicks s = r at ended ⊢
      cases ended with
      | woke _ => exact verdict _ _ _
      | unchecked _ => exact .silent rfl rfl rfl rfl
      | cut _ => exact verdict _ _ _
      | lost _ _ => exact verdict _ _ _

theorem maybeSleep_apart : Prog.Within Apart c.maybeSleep :=
  .onSome fun sc _ => .bind (.reads _) fun _ => .onSome fun _ _ =>
    .bind (emitSleepTransition_light c.confined_any _).apart fun _ => .bind (.reads _) fun _ =>
    .bind (sleep_apart sc _ _ _) fun _ => .bind (.onSome fun _ _ =>
      .bind (.modify fun _ => .silent rfl rfl rfl rfl) fun _ =>
        .onlyIf fun _ => (emitDegradedAlert_light c.confined_any.between _ _).apart) fun _ =>
      (emitSleepTransition_light c.confined_any _).apart

/-! ### APPRAISE -/

/-- What APPRAISE hands to the drives in `s`. -/
def gathered (s : Mind K ω) : List (DriveEvent K) :=
  s.pendingEvents ++
    List.replicate (s.ctx.percepts.countP fun p => p.kind == .input) ⟨.interaction, 1⟩

/-- How APPRAISE can end from `s`; in any case nothing stays pending. -/
inductive Appraised (c : CognitiveCycle K ω) (W : Frame ω) (s : Mind K ω) :
    Except Failure Unit × Mind K ω → Prop
  | undriven {r t} (unwired : c.drives = none)
      (after : Light W { s with
        pendingEvents := [], ctx := { s.ctx with events := gathered s } } t) :
      Appraised c W s (r, t)
  | raised {engine e w} (wired : c.drives = some engine)
      (called : engine.step (gathered s) s.world = (.error e, w)) :
      Appraised c W s (.error e, { s with
        world := w, pendingEvents := [], ctx := { s.ctx with events := gathered s } })
  | stepped {engine readings w r t} (wired : c.drives = some engine)
      (called : engine.step (gathered s) s.world = (.ok readings, w))
      (after : Light W { s with
        world := w, pendingEvents := [], lastUrges := engine.urges readings
        ctx := { s.ctx with
          events := gathered s, drives := readings, urges := engine.urges readings }
        history := ⟨s.tick, .drivesStepped (gathered s) (engine.urges readings)⟩ :: s.history } t) :
      Appraised c W s (r, t)

variable {c} {W : Frame ω}

theorem appraise_spec (h : c.Confined W) (s : Mind K ω) : Appraised c W s (c.appraise s) := by
  have parts : c.appraise = collectEvents >>= fun events =>
      Mind.setCtx (fun ctx => { ctx with events := events }) >>= fun _ =>
      c.stepDrives >>= fun _ => c.appraiseMood >>= fun _ => c.applyAffectiveContext >>= fun _ =>
      Prog.modify fun s => { s with nextInterval := c.modulateInterval s.ctx.mood s.ctx.drives } :=
    rfl
  have gathering (f : List (DriveEvent K) → Stage K ω Unit) :
      (collectEvents >>= f) s = f (gathered s) { s with pendingEvents := [] } := rfl
  rw [parts, gathering, Mind.setCtx_bind]
  unfold stepDrives
  cases wired : c.drives with
  | none => exact .undriven wired ((afterDrives_light h).keeps _)
  | some engine =>
      rw [Prog.onSome_some, Prog.bind_assoc', Prog.reads_bind, Prog.bind_assoc']
      rcases called : engine.step (gathered s) s.world with ⟨r, w⟩
      cases r with
      | error e =>
          rw [Mind.outside_bind_error (e := e) (by rw [called]), called]
          exact .raised wired called
      | ok readings =>
          rw [Mind.outside_bind_ok (a := readings) (by rw [called]), called]
          simp only [Prog.bind_assoc', Mind.note_bind, Mind.setCtx_bind, Prog.modify_bind]
          have rest : LightProg W _ :=
            .bind (broadcastDrives_light h) fun _ => afterDrives_light h
          exact .stepped wired called (rest.keeps _)

end appraisal
end CognitiveCycle

/-! ### A rule for whole runs -/

/-- Newest first, and nothing of a tick to come. -/
structure Dated (s : Mind K ω) : Prop where
  bounded : ∀ e ∈ s.history, e.tick ≤ s.tick
  sorted : s.history.Pairwise fun e x => x.tick ≤ e.tick

/-- No feedback in this tick so far. -/
def Untold (s : Mind K ω) : Prop := ∀ e ∈ s.history, e.what.isFeedback = true → e.tick < s.tick

section dates
variable {s t : Mind K ω}

theorem Dated.grow (dated : Dated s) (new : List (Entry K ω)) (tick : t.tick = s.tick)
    (grown : t.history = new ++ s.history) (now : ∀ e ∈ new, e.tick = s.tick) : Dated t := by
  refine ⟨?_, ?_⟩
  · intro e member
    rw [grown] at member
    rw [tick]
    rcases List.mem_append.mp member with later | earlier
    · exact (now e later).le
    · exact dated.bounded e earlier
  · rw [grown]
    refine List.pairwise_append.mpr ⟨List.pairwise_of_forall_mem_list ?_, dated.sorted, ?_⟩
    · intro e he x hx
      rw [now e he, now x hx]
    · intro e he x hx
      rw [now e he]
      exact dated.bounded x hx

theorem Apart.dated (a : Apart s t) (dated : Dated s) : Dated t := by
  obtain ⟨new, grown, now⟩ := a.history
  exact dated.grow new a.tick grown fun e member => (now e member).1

theorem Enqueues.dated {event : DriveEvent K} (e : Enqueues event s t) (dated : Dated s) :
    Dated t := by
  refine dated.grow [_] e.tick e.history fun x member => ?_
  rw [List.mem_singleton.mp member]

theorem dated_begun (dated : Dated s) :
    Dated (CognitiveCycle.begun s) ∧ Untold (CognitiveCycle.begun s) := by
  have older (e : Entry K ω) (member : e ∈ s.history) : e.tick < s.tick + 1 :=
    Nat.lt_succ_of_le (dated.bounded e member)
  refine ⟨⟨?_, ?_⟩, ?_⟩
  · intro e member
    rcases List.mem_cons.mp member with rfl | member
    · exact le_refl _
    · exact (older e member).le
  · exact List.pairwise_cons.mpr ⟨fun e member => (older e member).le, dated.sorted⟩
  · intro e member feedback
    rcases List.mem_cons.mp member with rfl | member
    · cases feedback
    · exact older e member

theorem Apart.untold (a : Apart s t) (untold : Untold s) : Untold t := by
  obtain ⟨new, grown, other⟩ := a.history
  intro e member feedback
  rw [grown] at member
  rw [a.tick]
  rcases List.mem_append.mp member with later | earlier
  · rw [(other e later).2] at feedback
    cases feedback
  · exact untold e earlier feedback

end dates

namespace CognitiveCycle
variable [Field K] [LinearOrder K] [FloorRing K] {c : CognitiveCycle K ω}

/-- What an assertion about the feedback needs, where `C` holds before each APPRAISE. -/
structure FeedbackLaw (c : CognitiveCycle K ω) (I C : Mind K ω → Prop) : Prop where
  apart : ∀ {s t}, Apart s t → I s → I t
  enqueued : ∀ {s t} event, Enqueues event s t → I s → I t
  begun : ∀ s, I s → I (begun s)
  appraised : ∀ s r, I s → Dated s → Untold s → C s → Appraised c Frame.any s r → I r.2

omit [LinearOrder K] [FloorRing K] in
theorem Appraised.dated {W : Frame ω} {s : Mind K ω} {r : Except Failure Unit × Mind K ω}
    (ended : Appraised c W s r) (dated : Dated s) : Dated r.2 := by
  cases ended with
  | undriven _ after => exact after.apart.dated ⟨dated.bounded, dated.sorted⟩
  | raised _ _ => exact ⟨dated.bounded, dated.sorted⟩
  | stepped _ _ after =>
      refine after.apart.dated (dated.grow [_] rfl rfl fun x member => ?_)
      rw [List.mem_singleton.mp member]

variable {I C : Mind K ω → Prop}

/-- Before a pass: each APPRAISE it can reach is reached with `C`. -/
def Foreseen (c : CognitiveCycle K ω) (C : Mind K ω → Prop) (s : Mind K ω) : Prop :=
  ∀ s₁, c.awakening s = (.ok (), s₁) → C s₁

theorem FeedbackLaw.course (law : FeedbackLaw c I C) :
    TickCourse c Frame.any (fun s => (I s ∧ Dated s) ∧ Foreseen c C s)
      (fun s => (I s ∧ Dated s) ∧ Untold s ∧ C s) (fun s => I s ∧ Dated s)
      (fun s => I s ∧ Dated s) (fun s => I s ∧ Dated s) (fun s => I s ∧ Dated s)
      (fun s => I s ∧ Dated s) := by
  have stable (s t : Mind K ω) (a : Apart s t) (pre : I s ∧ Dated s) : I t ∧ Dated t :=
    ⟨law.apart a pre.1, a.dated pre.2⟩
  have done {p : Stage K ω Unit} (keeps : ∀ s, I s ∧ Dated s → I (p s).2 ∧ Dated (p s).2)
      (s : Mind K ω) (pre : I s ∧ Dated s) :
      Leaves (fun s => I s ∧ Dated s) (fun s => I s ∧ Dated s) (p s) :=
    ⟨fun _ => keeps s pre, keeps s pre⟩
  -- the assertion as a frame, so that it passes along the moves of a stage
  have kept (s : Mind K ω) {p : Stage K ω Unit} (moves : Prog.Within Fed p)
      (pre : I s ∧ Dated s) : I (p s).2 ∧ Dated (p s).2 := by
    refine moves.keeps (F := ⟨fun s t => I s ∧ Dated s → I t ∧ Dated t, fun _ => id,
      fun ab bc pre => bc (ab pre)⟩) ?_ s pre
    rintro s t (a | ⟨event, e⟩) pre
    · exact stable s t a pre
    · exact ⟨law.enqueued event e pre.1, e.dated pre.2⟩
  refine {
    awakened := ?_
    appraised := ?_
    deliberated := done fun s => kept s (fed_of_apart c.deliberate_apart)
    checked := done fun s => kept s (fed_of_apart c.check_apart)
    acted := done fun s => kept s c.act_fed
    stable₁ := fun s t l => stable s t l.apart
    stable₂ := fun s t l => stable s t l.apart
    stable₃ := fun s t l => stable s t l.apart
    stable := fun s t l => stable s t l.apart
    tiring := fun s n => stable s _ (.silent rfl rfl rfl rfl)
    weaken₁ := fun _ pre => pre
    weaken := fun _ pre => pre }
  · have awakened : Prog.Triple (fun s => I s ∧ Dated s) c.awakening
        (fun _ s => (I s ∧ Dated s) ∧ Untold s) (Cut fun s => I s ∧ Dated s) :=
      awakening_triple (Q := fun s => (I s ∧ Dated s) ∧ Untold s) c.confined_any
        (fun s pre => ⟨⟨law.begun s pre.1, (dated_begun pre.2).1⟩, (dated_begun pre.2).2⟩)
        (fun s t l pre => ⟨stable s t l.apart pre.1, l.apart.untold pre.2⟩) fun _ pre => pre.1
    refine .intro (fun s u t pre ran => ?_) fun s e t pre ran => awakened.of_error pre.1 ran
    have after := awakened.of_ok pre.1 ran
    exact ⟨after.1, after.2, pre.2 t ran⟩
  · intro s pre
    have ended := appraise_spec c.confined_any s
    have after : I (c.appraise s).2 ∧ Dated (c.appraise s).2 :=
      ⟨law.appraised s _ pre.1.1 pre.1.2 pre.2.1 pre.2.2 ended, ended.dated pre.1.2⟩
    exact ⟨fun _ => after, after⟩

theorem FeedbackLaw.beat (law : FeedbackLaw c I C) :
    BeatCourse c Frame.any (fun s => I s ∧ Dated s) (fun s => I s ∧ Dated s)
      (Foreseen c C) where
  tick := course_triple c.confined_any law.course
  sleep s s₁ _ _ pre := by
    have after := (maybeSleep_apart c).keeps (F := Johnny.apart) (fun _ _ a => a) s₁
    have kept : I (c.maybeSleep s₁).2 ∧ Dated (c.maybeSleep s₁).2 :=
      ⟨law.apart after pre.1, after.dated pre.2⟩
    exact ⟨fun _ => kept, kept⟩
  stable _ _ l pre := ⟨law.apart l.apart pre.1, l.apart.dated pre.2⟩
  weaken _ pre := pre

/-- The law holds wherever a run from a fresh Mind ends. -/
theorem FeedbackLaw.run (law : FeedbackLaw c I C) (turns : List (Turn K ω)) (world : ω)
    (start : I (c.fresh world))
    (cond : ∀ before after t, turns = before ++ .beat :: after →
      c.run before (c.fresh world) = (.ok (), t) → Foreseen c C t) :
    I (c.run turns (c.fresh world)).2 ∧ Dated (c.run turns (c.fresh world)).2 := by
  refine run_course c.confined_any.between law.beat ?_ (fun _ _ _ => trivial)
    ⟨start, List.forall_mem_nil _, List.Pairwise.nil⟩ cond
  intro result s pre
  have checked : Apart s (wakeChecked result s) :=
    ⟨rfl, rfl, rfl, [_], rfl, by simp [Happening.isFeedback]⟩
  exact ⟨law.apart checked pre.1, checked.dated pre.2⟩

end CognitiveCycle
end Johnny
