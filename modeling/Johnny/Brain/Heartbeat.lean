import Johnny.Brain.Gates
import Johnny.Brain.SleepExit

/-!
# Rules for ticks, passes and runs

An assertion that quiet stages keep is carried through a tick by what it needs of
DELIBERATE, CHECK and ACT, and through a run by what it needs of the ticks, the
sleeps and the wake checks. Stages isolate every failure but cancellation, so a
tick raises nothing else.
-/
namespace Johnny

/-! ### The world through a sleep -/

namespace SleepCycle
variable {K ω α : Type} {W : Frame ω}

/-- The world moves within the frame, whatever becomes of the Mind and the locals. -/
def worldFrame (W : Frame ω) : Frame (Mind K ω × SleepLocals K) where
  rel s t := W.rel s.1.world t.1.world
  refl s := W.refl s.1.world
  trans hab hbc := W.trans hab hbc

theorem setLocals_world (f : SleepLocals K → SleepLocals K) :
    Prog.Within (worldFrame W).rel (setLocals f : Sleeping K ω Unit) :=
  .modify fun s => W.refl s.1.world

theorem inMind_world {p : Prog Failure ω α} (h : Prog.Keeps W p) :
    Prog.Within (worldFrame W).rel (inMind (Mind.outside (K := K) p)) :=
  .zoom fun s => h s.1.world

theorem stage_world (name : String) {p : Stage K ω α}
    (h : Prog.Within (worldFrame W).rel (inMind p)) :
    Prog.Within (worldFrame W).rel (stage name p) :=
  .rescue (.bind h fun _ => .pure _) fun _ => .bind (setLocals_world _) fun _ =>
    .bind (setLocals_world _) fun _ => .pure _

section pipeline
variable [Field K] [LinearOrder K] {c : SleepCycle K ω}

omit [LinearOrder K] in
theorem offline_world (h : c.Confined W) (started : K) (degradedTicks : ℕ) :
    Prog.Within (worldFrame W).rel (c.offline started degradedTicks) :=
  .bind (stage_world _ (inMind_world h.consolidate)) fun facts =>
    .bind (setLocals_world _) fun _ => .bind (.onlyIf fun _ => setLocals_world _) fun _ =>
    .bind (stage_world _ (inMind_world (h.decay started))) fun _ =>
    .bind (.onSome fun _ _ => setLocals_world _) fun _ =>
    .bind (stage_world _ (inMind_world (h.refreshSelfModel (facts.getD [])))) fun _ =>
    .bind (.onSome fun _ _ => setLocals_world _) fun _ =>
    .bind (stage_world _ (inMind_world (h.review degradedTicks))) fun _ =>
    .bind (.onSome fun _ _ => setLocals_world _) fun _ =>
    .bind (stage_world _ (inMind_world h.snapshot)) fun _ =>
    .bind (setLocals_world _) fun _ =>
    .bind (stage_world _ (inMind_world (h.stepDrives _ started))) fun _ => .pure _

theorem verify_world (h : c.Confined W) : Prog.Keeps W c.verify :=
  Prog.Within.keeps (M := W.rel) (F := W)
    (.bind (fun s => .single (h.selfModelCurrent s)) fun _ =>
      .bind (fun s => .single (h.drivesCurrent s)) fun _ => .pure _)
    fun _ _ moved => moved

theorem selfCheck_world (h : c.Confined W) : Prog.Within (worldFrame W).rel c.selfCheck := by
  have verified : Prog.Within (worldFrame W).rel (inMind
      (Mind.noting (Mind.outside c.verify) fun r => Happening.selfChecked (K := K) (passed r))) := by
    refine .zoom fun s => ?_
    rw [Mind.noting_apply]
    exact verify_world h s.1.world
  exact .bind (stage_world _ verified) fun _ => .bind (setLocals_world _) fun _ =>
    .onSome fun _ _ => .onlyIf fun _ => setLocals_world _

theorem sleep_world (h : c.Confined W) (trigger : SleepTrigger) (now : Option K)
    (degradedTicks : ℕ) (s : Mind K ω) :
    W.rel s.world (c.sleep trigger now degradedTicks s).2.world := by
  have pipeline (started : K) :
      Prog.Within (worldFrame W).rel (c.pipeline trigger started degradedTicks) :=
    .bind (inMind_world (h.logOpen trigger started)) fun _ => .bind (setLocals_world _) fun _ =>
      .bind (offline_world h started degradedTicks) fun _ => selfCheck_world h
  have wake : Prog.Within (worldFrame W).rel c.wake :=
    .bind (.reads _) fun report => .bind (setLocals_world _) fun _ => .bind (.reads _) fun _ =>
      .bind (.onSome fun id _ => inMind_world (h.logClose id _ _)) fun _ =>
        .zoom fun s => W.refl s.1.world
  cases asleep : s.asleep with
  | true =>
      rw [sleep_busy c trigger now degradedTicks asleep]
      exact W.refl _
  | false =>
      rw [sleep_awake c trigger now degradedTicks asleep]
      have body : Prog.Within (worldFrame W).rel
          (Prog.ensure (c.pipeline trigger (c.startOf now s) degradedTicks) c.wake >>= fun _ =>
            Prog.reads fun s => some s.2.report) :=
        .bind (.ensure (pipeline _) wake) fun _ => .reads _
      exact body.keeps (F := worldFrame W) (fun _ _ moved => moved) (c.entering trigger now s)

end pipeline
end SleepCycle
/-! ### One tick -/

namespace CognitiveCycle
variable {K ω α : Type} {W : Frame ω} {c : CognitiveCycle K ω}

/-- `Q` holds after every end but a cancellation, and `E` after every end. -/
def Leaves (Q E : Mind K ω → Prop) (r : Except Failure α × Mind K ω) : Prop :=
  (r.1 ≠ .error .cancelled → Q r.2) ∧ E r.2

/-- The assertion survives what quiet stages do. -/
def Stable (W : Frame ω) (P : Mind K ω → Prop) : Prop := ∀ s t, Quiet W s t → P s → P t

/-- What a tick or a stage can leave behind when it raises. -/
abbrev Cut (E : Mind K ω → Prop) (e : Failure) (s : Mind K ω) : Prop := e = .cancelled ∧ E s

variable {P Q E : Mind K ω → Prop}

theorem stage_triple {fn : Stage K ω Unit} (name : String)
    (stable : ∀ s t, Light W s t → Q s → Q t)
    (body : ∀ s, P s → Leaves Q E (fn s)) :
    Prog.Triple P (stage name fn) (fun _ => Q) (Cut E) := by
  refine .rescue (R := fun e s => (e ≠ .cancelled → Q s) ∧ E s) ?_ ?_ ?_
  · refine .intro (fun s _ t pre ran => ?_) (fun s e t pre ran => ?_)
    · have left := body s pre
      rw [ran] at left
      exact left.1 nofun
    · have left := body s pre
      rw [ran] at left
      exact ⟨fun other => left.1 fun same => other (by cases same; rfl), left.2⟩
  · intro e caught s left
    refine stable s _ ((stageError_light name e.describe).keeps s) (left.1 ?_)
    rintro rfl
    cases caught
  · intro e s passed left
    cases e with
    | exception cls text => cases passed
    | cancelled => exact ⟨rfl, left.2⟩

/-- Emitting isolates every failure but cancellation. -/
theorem emit_triple (h : c.Confined W) (stable : ∀ s t, Light W s t → P s → P t)
    (weaken : ∀ s, P s → E s)
    (module type : String) (payload : Dict K) (owner : Option String) :
    Prog.Triple P (c.emit module type payload owner) (fun _ => P) (Cut E) := by
  have called (e : Failure) (s t : Mind K ω) (pre : P s)
      (raised : Mind.outside (c.broadcast { module := module, type := type, payload := payload }) s
        = (.error e, t)) : P t := by
    have moved := (Mind.outside_light (K := K) (h.broadcast
      { module := module, type := type, payload := payload })).keeps s
    rw [raised] at moved
    exact stable s t moved pre
  refine .rescue (R := fun _ => P) ?_ ?_ ?_
  · refine .intro (fun s _ t pre ran => ?_) (fun s e t pre ran => called e s t pre ran)
    have moved := (Mind.outside_light (K := K) (h.broadcast
      { module := module, type := type, payload := payload })).keeps s
    rw [ran] at moved
    exact stable s t moved pre
  · intro e _ s pre
    cases owner with
    | none => exact pre
    | some name => exact stable s _ ((stageError_light name _).keeps s) pre
  · intro e s passed pre
    cases e with
    | exception cls text => cases passed
    | cancelled => exact ⟨rfl, weaken s pre⟩

/-- The state in which the stages of the next tick start. -/
def begun (s : Mind K ω) : Mind K ω :=
  { s with
    tick := s.tick + 1, ctx := { tick := s.tick + 1 }
    history := ⟨s.tick + 1, .began s.fullAgency⟩ :: s.history }

section tick
variable [Field K] [LinearOrder K] [FloorRing K]

/-- The part of a tick before APPRAISE. -/
def awakening (c : CognitiveCycle K ω) : Stage K ω Unit := do
  beginTick
  let number ← Prog.reads Mind.tick
  c.emit "cycle" "cycle.tick" [("tick", .int number)] none
  stage "perceive" c.perceive

/-- The end of a tick, after its stages. -/
def reporting : Stage K ω TickReport := do
  let ctx ← Prog.reads Mind.ctx
  Prog.onlyIf (ctx.stageErrors.length ≠ 0)
    (Prog.modify fun s => { s with degradedTicks := s.degradedTicks + 1 })
  pure ⟨ctx.tick, ctx.percepts.length, ctx.contents.length, ctx.thought, ctx.stageErrors⟩

theorem tick_parts (c : CognitiveCycle K ω) : c.tick = c.awakening >>= fun _ =>
    (Prog.forEach c.stages.tail fun entry => stage entry.1 entry.2) >>= fun _ => reporting := by
  have split : c.tick = (beginTick >>= fun _ => Prog.reads Mind.tick >>= fun number =>
      c.emit "cycle" "cycle.tick" [("tick", .int number)] none >>= fun _ =>
      (stage "perceive" c.perceive >>= fun _ =>
        Prog.forEach c.stages.tail fun entry => stage entry.1 entry.2) >>= fun _ =>
      reporting) := rfl
  unfold awakening
  rw [split]
  simp only [Prog.bind_assoc']

/-- What must hold before APPRAISE, and after it and each gate, in a tick that ends in `Q`. -/
structure TickCourse (c : CognitiveCycle K ω) (W : Frame ω)
    (P P₀ P₁ P₂ P₃ Q E : Mind K ω → Prop) : Prop where
  awakened : Prog.Triple P c.awakening (fun _ => P₀) (Cut E)
  appraised : ∀ s, P₀ s → Leaves P₁ E (c.appraise s)
  deliberated : ∀ s, P₁ s → Leaves P₂ E (c.deliberate s)
  checked : ∀ s, P₂ s → Leaves P₃ E (c.check s)
  acted : ∀ s, P₃ s → Leaves Q E (c.act s)
  stable₁ : ∀ s t, Light W s t → P₁ s → P₁ t
  stable₂ : ∀ s t, Light W s t → P₂ s → P₂ t
  stable₃ : ∀ s t, Light W s t → P₃ s → P₃ t
  stable : ∀ s t, Light W s t → Q s → Q t
  tiring : ∀ s n, Q s → Q { s with degradedTicks := n }
  weaken₁ : ∀ s, P₁ s → E s
  weaken : ∀ s, Q s → E s

omit [Field K] [LinearOrder K] [FloorRing K] in
/-- A light stage keeps what is stable under light changes. -/
theorem light_triple {fn : Stage K ω Unit} (name : String) (h : LightProg W fn)
    (stable : ∀ s t, Light W s t → P s → P t) (weaken : ∀ s, P s → E s) :
    Prog.Triple P (stage name fn) (fun _ => P) (Cut E) := by
  refine stage_triple name stable fun s pre => ?_
  have after : P (fn s).2 := stable s _ (h.keeps s) pre
  exact ⟨fun _ => after, weaken _ after⟩

omit [Field K] [LinearOrder K] [FloorRing K] in
theorem awakening_triple (h : c.Confined W) (began : ∀ s, P s → Q (begun s))
    (stable : ∀ s t, Light W s t → Q s → Q t) (weaken : ∀ s, Q s → E s) :
    Prog.Triple P c.awakening (fun _ => Q) (Cut E) :=
  .bind (Q := fun _ => Q) (fun s pre => began s pre) fun _ =>
    .bind (Q := fun _ => Q) (fun _ pre => pre) fun _ =>
    .bind (emit_triple h stable weaken _ _ _ _) fun _ =>
      light_triple _ (perceive_light h) stable weaken

theorem course_triple {P P₀ P₁ P₂ P₃ Q E : Mind K ω → Prop} (h : c.Confined W)
    (course : TickCourse c W P P₀ P₁ P₂ P₃ Q E) :
    Prog.Triple P c.tick (fun _ => Q) (Cut E) := by
  have early {fn : Stage K ω Unit} (name : String) (l : LightProg W fn) :
      Prog.Triple P₁ (stage name fn) (fun _ => P₁) (Cut E) :=
    light_triple name l course.stable₁ course.weaken₁
  have late {fn : Stage K ω Unit} (name : String) (l : LightProg W fn) :
      Prog.Triple Q (stage name fn) (fun _ => Q) (Cut E) :=
    light_triple name l course.stable course.weaken
  have staged : Prog.Triple P₀ (Prog.forEach c.stages.tail fun entry => stage entry.1 entry.2)
      (fun _ => Q) (Cut E) :=
    .bind (stage_triple _ course.stable₁ course.appraised) fun _ =>
    .bind (early _ (attend_light h)) fun _ => .bind (early _ (recallStage_light h)) fun _ =>
    .bind (early _ (narrate_light h)) fun _ =>
    .bind (stage_triple _ course.stable₂ course.deliberated) fun _ =>
    .bind (stage_triple _ course.stable₃ course.checked) fun _ =>
    .bind (stage_triple _ course.stable course.acted) fun _ =>
    .bind (late _ (learn_light h)) fun _ => .bind (late _ (broadcastState_light h)) fun _ =>
      .pure fun _ done => done
  rw [tick_parts]
  refine .bind course.awakened fun _ => .bind staged fun _ =>
    .bind (Q := fun _ => Q) (fun s done => done) fun ctx => .bind (Q := fun _ => Q) ?_ fun _ =>
      .pure fun _ done => done
  unfold Prog.onlyIf
  split
  · intro s done
    exact course.tiring s _ done
  · exact .pure fun _ done => done

/-- What must hold between the stages of a tick that ends in `Q`. -/
structure TickPlan (c : CognitiveCycle K ω) (W : Frame ω)
    (P P₀ P₁ P₂ Q E : Mind K ω → Prop) : Prop where
  began : ∀ s, P s → P₀ (begun s)
  deliberated : ∀ s r, P₀ s → Deliberated c W s r → Leaves P₁ E r
  checked : ∀ s r, P₁ s → Checked c W s r → Leaves P₂ E r
  acted : ∀ s r, P₂ s → Acted c W s r → Leaves Q E r
  stable₀ : Stable W P₀
  stable₁ : Stable W P₁
  stable₂ : Stable W P₂
  stable : Stable W Q
  weaken₀ : ∀ s, P₀ s → E s
  weaken : ∀ s, Q s → E s

theorem tick_triple {P P₀ P₁ P₂ Q E : Mind K ω → Prop} (h : c.Confined W)
    (plan : TickPlan c W P P₀ P₁ P₂ Q E) :
    Prog.Triple P c.tick (fun _ => Q) (Cut E) := by
  have course : TickCourse c W P P₀ P₀ P₁ P₂ Q E := {
    awakened := awakening_triple h plan.began (fun s t l => plan.stable₀ s t l.quiet) plan.weaken₀
    appraised := fun s pre =>
      have after := plan.stable₀ s _ ((appraise_quiet h).keeps s) pre
      ⟨fun _ => after, plan.weaken₀ _ after⟩
    deliberated := fun s pre => plan.deliberated s _ pre (deliberate_spec h s)
    checked := fun s pre => plan.checked s _ pre (check_spec h.dispatch s)
    acted := fun s pre => plan.acted s _ pre (act_spec h s)
    stable₁ := fun s t l => plan.stable₀ s t l.quiet
    stable₂ := fun s t l => plan.stable₁ s t l.quiet
    stable₃ := fun s t l => plan.stable₂ s t l.quiet
    stable := fun s t l => plan.stable s t l.quiet
    tiring := fun s _ => plan.stable s _ (.silent (W.refl _) rfl rfl rfl rfl rfl rfl rfl)
    weaken₁ := plan.weaken₀
    weaken := plan.weaken }
  exact course_triple h course

/-! ### Between ticks -/

/-- What the cycle takes over from the report of a sleep. -/
def applied (report : SleepReport K) (s : Mind K ω) : Mind K ω :=
  { s with lastSleep := some report, degradedTicks := 0, fullAgency := report.selfCheckOk }

/-- How the sleep phase can end from `s`. -/
inductive Slept (c : CognitiveCycle K ω) (W : Frame ω) (s : Mind K ω) :
    Except Failure Unit × Mind K ω → Prop
  | quietly {r t} (quiet : Quiet W s t) : Slept c W s (r, t)
  | raised {sc trigger s₁ e s₂} (wired : c.sleepCycle = some sc) (before : Quiet W s s₁)
      (tiring : s₁.degradedTicks = s.degradedTicks) (triggered :
        sc.sleepTrigger s s.lastUrges s.tick = some trigger)
      (announced : c.emitSleepTransition true s = (.ok (), s₁))
      (moved : W.rel s₁.world s₂.world)
      (ended : sc.SleepEnded trigger none s₁.degradedTicks s₁ (.error e, s₂)) :
      Slept c W s (.error e, s₂)
  | woke {sc trigger s₁ report s₂ r t} (wired : c.sleepCycle = some sc) (before : Quiet W s s₁)
      (moved : W.rel s₁.world s₂.world)
      (ended : sc.SleepEnded trigger none s₁.degradedTicks s₁ (.ok (some report), s₂))
      (after : Quiet W (applied report s₂) t) : Slept c W s (r, t)

theorem emitSleepTransition_light (h : c.Confined W) (asleep : Bool) :
    LightProg W (c.emitSleepTransition asleep) :=
  .bind (.reads _) fun _ => Mind.outside_light (h.broadcast _)

omit [Field K] [LinearOrder K] [FloorRing K] in
theorem emitDegradedAlert_light (h : c.Between W) (failures : Json K) (source : String) :
    LightProg W (c.emitDegradedAlert failures source) := Mind.outside_light (h.broadcast _)

omit [Field K] [LinearOrder K] [FloorRing K] in
theorem sleepTrigger_awake {sc : SleepCycle K ω} {s : Mind K ω} {urges : List (Urge K)}
    {tick : ℕ} {trigger : SleepTrigger} (h : sc.sleepTrigger s urges tick = some trigger) :
    s.asleep = false := by
  unfold SleepCycle.sleepTrigger at h
  cases asleep : s.asleep with
  | false => rfl
  | true =>
      rw [asleep] at h
      cases h

theorem maybeSleep_spec (h : c.Confined W) (s : Mind K ω) : Slept c W s (c.maybeSleep s) := by
  unfold maybeSleep
  cases wired : c.sleepCycle with
  | none => exact .quietly ((quiet W).refl s)
  | some sc =>
      rw [Prog.onSome_some, Prog.reads_bind]
      cases triggered : sc.sleepTrigger s s.lastUrges s.tick with
      | none => exact .quietly ((quiet W).refl s)
      | some trigger =>
          rw [Prog.onSome_some]
          have before : Quiet W s (c.emitSleepTransition true s).2 :=
            (emitSleepTransition_light h true).quiet.keeps s
          have tiring : (c.emitSleepTransition true s).2.degradedTicks = s.degradedTicks := rfl
          rcases announced : c.emitSleepTransition true s with ⟨r, s₁⟩
          rw [announced] at before tiring
          cases r with
          | error e =>
              rw [Prog.bind_of_error announced]
              exact .quietly before
          | ok _ =>
              rw [Prog.bind_of_ok announced, Prog.reads_bind]
              have awake : s₁.asleep = false :=
                before.asleep.trans (sleepTrigger_awake triggered)
              have ended := SleepCycle.sleep_ended sc trigger none s₁.degradedTicks awake
              have moved := SleepCycle.sleep_world (h.sleepCycle sc wired) trigger none
                s₁.degradedTicks s₁
              have busy := SleepCycle.sleep_not_busy sc trigger none s₁.degradedTicks awake
              rcases slept : sc.sleep trigger none s₁.degradedTicks s₁ with ⟨r, s₂⟩
              rw [slept] at ended moved busy
              cases r with
              | error e =>
                  rw [Prog.bind_of_error slept]
                  exact .raised wired before tiring triggered announced moved ended
              | ok report =>
                  cases report with
                  | none => exact absurd rfl busy
                  | some report =>
                      rw [Prog.bind_of_ok slept, Prog.onSome_some]
                      have rest : QuietProg W (Prog.onlyIf (report.selfCheckOk = false)
                          (c.alertDegraded report) >>= fun _ => c.emitSleepTransition false) :=
                        .bind (.onlyIf fun _ => (emitDegradedAlert_light h.between _ _).quiet) fun _ =>
                          (emitSleepTransition_light h false).quiet
                      unfold applyReport
                      rw [Prog.bind_assoc', Prog.modify_bind]
                      exact .woke wired before moved ended (rest.keeps (applied report s₂))

/-! ### Passes and runs -/

/-- The part of a pass before the sleep phase. -/
def waking (c : CognitiveCycle K ω) : Stage K ω Unit := do
  let _ ← c.tick
  c.fireDueWakeups

/-- What a pass of the run loop needs to keep `I`, where `C` holds before it. -/
structure BeatCourse (c : CognitiveCycle K ω) (W : Frame ω) (I E C : Mind K ω → Prop) :
    Prop where
  tick : Prog.Triple (fun s => I s ∧ C s) c.tick (fun _ => I) (Cut E)
  sleep : ∀ s s₁, C s → c.waking s = (.ok (), s₁) → I s₁ → Leaves I E (c.maybeSleep s₁)
  stable : ∀ s t, Light W s t → I s → I t
  weaken : ∀ s, I s → E s

variable {I E C : Mind K ω → Prop}

theorem waking_triple (h : c.Between W) (course : BeatCourse c W I E C) :
    Prog.Triple (fun s => I s ∧ C s) c.waking (fun _ => I) (Cut E) := by
  refine .bind course.tick fun _ => ?_
  unfold fireDueWakeups
  cases wired : c.fireDue with
  | none => exact .pure fun _ inv => inv
  | some fire =>
      have kept : Prog.Keeps (light W) (Mind.outside (K := K) fire) :=
        (Mind.outside_light (h.fireDue fire wired)).keeps
      refine .rescue (Prog.Triple.of_keeps kept fun s t inv moved => course.stable s t moved inv)
        (fun e _ => .pure fun _ inv => inv) ?_
      intro e s passed inv
      cases e with
      | exception cls text => cases passed
      | cancelled => exact ⟨rfl, course.weaken s inv⟩

theorem beat_triple (h : c.Between W) (course : BeatCourse c W I E C) :
    Prog.Triple (fun s => I s ∧ C s) c.beat (fun _ => I) (fun _ => E) := by
  have sleeping (f : K → K) :
      Prog.Triple I (Prog.reads Mind.nextInterval >>= fun interval =>
        Mind.outside (K := K) (c.sleepFn (f interval))) (fun _ => I) (fun _ => I) := by
    have kept : LightProg W (Prog.reads Mind.nextInterval >>= fun interval =>
        Mind.outside (K := K) (c.sleepFn (f interval))) :=
      .bind (.reads _) fun _ => Mind.outside_light (h.sleepFn _)
    exact Prog.Triple.of_keeps kept.keeps fun s t inv moved => course.stable s t moved inv
  refine .rescue (R := fun e s => (e ≠ .cancelled → I s) ∧ E s) ?_ ?_ ?_
  · intro s pre
    have regroup : (do
        let _ ← c.tick
        c.fireDueWakeups
        c.maybeSleep
        let interval ← Prog.reads Mind.nextInterval
        Mind.outside (c.sleepFn interval)) =
        c.waking >>= fun _ => c.maybeSleep >>= fun _ =>
          Prog.reads Mind.nextInterval >>= fun interval => Mind.outside (c.sleepFn interval) := by
      unfold waking
      rw [Prog.bind_assoc']
    rw [regroup]
    rcases woken : c.waking s with ⟨r, s₁⟩
    cases r with
    | error e =>
        rw [Prog.bind_of_error woken]
        obtain ⟨rfl, cut⟩ := (waking_triple h course).of_error pre woken
        exact ⟨fun other => absurd rfl other, cut⟩
    | ok _ =>
        rw [Prog.bind_of_ok woken]
        have inv := (waking_triple h course).of_ok pre woken
        have left := course.sleep s s₁ pre.2 woken inv
        rcases slept : c.maybeSleep s₁ with ⟨r, s₂⟩
        rw [slept] at left
        cases r with
        | error e =>
            rw [Prog.bind_of_error slept]
            exact ⟨fun other => left.1 fun same => other (by cases same; rfl), left.2⟩
        | ok _ =>
            rw [Prog.bind_of_ok slept]
            refine ((sleeping id).mono (fun _ pre => pre) (fun _ _ post => post)
              fun e t inv => ⟨fun _ => inv, course.weaken t inv⟩) s₂ (left.1 nofun)
  · intro e caught
    refine ((sleeping fun interval => max interval errorBackoff).mono ?_ (fun _ _ post => post)
      fun _ t inv => course.weaken t inv)
    intro s left
    refine left.1 ?_
    rintro rfl
    cases caught
  · intro e s _ left
    exact left.2

/-- The state in which an applied wake check broadcasts its alert. -/
def wakeChecked (result : CheckResult) (s : Mind K ω) : Mind K ω :=
  { s with
    fullAgency := result.ok
    history := ⟨s.tick, .wakeChecked result.ok⟩ :: s.history }

/-- An invariant through a run: `I` between turns, and `E` wherever the run stops. -/
theorem run_course (h : c.Between W) (course : BeatCourse c W I E C)
    (wake : ∀ result s, I s → I (wakeChecked result s)) {turns : List (Turn K ω)}
    (others : ∀ change, .elsewhere change ∈ turns → ∀ w, W.rel w (change w)) {s : Mind K ω}
    (pre : I s)
    (cond : ∀ before after t, turns = before ++ .beat :: after →
      c.run before s = (.ok (), t) → C t) : E (c.run turns s).2 := by
  refine Prog.forEach_of (P := I) (f := c.turn)
    (C := fun turn s => (turn = .beat → C s) ∧
      ∀ change, turn = .elsewhere change → ∀ w, W.rel w (change w))
    ?_ course.weaken turns pre ?_
  · rintro (_ | result | change)
    · exact (beat_triple h course).mono (fun s pre => ⟨pre.1, pre.2.1 rfl⟩) (fun _ _ post => post)
        fun _ _ raised => raised
    · intro s pre
      have alerted : LightProg W (Prog.onlyIf (result.ok = false)
          (c.emitDegradedAlert (.arr (result.failures.map fun f => .str f.check)) "startup")) :=
        .onlyIf fun _ => emitDegradedAlert_light h _ _
      have kept : I (c.turn (.wakeCheck result) s).2 :=
        course.stable _ _ (alerted.keeps (wakeChecked result s)) (wake result s pre.1)
      rcases ran : c.turn (.wakeCheck result) s with ⟨r, t⟩
      rw [ran] at kept
      cases r with
      | ok _ => exact kept
      | error e => exact course.weaken t kept
    · intro s pre
      exact course.stable s _ ⟨pre.2.2 change rfl _, rfl, rfl, rfl, rfl⟩ pre.1
  · intro before turn after t split reached
    refine ⟨?_, ?_⟩
    · rintro rfl
      exact cond before after t split reached
    · rintro change rfl
      exact others change (by rw [split]; exact List.mem_append_right _ List.mem_cons_self)

/-- What a pass needs where quiet changes keep `I`, from how its sleep phase can end. -/
structure BeatPlan (c : CognitiveCycle K ω) (W : Frame ω) (I E C : Mind K ω → Prop) :
    Prop where
  tick : Prog.Triple (fun s => I s ∧ C s) c.tick (fun _ => I) (Cut E)
  sleep : ∀ s s₁ r, C s → c.waking s = (.ok (), s₁) → I s₁ → Slept c W s₁ r →
    Leaves I E r
  stable : Stable W I
  weaken : ∀ s, I s → E s

theorem run_invariant (h : c.Confined W) (plan : BeatPlan c W I E C)
    (wake : ∀ result s, I s → I (wakeChecked result s)) {turns : List (Turn K ω)}
    (others : ∀ change, .elsewhere change ∈ turns → ∀ w, W.rel w (change w)) {s : Mind K ω}
    (pre : I s)
    (cond : ∀ before after t, turns = before ++ .beat :: after →
      c.run before s = (.ok (), t) → C t) : E (c.run turns s).2 := by
  refine run_course h.between (I := I) (C := C) ?_ wake others pre cond
  exact ⟨plan.tick, fun s s₁ cond woken inv => plan.sleep s s₁ _ cond woken inv (maybeSleep_spec h s₁),
    fun s t l => plan.stable s t l.quiet, plan.weaken⟩

end tick
end CognitiveCycle
end Johnny
