import Johnny.Brain.Cycle
import Johnny.Lib.Hoare

/-!
# What each stage of a tick can do

Most stages are quiet: they leave the goal, the action, the verdict and the agency
alone, and record feedback at most. DELIBERATE, CHECK and ACT get a specification
of their own.
-/
namespace Johnny
variable {K ω α : Type}

/-- Feedback to the drives, as against deliberating, gating, acting and sleeping. -/
def Happening.isFeedback : Happening K ω → Bool
  | .drivesStepped _ _ => true
  | .enqueued _ => true
  | _ => false

/-! ### Calls that keep a frame of the world -/

structure EffectorDispatch.Confined (d : EffectorDispatch K ω) (W : Frame ω) : Prop where
  complete : ∀ role messages, Prog.Keeps W (d.conscience.complete role messages)
  audit : ∀ r, Prog.Keeps W (d.audit r)
  broadcast : ∀ e, Prog.Keeps W (d.broadcast e)
  run : ∀ w, ∀ t ∈ (d.registry w).tools, ∀ args, Prog.Keeps W (t.run args)

structure SleepCycle.Confined (c : SleepCycle K ω) (W : Frame ω) : Prop where
  logOpen : ∀ trigger started, Prog.Keeps W (c.logOpen trigger started)
  logClose : ∀ id ended report, Prog.Keeps W (c.logClose id ended report)
  consolidate : Prog.Keeps W c.consolidate
  decay : ∀ now, Prog.Keeps W (c.decay now)
  refreshSelfModel : ∀ facts, Prog.Keeps W (c.refreshSelfModel facts)
  review : ∀ n, Prog.Keeps W (c.review n)
  snapshot : Prog.Keeps W c.snapshot
  stepDrives : ∀ events now, Prog.Keeps W (c.stepDrives events now)
  selfModelCurrent : Prog.Keeps W c.selfModelCurrent
  drivesCurrent : Prog.Keeps W c.drivesCurrent

/-- Every call of the cycle but those to Deliberation keeps the frame. -/
structure CognitiveCycle.Confined (c : CognitiveCycle K ω) (W : Frame ω) : Prop where
  broadcast : ∀ e, Prog.Keeps W (c.broadcast e)
  setContents : ∀ items, Prog.Keeps W (c.setContents items)
  sleepFn : ∀ interval, Prog.Keeps W (c.sleepFn interval)
  perception : ∀ p, c.perception = some p → Prog.Keeps W p
  attention : ∀ a, c.attention = some a →
    (∀ working percepts, Prog.Keeps W (a.select working percepts)) ∧
      ∀ bias, Prog.Keeps W (a.setBias bias)
  recaller : ∀ r, c.recaller = some r →
    (∀ focus, Prog.Keeps W (r.recallFor focus)) ∧ ∀ mood, Prog.Keeps W (r.setMood mood)
  narration : ∀ n, c.narration = some n →
    (∀ contents, Prog.Keeps W (n.narrate contents)) ∧ ∀ mood, Prog.Keeps W (n.setMood mood)
  learning : ∀ l, c.learning = some l → ∀ contents thought, Prog.Keeps W (l contents thought)
  drives : ∀ d, c.drives = some d → ∀ events, Prog.Keeps W (d.step events)
  affect : ∀ a, c.affect = some a → ∀ contents drives events,
    Prog.Keeps W (a contents drives events)
  workingMemory : ∀ m, c.workingMemory = some m →
    (∀ content kind salience, Prog.Keeps W (m.put content kind salience)) ∧
      Prog.Keeps W m.decay ∧ Prog.Keeps W m.contents
  fireDue : ∀ f, c.fireDue = some f → Prog.Keeps W f
  webConsolidator : ∀ w, c.webConsolidator = some w → ∀ tool output,
    Prog.Keeps W (w tool output)
  dispatch : ∀ d, c.dispatch = some d → d.Confined W
  sleepCycle : ∀ s, c.sleepCycle = some s → s.Confined W

/-- The calls that a pass makes between its tick and its sleep phase, and when it idles. -/
structure CognitiveCycle.Between (c : CognitiveCycle K ω) (W : Frame ω) : Prop where
  broadcast : ∀ e, Prog.Keeps W (c.broadcast e)
  sleepFn : ∀ interval, Prog.Keeps W (c.sleepFn interval)
  fireDue : ∀ f, c.fireDue = some f → Prog.Keeps W f

theorem CognitiveCycle.Confined.between {c : CognitiveCycle K ω} {W : Frame ω}
    (h : c.Confined W) : c.Between W := ⟨h.broadcast, h.sleepFn, h.fireDue⟩

theorem CognitiveCycle.confined_any (c : CognitiveCycle K ω) : c.Confined Frame.any := by
  constructor <;> intros <;> (try refine ⟨?_, ?_⟩) <;> (try constructor) <;> intros <;>
    first | trivial | exact fun _ => trivial

/-! ### Quiet stages -/

/-- What a quiet stage leaves as it was. -/
structure Quiet (W : Frame ω) (s t : Mind K ω) : Prop where
  world : W.rel s.world t.world
  tick : t.tick = s.tick
  fullAgency : t.fullAgency = s.fullAgency
  asleep : t.asleep = s.asleep
  goal : t.ctx.goal = s.ctx.goal
  action : t.ctx.action = s.ctx.action
  vetted : t.ctx.vetted = s.ctx.vetted
  history : ∃ new, t.history = new ++ s.history ∧
    ∀ e ∈ new, e.tick = s.tick ∧ e.what.isFeedback = true

def quiet (W : Frame ω) : Frame (Mind K ω) where
  rel := Quiet W
  refl s := ⟨W.refl _, rfl, rfl, rfl, rfl, rfl, rfl, [], rfl, List.forall_mem_nil _⟩
  trans := by
    intro a b c hab hbc
    refine ⟨W.trans hab.world hbc.world, hbc.tick.trans hab.tick,
      hbc.fullAgency.trans hab.fullAgency, hbc.asleep.trans hab.asleep, hbc.goal.trans hab.goal,
      hbc.action.trans hab.action, hbc.vetted.trans hab.vetted, ?_⟩
    obtain ⟨new, hb, hnew⟩ := hab.history
    obtain ⟨newer, hc, hnewer⟩ := hbc.history
    refine ⟨newer ++ new, by rw [hc, hb, List.append_assoc], ?_⟩
    intro e member
    rcases List.mem_append.mp member with later | earlier
    · exact ⟨(hnewer e later).1.trans hab.tick, (hnewer e later).2⟩
    · exact hnew e earlier

/-- Nothing of the above but the world changes. -/
theorem Quiet.silent {W : Frame ω} {s t : Mind K ω} (world : W.rel s.world t.world)
    (tick : t.tick = s.tick) (fullAgency : t.fullAgency = s.fullAgency)
    (asleep : t.asleep = s.asleep) (goal : t.ctx.goal = s.ctx.goal)
    (action : t.ctx.action = s.ctx.action) (vetted : t.ctx.vetted = s.ctx.vetted)
    (history : t.history = s.history) : Quiet W s t :=
  ⟨world, tick, fullAgency, asleep, goal, action, vetted, [], history, List.forall_mem_nil _⟩

abbrev QuietProg (W : Frame ω) (p : Stage K ω α) : Prop := Prog.Within (Quiet W) p

variable {W : Frame ω}

theorem QuietProg.keeps {p : Stage K ω α} (h : QuietProg W p) : Prog.Keeps (quiet W) p :=
  Prog.Within.keeps h fun _ _ q => q

/-! ### Light stages -/

/-- Quiet, and without feedback: only the world, the interval and the scratchpad change. -/
structure Light (W : Frame ω) (s t : Mind K ω) : Prop where
  world : W.rel s.world t.world
  goal : t.ctx.goal = s.ctx.goal
  action : t.ctx.action = s.ctx.action
  vetted : t.ctx.vetted = s.ctx.vetted
  rest : t = { s with world := t.world, nextInterval := t.nextInterval, ctx := t.ctx }

def light (W : Frame ω) : Frame (Mind K ω) where
  rel := Light W
  refl _ := ⟨W.refl _, rfl, rfl, rfl, rfl⟩
  trans := by
    intro a b c hab hbc
    refine ⟨W.trans hab.world hbc.world, hbc.goal.trans hab.goal, hbc.action.trans hab.action,
      hbc.vetted.trans hab.vetted, ?_⟩
    rw [hbc.rest, hab.rest]

theorem Light.quiet {s t : Mind K ω} (l : Light W s t) : Quiet W s t := by
  have rest := l.rest
  exact .silent l.world (by rw [rest]) (by rw [rest]) (by rw [rest]) l.goal l.action l.vetted
    (by rw [rest])

abbrev LightProg (W : Frame ω) (p : Stage K ω α) : Prop := Prog.Within (Light W) p

theorem LightProg.keeps {p : Stage K ω α} (h : LightProg W p) : Prog.Keeps (light W) p :=
  Prog.Within.keeps h fun _ _ l => l

theorem LightProg.quiet {p : Stage K ω α} (h : LightProg W p) : QuietProg W p :=
  Prog.Within.mono h fun _ _ l => l.quiet

namespace Mind

theorem outside_light {p : Prog Failure ω α} (h : Prog.Keeps W p) :
    LightProg W (outside (K := K) p) :=
  .zoom fun s => ⟨h s.world, rfl, rfl, rfl, rfl⟩

theorem outside_quiet {p : Prog Failure ω α} (h : Prog.Keeps W p) :
    QuietProg W (outside (K := K) p) := (outside_light h).quiet

theorem setCtx_light {f : CycleContext K ω → CycleContext K ω}
    (goal : ∀ c, (f c).goal = c.goal) (action : ∀ c, (f c).action = c.action)
    (vetted : ∀ c, (f c).vetted = c.vetted) : LightProg W (setCtx f) :=
  .modify fun s => ⟨W.refl _, goal s.ctx, action s.ctx, vetted s.ctx, rfl⟩

theorem setCtx_quiet {f : CycleContext K ω → CycleContext K ω}
    (goal : ∀ c, (f c).goal = c.goal) (action : ∀ c, (f c).action = c.action)
    (vetted : ∀ c, (f c).vetted = c.vetted) : QuietProg W (setCtx f) :=
  (setCtx_light goal action vetted).quiet

theorem note_quiet {what : Happening K ω} (feedback : what.isFeedback = true) :
    QuietProg W (note what) :=
  .modify fun s => ⟨W.refl _, rfl, rfl, rfl, rfl, rfl, rfl, [⟨s.tick, what⟩], rfl, by
    intro e member
    rw [List.mem_singleton.mp member]
    exact ⟨rfl, feedback⟩⟩

end Mind

namespace CognitiveCycle
open Mind
variable {c : CognitiveCycle K ω}

theorem stageError_light (stage message : String) :
    LightProg W (stageError stage message : Stage K ω Unit) :=
  setCtx_light (fun _ => rfl) (fun _ => rfl) fun _ => rfl

theorem emit_light (h : c.Confined W) (module type : String) (payload : Dict K)
    (owner : Option String) : LightProg W (c.emit module type payload owner) :=
  .rescue (outside_light (h.broadcast _)) fun _ => .onSome fun _ _ => stageError_light _ _

theorem emit_quiet (h : c.Confined W) (module type : String) (payload : Dict K)
    (owner : Option String) : QuietProg W (c.emit module type payload owner) :=
  (emit_light h module type payload owner).quiet

theorem enqueueDriveEvent_quiet (event : DriveEvent K) :
    QuietProg W (enqueueDriveEvent event : Stage K ω Unit) :=
  .bind (note_quiet rfl) fun _ =>
    .modify fun _ => .silent (W.refl _) rfl rfl rfl rfl rfl rfl rfl

theorem perceive_light (h : c.Confined W) : LightProg W c.perceive :=
  .onSome fun p wired => .bind (outside_light (h.perception p wired)) fun percepts =>
    .bind (setCtx_light (fun _ => rfl) (fun _ => rfl) fun _ => rfl) fun _ =>
      .forEach (fun _ => emit_light h _ _ _ _) percepts

theorem refreshWorkingMemory_light (h : c.Confined W) (percepts : List (WorkspaceItem K)) :
    LightProg W (c.refreshWorkingMemory percepts) := by
  unfold refreshWorkingMemory
  split
  · exact .pure _
  · next m wired =>
      obtain ⟨put, decay, contents⟩ := h.workingMemory m wired
      exact .bind (.forEach (fun _ => outside_light (put _ _ _)) percepts) fun _ =>
        .bind (outside_light decay) fun _ => outside_light contents

theorem selectContents_light (h : c.Confined W) (working percepts : List (WorkspaceItem K)) :
    LightProg W (c.selectContents working percepts) := by
  unfold selectContents
  split
  · next a wired => exact outside_light ((h.attention a wired).1 _ _)
  · exact .pure _

theorem attend_light (h : c.Confined W) : LightProg W c.attend :=
  .bind (.reads _) fun percepts => .bind (refreshWorkingMemory_light h percepts) fun working =>
    .bind (selectContents_light h working percepts) fun _ =>
    .bind (setCtx_light (fun _ => rfl) (fun _ => rfl) fun _ => rfl) fun _ =>
    .bind (outside_light (h.setContents _)) fun _ => emit_light h _ _ _ _

theorem recallStage_light [LinearOrder K] (h : c.Confined W) : LightProg W c.recallStage :=
  .onSome fun r wired => .bind (.reads _) fun _ =>
    .bind (outside_light ((h.recaller r wired).1 _)) fun _ =>
    .onlyIf fun _ => .bind (setCtx_light (fun _ => rfl) (fun _ => rfl) fun _ => rfl) fun _ =>
      .bind (outside_light (h.setContents _)) fun _ => emit_light h _ _ _ _

theorem narrate_light (h : c.Confined W) : LightProg W c.narrate :=
  .onSome fun n wired => .bind (.reads _) fun _ =>
    .bind (outside_light ((h.narration n wired).1 _)) fun _ =>
    .bind (setCtx_light (fun _ => rfl) (fun _ => rfl) fun _ => rfl) fun _ =>
      .onSome fun _ _ => .onlyIf fun _ => emit_light h _ _ _ _

theorem learn_light (h : c.Confined W) : LightProg W c.learn :=
  .onSome fun l wired => .bind (.reads _) fun _ => outside_light (h.learning l wired _ _)

theorem consolidateWebRead_light (h : c.Confined W) (tool : String) (output : Dict K) :
    LightProg W (c.consolidateWebRead tool output) := by
  unfold consolidateWebRead
  split
  · exact .pure _
  · next w wired => exact .rescue (outside_light (h.webConsolidator w wired _ _)) fun _ => .pure _

theorem settledBy_light (h : c.Confined W) (tool : Option String)
    (outcome : DispatchOutcome K) : LightProg W (c.settledBy tool outcome) := by
  unfold settledBy
  dsimp only
  split
  · split
    · exact consolidateWebRead_light h _ _
    · exact .pure _
  · exact .pure _

theorem dispatchAction_light (h : c.Confined W) (payload : Dict K) :
    LightProg W (c.dispatchAction payload) := outside_light (h.broadcast _)

theorem collectEvents_quiet [One K] :
    QuietProg W (collectEvents : Stage K ω (List (DriveEvent K))) :=
  .bind (.reads _) fun _ =>
    .bind (.modify fun _ => .silent (W.refl _) rfl rfl rfl rfl rfl rfl rfl) fun _ => .pure _

section appraisal
variable [Field K] [LinearOrder K] [FloorRing K]

theorem broadcastDrives_light (h : c.Confined W) : LightProg W c.broadcastDrives :=
  .bind (.reads _) fun ctx => .bind (emit_light h _ _ _ _) fun _ =>
    .forEach (fun _ => emit_light h _ _ _ _) ctx.urges

theorem stepDrives_quiet (h : c.Confined W) : QuietProg W c.stepDrives :=
  .onSome fun d wired => .bind (.reads _) fun _ => .bind (outside_quiet (h.drives d wired _)) fun _ =>
    .bind (note_quiet rfl) fun _ =>
    .bind (setCtx_quiet (fun _ => rfl) (fun _ => rfl) fun _ => rfl) fun _ =>
    .bind (.modify fun _ => .silent (W.refl _) rfl rfl rfl rfl rfl rfl rfl) fun _ =>
      (broadcastDrives_light h).quiet

theorem appraiseMood_light (h : c.Confined W) : LightProg W c.appraiseMood :=
  .onSome fun a wired => .bind (.reads _) fun _ =>
    .bind (outside_light (h.affect a wired _ _ _)) fun _ =>
    .bind (setCtx_light (fun _ => rfl) (fun _ => rfl) fun _ => rfl) fun _ => emit_light h _ _ _ _

theorem applyAffectiveContext_light (h : c.Confined W) : LightProg W c.applyAffectiveContext :=
  .bind (.reads _) fun _ =>
    .bind (.onSome fun a wired => outside_light ((h.attention a wired).2 _)) fun _ =>
    .bind (.onSome fun r wired => outside_light ((h.recaller r wired).2 _)) fun _ =>
      .onSome fun n wired => outside_light ((h.narration n wired).2 _)

/-- What APPRAISE does once the drives stepped. -/
theorem afterDrives_light (h : c.Confined W) :
    LightProg W (c.appraiseMood >>= fun _ => c.applyAffectiveContext >>= fun _ =>
      Prog.modify fun s => { s with nextInterval := c.modulateInterval s.ctx.mood s.ctx.drives }) :=
  .bind (appraiseMood_light h) fun _ => .bind (applyAffectiveContext_light h) fun _ =>
    .modify fun _ => ⟨W.refl _, rfl, rfl, rfl, rfl⟩

theorem appraise_quiet (h : c.Confined W) : QuietProg W c.appraise :=
  .bind collectEvents_quiet fun _ =>
    .bind (setCtx_quiet (fun _ => rfl) (fun _ => rfl) fun _ => rfl) fun _ =>
    .bind (stepDrives_quiet h) fun _ => (afterDrives_light h).quiet

theorem broadcastState_light (h : c.Confined W) : LightProg W c.broadcastState :=
  .bind (.reads _) fun _ => emit_light h _ _ _ _

end appraisal
end CognitiveCycle
end Johnny
