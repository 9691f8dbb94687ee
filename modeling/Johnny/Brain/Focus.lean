import Johnny.Brain.Feedback

/-!
# What a tick perceives and attends to

PERCEIVE writes the percepts, ATTEND and RECALL the contents, and LEARN reads them. Every
other stage leaves both alone, so an assertion about them is carried through a tick by
what it needs of these four.
-/
namespace Johnny
variable {K ω α : Type} {W : Frame ω}

/-- The tool that was vetted, if any, keeps the frame. -/
def Vetted (W : Frame ω) (s : Mind K ω) : Prop :=
  ∀ v, s.ctx.vetted = some v → ∀ args, Prog.Keeps W (v.tool.run args)

/-- The percepts and the contents stay, and the world moves within the frame. -/
structure Focused (W : Frame ω) (s t : Mind K ω) : Prop where
  world : W.rel s.world t.world
  percepts : t.ctx.percepts = s.ctx.percepts
  contents : t.ctx.contents = s.ctx.contents
  vetted : Vetted W s → Vetted W t

def focused (W : Frame ω) : Frame (Mind K ω) where
  rel := Focused W
  refl s := ⟨W.refl s.world, rfl, rfl, id⟩
  trans ab bc := ⟨W.trans ab.world bc.world, bc.percepts.trans ab.percepts,
    bc.contents.trans ab.contents, fun vetted => bc.vetted (ab.vetted vetted)⟩

/-- Neither the scratchpad nor the world changes. -/
theorem Focused.silent {s t : Mind K ω} (world : t.world = s.world) (ctx : t.ctx = s.ctx) :
    Focused W s t := by
  refine ⟨?_, by rw [ctx], by rw [ctx], fun vetted => ?_⟩
  · rw [world]
    exact W.refl s.world
  · unfold Vetted
    rw [ctx]
    exact vetted

abbrev FocusedProg (W : Frame ω) (p : Stage K ω α) : Prop := Prog.Within (Focused W) p

theorem FocusedProg.keeps {p : Stage K ω α} (h : FocusedProg W p) : Prog.Keeps (focused W) p :=
  Prog.Within.keeps h fun _ _ f => f

namespace Mind

theorem outside_focused {p : Prog Failure ω α} (h : Prog.Keeps W p) :
    FocusedProg W (outside (K := K) p) := .zoom fun s => ⟨h s.world, rfl, rfl, id⟩

theorem note_focused (what : Happening K ω) : FocusedProg W (note what) :=
  .modify fun _ => .silent rfl rfl

theorem setCtx_focused {f : CycleContext K ω → CycleContext K ω}
    (percepts : ∀ c, (f c).percepts = c.percepts) (contents : ∀ c, (f c).contents = c.contents)
    (vetted : ∀ c, (f c).vetted = c.vetted) : FocusedProg W (setCtx f) := by
  apply Prog.Within.modify
  intro s
  refine ⟨W.refl s.world, percepts s.ctx, contents s.ctx, ?_⟩
  intro fits v same
  exact fits v ((vetted s.ctx).symm.trans same)

end Mind

/-- The calls of the stages that leave percepts and contents alone keep the frame. -/
structure CognitiveCycle.Bystanders (c : CognitiveCycle K ω) (W : Frame ω) : Prop where
  broadcast : ∀ e, Prog.Keeps W (c.broadcast e)
  setContents : ∀ items, Prog.Keeps W (c.setContents items)
  sleepFn : ∀ interval, Prog.Keeps W (c.sleepFn interval)
  setBias : ∀ a, c.attention = some a → ∀ bias, Prog.Keeps W (a.setBias bias)
  setMood : ∀ r, c.recaller = some r → ∀ mood, Prog.Keeps W (r.setMood mood)
  narration : ∀ n, c.narration = some n →
    (∀ contents, Prog.Keeps W (n.narrate contents)) ∧ ∀ mood, Prog.Keeps W (n.setMood mood)
  drives : ∀ d, c.drives = some d → ∀ events, Prog.Keeps W (d.step events)
  affect : ∀ a, c.affect = some a → ∀ contents drives events,
    Prog.Keeps W (a contents drives events)
  deliberation : ∀ d, c.deliberation = some d →
    (∀ urges mood contents, Prog.Keeps W (d.deliberate urges mood contents)) ∧
      (∀ action goal contents, Prog.Keeps W (d.act action goal contents)) ∧
      ∀ settle, d.settleToolAction = some settle →
        ∀ goal summary success, Prog.Keeps W (settle goal summary success)
  dispatch : ∀ d, c.dispatch = some d → d.Confined W
  sleepCycle : ∀ s, c.sleepCycle = some s → s.Confined W
  webConsolidator : ∀ w, c.webConsolidator = some w → ∀ tool output,
    Prog.Keeps W (w tool output)

namespace CognitiveCycle
open Mind
variable {c : CognitiveCycle K ω}

theorem stageError_focused (name message : String) :
    FocusedProg W (stageError name message : Stage K ω Unit) :=
  setCtx_focused (fun _ => rfl) (fun _ => rfl) fun _ => rfl

theorem emit_focused (h : c.Bystanders W) (module type : String) (payload : Dict K)
    (owner : Option String) : FocusedProg W (c.emit module type payload owner) :=
  .rescue (outside_focused (h.broadcast _)) fun _ => .onSome fun _ _ => stageError_focused _ _

theorem enqueueDriveEvent_focused (event : DriveEvent K) :
    FocusedProg W (enqueueDriveEvent event : Stage K ω Unit) :=
  .bind (note_focused _) fun _ => .modify fun _ => .silent rfl rfl

theorem narrate_focused (h : c.Bystanders W) : FocusedProg W c.narrate :=
  .onSome fun n wired => .bind (.reads _) fun _ =>
    .bind (outside_focused ((h.narration n wired).1 _)) fun _ =>
    .bind (setCtx_focused (fun _ => rfl) (fun _ => rfl) fun _ => rfl) fun _ =>
      .onSome fun _ _ => .onlyIf fun _ => emit_focused h _ _ _ _

theorem consolidateWebRead_focused (h : c.Bystanders W) (tool : String) (output : Dict K) :
    FocusedProg W (c.consolidateWebRead tool output) := by
  unfold consolidateWebRead
  split
  · exact .pure _
  · next w wired =>
      exact .rescue (outside_focused (h.webConsolidator w wired _ _)) fun _ => .pure _

theorem settledBy_focused (h : c.Bystanders W) (tool : Option String)
    (outcome : DispatchOutcome K) : FocusedProg W (c.settledBy tool outcome) := by
  unfold settledBy
  dsimp only
  split
  · exact .ite (consolidateWebRead_focused h _ _) (.pure _)
  · exact .pure _

/-! ### The gates -/

theorem check_focused (h : c.Bystanders W) (s : Mind K ω) : Focused W s (c.check s).2 := by
  have ended := check_spec h.dispatch s
  generalize c.check s = r at ended ⊢
  cases ended with
  | idle _ => exact .silent rfl rfl
  | refused _ _ _ _ moved _ _ => exact ⟨moved, rfl, rfl, id⟩
  | vetted _ wired _ _ moved _ belt =>
      refine ⟨moved, rfl, rfl, ?_⟩
      rintro - _ ⟨⟩ args
      obtain ⟨w, onBelt⟩ := belt
      exact (h.dispatch _ wired).run w _ onBelt args

theorem commit_focused {d : EffectorDispatch K ω} (h : d.Confined W) {v : VettedAction K ω}
    (runs : ∀ args, Prog.Keeps W (v.tool.run args)) : FocusedProg W (d.commit v) := by
  intro s
  obtain ⟨w, records, after, moved, -⟩ := d.commit_spec h runs s
  rw [after]
  exact .single ⟨moved, rfl, rfl, id⟩

/-- ACT runs no tool but the vetted one. -/
theorem act_focused (h : c.Bystanders W) {s : Mind K ω} (vetted : Vetted W s) :
    Focused W s (c.act s).2 := by
  have dispatched : Focused W s (c.dispatchToolAction s).2 := by
    unfold dispatchToolAction
    rw [Prog.reads_bind]
    refine FocusedProg.keeps (W := W) ?_ s
    exact .onSome fun d wired => .onSome fun v same => .onSome fun _ _ =>
      .bind (commit_focused (h.dispatch d wired) (vetted v same)) fun _ =>
      .bind (settledBy_focused h _ _) fun _ => .onSome fun settle settles => by
        obtain ⟨d, wired, settles⟩ := Option.bind_eq_some_iff.mp settles
        exact .bind (outside_focused ((h.deliberation d wired).2.2 settle settles _ _ _))
          fun events => .forEach (fun _ => enqueueDriveEvent_focused _) events
  have internally (action : Action K) (goal : Goal K) :
      FocusedProg W (c.actInternally action goal) :=
    .onSome fun d wired => .bind (.reads _) fun _ => .bind (note_focused _) fun _ =>
      .bind (outside_focused ((h.deliberation d wired).2.1 _ _ _)) fun outcome =>
      .bind (outside_focused (h.broadcast _)) fun _ =>
        .forEach (fun _ => enqueueDriveEvent_focused _) outcome.driveEvents
  unfold act
  rw [Prog.reads_bind]
  unfold Prog.onlyIf
  split
  · cases s.ctx.action with
    | none => exact (focused W).refl s
    | some action =>
        cases s.ctx.goal with
        | none => exact (focused W).refl s
        | some goal =>
            simp only [Prog.onSome_some]
            split
            · exact dispatched
            · exact (internally action goal).keeps s
  · exact (focused W).refl s

/-! ### The stages that do not -/

/-- PERCEIVE writes what the senses returned, unless they raised. -/
theorem perceive_ended (h : c.Bystanders W) {p : Prog Failure ω (List (WorkspaceItem K))}
    (wired : c.perception = some p) (s : Mind K ω) :
    ((∃ e, (p s.world).1 = .error e) ∧ (c.perceive s).2 = { s with world := (p s.world).2 }) ∨
      ∃ percepts, (p s.world).1 = .ok percepts ∧ Focused W { s with
        world := (p s.world).2, ctx := { s.ctx with percepts := percepts } } (c.perceive s).2 := by
  unfold perceive
  rw [wired, Prog.onSome_some]
  cases called : (p s.world).1 with
  | error e =>
      rw [Mind.outside_bind_error called]
      exact .inl ⟨⟨e, rfl⟩, rfl⟩
  | ok percepts =>
      rw [Mind.outside_bind_ok called, Mind.setCtx_bind]
      refine .inr ⟨percepts, rfl, FocusedProg.keeps (W := W) ?_ _⟩
      exact .forEach (fun _ => emit_focused h _ _ _ _) percepts

/-- ATTEND bounds what was selected, and then announces it. -/
theorem attend_ended (h : c.Bystanders W) {P : Mind K ω → Prop}
    {Q R : List (WorkspaceItem K) → Mind K ω → Prop}
    (stable : ∀ s t, Focused W s t → P s → P t)
    (refreshed : ∀ percepts, Prog.Triple (fun s => P s ∧ s.ctx.percepts = percepts)
      (c.refreshWorkingMemory percepts) (fun working s => P s ∧ Q working s ∧
        s.ctx.percepts = percepts) fun _ => P)
    (selected : ∀ working percepts, Prog.Triple
      (fun s => P s ∧ Q working s ∧ s.ctx.percepts = percepts)
      (c.selectContents working percepts) (fun items s => P s ∧ R items s) fun _ => P)
    (bounded : ∀ items s, P s → R items s →
      P { s with ctx := { s.ctx with contents := items.take c.capacity } })
    (s : Mind K ω) (pre : P s) : P (c.attend s).2 := by
  have after (contents : List (WorkspaceItem K)) :
      FocusedProg W (Mind.outside (c.setContents contents) >>= fun _ =>
        c.emit "attention" "attention.selected" [("count", .int contents.length),
          ("items", .arr (contents.map fun i => .str i.content))] (some "attend")) :=
    .bind (outside_focused (h.setContents contents)) fun _ => emit_focused h _ _ _ _
  have attending : Prog.Triple P c.attend (fun _ => P) fun _ => P := by
    refine .bind (Q := fun percepts s => P s ∧ s.ctx.percepts = percepts) (fun _ pre => ⟨pre, rfl⟩)
      fun percepts => .bind (refreshed percepts) fun working =>
      .bind (selected working percepts) fun items =>
      .bind (Q := fun _ => P) (fun s pre => bounded items s pre.1 pre.2) fun _ => ?_
    exact Prog.Triple.of_keeps (after _).keeps fun s t pre moved => stable s t moved pre
  exact attending.at_end pre

/-- RECALL merges what it recalled into the contents it read. -/
theorem recallStage_ended [LinearOrder K] (h : c.Bystanders W) {r : RecallStage K ω}
    (wired : c.recaller = some r) (kept : ∀ focus, Prog.Keeps W (r.recallFor focus))
    {P : Mind K ω → Prop} {R : List (WorkspaceItem K) → Prop}
    (stable : ∀ s t, Focused W s t → P s → P t)
    (recalled : ∀ focus w items, (r.recallFor focus w).1 = .ok items → R items)
    (merged : ∀ s items, P s → R items → P { s with
      ctx := { s.ctx with contents := mergeRecalled c.capacity s.ctx.contents items } })
    (s : Mind K ω) (pre : P s) : P (c.recallStage s).2 := by
  refine Prog.Triple.at_end (P := P) ?_ pre
  unfold recallStage
  rw [wired]
  refine .bind (Q := fun focus s => P s ∧ s.ctx.contents = focus) (fun _ pre => ⟨pre, rfl⟩)
    fun focus => .bind (Q := fun items s => (P s ∧ s.ctx.contents = focus) ∧ R items) ?_
    fun items => ?_
  · have moves := (outside_focused (K := K) (kept focus)).keeps
    refine .intro (fun s items t pre ran => ?_) (fun s e t pre ran => ?_)
    · have moved := moves s
      rw [ran] at moved
      refine ⟨⟨stable s t moved pre.1, moved.contents.trans pre.2⟩, recalled focus s.world items ?_⟩
      exact congrArg Prod.fst ran
    · have moved := moves s
      rw [ran] at moved
      exact stable s t moved pre.1
  · unfold Prog.onlyIf
    split
    · refine .bind (Q := fun _ => P) ?_ fun _ => ?_
      · rintro s ⟨⟨pre, rfl⟩, fits⟩
        exact merged s items pre fits
      · refine Prog.Triple.of_keeps (FocusedProg.keeps (W := W) ?_)
          fun s t pre moved => stable s t moved pre
        exact .bind (outside_focused (h.setContents _)) fun _ => emit_focused h _ _ _ _
    · exact .pure fun _ pre => pre.1.1

/-- LEARN reads the contents and the thought, and changes the world alone. -/
theorem learn_ended {l : List (WorkspaceItem K) → Option String → Prog Failure ω Unit}
    (wired : c.learning = some l) (s : Mind K ω) :
    (c.learn s).2 = { s with world := (l s.ctx.contents s.ctx.thought s.world).2 } := by
  unfold learn
  rw [wired]
  rfl

section appraisal
variable [Field K] [LinearOrder K] [FloorRing K]

theorem deliberate_focused (h : c.Bystanders W) : FocusedProg W c.deliberate :=
  .bind (.reads _) fun _ => .onSome fun d wired => .onlyIf fun _ => .bind (.reads _) fun _ =>
    .bind (.reads _) fun _ => .bind (note_focused _) fun _ =>
    .bind (outside_focused ((h.deliberation d wired).1 _ _ _)) fun _ =>
    .bind (note_focused _) fun _ =>
    .bind (setCtx_focused (fun _ => rfl) (fun _ => rfl) fun _ => rfl) fun _ =>
      .onSome fun _ _ => emit_focused h _ _ _ _

/-! ### APPRAISE and the state surface -/

theorem stepDrives_focused (h : c.Bystanders W) : FocusedProg W c.stepDrives :=
  .onSome fun d wired => .bind (.reads _) fun _ =>
    .bind (outside_focused (h.drives d wired _)) fun _ => .bind (note_focused _) fun _ =>
    .bind (setCtx_focused (fun _ => rfl) (fun _ => rfl) fun _ => rfl) fun _ =>
    .bind (.modify fun _ => .silent rfl rfl) fun _ =>
    .bind (.reads _) fun ctx => .bind (emit_focused h _ _ _ _) fun _ =>
      .forEach (fun _ => emit_focused h _ _ _ _) ctx.urges

theorem appraise_focused (h : c.Bystanders W) : FocusedProg W c.appraise :=
  .bind (.bind (.reads _) fun _ => .bind (.modify fun _ => .silent rfl rfl) fun _ => .pure _)
    fun _ => .bind (setCtx_focused (fun _ => rfl) (fun _ => rfl) fun _ => rfl) fun _ =>
    .bind (stepDrives_focused h) fun _ =>
    .bind (.onSome fun a wired => .bind (.reads _) fun _ =>
      .bind (outside_focused (h.affect a wired _ _ _)) fun _ =>
      .bind (setCtx_focused (fun _ => rfl) (fun _ => rfl) fun _ => rfl) fun _ =>
        emit_focused h _ _ _ _) fun _ =>
    .bind (.bind (.reads _) fun _ =>
      .bind (.onSome fun a wired => outside_focused (h.setBias a wired _)) fun _ =>
      .bind (.onSome fun r wired => outside_focused (h.setMood r wired _)) fun _ =>
        .onSome fun n wired => outside_focused ((h.narration n wired).2 _)) fun _ =>
      .modify fun _ => .silent rfl rfl

theorem broadcastState_focused (h : c.Bystanders W) : FocusedProg W c.broadcastState :=
  .bind (.reads _) fun _ => emit_focused h _ _ _ _

/-! ### One tick -/

/-- What must hold before PERCEIVE, before APPRAISE and from then on to LEARN, in a tick
that keeps `I`, where `C` holds before APPRAISE. -/
structure TickOutline (c : CognitiveCycle K ω) (W : Frame ω) (I C P₀ P₁ P₂ : Mind K ω → Prop) :
    Prop where
  begun : ∀ s, I s → P₀ (begun s)
  perceived : ∀ s, P₀ s → P₁ (c.perceive s).2
  foreseen : ∀ s, P₁ s → C s → P₂ s
  attended : ∀ s, P₂ s → P₂ (c.attend s).2
  recalled : ∀ s, P₂ s → P₂ (c.recallStage s).2
  learned : ∀ s, P₂ s → I (c.learn s).2
  stable₀ : ∀ s t, Focused W s t → P₀ s → P₀ t
  stable₁ : ∀ s t, Focused W s t → P₁ s → P₁ t
  stable₂ : ∀ s t, Focused W s t → P₂ s → P₂ t
  stable : ∀ s t, Focused W s t → I s → I t
  weaken₀ : ∀ s, P₀ s → I s
  weaken₁ : ∀ s, P₁ s → I s
  weaken₂ : ∀ s, P₂ s → I s

variable {I C P₀ P₁ P₂ P Q : Mind K ω → Prop}

omit [Field K] [LinearOrder K] [FloorRing K] in
/-- A stage whose body leads from `P` to `Q`, however the body ends. -/
theorem step_triple {fn : Stage K ω Unit} (name : String) (step : ∀ s, P s → Q (fn s).2)
    (stable : ∀ s t, Focused W s t → Q s → Q t) (weaken : ∀ s, Q s → I s) :
    Prog.Triple P (stage name fn) (fun _ => Q) (Cut I) := by
  refine .rescue (Prog.Triple.of_end step) ?_ ?_
  · intro e _ s after
    exact stable s _ ((stageError_focused name e.describe).keeps s) after
  · intro e s passed after
    cases e with
    | exception cls text => cases passed
    | cancelled => exact ⟨rfl, weaken s after⟩

omit [Field K] [LinearOrder K] [FloorRing K] in
theorem announcing_triple (h : c.Bystanders W) (stable : ∀ s t, Focused W s t → P s → P t)
    (weaken : ∀ s, P s → I s) (module type : String) (payload : Dict K) (owner : Option String) :
    Prog.Triple P (c.emit module type payload owner) (fun _ => P) (Cut I) := by
  have called : FocusedProg W (outside (K := K) (c.broadcast
      { module := module, type := type, payload := payload })) := outside_focused (h.broadcast _)
  refine .rescue (Prog.Triple.of_keeps called.keeps fun s t pre moved => stable s t moved pre) ?_ ?_
  · intro e _ s pre
    cases owner with
    | none => exact pre
    | some name => exact stable s _ ((stageError_focused name _).keeps s) pre
  · intro e s passed pre
    cases e with
    | exception cls text => cases passed
    | cancelled => exact ⟨rfl, weaken s pre⟩

omit [Field K] [LinearOrder K] [FloorRing K] in
/-- A stage that leaves the verdict alone leaves what was vetted. -/
theorem vetted_of_light {fn : Stage K ω Unit} (l : LightProg Frame.any fn) {s : Mind K ω}
    (vetted : Vetted W s) : Vetted W (fn s).2 := by
  unfold Vetted
  rw [(l.keeps s).vetted]
  exact vetted

omit [Field K] [FloorRing K] in
theorem awakening_outline (h : c.Bystanders W) (outline : TickOutline c W I C P₀ P₁ P₂) :
    Prog.Triple I c.awakening (fun _ s => P₁ s ∧ Vetted W s) (Cut I) := by
  have stable₀ (s t : Mind K ω) (moved : Focused W s t) (pre : P₀ s ∧ Vetted W s) :
      P₀ t ∧ Vetted W t := ⟨outline.stable₀ s t moved pre.1, moved.vetted pre.2⟩
  have stable₁ (s t : Mind K ω) (moved : Focused W s t) (pre : P₁ s ∧ Vetted W s) :
      P₁ t ∧ Vetted W t := ⟨outline.stable₁ s t moved pre.1, moved.vetted pre.2⟩
  refine .bind (Q := fun _ s => P₀ s ∧ Vetted W s) (fun s inv => ⟨outline.begun s inv, nofun⟩)
    fun _ => .bind (Q := fun _ s => P₀ s ∧ Vetted W s) (fun _ pre => pre) fun _ =>
    .bind (announcing_triple h stable₀ (fun s pre => outline.weaken₀ s pre.1) _ _ _ _) fun _ =>
    step_triple _ (fun s pre => ?_) stable₁ fun s pre => outline.weaken₁ s pre.1
  exact ⟨outline.perceived s pre.1, vetted_of_light (perceive_light c.confined_any) pre.2⟩

theorem outline_triple (h : c.Bystanders W) (outline : TickOutline c W I C P₀ P₁ P₂) :
    Prog.Triple (fun s => I s ∧ Foreseen c C s) c.tick (fun _ => I) (Cut I) := by
  have stable (s t : Mind K ω) (moved : Focused W s t) (pre : P₂ s ∧ Vetted W s) :
      P₂ t ∧ Vetted W t := ⟨outline.stable₂ s t moved pre.1, moved.vetted pre.2⟩
  have step {fn : Stage K ω Unit} (name : String)
      (leads : ∀ s, P₂ s ∧ Vetted W s → P₂ (fn s).2 ∧ Vetted W (fn s).2) :
      Prog.Triple (fun s => P₂ s ∧ Vetted W s) (stage name fn)
        (fun _ s => P₂ s ∧ Vetted W s) (Cut I) :=
    step_triple name leads stable fun s pre => outline.weaken₂ s pre.1
  have aside {fn : Stage K ω Unit} (name : String) (f : FocusedProg W fn) :=
    step name fun s => stable s _ (f.keeps s)
  have staged : Prog.Triple (fun s => P₂ s ∧ Vetted W s)
      (Prog.forEach c.stages.tail fun entry => stage entry.1 entry.2) (fun _ => I) (Cut I) :=
    .bind (aside _ (appraise_focused h)) fun _ =>
    .bind (step _ fun s pre => ⟨outline.attended s pre.1,
      vetted_of_light (attend_light c.confined_any) pre.2⟩) fun _ =>
    .bind (step _ fun s pre => ⟨outline.recalled s pre.1,
      vetted_of_light (recallStage_light c.confined_any) pre.2⟩) fun _ =>
    .bind (aside _ (narrate_focused h)) fun _ => .bind (aside _ (deliberate_focused h)) fun _ =>
    .bind (step _ fun s pre => stable s _ (check_focused h s) pre) fun _ =>
    .bind (step _ fun s pre => stable s _ (act_focused h pre.2) pre) fun _ =>
    .bind (step_triple _ (fun s pre => outline.learned s pre.1) outline.stable fun _ inv => inv)
      fun _ => .bind (step_triple _ (fun s => outline.stable s _ ((broadcastState_focused h).keeps s))
        outline.stable fun _ inv => inv) fun _ => .pure fun _ inv => inv
  have reported : Prog.Triple I (reporting : Stage K ω TickReport) (fun _ => I) (Cut I) := by
    refine .bind (Q := fun _ => I) (fun _ inv => inv) fun ctx =>
      .bind (Q := fun _ => I) ?_ fun _ => .pure fun _ inv => inv
    unfold Prog.onlyIf
    split
    · intro s inv
      exact outline.stable s { s with degradedTicks := s.degradedTicks + 1 } (.silent rfl rfl) inv
    · exact .pure fun _ inv => inv
  rw [tick_parts]
  refine .bind (.intro ?_ ?_) fun _ => .bind staged fun _ => reported
  · intro s u t pre ran
    have after := (awakening_outline h outline).of_ok pre.1 ran
    exact ⟨outline.foreseen t after.1 (pre.2 t ran), after.2⟩
  · intro s e t pre ran
    exact (awakening_outline h outline).of_error pre.1 ran

/-! ### Whole runs -/

/-- The sleep phase moves the world within the frame. -/
theorem maybeSleep_world (h : c.Bystanders W) (s : Mind K ω) :
    W.rel s.world (c.maybeSleep s).2.world := by
  have calls {p : Prog Failure ω Unit} (kept : Prog.Keeps W p) :
      Prog.Within (Frame.via Mind.world W).rel (outside (K := K) p) :=
    .zoom fun s => kept s.world
  have silent (f : Mind K ω → Mind K ω) (same : ∀ s, (f s).world = s.world) :
      Prog.Within (Frame.via Mind.world W).rel (Prog.modify f : Stage K ω Unit) := by
    apply Prog.Within.modify
    intro s
    change W.rel s.world (f s).world
    rw [same s]
    exact W.refl s.world
  have announce (asleep : Bool) :
      Prog.Within (Frame.via Mind.world W).rel (c.emitSleepTransition asleep) :=
    .bind (.reads _) fun _ => calls (h.broadcast _)
  have moves : Prog.Within (Frame.via Mind.world W).rel c.maybeSleep :=
    .onSome fun sc wired => .bind (.reads _) fun _ => .onSome fun trigger _ =>
      .bind (announce true) fun _ => .bind (.reads _) fun degradedTicks =>
      .bind (fun s => .single (SleepCycle.sleep_world (h.sleepCycle sc wired) trigger none
        degradedTicks s)) fun _ =>
      .bind (.onSome fun _ _ => .bind (silent _ fun _ => rfl) fun _ =>
        .onlyIf fun _ => calls (h.broadcast _)) fun _ => announce false
  exact moves.keeps (F := Frame.via Mind.world W) (fun _ _ moved => moved) s

/-- An invariant of the world through a run whose ticks have the outline. -/
theorem run_outline {J : ω → Prop} (h : c.Bystanders W)
    (outline : TickOutline c W (fun s => J s.world) C P₀ P₁ P₂)
    (fired : ∀ f, c.fireDue = some f → ∀ w, J w → J (f w).2) {turns : List (Turn K ω)}
    (others : ∀ change, .elsewhere change ∈ turns → ∀ w, J w → J (change w)) {s : Mind K ω}
    (pre : J s.world)
    (cond : ∀ before after t, turns = before ++ .beat :: after →
      c.run before s = (.ok (), t) → Foreseen c C t) : J (c.run turns s).2.world := by
  let kept : Frame ω := ⟨fun w w' => J w → J w', fun _ => id, fun ab bc pre => bc (ab pre)⟩
  have inside {w w' : ω} (moved : W.rel w w') : kept.rel w w' := fun inv =>
    outline.stable { world := w, nextInterval := 0 } { world := w', nextInterval := 0 }
      ⟨moved, rfl, rfl, nofun⟩ inv
  have between : c.Between kept := ⟨fun e w => inside (h.broadcast e w),
    fun interval w => inside (h.sleepFn interval w), fun f wired w => fired f wired w⟩
  have course : BeatCourse c kept (fun s => J s.world) (fun s => J s.world) (Foreseen c C) := {
    tick := outline_triple h outline
    sleep := fun _ s₁ _ _ inv =>
      have after := inside (maybeSleep_world h s₁) inv
      ⟨fun _ => after, after⟩
    stable := fun _ _ moved => moved.world
    weaken := fun _ inv => inv }
  exact run_course between course (fun _ _ inv => inv) others pre cond

end appraisal
end CognitiveCycle
end Johnny
