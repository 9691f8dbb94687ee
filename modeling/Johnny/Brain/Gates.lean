import Johnny.Brain.Stages

/-!
# DELIBERATE, CHECK and ACT

The three stages behind the agency gate, and the dispatcher's two halves, as what
each run of them can leave behind: the calls made, the entries recorded and how
the stage ended.
-/
namespace Johnny
variable {K ω : Type}

/-! ### Vetting -/

/-- The verdict a reply of the model stands for. -/
def Conscience.verdictOf (c : Conscience K ω) : Except Failure Completion → Except Failure Verdict
  | .ok completion => c.parseVerdict completion.content
  | .error e => if e.isUnavailable then .ok ⟨.veto, unavailableReason⟩ else .error e

theorem Conscience.vet_apply (c : Conscience K ω) (action : ProposedAction K)
    (contents : List (WorkspaceItem K)) (s : Mind K ω) :
    ∃ reply w, c.vet action contents s = (c.verdictOf reply,
        { s with world := w, history := ⟨s.tick, .consulted action reply⟩ :: s.history }) ∧
      (reply, w) = c.complete conscienceRole
        [⟨"system", c.prompt⟩, ⟨"user", c.render action contents⟩] s.world := by
  rcases called : c.complete conscienceRole
    [⟨"system", c.prompt⟩, ⟨"user", c.render action contents⟩] s.world with ⟨reply, w⟩
  refine ⟨reply, w, ?_, rfl⟩
  unfold Conscience.vet
  rw [Prog.outcome_bind, Mind.outside_apply, called, Mind.note_bind]
  cases reply with
  | ok completion =>
      change Prog.reraise (c.parseVerdict completion.content) _ = _
      cases parsed : c.parseVerdict completion.content with
      | ok v => simp only [Conscience.verdictOf, parsed]; rfl
      | error e => simp only [Conscience.verdictOf, parsed]; rfl
  | error e =>
      simp only [Conscience.verdictOf]
      split
      · rfl
      · rfl

/-- The entries of one vet, newest first. -/
inductive VetTrace (d : EffectorDispatch K ω) (n : ℕ) (proposal : ProposedAction K) :
    Except Failure (VettedAction K ω) → List (Entry K ω) → Prop
  | unknown (e : Failure) : VetTrace d n proposal (.error e)
      [⟨n, .vetEnded (.error e)⟩, ⟨n, .lookedUp proposal.tool none⟩]
  | invalid (tool : Tool K ω) (e : Failure) (named : tool.name = proposal.tool)
      (checked : tool.validateArgs proposal.args = .error e) :
      VetTrace d n proposal (.error e)
        [⟨n, .vetEnded (.error e)⟩, ⟨n, .argsChecked proposal.args (.error e)⟩,
          ⟨n, .lookedUp proposal.tool (some tool)⟩]
  | unconsulted (tool : Tool K ω) (args : Dict K) (reply : Except Failure Completion) (e : Failure)
      (named : tool.name = proposal.tool) (checked : tool.validateArgs proposal.args = .ok args)
      (judged : d.conscience.verdictOf reply = .error e) :
      VetTrace d n proposal (.error e)
        [⟨n, .vetEnded (.error e)⟩,
          ⟨n, .consulted { proposal with danger := tool.danger.label } reply⟩,
          ⟨n, .argsChecked proposal.args (.ok args)⟩, ⟨n, .lookedUp proposal.tool (some tool)⟩]
  | judged (tool : Tool K ω) (args : Dict K) (reply : Except Failure Completion) (verdict : Verdict)
      (named : tool.name = proposal.tool) (checked : tool.validateArgs proposal.args = .ok args)
      (judged : d.conscience.verdictOf reply = .ok verdict) :
      VetTrace d n proposal
        (.ok ⟨{ proposal with danger := tool.danger.label }, tool, args, verdict⟩)
        [⟨n, .vetEnded (.ok ⟨{ proposal with danger := tool.danger.label }, tool, args, verdict⟩)⟩,
          ⟨n, .consulted { proposal with danger := tool.danger.label } reply⟩,
          ⟨n, .argsChecked proposal.args (.ok args)⟩, ⟨n, .lookedUp proposal.tool (some tool)⟩]

/-- A vet moves the world by the consultation alone, and a tool it hands on is on the belt. -/
theorem EffectorDispatch.vet_spec (d : EffectorDispatch K ω) {W : Frame ω} (h : d.Confined W)
    (proposal : ProposedAction K) (contents : List (WorkspaceItem K)) (s : Mind K ω) :
    ∃ r w new, d.vet proposal contents s = (r,
        { s with world := w, history := new ++ s.history }) ∧ W.rel s.world w ∧
      VetTrace d s.tick proposal r new ∧
      ∀ v, r = .ok v → v.tool ∈ (d.registry s.world).tools := by
  unfold EffectorDispatch.vet
  rw [Mind.noting_apply, Prog.reads_bind, Mind.note_bind]
  cases found : (d.registry s.world).get proposal.tool with
  | none => exact ⟨_, _, [_, _], rfl, W.refl _, .unknown _, nofun⟩
  | some tool =>
      have named := ToolRegistry.get_name found
      dsimp only
      rw [Mind.note_bind]
      cases checked : tool.validateArgs proposal.args with
      | error e => exact ⟨_, _, [_, _, _], rfl, W.refl _, .invalid tool e named checked, nofun⟩
      | ok args =>
          obtain ⟨reply, w, vetted, asked⟩ := d.conscience.vet_apply
            { proposal with danger := tool.danger.label } contents
            { s with history := ⟨s.tick, .argsChecked proposal.args (.ok args)⟩ ::
              ⟨s.tick, .lookedUp proposal.tool (some tool)⟩ :: s.history }
          have moved : W.rel s.world w := by
            have := h.complete conscienceRole [⟨"system", d.conscience.prompt⟩,
              ⟨"user", d.conscience.render { proposal with danger := tool.danger.label } contents⟩]
              s.world
            rwa [← asked] at this
          rw [Prog.reraise_ok, Prog.pure_bind']
          cases judged : d.conscience.verdictOf reply with
          | error e =>
              rw [judged] at vetted
              rw [Prog.bind_of_error vetted]
              exact ⟨_, _, [_, _, _, _], rfl, moved,
                .unconsulted tool args reply e named checked judged, nofun⟩
          | ok verdict =>
              rw [judged] at vetted
              rw [Prog.bind_of_ok vetted]
              refine ⟨_, _, [_, _, _, _], rfl, moved,
                .judged tool args reply verdict named checked judged, ?_⟩
              rintro v ⟨⟩
              exact ToolRegistry.get_mem found

/-! ### Committing -/

/-- The world moves and audit records are written. -/
def recording (W : Frame ω) : Frame (Mind K ω) where
  rel s t := W.rel s.world t.world ∧ ∃ new,
    t = { s with world := t.world, history := new ++ s.history } ∧
      ∀ e ∈ new, ∃ r, e = ⟨s.tick, .recorded r⟩
  refl s := ⟨W.refl _, [], rfl, List.forall_mem_nil _⟩
  trans := by
    rintro a b c ⟨moved, new, hb, small⟩ ⟨movedOn, newer, hc, small'⟩
    refine ⟨W.trans moved movedOn, newer ++ new, by rw [hc, hb, List.append_assoc], ?_⟩
    have sameTick : b.tick = a.tick := by rw [hb]
    intro e member
    rcases List.mem_append.mp member with later | earlier
    · exact sameTick ▸ small' e later
    · exact small e earlier

namespace EffectorDispatch
variable {d : EffectorDispatch K ω} {W : Frame ω}

theorem outside_recording {α : Type} {p : Prog Failure ω α} (h : Prog.Keeps W p) :
    Prog.Within (recording W).rel (Mind.outside (K := K) p) :=
  .zoom fun s => ⟨h s.world, [], rfl, List.forall_mem_nil _⟩

theorem record_recording (h : d.Confined W) (r : ActionRecord K) :
    Prog.Within (recording W).rel (d.record r) :=
  .bind (outside_recording (h.audit r)) fun _ =>
    .modify fun s => ⟨W.refl _, [⟨s.tick, .recorded r⟩], rfl, by
      intro e member
      exact ⟨r, List.mem_singleton.mp member⟩⟩

theorem emit_recording (h : d.Confined W) (eventType : String) (action : ProposedAction K)
    (verdict : Verdict) (result : Option (ToolResult K)) (success : Bool) :
    Prog.Within (recording W).rel (d.emit eventType action verdict result success) :=
  outside_recording (h.broadcast _)

end EffectorDispatch

/-- The execution a commit of `v` starts, if any. -/
def startedBy (v : VettedAction K ω) (n : ℕ) : List (Entry K ω) :=
  if v.verdict.allowed then [⟨n, .ran v.tool v.validated⟩] else []

/-- A commit starts the one execution its verdict allows, then records and emits. -/
theorem EffectorDispatch.commit_spec (d : EffectorDispatch K ω) {W : Frame ω}
    (h : d.Confined W) {v : VettedAction K ω} (runs : ∀ args, Prog.Keeps W (v.tool.run args))
    (s : Mind K ω) :
    ∃ w records, (d.commit v s).2 = { s with world := w, history :=
        ⟨s.tick, .commitEnded (d.commit v s).1⟩ :: (records ++ (startedBy v s.tick ++ s.history)) } ∧
      W.rel s.world w ∧ ∀ e ∈ records, ∃ rec, e = ⟨s.tick, .recorded rec⟩ := by
  -- in either branch the rest of the commit runs from the state after the start
  have ends (p : Stage K ω (DispatchOutcome K)) (history : List (Entry K ω))
      (small : Prog.Within (recording W).rel p) :
      ∃ w records, (p { s with history := history }).2 =
          { s with world := w, history := records ++ history } ∧
        W.rel s.world w ∧ ∀ e ∈ records, ∃ rec, e = ⟨s.tick, .recorded rec⟩ := by
    have kept : Prog.Keeps (recording W) p := small.keeps fun _ _ q => q
    obtain ⟨moved, records, after, recorded⟩ := kept { s with history := history }
    exact ⟨_, records, after, moved, recorded⟩
  unfold EffectorDispatch.commit
  rw [Mind.noting_apply]
  cases allowed : v.verdict.allowed with
  | false =>
      simp only [Bool.not_false, if_true]
      obtain ⟨w, records, after, moved, recorded⟩ := ends _ s.history
        (.bind (record_recording h (vetoRecord v)) fun _ =>
          .bind (emit_recording h actionVetoed v.action v.verdict none false) fun _ => .pure
            { ran := false, verdict := v.verdict,
              summary := stripBy (": ".toList.contains ·) ("vetoed: " ++ v.verdict.reason) })
      refine ⟨w, records, ?_, moved, recorded⟩
      rw [after, startedBy, allowed]
      rfl
  | true =>
      simp only [Bool.not_true, Bool.false_eq_true, if_false, Mind.note_bind]
      obtain ⟨w, records, after, moved, recorded⟩ := ends _
        (⟨s.tick, .ran v.tool v.validated⟩ :: s.history)
        (.bind (outside_recording (runs v.validated)) fun result =>
          .bind (record_recording h (runRecord v result)) fun _ =>
          .bind (emit_recording h actionDispatched v.action v.verdict (some result)
            result.success) fun _ => .pure
            { ran := true, verdict := v.verdict, result := some result,
              summary := result.summary })
      refine ⟨w, records, ?_, moved, recorded⟩
      rw [after, startedBy, allowed]
      rfl

namespace CognitiveCycle

/-! ### The three stages -/

/-- How DELIBERATE can end from `s`. -/
inductive Deliberated (c : CognitiveCycle K ω) (W : Frame ω) (s : Mind K ω) :
    Except Failure Unit × Mind K ω → Prop
  | idle (gated : c.deliberation = none ∨ s.fullAgency = false) :
      Deliberated c W s (.ok (), s)
  | raised {d e w} (agency : s.fullAgency = true) (wired : c.deliberation = some d)
      (called : d.deliberate s.ctx.urges s.ctx.mood s.ctx.contents s.world = (.error e, w)) :
      Deliberated c W s (.error e,
        { s with world := w, history := ⟨s.tick, .deliberating⟩ :: s.history })
  | planned {d result w r t} (agency : s.fullAgency = true) (wired : c.deliberation = some d)
      (called : d.deliberate s.ctx.urges s.ctx.mood s.ctx.contents s.world = (.ok result, w))
      (after : Quiet W { s with
        world := w, ctx := { s.ctx with goal := result.goal, action := result.action }
        history := ⟨s.tick, .deliberated (c.clock s.world) result⟩ ::
          ⟨s.tick, .deliberating⟩ :: s.history } t) :
      Deliberated c W s (r, t)

variable {c : CognitiveCycle K ω} {W : Frame ω}

theorem deliberate_spec [Field K] [LinearOrder K] [FloorRing K] (h : c.Confined W)
    (s : Mind K ω) : Deliberated c W s (c.deliberate s) := by
  unfold deliberate
  rw [Prog.reads_bind]
  cases wired : c.deliberation with
  | none => exact .idle (.inl wired)
  | some d =>
      rw [Prog.onSome_some]
      cases agency : s.fullAgency with
      | false => exact .idle (.inr agency)
      | true =>
          simp only [Prog.onlyIf, if_true, Prog.reads_bind, Mind.note_bind]
          rcases called : d.deliberate s.ctx.urges s.ctx.mood s.ctx.contents s.world with ⟨r, w⟩
          cases r with
          | error e =>
              rw [Mind.outside_bind_error (e := e) (by rw [called]), called]
              exact .raised agency wired called
          | ok result =>
              rw [Mind.outside_bind_ok (a := result) (by rw [called]), called, Mind.note_bind,
                Mind.setCtx_bind]
              refine .planned agency wired called (QuietProg.keeps (W := W) ?_ _)
              exact .onSome fun _ _ => emit_quiet h _ _ _ _

/-- How CHECK can end from `s`. -/
inductive Checked (c : CognitiveCycle K ω) (W : Frame ω) (s : Mind K ω) :
    Except Failure Unit × Mind K ω → Prop
  | idle (gated : s.fullAgency = false ∨ c.dispatch = none ∨
      ∀ action, s.ctx.action = some action → action.tool = none) : Checked c W s (.ok (), s)
  | refused {d action tool e w new} (agency : s.fullAgency = true) (wired : c.dispatch = some d)
      (planned : s.ctx.action = some action) (named : action.tool = some tool)
      (moved : W.rel s.world w) (trace : VetTrace d s.tick (proposalOf action tool) (.error e) new)
      (vetted : (d.vet (proposalOf action tool) s.ctx.contents s).1 = .error e) :
      Checked c W s (.error e, { s with world := w, history := new ++ s.history })
  | vetted {d action tool v w new} (agency : s.fullAgency = true) (wired : c.dispatch = some d)
      (planned : s.ctx.action = some action) (named : action.tool = some tool)
      (moved : W.rel s.world w) (trace : VetTrace d s.tick (proposalOf action tool) (.ok v) new)
      (belt : ∃ w, v.tool ∈ (d.registry w).tools) :
      Checked c W s (.ok (), { s with
        world := w, history := new ++ s.history, ctx := { s.ctx with vetted := some v } })

theorem check_spec (h : ∀ d, c.dispatch = some d → d.Confined W) (s : Mind K ω) :
    Checked c W s (c.check s) := by
  unfold check
  rw [Prog.reads_bind]
  cases agency : s.fullAgency with
  | false => exact .idle (.inl agency)
  | true =>
      simp only [Prog.onlyIf, if_true]
      cases wired : c.dispatch with
      | none => exact .idle (.inr (.inl wired))
      | some d =>
          cases planned : s.ctx.action with
          | none => exact .idle (.inr (.inr fun action some => by rw [planned] at some; cases some))
          | some action =>
              cases named : action.tool with
              | none =>
                  simp only [Prog.onSome_some, named, Prog.onSome_none]
                  refine .idle (.inr (.inr fun other same => ?_))
                  rw [planned] at same
                  cases same
                  exact named
              | some tool =>
                  simp only [Prog.onSome_some, named]
                  obtain ⟨r, w, new, vetted, moved, trace, belt⟩ := d.vet_spec (h d wired)
                    (proposalOf action tool) s.ctx.contents s
                  cases r with
                  | error e =>
                      rw [Prog.bind_of_error vetted]
                      exact .refused agency wired planned named moved trace (by rw [vetted])
                  | ok v =>
                      rw [Prog.bind_of_ok vetted]
                      exact .vetted agency wired planned named moved trace ⟨_, belt v rfl⟩

/-- How a tool action can end once its commit ended. -/
inductive Settled (c : CognitiveCycle K ω) (W : Frame ω) (goal : Goal K) :
    Except Failure (DispatchOutcome K) × Mind K ω → Except Failure Unit × Mind K ω → Prop
  | failed {e s} : Settled c W goal (.error e, s) (.error e, s)
  | unsettled {outcome s r t} (quiet : Quiet W s t)
      (why : c.deliberation.bind DeliberationStage.settleToolAction = none ∨
        r = .error .cancelled) : Settled c W goal (.ok outcome, s) (r, t)
  | refused {outcome s s₁ settle summary success e w} (quiet : Quiet W s s₁)
      (wired : c.deliberation.bind DeliberationStage.settleToolAction = some settle)
      (called : settle goal summary success s₁.world = (.error e, w)) :
      Settled c W goal (.ok outcome, s) (.error e, { s₁ with world := w })
  | settled {outcome s s₁ settle summary success events w r t} (quiet : Quiet W s s₁)
      (wired : c.deliberation.bind DeliberationStage.settleToolAction = some settle)
      (called : settle goal summary success s₁.world = (.ok events, w))
      (after : Quiet W { s₁ with world := w } t) : Settled c W goal (.ok outcome, s) (r, t)

theorem consolidateWebRead_raises {tool : String} {output : Dict K} {s t : Mind K ω}
    {e : Failure} (raised : c.consolidateWebRead tool output s = (.error e, t)) :
    e = .cancelled := by
  unfold consolidateWebRead at raised
  cases wired : c.webConsolidator with
  | none =>
      rw [wired] at raised
      cases raised
  | some consolidate =>
      rw [wired] at raised
      dsimp only at raised
      rcases h : Mind.outside (consolidate tool output) s with ⟨r, u⟩
      cases r with
      | ok b =>
          rw [Prog.rescue_of_ok h] at raised
          cases raised
      | error f =>
          cases f with
          | exception cls text =>
              rw [Prog.rescue_of_caught h rfl] at raised
              cases raised
          | cancelled =>
              rw [Prog.rescue_of_passed h rfl] at raised
              cases raised
              rfl

/-- Asking whether the result settles the goal raises only on cancellation. -/
theorem settledBy_raises {tool : Option String} {outcome : DispatchOutcome K} {s t : Mind K ω}
    {e : Failure} (raised : c.settledBy tool outcome s = (.error e, t)) : e = .cancelled := by
  unfold settledBy at raised
  cases tool with
  | none => cases raised
  | some tool =>
      cases result : outcome.result with
      | none =>
          rw [result] at raised
          cases raised
      | some result' =>
          rw [result] at raised
          dsimp only at raised
          split at raised
          · exact consolidateWebRead_raises raised
          · cases raised

theorem settle_spec (h : c.Confined W) (goal : Goal K) (outcome : DispatchOutcome K)
    (tool : Option String) (s : Mind K ω) :
    Settled c W goal (.ok outcome, s) ((do
      let success ← c.settledBy tool outcome
      Prog.onSome (c.deliberation.bind DeliberationStage.settleToolAction) fun settle => do
        let events ← Mind.outside (settle goal outcome.summary success)
        Prog.forEach events enqueueDriveEvent) s) := by
  have settling : Quiet W s (c.settledBy tool outcome s).2 :=
    (settledBy_light h tool outcome).quiet.keeps s
  rcases asked : c.settledBy tool outcome s with ⟨r, s₁⟩
  rw [asked] at settling
  cases r with
  | error e =>
      rw [Prog.bind_of_error asked]
      exact .unsettled settling (.inr (by rw [settledBy_raises asked]))
  | ok success =>
      rw [Prog.bind_of_ok asked]
      cases wired : c.deliberation.bind DeliberationStage.settleToolAction with
      | none => exact .unsettled settling (.inl wired)
      | some settle =>
          rw [Prog.onSome_some]
          rcases called : settle goal outcome.summary success s₁.world with ⟨r, w⟩
          cases r with
          | error e =>
              rw [Mind.outside_bind_error (e := e) (by rw [called]), called]
              exact .refused settling wired called
          | ok events =>
              rw [Mind.outside_bind_ok (a := events) (by rw [called]), called]
              exact .settled settling wired called (QuietProg.keeps
                (.forEach (fun _ => enqueueDriveEvent_quiet _) events) _)

/-- How ACT can end from `s`. -/
inductive Acted (c : CognitiveCycle K ω) (W : Frame ω) (s : Mind K ω) :
    Except Failure Unit × Mind K ω → Prop
  | idle (gated : s.fullAgency = false ∨ s.ctx.action = none ∨ s.ctx.goal = none ∨
      (∃ action, s.ctx.action = some action ∧ action.isToolAction = true ∧
        (c.dispatch = none ∨ s.ctx.vetted = none)) ∨ c.deliberation = none) :
      Acted c W s (.ok (), s)
  | committed {d v goal action r t} (agency : s.fullAgency = true) (wired : c.dispatch = some d)
      (planned : s.ctx.action = some action) (tool : action.isToolAction = true)
      (pursued : s.ctx.goal = some goal) (vetted : s.ctx.vetted = some v)
      (after : Settled c W goal (d.commit v s) (r, t)) : Acted c W s (r, t)
  | raised {d goal action e w} (agency : s.fullAgency = true) (wired : c.deliberation = some d)
      (planned : s.ctx.action = some action) (internal : action.isToolAction = false)
      (pursued : s.ctx.goal = some goal)
      (called : d.act action goal s.ctx.contents s.world = (.error e, w)) :
      Acted c W s (.error e,
        { s with world := w, history := ⟨s.tick, .acting action⟩ :: s.history })
  | acted {d goal action outcome w r t} (agency : s.fullAgency = true)
      (wired : c.deliberation = some d) (planned : s.ctx.action = some action)
      (internal : action.isToolAction = false) (pursued : s.ctx.goal = some goal)
      (called : d.act action goal s.ctx.contents s.world = (.ok outcome, w))
      (after : Quiet W
        { s with world := w, history := ⟨s.tick, .acting action⟩ :: s.history } t) :
      Acted c W s (r, t)

theorem dispatchToolAction_spec (h : c.Confined W) (s : Mind K ω) :
    ((c.dispatch = none ∨ s.ctx.vetted = none ∨ s.ctx.goal = none) ∧
        c.dispatchToolAction s = (.ok (), s)) ∨
      ∃ d v goal, c.dispatch = some d ∧ s.ctx.vetted = some v ∧ s.ctx.goal = some goal ∧
        Settled c W goal (d.commit v s) (c.dispatchToolAction s) := by
  unfold dispatchToolAction
  rw [Prog.reads_bind]
  cases wired : c.dispatch with
  | none => exact .inl ⟨.inl rfl, rfl⟩
  | some d =>
      rw [Prog.onSome_some]
      cases vetted : s.ctx.vetted with
      | none => exact .inl ⟨.inr (.inl rfl), rfl⟩
      | some v =>
          rw [Prog.onSome_some]
          cases pursued : s.ctx.goal with
          | none => exact .inl ⟨.inr (.inr rfl), rfl⟩
          | some goal =>
              refine .inr ⟨d, v, goal, rfl, rfl, rfl, ?_⟩
              rw [Prog.onSome_some]
              rcases committed : d.commit v s with ⟨r, s₁⟩
              cases r with
              | error e =>
                  rw [Prog.bind_of_error committed]
                  exact .failed
              | ok outcome =>
                  rw [Prog.bind_of_ok committed]
                  exact settle_spec h goal outcome _ s₁

theorem actInternally_spec (h : c.Confined W) {s : Mind K ω} {d : DeliberationStage K ω}
    (agency : s.fullAgency = true) (wired : c.deliberation = some d) {action : Action K}
    {goal : Goal K} (planned : s.ctx.action = some action)
    (internal : action.isToolAction = false) (pursued : s.ctx.goal = some goal) :
    Acted c W s (c.actInternally action goal s) := by
  unfold actInternally
  rw [wired, Prog.onSome_some, Prog.reads_bind, Mind.note_bind]
  rcases called : d.act action goal s.ctx.contents s.world with ⟨r, w⟩
  cases r with
  | error e =>
      rw [Mind.outside_bind_error (e := e) (by rw [called]), called]
      exact .raised agency wired planned internal pursued called
  | ok outcome =>
      rw [Mind.outside_bind_ok (a := outcome) (by rw [called]), called]
      exact .acted agency wired planned internal pursued called (QuietProg.keeps
        (.bind (dispatchAction_light h _).quiet fun _ =>
          .forEach (fun _ => enqueueDriveEvent_quiet _) outcome.driveEvents) _)

theorem act_spec (h : c.Confined W) (s : Mind K ω) : Acted c W s (c.act s) := by
  unfold act
  rw [Prog.reads_bind]
  cases agency : s.fullAgency with
  | false => exact .idle (.inl agency)
  | true =>
      simp only [Prog.onlyIf, if_true]
      cases planned : s.ctx.action with
      | none => exact .idle (.inr (.inl planned))
      | some action =>
          rw [Prog.onSome_some]
          cases pursued : s.ctx.goal with
          | none => exact .idle (.inr (.inr (.inl pursued)))
          | some goal =>
              rw [Prog.onSome_some]
              cases tool : action.isToolAction with
              | true =>
                  simp only [if_true]
                  rcases dispatchToolAction_spec h s with ⟨gated, same⟩ | ⟨d, v, g, wired, vetted, same, ended⟩
                  · rw [same]
                    refine .idle (.inr (.inr (.inr (.inl ⟨action, planned, tool, ?_⟩))))
                    rcases gated with none | none | none
                    · exact .inl none
                    · exact .inr none
                    · rw [pursued] at none
                      cases none
                  · exact .committed agency wired planned tool same vetted ended
              | false =>
                  simp only [Bool.false_eq_true, if_false]
                  cases wired : c.deliberation with
                  | none =>
                      unfold actInternally
                      rw [wired]
                      exact .idle (.inr (.inr (.inr (.inr wired))))
                  | some d =>
                      exact actInternally_spec h agency wired planned tool pursued

end CognitiveCycle
end Johnny
