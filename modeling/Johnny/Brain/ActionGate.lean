import Johnny.Brain.Heartbeat

/-!
# The action gate over whole runs

The entries that bear on one tick's tool action have a fixed shape: a tick begins,
a plan is returned, one vet runs, and at most one execution follows an allowing
verdict. Ticks do not mix, so the shape of every tick holds in every state a run
reaches.
-/
namespace Johnny
open CognitiveCycle (proposalOf)
variable {K ω : Type}

/-- The entries that bear on a tick's tool action. -/
def Happening.isGate : Happening K ω → Bool
  | .began _ => true
  | .deliberated _ _ => true
  | .lookedUp _ _ => true
  | .argsChecked _ _ => true
  | .consulted _ _ => true
  | .vetEnded _ => true
  | .ran _ _ => true
  | _ => false

/-- The gate entries of tick `n`, newest first. -/
def gateTrace (n : ℕ) (h : List (Entry K ω)) : List (Entry K ω) :=
  h.filter fun e => e.tick == n && e.what.isGate

/-- What the gate entries of one tick can look like, newest first. -/
inductive GateShape (c : CognitiveCycle K ω) (n : ℕ) : List (Entry K ω) → Prop
  | began (agency : Bool) : GateShape c n [⟨n, .began agency⟩]
  | planned (time : K) (result : DeliberationResult K) :
      GateShape c n [⟨n, .deliberated time result⟩, ⟨n, .began true⟩]
  | vetted {d time result action tool outcome new} (wired : c.dispatch = some d)
      (plan : result.action = some action) (named : action.tool = some tool)
      (trace : VetTrace d n (proposalOf action tool) outcome new) :
      GateShape c n (new ++ [⟨n, .deliberated time result⟩, ⟨n, .began true⟩])
  | ran {d time result action tool v new} (wired : c.dispatch = some d)
      (plan : result.action = some action) (named : action.tool = some tool)
      (trace : VetTrace d n (proposalOf action tool) (.ok v) new)
      (allowed : v.verdict.allowed = true) :
      GateShape c n (⟨n, .ran v.tool v.validated⟩ ::
        (new ++ [⟨n, .deliberated time result⟩, ⟨n, .began true⟩]))

section traces
variable {n m : ℕ} {h new : List (Entry K ω)}

theorem gateTrace_append (n : ℕ) (new h : List (Entry K ω)) :
    gateTrace n (new ++ h) = gateTrace n new ++ gateTrace n h :=
  List.filter_append new h

theorem gateTrace_idle {h : List (Entry K ω)} (new : List (Entry K ω)) (idle : ∀ e ∈ new, e.what.isGate = false) :
    gateTrace n (new ++ h) = gateTrace n h := by
  have none : gateTrace n new = [] := by
    refine List.filter_eq_nil_iff.mpr fun e member => ?_
    rw [idle e member, Bool.and_false]
    exact Bool.false_ne_true
  rw [gateTrace_append, none, List.nil_append]

theorem gateTrace_skip {what : Happening K ω} (idle : what.isGate = false) :
    gateTrace n (⟨m, what⟩ :: h) = gateTrace n h :=
  gateTrace_idle [⟨m, what⟩] (by simpa using idle)

theorem gateTrace_other (at_m : ∀ e ∈ new, e.tick = m) (other : n ≠ m) :
    gateTrace n (new ++ h) = gateTrace n h := by
  have none : gateTrace n new = [] := by
    refine List.filter_eq_nil_iff.mpr fun e member => ?_
    rw [at_m e member, beq_eq_false_iff_ne.mpr (Ne.symm other), Bool.false_and]
    exact Bool.false_ne_true
  rw [gateTrace_append, none, List.nil_append]

theorem Happening.isGate_of_feedback {what : Happening K ω} (feedback : what.isFeedback = true) :
    what.isGate = false := by
  cases what <;> first | rfl | cases feedback

theorem VetTrace.tick {d : EffectorDispatch K ω} {proposal : ProposedAction K}
    {outcome : Except Failure (VettedAction K ω)} (trace : VetTrace d n proposal outcome new) :
    ∀ e ∈ new, e.tick = n := by
  cases trace <;> simp

theorem VetTrace.gate {d : EffectorDispatch K ω} {proposal : ProposedAction K}
    {outcome : Except Failure (VettedAction K ω)} (trace : VetTrace d n proposal outcome new) :
    gateTrace n new = new := by
  cases trace <;> simp [gateTrace, Happening.isGate]

theorem VetTrace.not_ran {d : EffectorDispatch K ω} {proposal : ProposedAction K}
    {outcome : Except Failure (VettedAction K ω)} (trace : VetTrace d n proposal outcome new)
    (tool : Tool K ω) (args : Dict K) : ⟨m, .ran tool args⟩ ∉ new := by
  cases trace <;> simp

end traces

/-! ### The invariant -/

/-- Every tick but the current one has its shape, and no entry is of a later tick. -/
structure OlderShaped (c : CognitiveCycle K ω) (s : Mind K ω) : Prop where
  shaped : ∀ n, n ≠ s.tick → gateTrace n s.history = [] ∨ GateShape c n (gateTrace n s.history)
  bounded : ∀ e ∈ s.history, e.tick ≤ s.tick

/-- Every tick has its shape. -/
structure Shaped (c : CognitiveCycle K ω) (s : Mind K ω) : Prop extends OlderShaped c s where
  current : gateTrace s.tick s.history = [] ∨ GateShape c s.tick (gateTrace s.tick s.history)

/-- Before DELIBERATE. -/
structure GateBegun (c : CognitiveCycle K ω) (s : Mind K ω) : Prop extends OlderShaped c s where
  vetted : s.ctx.vetted = none
  action : s.ctx.action = none
  trace : gateTrace s.tick s.history = [⟨s.tick, .began s.fullAgency⟩]

/-- Before CHECK. -/
structure GatePlanned (c : CognitiveCycle K ω) (s : Mind K ω) : Prop extends OlderShaped c s where
  vetted : s.ctx.vetted = none
  trace : s.ctx.action = none ∧ gateTrace s.tick s.history = [⟨s.tick, .began s.fullAgency⟩] ∨
    ∃ time result, result.action = s.ctx.action ∧ gateTrace s.tick s.history =
      [⟨s.tick, .deliberated time result⟩, ⟨s.tick, .began true⟩]

/-- Before ACT: a verdict in the scratchpad was reached in this tick. -/
structure GateChecked (c : CognitiveCycle K ω) (s : Mind K ω) : Prop extends Shaped c s where
  vetted : ∀ v, s.ctx.vetted = some v → ∃ d time result action tool new, c.dispatch = some d ∧
    result.action = some action ∧ action.tool = some tool ∧
    VetTrace d s.tick (proposalOf action tool) (.ok v) new ∧
    gateTrace s.tick s.history =
      new ++ [⟨s.tick, .deliberated time result⟩, ⟨s.tick, .began true⟩]

section invariant
variable {c : CognitiveCycle K ω} {s t : Mind K ω}

/-- Entries of the current tick leave the older ticks as they were. -/
theorem OlderShaped.grow (older : OlderShaped c s) (new : List (Entry K ω))
    (tick : t.tick = s.tick) (grown : t.history = new ++ s.history)
    (now : ∀ e ∈ new, e.tick = s.tick) : OlderShaped c t := by
  refine ⟨fun n other => ?_, fun e member => ?_⟩
  · rw [tick] at other
    rw [grown, gateTrace_other now other]
    exact older.shaped n other
  · rw [grown] at member
    rw [tick]
    rcases List.mem_append.mp member with later | earlier
    · exact (now e later).le
    · exact older.bounded e earlier

theorem Quiet.gateTrace {W : Frame ω} (q : Quiet W s t) (n : ℕ) :
    gateTrace n t.history = Johnny.gateTrace n s.history := by
  obtain ⟨new, grown, feedback⟩ := q.history
  rw [grown]
  exact gateTrace_idle new fun e member => Happening.isGate_of_feedback (feedback e member).2

theorem Quiet.older {W : Frame ω} (q : Quiet W s t) (older : OlderShaped c s) :
    OlderShaped c t := by
  obtain ⟨new, grown, feedback⟩ := q.history
  exact older.grow new q.tick grown fun e member => (feedback e member).1

theorem Quiet.shaped {W : Frame ω} (q : Quiet W s t) (shaped : Shaped c s) : Shaped c t := by
  refine ⟨q.older shaped.toOlderShaped, ?_⟩
  rw [q.tick, q.gateTrace]
  exact shaped.current

theorem Quiet.begun {W : Frame ω} (q : Quiet W s t) (begun : GateBegun c s) : GateBegun c t := by
  refine ⟨q.older begun.toOlderShaped, q.vetted.trans begun.vetted, q.action.trans begun.action, ?_⟩
  rw [q.tick, q.gateTrace, q.fullAgency]
  exact begun.trace

theorem Quiet.planned {W : Frame ω} (q : Quiet W s t) (planned : GatePlanned c s) :
    GatePlanned c t := by
  refine ⟨q.older planned.toOlderShaped, q.vetted.trans planned.vetted, ?_⟩
  rw [q.tick, q.gateTrace, q.fullAgency, q.action]
  exact planned.trace

theorem Quiet.checked {W : Frame ω} (q : Quiet W s t) (checked : GateChecked c s) :
    GateChecked c t := by
  refine ⟨q.shaped checked.toShaped, fun v vetted => ?_⟩
  rw [q.tick, q.gateTrace]
  exact checked.vetted v (q.vetted.symm.trans vetted)

theorem GateBegun.toShaped (begun : GateBegun c s) : Shaped c s :=
  ⟨begun.toOlderShaped, .inr (by rw [begun.trace]; exact .began _)⟩

theorem GatePlanned.toShaped (planned : GatePlanned c s) : Shaped c s := by
  refine ⟨planned.toOlderShaped, .inr ?_⟩
  rcases planned.trace with ⟨-, trace⟩ | ⟨time, result, -, trace⟩
  · rw [trace]
    exact .began _
  · rw [trace]
    exact .planned time result

/-! ### What each stage makes of the shape -/

section stages
open CognitiveCycle
variable {W : Frame ω}

theorem gate_began [Field K] [LinearOrder K] [FloorRing K] (shaped : Shaped c s) :
    GateBegun c (begun s) := by
  have unseen : gateTrace (s.tick + 1) s.history = [] := by
    refine List.filter_eq_nil_iff.mpr fun e member => ?_
    have := shaped.bounded e member
    rw [beq_eq_false_iff_ne.mpr (by omega), Bool.false_and]
    exact Bool.false_ne_true
  refine ⟨⟨fun n other => ?_, ?_⟩, rfl, rfl, ?_⟩
  · change n ≠ s.tick + 1 at other
    change gateTrace n ([⟨s.tick + 1, .began s.fullAgency⟩] ++ s.history) = [] ∨ GateShape c n
      (gateTrace n ([⟨s.tick + 1, .began s.fullAgency⟩] ++ s.history))
    rw [gateTrace_other (m := s.tick + 1) (by simp) other]
    by_cases now : n = s.tick
    · rw [now]
      exact shaped.current
    · exact shaped.shaped n now
  · intro e member
    rcases List.mem_cons.mp member with rfl | earlier
    · exact le_rfl
    · exact (shaped.bounded e earlier).trans (Nat.le_succ _)
  · change gateTrace (s.tick + 1) ([⟨s.tick + 1, .began s.fullAgency⟩] ++ s.history) = _
    rw [gateTrace_append, unseen, List.append_nil]
    simp [gateTrace, Happening.isGate, begun]

theorem gate_deliberated {r : Except Failure Unit × Mind K ω} (begun : GateBegun c s)
    (ended : Deliberated c W s r) : GatePlanned c r.2 := by
  cases ended with
  | idle _ => exact ⟨begun.toOlderShaped, begun.vetted, .inl ⟨begun.action, begun.trace⟩⟩
  | raised agency wired called =>
      refine ⟨begun.toOlderShaped.grow [⟨s.tick, .deliberating⟩] rfl rfl (by simp),
        begun.vetted, .inl ⟨begun.action, ?_⟩⟩
      exact (gateTrace_skip rfl).trans begun.trace
  | @planned _ result w r t agency wired called after =>
      refine after.planned ⟨begun.toOlderShaped.grow [⟨s.tick, .deliberated (c.clock s.world)
        result⟩, ⟨s.tick, .deliberating⟩] rfl rfl (by simp), begun.vetted,
        .inr ⟨c.clock s.world, result, rfl, ?_⟩⟩
      change gateTrace s.tick ([⟨s.tick, .deliberated (c.clock s.world) result⟩] ++
        (⟨s.tick, .deliberating⟩ :: s.history)) = _
      rw [gateTrace_append, gateTrace_skip
        (show (Happening.deliberating : Happening K ω).isGate = false from rfl), begun.trace, agency]
      simp [gateTrace, Happening.isGate]

theorem gate_checked {r : Except Failure Unit × Mind K ω} (planned : GatePlanned c s)
    (ended : Checked c W s r) : GateChecked c r.2 := by
  have unvetted {w : ω} (new : List (Entry K ω))
      (shaped : Shaped c { s with world := w, history := new ++ s.history }) :
      GateChecked c { s with world := w, history := new ++ s.history } := by
    refine ⟨shaped, fun v vetted => ?_⟩
    rw [planned.vetted] at vetted
    cases vetted
  -- a vet follows this tick's plan, so its trace completes the shape
  have plan {action : Action K} (chosen : s.ctx.action = some action) :
      ∃ time result, result.action = some action ∧ gateTrace s.tick s.history =
        [⟨s.tick, .deliberated time result⟩, ⟨s.tick, .began true⟩] := by
    rcases planned.trace with ⟨none, -⟩ | ⟨time, result, same, trace⟩
    · rw [chosen] at none
      cases none
    · exact ⟨time, result, same.trans chosen, trace⟩
  cases ended with
  | idle _ => exact unvetted [] planned.toShaped
  | @refused d action tool e w new agency wired chosen named moved trace vetted =>
      obtain ⟨time, result, same, before⟩ := plan chosen
      refine unvetted new ⟨planned.toOlderShaped.grow new rfl rfl trace.tick, .inr ?_⟩
      change GateShape c s.tick (gateTrace s.tick (new ++ s.history))
      rw [gateTrace_append, trace.gate, before]
      exact .vetted wired same named trace
  | @vetted d action tool v w new agency wired chosen named moved trace belt =>
      obtain ⟨time, result, same, before⟩ := plan chosen
      have whole : gateTrace s.tick (new ++ s.history) =
          new ++ [⟨s.tick, .deliberated time result⟩, ⟨s.tick, .began true⟩] := by
        rw [gateTrace_append, trace.gate, before]
      refine ⟨⟨planned.toOlderShaped.grow new rfl rfl trace.tick, .inr ?_⟩, ?_⟩
      · change GateShape c s.tick (gateTrace s.tick (new ++ s.history))
        rw [whole]
        exact .vetted wired same named trace
      · rintro v' ⟨⟩
        exact ⟨d, time, result, action, tool, new, wired, same, named, trace, whole⟩

theorem gate_settled {goal : Goal K}
    {r : Except Failure (DispatchOutcome K) × Mind K ω} {r' : Except Failure Unit × Mind K ω}
    (shaped : Shaped c r.2) (ended : Settled c W goal r r') : Shaped c r'.2 := by
  cases ended with
  | failed => exact shaped
  | unsettled quiet _ => exact quiet.shaped shaped
  | refused quiet _ _ =>
      have := quiet.shaped shaped
      exact ⟨⟨this.shaped, this.bounded⟩, this.current⟩
  | settled quiet _ _ after =>
      have := quiet.shaped shaped
      exact after.shaped ⟨⟨this.shaped, this.bounded⟩, this.current⟩

theorem gate_acted {r : Except Failure Unit × Mind K ω} (checked : GateChecked c s)
    (ended : Acted c Frame.any s r) : Shaped c r.2 := by
  have acting (w : ω) (action : Action K) :
      Shaped c { s with world := w, history := ⟨s.tick, .acting action⟩ :: s.history } := by
    refine ⟨checked.toOlderShaped.grow [⟨s.tick, .acting action⟩] rfl rfl (by simp), ?_⟩
    change gateTrace s.tick (⟨s.tick, .acting action⟩ :: s.history) = [] ∨ GateShape c s.tick
      (gateTrace s.tick (⟨s.tick, .acting action⟩ :: s.history))
    rw [gateTrace_skip rfl]
    exact checked.current
  cases ended with
  | idle _ => exact checked.toShaped
  | raised _ _ _ _ _ _ => exact acting _ _
  | acted _ _ _ _ _ _ after => exact after.shaped (acting _ _)
  | @committed d v goal action r t agency wired planned tool pursued vetted after =>
      refine gate_settled ?_ after
      obtain ⟨w, records, grown, -, small⟩ := d.commit_spec
        (((c.confined_any).dispatch d wired)) (v := v) (fun _ _ => trivial) s
      obtain ⟨d', time, result, action', tool', new, wired', plan, named, trace, before⟩ :=
        checked.vetted v vetted
      rw [grown]
      have quietRecords : ∀ e ∈ records, e.what.isGate = false := by
        intro e member
        obtain ⟨rec, rfl⟩ := small e member
        rfl
      have now : ∀ e ∈ ⟨s.tick, .commitEnded (d.commit v s).1⟩ ::
          (records ++ startedBy v s.tick), e.tick = s.tick := by
        intro e member
        rcases List.mem_cons.mp member with rfl | member
        · rfl
        rcases List.mem_append.mp member with recorded | started
        · obtain ⟨rec, rfl⟩ := small e recorded
          rfl
        · unfold startedBy at started
          split at started
          · rw [List.mem_singleton.mp started]
          · cases started
      have trace' : gateTrace s.tick (⟨s.tick, .commitEnded (d.commit v s).1⟩ ::
          (records ++ (startedBy v s.tick ++ s.history))) =
          gateTrace s.tick (startedBy v s.tick) ++ gateTrace s.tick s.history := by
        rw [gateTrace_skip rfl, gateTrace_idle records quietRecords, gateTrace_append]
      refine ⟨checked.toOlderShaped.grow _ rfl (by simp) now, .inr ?_⟩
      change GateShape c s.tick (gateTrace s.tick (_ :: (records ++ (_ ++ s.history))))
      rw [trace', before]
      cases allowed : v.verdict.allowed with
      | true =>
          have started : gateTrace s.tick (startedBy v s.tick) =
              [⟨s.tick, .ran v.tool v.validated⟩] := by
            simp [startedBy, allowed, gateTrace, Happening.isGate]
          rw [started]
          exact .ran wired' plan named trace allowed
      | false =>
          have idle : gateTrace s.tick (startedBy v s.tick) = [] := by
            simp [startedBy, allowed, gateTrace]
          rw [idle]
          exact .vetted wired' plan named trace

theorem gate_tickPlan [Field K] [LinearOrder K] [FloorRing K] (c : CognitiveCycle K ω) :
    TickPlan c Frame.any (Shaped c) (GateBegun c) (GatePlanned c) (GateChecked c) (Shaped c)
      (Shaped c) where
  began _ shaped := gate_began shaped
  deliberated _ _ begun ended :=
    ⟨fun _ => gate_deliberated begun ended, (gate_deliberated begun ended).toShaped⟩
  checked _ _ planned ended :=
    ⟨fun _ => gate_checked planned ended, (gate_checked planned ended).toShaped⟩
  acted _ _ checked ended := ⟨fun _ => gate_acted checked ended, gate_acted checked ended⟩
  stable₀ _ _ q := q.begun
  stable₁ _ _ q := q.planned
  stable₂ _ _ q := q.checked
  stable _ _ q := q.shaped
  weaken₀ _ := GateBegun.toShaped
  weaken _ shaped := shaped

/-- Entries that bear on no tool action, at the current tick, keep every shape. -/
theorem Shaped.skip (shaped : Shaped c s) (what : Happening K ω) (idle : what.isGate = false)
    (tick : t.tick = s.tick) (grown : t.history = ⟨s.tick, what⟩ :: s.history) : Shaped c t := by
  refine ⟨shaped.toOlderShaped.grow [⟨s.tick, what⟩] tick grown (by simp), ?_⟩
  rw [tick, grown, gateTrace_skip idle]
  exact shaped.current

theorem gate_slept [Field K] [LinearOrder K] [FloorRing K] {r : Except Failure Unit × Mind K ω}
    (shaped : Shaped c s) (slept : Slept c Frame.any s r) : Shaped c r.2 := by
  cases slept with
  | quietly quiet => exact quiet.shaped shaped
  | @raised sc trigger s₁ e s₂ _ before _ _ _ _ ended =>
      have awake := before.shaped shaped
      cases ended with
      | unchecked _ => exact ⟨⟨awake.shaped, awake.bounded⟩, awake.current⟩
      | cut _ => exact awake.skip (.selfChecked false) rfl rfl rfl
      | @lost _ _ verdict _ _ => exact awake.skip (.selfChecked verdict) rfl rfl rfl
  | @woke sc trigger s₁ report s₂ r t _ before _ ended after =>
      have awake := before.shaped shaped
      refine after.shaped ?_
      cases ended with
      | woke _ => exact awake.skip (.selfChecked report.selfCheckOk) rfl rfl rfl

end stages

end invariant

/-- The shape of every tick, in every state a run from a fresh Mind reaches. -/
theorem run_shaped [Field K] [LinearOrder K] [FloorRing K] (c : CognitiveCycle K ω)
    (turns : List (CognitiveCycle.Turn K ω)) (world : ω) :
    Shaped c (c.run turns (c.fresh world)).2 := by
  refine CognitiveCycle.run_invariant (W := Frame.any) (C := fun _ => True) (I := Shaped c)
    c.confined_any ?_ ?_ (fun _ _ _ => trivial) ?_ fun _ _ _ _ _ => trivial
  · refine ⟨?_, ?_, fun _ _ q => q.shaped, fun _ shaped => shaped⟩
    · exact (CognitiveCycle.tick_triple c.confined_any (gate_tickPlan c)).mono (fun _ pre => pre.1)
        (fun _ _ post => post) fun _ _ cut => cut
    · intro s s₁ r _ _ shaped slept
      exact ⟨fun _ => gate_slept shaped slept, gate_slept shaped slept⟩
  · intro result s shaped
    exact shaped.skip (.wakeChecked result.ok) rfl rfl rfl
  · exact ⟨⟨fun _ _ => .inl rfl, List.forall_mem_nil _⟩, .inl rfl⟩

/-! ### What the shape says of an execution -/

/-- The entries, newest first, that license an execution of `tool` on `args` in tick
`n`: full agency, the plan, the lookup, the checked arguments, the consultation and an
allowing verdict for that tool and these arguments, with the tool's own hazard class. -/
def Licensed (c : CognitiveCycle K ω) (n : ℕ) (tool : Tool K ω) (args : Dict K)
    (earlier : List (Entry K ω)) : Prop :=
  ∃ d time result action v completion, c.dispatch = some d ∧ result.action = some action ∧
    action.tool = some tool.name ∧ v.action.tool = tool.name ∧ v.action.args = action.toolArgs ∧
    v.action.danger = tool.danger.label ∧ v.tool = tool ∧ v.validated = args ∧
    tool.validateArgs v.action.args = .ok args ∧
    d.conscience.parseVerdict completion.content = .ok v.verdict ∧ v.verdict.allowed = true ∧
    [⟨n, .vetEnded (.ok v)⟩, ⟨n, .consulted v.action (.ok completion)⟩,
      ⟨n, .argsChecked v.action.args (.ok args)⟩, ⟨n, .lookedUp tool.name (some tool)⟩,
      ⟨n, .deliberated time result⟩, ⟨n, .began true⟩].Sublist earlier

/-- What rules a tick's execution out: suspended agency, an unknown tool, arguments
that fail its schema, a conscience that fails, answers nonsense or vetoes. -/
def Happening.Blocks (c : CognitiveCycle K ω) : Happening K ω → Prop
  | .began agency => agency = false
  | .lookedUp _ found => found = none
  | .argsChecked _ outcome => ∃ e, outcome = .error e
  | .consulted _ reply => ∀ d v, c.dispatch = some d → d.conscience.verdictOf reply = .ok v →
      v.allowed = false
  | .vetEnded outcome => ∀ v, outcome = .ok v → v.verdict.allowed = false
  | _ => False

section shape
variable {c : CognitiveCycle K ω} {n : ℕ} {l xs ys : List (Entry K ω)} {tool : Tool K ω}
  {args : Dict K}

/-- An allowing verdict is a parsed reply: without the model the verdict is a veto. -/
theorem Conscience.allowed_reply {co : Conscience K ω} {reply : Except Failure Completion}
    {v : Verdict} (judged : co.verdictOf reply = .ok v) (allowed : v.allowed = true) :
    ∃ completion, reply = .ok completion ∧ co.parseVerdict completion.content = .ok v := by
  cases reply with
  | ok completion => exact ⟨completion, rfl, judged⟩
  | error e =>
      unfold Conscience.verdictOf at judged
      dsimp only at judged
      split at judged
      · cases judged
        cases allowed
      · cases judged

theorem VetTrace.licensed {d : EffectorDispatch K ω} {time : K} {result : DeliberationResult K}
    {action : Action K} {name : String} {v : VettedAction K ω} {new : List (Entry K ω)}
    (wired : c.dispatch = some d) (plan : result.action = some action)
    (named : action.tool = some name) (trace : VetTrace d n (proposalOf action name) (.ok v) new)
    (allowed : v.verdict.allowed = true) :
    Licensed c n v.tool v.validated
      (new ++ [⟨n, .deliberated time result⟩, ⟨n, .began true⟩]) := by
  cases trace with
  | judged tool args reply verdict same checked judged =>
      obtain ⟨completion, rfl, parsed⟩ := Conscience.allowed_reply judged allowed
      change tool.name = name at same
      subst same
      exact ⟨d, time, result, action, _, completion, wired, plan, named, rfl, rfl, rfl, rfl, rfl,
        checked, parsed, allowed, .refl _⟩

theorem GateShape.ran_licensed (shape : GateShape c n l)
    (found : l = xs ++ ⟨n, .ran tool args⟩ :: ys) : xs = [] ∧ Licensed c n tool args ys := by
  have member : ⟨n, .ran tool args⟩ ∈ l := by
    rw [found]
    exact List.mem_append_right _ List.mem_cons_self
  cases shape with
  | began agency => simp at member
  | planned time result => simp at member
  | vetted wired plan named trace =>
      rcases List.mem_append.mp member with inVet | inPlan
      · exact absurd inVet (trace.not_ran tool args)
      · simp at inPlan
  | @ran _ time result _ _ v new wired plan named trace allowed =>
      cases xs with
      | nil =>
          injection found with head tail
          injection head with _ ran
          injection ran with sameTool sameArgs
          rw [← tail, ← sameTool, ← sameArgs]
          exact ⟨rfl, trace.licensed wired plan named allowed⟩
      | cons x xs =>
          injection found with _ tail
          have inside : ⟨n, .ran tool args⟩ ∈
              new ++ [⟨n, .deliberated time result⟩, ⟨n, .began true⟩] := by
            rw [tail]
            exact List.mem_append_right _ List.mem_cons_self
          rcases List.mem_append.mp inside with inVet | inPlan
          · exact absurd inVet (trace.not_ran tool args)
          · simp at inPlan

theorem GateShape.blocked (shape : GateShape c n l) {e : Entry K ω} (member : e ∈ l)
    (blocks : e.what.Blocks c) : ⟨n, .ran tool args⟩ ∉ l := by
  intro ran
  obtain ⟨xs, ys, found⟩ := List.append_of_mem ran
  cases shape with
  | began agency => simp at ran
  | planned time result => simp at ran
  | vetted wired plan named trace =>
      rcases List.mem_append.mp ran with inVet | inPlan
      · exact absurd inVet (trace.not_ran tool args)
      · simp at inPlan
  | ran wired plan named trace allowed =>
      cases trace with
      | judged t a reply verdict same checked judged =>
          simp only [List.cons_append, List.nil_append, List.mem_cons, List.not_mem_nil,
            or_false] at member
          rcases member with rfl | rfl | rfl | rfl | rfl | rfl | rfl
          · exact blocks
          · have vetoed := blocks _ rfl
            rw [allowed] at vetoed
            cases vetoed
          · have vetoed := blocks _ _ wired judged
            change verdict.allowed = true at allowed
            rw [allowed] at vetoed
            cases vetoed
          · obtain ⟨e, failed⟩ := blocks
            cases failed
          · cases blocks
          · exact blocks
          · cases blocks

end shape

/-- Whatever the plans, the replies and the failures of a run: an execution is licensed
by its own tick, each tick has at most one, and a blocking entry leaves its tick none. -/
theorem run_action_gate [Field K] [LinearOrder K] [FloorRing K] (c : CognitiveCycle K ω)
    (turns : List (CognitiveCycle.Turn K ω)) (world : ω) :
    (∀ later earlier n tool args, (c.run turns (c.fresh world)).2.history =
        later ++ ⟨n, .ran tool args⟩ :: earlier → Licensed c n tool args earlier) ∧
      (∀ later between earlier n tool args tool' args', (c.run turns (c.fresh world)).2.history ≠
        later ++ ⟨n, .ran tool args⟩ :: (between ++ ⟨n, .ran tool' args'⟩ :: earlier)) ∧
      ∀ e ∈ (c.run turns (c.fresh world)).2.history, e.what.Blocks c → ∀ tool args,
        ⟨e.tick, .ran tool args⟩ ∉ (c.run turns (c.fresh world)).2.history := by
  have shaped := run_shaped c turns world
  generalize (c.run turns (c.fresh world)).2 = s at shaped ⊢
  have ticks (n : ℕ) : gateTrace n s.history = [] ∨ GateShape c n (gateTrace n s.history) := by
    by_cases now : n = s.tick
    · rw [now]
      exact shaped.current
    · exact shaped.shaped n now
  have seen {n : ℕ} {later earlier : List (Entry K ω)} {tool : Tool K ω} {args : Dict K}
      (split : s.history = later ++ ⟨n, .ran tool args⟩ :: earlier) :
      gateTrace n s.history =
        gateTrace n later ++ ⟨n, .ran tool args⟩ :: gateTrace n earlier := by
    rw [split, gateTrace_append]
    congr 1
    exact List.filter_cons_of_pos (by simp [Happening.isGate])
  refine ⟨?_, ?_, ?_⟩
  · intro later earlier n tool args split
    rcases ticks n with none | shape
    · rw [seen split] at none
      simp at none
    · obtain ⟨-, d, time, result, action, v, completion, h⟩ := shape.ran_licensed (seen split)
      obtain ⟨h₁, h₂, h₃, h₄, h₅, h₆, h₇, h₈, h₉, h₁₀, h₁₁, sub⟩ := h
      exact ⟨d, time, result, action, v, completion, h₁, h₂, h₃, h₄, h₅, h₆, h₇, h₈, h₉, h₁₀, h₁₁,
        sub.trans List.filter_sublist⟩
  · intro later between earlier n tool args tool' args' split
    have regrouped : s.history = (later ++ ⟨n, .ran tool args⟩ :: between) ++
        ⟨n, .ran tool' args'⟩ :: earlier := by
      rw [split, List.append_assoc, List.cons_append]
    rcases ticks n with none | shape
    · rw [seen split] at none
      simp at none
    · obtain ⟨empty, -⟩ := shape.ran_licensed (seen regrouped)
      have : ⟨n, .ran tool args⟩ ∈ gateTrace n (later ++ ⟨n, .ran tool args⟩ :: between) :=
        List.mem_filter.mpr ⟨List.mem_append_right _ List.mem_cons_self,
          by simp [Happening.isGate]⟩
      rw [empty] at this
      cases this
  · intro e member blocks tool args ran
    have gate : e.what.isGate = true := by
      rcases e with ⟨n, what⟩
      cases what <;> first | rfl | exact absurd blocks id
    have inTrace : e ∈ gateTrace e.tick s.history :=
      List.mem_filter.mpr ⟨member, by simp [gate]⟩
    have ranInTrace : ⟨e.tick, .ran tool args⟩ ∈ gateTrace e.tick s.history :=
      List.mem_filter.mpr ⟨ran, by simp [Happening.isGate]⟩
    rcases ticks e.tick with none | shape
    · rw [none] at inTrace
      cases inTrace
    · exact shape.blocked inTrace blocks ranInTrace

end Johnny
