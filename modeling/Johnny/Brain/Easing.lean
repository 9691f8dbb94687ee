import Johnny.Agents.Cadence
import Johnny.Brain.Feedback
import Johnny.Goals.Arbiter

/-!
# Closing a goal and easing its drive

ACT closes the goal in the store and queues what eases its drive in two steps. They
agree unless something is lost between them: the answer of the transaction that closed
the goal, or, after an internal action, the broadcast of its outcome.
-/
namespace Johnny
variable {K ω : Type}

/-! ### Closing a goal -/

/-- The goal was closed as achieved between the two databases. -/
def Achieved (goal : Goal K) (before after : Database Failure (GoalTable K) ℕ) : Prop :=
  ∃ new, after.versions = new ++ before.versions ∧ ∃ table ∈ new, ∃ row ∈ table.rows,
    some row.id = goal.id ∧ row.status = .resolved ∧
      dictGet row.outcome "success" ≠ some (.bool false)

/-- The next goal transaction takes effect, and finds the goal's row. -/
def Marks (goal : Goal K) (d : Database Failure (GoalTable K) ℕ) : Prop :=
  ∃ id, goal.id = some id ∧ (d.tables.row? id).isSome = true ∧ d.ending.takesEffect = true

/-- The next goal transaction returns, or none is needed. -/
def Returns (goal : Goal K) (d : Database Failure (GoalTable K) ℕ) : Prop :=
  goal.id = none ∨ d.ending.acknowledged = true

theorem not_achieved_self {goal : Goal K} {before after : Database Failure (GoalTable K) ℕ}
    (same : after.versions = before.versions) : ¬ Achieved goal before after := by
  rintro ⟨new, grown, table, member, _⟩
  rw [same] at grown
  rw [List.self_eq_append_left.mp grown] at member
  cases member

theorem achieved_single {goal : Goal K} {before after : Database Failure (GoalTable K) ℕ}
    {table : GoalTable K} (grown : after.versions = table :: before.versions) :
    Achieved goal before after ↔ ∃ row ∈ table.rows, some row.id = goal.id ∧
      row.status = .resolved ∧ dictGet row.outcome "success" ≠ some (.bool false) := by
  constructor
  · rintro ⟨new, grown', visible, member, found⟩
    have only : new = [table] := by
      refine (List.append_left_inj before.versions).mp ?_
      rw [← grown', grown]
      rfl
    rw [only] at member
    rw [← List.mem_singleton.mp member]
    exact found
  · intro found
    exact ⟨[table], grown, table, List.mem_singleton_self _, found⟩

namespace GoalTable

theorem row?_none {t : GoalTable K} {id : ℕ} (missing : t.row? id = none) {row : GoalRow K}
    (stored : row ∈ t.rows) : row.id ≠ id := by
  have other := List.find?_eq_none.mp missing row stored
  simpa using other

theorem mem_close {t : GoalTable K} {id : ℕ} {row : GoalRow K} (found : t.row? id = some row)
    (status : GoalStatus) (outcome : Dict K) (now : K) :
    { row with status := status, outcome := outcome, resolvedAt := some now } ∈
      (t.close id status outcome now).rows ∧ row.id = id := by
  have hit : row.id = id := by simpa using List.find?_some found
  refine ⟨List.mem_map.mpr ⟨row, List.mem_of_find?_eq_some found, ?_⟩, hit⟩
  rw [GoalRow.closed, if_pos hit]

/-- What the closed row looks like. -/
theorem of_mem_close {t : GoalTable K} {id : ℕ} {status : GoalStatus} {outcome : Dict K} {now : K}
    {row : GoalRow K} (member : row ∈ (t.close id status outcome now).rows) (hit : row.id = id) :
    row.status = status ∧ row.outcome = outcome := by
  obtain ⟨old, _, rfl⟩ := List.mem_map.mp member
  rw [GoalRow.closed_id] at hit
  rw [GoalRow.closed, if_pos hit]
  exact ⟨rfl, rfl⟩

end GoalTable

namespace GoalStore

/-- The goals after a close that takes effect. -/
def closedTable (t : GoalTable K) (id : ℕ) (status : GoalStatus) (outcome : Dict K) (now : K) :
    GoalTable K :=
  match t.row? id with
  | none => t
  | some _ => t.close id status outcome now

theorem closeRow_apply (id : ℕ) (status : GoalStatus) (outcome : Dict K) (now : K)
    (t : GoalTable K × ℕ) :
    closeRow id status outcome now t = (.ok (), (closedTable t.1 id status outcome now, t.2)) := by
  unfold closeRow closedTable
  rw [Prog.modify_apply]
  cases t.1.row? id <;> rfl

/-- When a resolution returns, and when it marks the goal as achieved. -/
theorem resolve_spec (s : GoalStore K ω) {id : ℕ} (outcome : Dict K) (w : ω) {goal : Goal K}
    (named : goal.id = some id) :
    ((s.resolve id outcome w).1 = .ok () ↔ Returns goal (s.db.get w)) ∧
      (Achieved goal (s.db.get w) (s.db.get (s.resolve id outcome w).2) ↔
        Marks goal (s.db.get w) ∧ dictGet outcome "success" ≠ some (.bool false)) := by
  obtain ⟨returned, versions⟩ := Database.transact_of_ok
    (closeRow_apply id .resolved outcome (s.nowFn w)
      ((s.db.get w).tables, (s.db.get w).sequences))
  have ran : s.resolve id outcome w = s.scope (closeRow id .resolved outcome (s.nowFn w)) w := rfl
  rw [ran, Sessions.scope_db]
  unfold Sessions.after
  refine ⟨?_, ?_⟩
  · rw [Sessions.scope_apply, returned]
    simp [Returns, named]
  · cases effect : (s.db.get w).ending.takesEffect with
    | false =>
        rw [effect] at versions
        refine iff_of_false (not_achieved_self versions) ?_
        rintro ⟨⟨_, _, _, took⟩, _⟩
        rw [effect] at took
        cases took
    | true =>
        rw [effect] at versions
        rw [achieved_single versions]
        unfold closedTable
        dsimp only
        cases found : (s.db.get w).tables.row? id with
        | none =>
            refine iff_of_false ?_ ?_
            · rintro ⟨row, stored, same, _⟩
              rw [named] at same
              exact GoalTable.row?_none found stored (Option.some.inj same)
            · rintro ⟨⟨id', named', stored, _⟩, _⟩
              rw [named] at named'
              rw [← Option.some.inj named', found] at stored
              cases stored
        | some row =>
            obtain ⟨stored, hit⟩ := GoalTable.mem_close found .resolved outcome (s.nowFn w)
            constructor
            · rintro ⟨row', stored', same, _, told⟩
              rw [named] at same
              rw [(GoalTable.of_mem_close stored' (Option.some.inj same)).2] at told
              exact ⟨⟨id, named, by rw [found]; rfl, effect⟩, told⟩
            · rintro ⟨_, told⟩
              exact ⟨_, stored, by rw [named, ← hit], rfl, told⟩

end GoalStore

/-! ### Deliberation up to the closing of the goal -/

namespace Deliberation
variable [Field K] {d : Deliberation K ω} {store : GoalStore K ω}

/-- An internal action up to the closing of its goal. -/
def carriedOut (d : Deliberation K ω) (action : Action K) (contents : List (WorkspaceItem K)) :
    Prog Failure (Deliberating K ω) String := do
  d.advance
  let summary ← d.execute action contents
  d.remember summary
  pure summary

/-- The outcome an internal action closes its goal with. -/
def actOutcome (action : Action K) (goal : Goal K) (summary : String) : Dict K :=
  [("action", .str action.kind), ("summary", .str summary),
    ("events", eventKinds (satisfactionEvents goal))]

theorem act_eq (d : Deliberation K ω) (action : Action K) (goal : Goal K)
    (contents : List (WorkspaceItem K)) :
    d.act action goal contents = d.carriedOut action contents >>= fun summary =>
      d.close goal (actOutcome action goal summary) >>= fun _ =>
      pure ⟨action.kind, true, summary, satisfactionEvents goal⟩ := by
  unfold carriedOut
  simp only [Prog.bind_assoc']
  rfl

/-- The outcome a settled tool action closes its goal with. -/
def settleOutcome (goal : Goal K) (summary : String) (success : Bool) : Dict K :=
  [("action", .str "tool"), ("summary", .str summary),
    ("events", eventKinds (if success then satisfactionEvents goal else [])),
    ("success", .bool success)]

theorem settle_eq (d : Deliberation K ω) (goal : Goal K) (summary : String) (success : Bool)
    (s : Deliberating K ω) :
    d.settleToolAction goal summary success s =
      (d.close goal (settleOutcome goal summary success) >>= fun _ =>
        pure (if success then satisfactionEvents goal else []))
        { s with lastActed := some (d.clock s.world) } := rfl

theorem carriedOut_aside {W : Frame ω} (others : d.OthersKeep W) (action : Action K)
    (contents : List (WorkspaceItem K)) (s : Deliberating K ω) :
    W.rel s.world (d.carriedOut action contents s).2.world := by
  have rest : Prog.Within (aside W).rel (do
      let summary ← d.execute action contents
      d.remember summary
      pure summary : Prog Failure (Deliberating K ω) String) :=
    .bind (execute_aside others action contents) fun summary =>
      .bind (remember_aside others summary) fun _ => .pure _
  exact (rest.keeps (F := aside W) (fun _ _ moved => moved)
    { s with lastActed := some (d.clock s.world) }).2

omit [Field K] in
theorem close_spec (resolves : d.resolve = store.resolve) (goal : Goal K) (outcome : Dict K)
    (s : Deliberating K ω) :
    ((d.close goal outcome s).1 = .ok () ↔ Returns goal (store.db.get s.world)) ∧
      (Achieved goal (store.db.get s.world) (store.db.get (d.close goal outcome s).2.world) ↔
        Marks goal (store.db.get s.world) ∧
          dictGet outcome "success" ≠ some (.bool false)) := by
  unfold close
  cases named : goal.id with
  | none =>
      refine ⟨iff_of_true rfl (.inl named), iff_of_false (not_achieved_self rfl) ?_⟩
      rintro ⟨⟨id, some, _⟩, _⟩
      rw [named] at some
      cases some
  | some id =>
      rw [Prog.onSome_some, resolves]
      exact store.resolve_spec outcome s.world named

end Deliberation

/-! ### ACT -/

namespace CognitiveCycle
variable [Field K] [LinearOrder K] {c : CognitiveCycle K (Deliberating K ω)} {d : Deliberation K ω}
  {store : GoalStore K ω}

/-- The goals as the Mind finds them. -/
def goals (store : GoalStore K ω) (s : Mind K (Deliberating K ω)) :
    Database Failure (GoalTable K) ℕ := store.db.get s.world.world

/-- What eases the drive was queued if the goal was closed as achieved, and only then. -/
structure Eases (store : GoalStore K ω) (goal : Goal K) (s t : Mind K (Deliberating K ω)) :
    Prop where
  closed : Achieved goal (goals store s) (goals store t) →
    t.pendingEvents = s.pendingEvents ++ Deliberation.satisfactionEvents goal
  unclosed : ¬ Achieved goal (goals store s) (goals store t) → t.pendingEvents = s.pendingEvents

/-- Deliberation is wired over these goals, and nothing else around ACT writes them. -/
structure GoalsApart (c : CognitiveCycle K (Deliberating K ω)) (d : Deliberation K ω)
    (store : GoalStore K ω) (s : Mind K (Deliberating K ω)) : Prop where
  deliberation : c.deliberation = some d.stage
  resolves : d.resolve = store.resolve
  others : d.OthersKeep (Frame.eqOn store.db.get)
  around : c.Confined (Frame.eqOn fun x => store.db.get x.world)
  tool : ∀ v, s.ctx.vetted = some v → ∀ args,
    Prog.Keeps (Frame.eqOn fun x => store.db.get x.world) (v.tool.run args)

/-- The broadcast of an internal action's outcome. -/
def dispatched (action : Action K) (goal : Goal K) (summary : String) : WorkspaceEvent K where
  module := "effectors"
  type := "action.dispatched"
  payload := [("action", .str action.kind), ("goal_id", jsonId goal.id),
    ("goal_source", .str goal.source), ("summary", .str summary), ("success", .bool true)]


/-- Whatever is left to broadcast once the goal was closed is broadcast. -/
def Sends (c : CognitiveCycle K (Deliberating K ω)) (d : Deliberation K ω) (action : Action K)
    (goal : Goal K) (s : Mind K (Deliberating K ω)) : Prop :=
  ∀ summary x₁ x₂, d.carriedOut action s.ctx.contents s.world = (.ok summary, x₁) →
    d.close goal (Deliberation.actOutcome action goal summary) x₁ = (.ok (), x₂) →
    (c.broadcast (dispatched action goal summary) x₂).1 = .ok ()

/-- The tool action of this tick comes to be settled as a success. -/
def ComesToSuccess (c : CognitiveCycle K (Deliberating K ω)) (action : Action K)
    (s : Mind K (Deliberating K ω)) : Prop :=
  ∃ dispatch v outcome s₁ s₂, c.dispatch = some dispatch ∧ s.ctx.vetted = some v ∧
    dispatch.commit v s = (.ok outcome, s₁) ∧ c.settledBy action.tool outcome s₁ = (.ok true, s₂)

/-- Where the closing of a goal and the easing of its drive agree: a goal whose drive there
is something to ease with is marked exactly where the answer and the broadcast come
through. -/
def NothingLost (c : CognitiveCycle K (Deliberating K ω)) (d : Deliberation K ω)
    (store : GoalStore K ω) (goal : Goal K) (s : Mind K (Deliberating K ω)) : Prop :=
  s.fullAgency = true → ∀ action, s.ctx.action = some action →
    Deliberation.satisfactionEvents goal ≠ [] →
      if action.isToolAction then ComesToSuccess c action s →
        (Marks goal (goals store s) ↔ Returns goal (goals store s))
      else (∃ summary x₁, d.carriedOut action s.ctx.contents s.world = (.ok summary, x₁)) →
        (Marks goal (goals store s) ↔ Returns goal (goals store s) ∧ Sends c d action goal s)

variable {s t : Mind K (Deliberating K ω)} {goal : Goal K} {action : Action K}

omit [Field K] [LinearOrder K] in
theorem enqueueAll_apply (events : List (DriveEvent K)) (s : Mind K (Deliberating K ω)) :
    (Prog.forEach events enqueueDriveEvent s).2.pendingEvents = s.pendingEvents ++ events ∧
      (Prog.forEach events enqueueDriveEvent s).2.world = s.world := by
  induction events generalizing s with
  | nil => exact ⟨(List.append_nil _).symm, rfl⟩
  | cons event events ih =>
      obtain ⟨pending, world⟩ := ih { s with
        history := ⟨s.tick, .enqueued event⟩ :: s.history
        pendingEvents := s.pendingEvents ++ [event] }
      refine ⟨pending.trans ?_, world⟩
      rw [List.append_assoc]
      rfl

omit [LinearOrder K] in
/-- An end of ACT that left the goal and the queue alone. -/
theorem eases_of_unclosed (pending : t.pendingEvents = s.pendingEvents)
    (versions : (goals store t).versions = (goals store s).versions) : Eases store goal s t :=
  ⟨fun achieved => absurd achieved (not_achieved_self versions), fun _ => pending⟩

omit [LinearOrder K] in
/-- An end of ACT that marked the goal under `marks` and queued the events under `queued`. -/
theorem eases_iff {marks queued : Prop}
    (achieved : Achieved goal (goals store s) (goals store t) ↔ marks)
    (there : queued →
      t.pendingEvents = s.pendingEvents ++ Deliberation.satisfactionEvents goal)
    (absent : ¬ queued → t.pendingEvents = s.pendingEvents) :
    Eases store goal s t ↔
      (Deliberation.satisfactionEvents goal ≠ [] → (marks ↔ queued)) := by
  constructor
  · intro eases events
    have differ : t.pendingEvents = s.pendingEvents ++ Deliberation.satisfactionEvents goal →
        t.pendingEvents ≠ s.pendingEvents := by
      intro more same
      rw [more] at same
      exact events (List.append_right_eq_self.mp same)
    constructor
    · intro marked
      by_contra unqueued
      exact differ (eases.closed (achieved.mpr marked)) (absent unqueued)
    · intro put
      by_contra unmarked
      exact differ (there put) (eases.unclosed fun done => unmarked (achieved.mp done))
  · intro agree
    by_cases events : Deliberation.satisfactionEvents goal = []
    · have same : t.pendingEvents = s.pendingEvents := by
        by_cases put : queued
        · rw [there put, events, List.append_nil]
        · exact absent put
      exact ⟨fun _ => by rw [same, events, List.append_nil], fun _ => same⟩
    · refine ⟨fun done => there ((agree events).mp (achieved.mp done)), fun undone => ?_⟩
      exact absent fun put => undone (achieved.mpr ((agree events).mpr put))


theorem actInternally_eases (apart : GoalsApart c d store s) (action : Action K) (goal : Goal K) :
    Eases store goal s (c.actInternally action goal s).2 ↔
      (Deliberation.satisfactionEvents goal ≠ [] →
        (∃ summary x₁, d.carriedOut action s.ctx.contents s.world = (.ok summary, x₁)) →
          (Marks goal (goals store s) ↔ Returns goal (goals store s) ∧ Sends c d action goal s)) := by
  have kept := Deliberation.carriedOut_aside apart.others action s.ctx.contents s.world
  unfold actInternally
  rw [apart.deliberation, Prog.onSome_some, Prog.reads_bind, Mind.note_bind]
  change Eases store goal s ((Mind.outside (d.act action goal s.ctx.contents) >>= _) _).2 ↔ _
  rcases ran : d.carriedOut action s.ctx.contents s.world with ⟨r, x₁⟩
  rw [ran] at kept
  have same : store.db.get x₁.world = goals store s := kept
  cases r with
  | error e =>
      have acted : d.act action goal s.ctx.contents s.world = (.error e, x₁) := by
        rw [Deliberation.act_eq, Prog.bind_of_error ran]
      rw [Mind.outside_bind_error (e := e) (by rw [acted]), acted]
      refine iff_of_true (eases_of_unclosed rfl (congrArg Database.versions same)) ?_
      rintro _ ⟨summary, x, returned⟩
      cases returned
  | ok summary =>
      obtain ⟨returns, achieved⟩ := Deliberation.close_spec apart.resolves goal
        (Deliberation.actOutcome action goal summary) x₁
      rw [same] at returns achieved
      have told : dictGet (Deliberation.actOutcome action goal summary) "success" ≠
          some (.bool false) := nofun
      have marked : Achieved goal (goals store s) (store.db.get
          (d.close goal (Deliberation.actOutcome action goal summary) x₁).2.world) ↔
          Marks goal (goals store s) := achieved.trans (and_iff_left told)
      have carried : ∃ summary' x, ((Except.ok summary, x₁) :
          Except Failure String × Deliberating K ω) = (.ok summary', x) := ⟨summary, x₁, rfl⟩
      rw [imp_iff_right carried]
      rcases closing : d.close goal (Deliberation.actOutcome action goal summary) x₁ with ⟨r, x₂⟩
      rw [closing] at returns marked
      cases r with
      | error e =>
          have acted : d.act action goal s.ctx.contents s.world = (.error e, x₂) := by
            rw [Deliberation.act_eq, Prog.bind_of_ok ran, Prog.bind_of_error closing]
          rw [Mind.outside_bind_error (e := e) (by rw [acted]), acted]
          refine eases_iff marked (fun queued => ?_) fun _ => rfl
          cases returns.mpr queued.1
      | ok u =>
          have acted : d.act action goal s.ctx.contents s.world =
              (.ok ⟨action.kind, true, summary, Deliberation.satisfactionEvents goal⟩, x₂) := by
            rw [Deliberation.act_eq, Prog.bind_of_ok ran, Prog.bind_of_ok closing]
            rfl
          rw [Mind.outside_bind_ok
            (a := ⟨action.kind, true, summary, Deliberation.satisfactionEvents goal⟩)
            (by rw [acted]), acted]
          have still : store.db.get (c.broadcast (dispatched action goal summary) x₂).2.world =
              store.db.get x₂.world := apart.around.broadcast (dispatched action goal summary) x₂
          have sends : Returns goal (goals store s) ∧ Sends c d action goal s ↔
              (c.broadcast (dispatched action goal summary) x₂).1 = .ok () := by
            constructor
            · intro sent
              exact sent.2 summary x₁ x₂ ran closing
            · intro sent
              refine ⟨returns.mp rfl, fun summary' x₁' x₂' ran' closing' => ?_⟩
              rw [ran] at ran'
              cases ran'
              rw [closing] at closing'
              cases closing'
              exact sent
          rw [sends]
          change Eases store goal s ((Mind.outside (c.broadcast (dispatched action goal summary)) >>=
            fun _ => Prog.forEach (Deliberation.satisfactionEvents goal) enqueueDriveEvent)
            { s with world := x₂, history := ⟨s.tick, .acting action⟩ :: s.history }).2 ↔ _
          rcases sent : c.broadcast (dispatched action goal summary) x₂ with ⟨r, x₃⟩
          rw [sent] at still
          have after : Achieved goal (goals store s) (store.db.get x₃.world) ↔
              Marks goal (goals store s) := by
            rw [show store.db.get x₃.world = store.db.get x₂.world from still]
            exact marked
          cases r with
          | error e =>
              rw [Mind.outside_bind_error (e := e) (by rw [sent]), sent]
              exact eases_iff after nofun fun _ => rfl
          | ok u =>
              rw [Mind.outside_bind_ok (a := u) (by rw [sent]), sent]
              obtain ⟨pending, world⟩ := enqueueAll_apply (Deliberation.satisfactionEvents goal)
                { s with world := x₃, history := ⟨s.tick, .acting action⟩ :: s.history }
              refine eases_iff ?_ (fun _ => pending) fun unsent => absurd rfl unsent
              rw [goals, goals, world]
              exact after


/-- Settling a tool action from a state with the goals of `s`. -/
theorem settle_eases (apart : GoalsApart c d store s) (goal : Goal K) (summary : String)
    (success : Bool) {s₁ : Mind K (Deliberating K ω)} (pending : s₁.pendingEvents = s.pendingEvents)
    (same : goals store s₁ = goals store s) :
    Eases store goal s ((do
        let events ← Mind.outside (d.settleToolAction goal summary success)
        Prog.forEach events enqueueDriveEvent) s₁).2 ↔
      (Deliberation.satisfactionEvents goal ≠ [] → success = true →
        (Marks goal (goals store s) ↔ Returns goal (goals store s))) := by
  obtain ⟨returns, achieved⟩ := Deliberation.close_spec apart.resolves goal
    (Deliberation.settleOutcome goal summary success)
    { s₁.world with lastActed := some (d.clock s₁.world.world) }
  have found : store.db.get s₁.world.world = goals store s := same
  dsimp only at returns achieved
  rw [found] at returns achieved
  have told : dictGet (Deliberation.settleOutcome goal summary success) "success" =
      some (.bool success) := rfl
  have marked : Marks goal (goals store s) ∧
      dictGet (Deliberation.settleOutcome goal summary success) "success" ≠ some (.bool false) ↔
      Marks goal (goals store s) ∧ success = true := by
    rw [told]
    cases success <;> simp
  rw [marked] at achieved
  have guarded : (Deliberation.satisfactionEvents goal ≠ [] → success = true →
        (Marks goal (goals store s) ↔ Returns goal (goals store s))) ↔
      (Deliberation.satisfactionEvents goal ≠ [] →
        (Marks goal (goals store s) ∧ success = true ↔
          Returns goal (goals store s) ∧ success = true)) := by
    cases success <;> simp
  rw [guarded]
  rcases closing : d.close goal (Deliberation.settleOutcome goal summary success)
    { s₁.world with lastActed := some (d.clock s₁.world.world) } with ⟨r, x⟩
  rw [closing] at returns achieved
  cases r with
  | error e =>
      have settled : d.settleToolAction goal summary success s₁.world = (.error e, x) := by
        rw [Deliberation.settle_eq, Prog.bind_of_error closing]
      rw [Mind.outside_bind_error (e := e) (by rw [settled]), settled]
      refine eases_iff achieved (fun queued => ?_) fun _ => pending
      cases returns.mpr queued.1
  | ok u =>
      have settled : d.settleToolAction goal summary success s₁.world =
          (.ok (if success then Deliberation.satisfactionEvents goal else []), x) := by
        rw [Deliberation.settle_eq, Prog.bind_of_ok closing]
        rfl
      rw [Mind.outside_bind_ok
        (a := if success then Deliberation.satisfactionEvents goal else []) (by rw [settled]),
        settled]
      obtain ⟨queued, world⟩ := enqueueAll_apply
        (if success then Deliberation.satisfactionEvents goal else []) { s₁ with world := x }
      refine eases_iff ?_ (fun given => ?_) fun missing => ?_
      · rw [goals, goals, world]
        exact achieved
      · rw [queued, given.2]
        exact congrArg (· ++ Deliberation.satisfactionEvents goal) pending
      · have failed : success = false := by
          cases success with
          | false => rfl
          | true => exact absurd ⟨returns.mp rfl, rfl⟩ missing
        rw [queued, failed]
        exact (List.append_nil _).trans pending

theorem dispatchToolAction_eases (apart : GoalsApart c d store s)
    (planned : s.ctx.action = some action) (pursued : s.ctx.goal = some goal) :
    Eases store goal s (c.dispatchToolAction s).2 ↔
      (Deliberation.satisfactionEvents goal ≠ [] → ComesToSuccess c action s →
        (Marks goal (goals store s) ↔ Returns goal (goals store s))) := by
  have idle (stuck : ¬ ComesToSuccess c action s) :
      Deliberation.satisfactionEvents goal ≠ [] → ComesToSuccess c action s →
        (Marks goal (goals store s) ↔ Returns goal (goals store s)) :=
    fun _ comes => absurd comes stuck
  unfold dispatchToolAction
  rw [Prog.reads_bind]
  cases wired : c.dispatch with
  | none =>
      refine iff_of_true (eases_of_unclosed rfl rfl) (idle ?_)
      rintro ⟨dispatch, v, outcome, s₁, s₂, found, _⟩
      cases wired.symm.trans found
  | some dispatch =>
      rw [Prog.onSome_some]
      cases vetted : s.ctx.vetted with
      | none =>
          refine iff_of_true (eases_of_unclosed rfl rfl) (idle ?_)
          rintro ⟨dispatch, v, outcome, s₁, s₂, _, found, _⟩
          cases vetted.symm.trans found
      | some v =>
          rw [Prog.onSome_some, pursued, Prog.onSome_some]
          obtain ⟨w, records, left, kept, _⟩ :=
            dispatch.commit_spec (apart.around.dispatch dispatch wired) (apart.tool v vetted) s
          -- what the success of this action comes to, now that its dispatch is known
          have success : ComesToSuccess c action s ↔ ∃ outcome s₁ s₂,
              dispatch.commit v s = (.ok outcome, s₁) ∧
                c.settledBy action.tool outcome s₁ = (.ok true, s₂) := by
            constructor
            · rintro ⟨dispatch', v', outcome, s₁, s₂, wired', vetted', ran⟩
              obtain rfl := Option.some.inj (wired.symm.trans wired')
              obtain rfl := Option.some.inj (vetted.symm.trans vetted')
              exact ⟨outcome, s₁, s₂, ran⟩
            · rintro ⟨outcome, s₁, s₂, ran⟩
              exact ⟨dispatch, v, outcome, s₁, s₂, wired, vetted, ran⟩
          rcases committed : dispatch.commit v s with ⟨r, s₁⟩
          rw [committed] at left success
          have pending : s₁.pendingEvents = s.pendingEvents := by
            rw [show s₁ = _ from left]
          have same : goals store s₁ = goals store s := by
            rw [show s₁ = _ from left]
            exact kept
          cases r with
          | error e =>
              rw [Prog.bind_of_error committed]
              refine iff_of_true (eases_of_unclosed pending (congrArg Database.versions same))
                (idle ?_)
              rw [success]
              rintro ⟨outcome, _, _, returned, _⟩
              cases returned
          | ok outcome =>
              rw [Prog.bind_of_ok committed, planned, Option.bind_some]
              have light := (settledBy_light apart.around action.tool outcome).keeps s₁
              rcases asked : c.settledBy action.tool outcome s₁ with ⟨r, s₂⟩
              rw [asked] at light
              have pending₂ : s₂.pendingEvents = s.pendingEvents :=
                light.apart.pending.trans pending
              have same₂ : goals store s₂ = goals store s := Eq.trans light.world same
              cases r with
              | error e =>
                  rw [Prog.bind_of_error asked]
                  refine iff_of_true
                    (eases_of_unclosed pending₂ (congrArg Database.versions same₂)) (idle ?_)
                  rw [success]
                  rintro ⟨_, _, _, ⟨⟩, returned⟩
                  cases asked.symm.trans returned
              | ok succeeded =>
                  rw [Prog.bind_of_ok asked, apart.deliberation]
                  have known : ComesToSuccess c action s ↔ succeeded = true := by
                    rw [success]
                    constructor
                    · rintro ⟨_, _, _, ⟨⟩, returned⟩
                      exact Except.ok.inj (congrArg Prod.fst (asked.symm.trans returned))
                    · rintro rfl
                      exact ⟨outcome, s₁, s₂, rfl, asked⟩
                  rw [known]
                  exact settle_eases apart goal outcome.summary succeeded pending₂ same₂

/-- ACT, whatever it does and whatever fails in it: the goal is closed as achieved exactly
where what eases its drive is queued, if and only if nothing is lost in between. -/
theorem act_eases_iff (c : CognitiveCycle K (Deliberating K ω)) (d : Deliberation K ω)
    (store : GoalStore K ω) (s : Mind K (Deliberating K ω)) (apart : GoalsApart c d store s)
    (goal : Goal K) (pursued : s.ctx.goal = some goal) :
    Eases store goal s (c.act s).2 ↔ NothingLost c d store goal s := by
  unfold act NothingLost
  rw [Prog.reads_bind]
  cases agency : s.fullAgency with
  | false => exact iff_of_true (eases_of_unclosed rfl rfl) nofun
  | true =>
      cases planned : s.ctx.action with
      | none => exact iff_of_true (eases_of_unclosed rfl rfl) (by rintro _ action ⟨⟩)
      | some action =>
          have only (P : Action K → Prop) :
              (true = true → ∀ a, some action = some a → P a) ↔ P action :=
            ⟨fun all => all rfl action rfl, fun holds _ a same => Option.some.inj same ▸ holds⟩
          rw [only]
          simp only [Prog.onlyIf, if_true, Prog.onSome_some, pursued]
          cases tool : action.isToolAction with
          | true =>
              simp only [if_true]
              exact dispatchToolAction_eases apart planned pursued
          | false =>
              simp only [Bool.false_eq_true, if_false]
              exact actInternally_eases apart action goal

end CognitiveCycle

/-! ### A broadcast that raises once the goal is closed -/

namespace BroadcastLost
open CognitiveCycle

abbrev World := Database Failure (GoalTable ℚ) ℕ

def busDown : Failure := .exception (.other "RuntimeError") "workspace bus closed"

def store : GoalStore ℚ World where
  db := .whole
  nowFn _ := 0
  meanwhile := id
  apart _ := rfl

def deliberation : Deliberation ℚ World where
  arbitrate _ _ _ := pure none
  router := none
  resolve := store.resolve
  recallEpisodes _ _ := pure []
  writeEpisode _ := pure ()
  clock _ := 0
  maxTokens := 1
  recallK := 1
  minInterval := 0
  codeMaxTokens := 1
  codeMaxChars := 1

/-- The bus answers every broadcast in the given way. -/
def cycle (answer : Except Failure Unit) : CognitiveCycle ℚ (Deliberating ℚ World) where
  broadcast _ := Prog.reraise answer
  setContents _ := pure ()
  clock _ := 0
  sleepFn _ := pure ()
  deliberation := some deliberation.stage
  interval := 1
  minInterval := 1
  maxInterval := 1
  arousalSpeedup := 0
  tiredSlowdown := 0
  attentionDriveWeight := 0
  capacity := 7

def row : GoalRow ℚ :=
  { id := 1, source := "coherence", description := describe "coherence", priority := 1, createdAt := 0 }

def action : Action ℚ :=
  { kind := actionReflect, goalId := some 1, goalSource := "coherence", description := row.description }

/-- The Mind before an ACT that reflects for the one active goal. -/
def reflecting : Mind ℚ (Deliberating ℚ World) where
  world := { world := ⟨⟨[row], List.nodup_singleton _⟩, 2, [], []⟩ }
  nextInterval := 1
  ctx := { tick := 1, goal := some row.toGoal, action := some action }

def acted (answer : Except Failure Unit) : Mind ℚ (Deliberating ℚ World) :=
  ((cycle answer).act reflecting).2

theorem goals_apart (answer : Except Failure Unit) :
    GoalsApart (cycle answer) deliberation store reflecting where
  deliberation := rfl
  resolves := rfl
  others := ⟨nofun, fun _ _ _ => rfl, fun _ _ => rfl⟩
  around := by
    refine ⟨fun _ _ => ?_, fun _ _ => rfl, fun _ _ => rfl, nofun, nofun, nofun, nofun, nofun,
      nofun, nofun, nofun, nofun, nofun, nofun, nofun⟩
    cases answer <;> rfl
  tool := nofun

end BroadcastLost

open BroadcastLost CognitiveCycle in
/-- The goal is closed as achieved, and nothing is queued for its drive. -/
theorem lost_broadcast_eases_nothing :
    ¬ Eases store row.toGoal reflecting (acted (.error busDown)) := by
  intro eases
  have achieved : Achieved row.toGoal (goals store reflecting)
      (goals store (acted (.error busDown))) := by
    refine ⟨_, (List.append_nil _).symm, _, List.mem_singleton_self _, _,
      List.mem_singleton_self _, rfl, rfl, nofun⟩
  have queued := congrArg List.length (eases.closed achieved)
  have lost : (acted (.error busDown)).pendingEvents.length ≠
      (reflecting.pendingEvents ++ Deliberation.satisfactionEvents row.toGoal).length := by
    decide +kernel
  exact lost queued

open BroadcastLost CognitiveCycle in
theorem sent_broadcast_eases :
    Eases store row.toGoal reflecting (acted (.ok ())) ∧
      (acted (.ok ())).pendingEvents = [⟨.reflection, 1⟩] := by
  refine ⟨(act_eases_iff (cycle (.ok ())) deliberation store reflecting (goals_apart (.ok ())) row.toGoal
    rfl).mpr ?_, by decide +kernel⟩
  intro _ planned same _
  obtain rfl := Option.some.inj (show some action = some planned from same)
  intro _
  refine iff_of_true ⟨1, rfl, rfl, rfl⟩ ⟨.inr rfl, fun _ _ _ _ _ => rfl⟩

end Johnny
