import Johnny.Agents.Deliberation
import Johnny.Brain.Heartbeat
import Mathlib.Data.Rat.Floor

/-!
# The deliberation cadence over whole runs

Two plans keep the minimum interval as long as the first one moved the cadence clock
before the second. An internal action always does. A tool action does where its commit
returns, since the settling that follows moves the clock before anything that can fail.
-/
namespace Johnny
variable {K ω α : Type}

/-! ### The clocks under one call -/

section calls
variable [Preorder K]

/-- The time does not go back. -/
def onwardFrame (clock : ω → K) : Frame ω where
  rel w w' := clock w ≤ clock w'
  refl w := le_refl (clock w)
  trans := le_trans

namespace Deliberation

/-- The calls of Deliberation take time forwards. -/
structure Steady (d : Deliberation K ω) : Prop where
  arbitrate : ∀ urges mood now, Prog.Keeps (onwardFrame d.clock) (d.arbitrate urges mood now)
  router : ∀ complete, d.router = some complete → ∀ role messages temperature maxTokens,
    Prog.Keeps (onwardFrame d.clock) (complete role messages temperature maxTokens)
  resolve : ∀ id outcome, Prog.Keeps (onwardFrame d.clock) (d.resolve id outcome)
  recallEpisodes : ∀ query k, Prog.Keeps (onwardFrame d.clock) (d.recallEpisodes query k)
  writeEpisode : ∀ episode, Prog.Keeps (onwardFrame d.clock) (d.writeEpisode episode)

/-- The cadence clock, which is Deliberation's own, stays, and the time does not go back. -/
def cadence (d : Deliberation K ω) : Frame (Deliberating K ω) where
  rel s t := t.lastActed = s.lastActed ∧ d.clock s.world ≤ d.clock t.world
  refl _ := ⟨rfl, le_refl _⟩
  trans ab bc := ⟨bc.1.trans ab.1, ab.2.trans bc.2⟩

variable {d : Deliberation K ω}

theorem outside_cadence {p : Prog Failure ω α} (onward : Prog.Keeps (onwardFrame d.clock) p) :
    Prog.Within d.cadence.rel (outside (K := K) p) :=
  .zoom fun s => ⟨rfl, onward s.world⟩

end Deliberation
end calls

namespace Deliberation
variable [Field K] [LinearOrder K] {d : Deliberation K ω}

omit [Field K] in
theorem Steady.others (steady : d.Steady) : d.OthersKeep (onwardFrame d.clock) :=
  ⟨steady.router, steady.recallEpisodes, steady.writeEpisode⟩

omit [Field K] in
theorem close_cadence (steady : d.Steady) (goal : Goal K) (outcome : Dict K) :
    Prog.Within d.cadence.rel (d.close goal outcome) :=
  .onSome fun _ _ => outside_cadence (steady.resolve _ _)

/-- DELIBERATE leaves the cadence clock, and plans only where the clock is due. -/
theorem deliberate_spec (steady : d.Steady) (urges : List (Urge K)) (mood : Option (Mood K))
    (contents : List (WorkspaceItem K)) (s : Deliberating K ω) :
    d.cadence.rel s (d.deliberate urges mood contents none s).2 ∧
      ∀ result, (d.deliberate urges mood contents none s).1 = .ok result →
        result.action.isSome = true →
        result.goal.isSome = true ∧ d.due s.lastActed (d.clock s.world) = true := by
  unfold deliberate
  rw [Prog.reads_bind, Option.getD_none]
  have arbitrated : d.cadence.rel s
      (outside (d.arbitrate urges mood (d.clock s.world)) s).2 :=
    ⟨rfl, steady.arbitrate _ _ _ _⟩
  rcases asked : outside (d.arbitrate urges mood (d.clock s.world)) s with ⟨r, s₁⟩
  rw [asked] at arbitrated
  cases r with
  | error e =>
      rw [Prog.bind_of_error asked]
      exact ⟨arbitrated, fun _ raised => by cases raised⟩
  | ok goal =>
      rw [Prog.bind_of_ok asked]
      cases goal with
      | none =>
          refine ⟨arbitrated, ?_⟩
          rintro result ⟨⟩ acts
          cases acts
      | some goal =>
          dsimp only
          rw [Prog.reads_bind, arbitrated.1]
          cases due : d.due s.lastActed (d.clock s.world) with
          | false =>
              refine ⟨arbitrated, ?_⟩
              rintro result ⟨⟩ acts
              cases acts
          | true =>
              have finalised := (finaliseAction_aside steady.others (d.plan goal contents) goal
                contents).keeps (F := d.cadence) (fun _ _ moved => moved) s₁
              simp only [Bool.true_eq_false, if_false]
              rw [Prog.bind_pure_apply]
              refine ⟨d.cadence.trans arbitrated finalised, ?_⟩
              intro result returned _
              rcases planned : (d.finaliseAction (d.plan goal contents) goal contents s₁).1 with
                e | action
              · rw [planned] at returned
                cases returned
              · rw [planned] at returned
                cases returned
                exact ⟨rfl, trivial⟩

/-- The cadence clock is set to the time, and the time does not go back. -/
def Advances (d : Deliberation K ω) (s t : Deliberating K ω) : Prop :=
  t.lastActed = some (d.clock s.world) ∧ d.clock s.world ≤ d.clock t.world

omit [Field K] in
theorem advance_then {p : Prog Failure (Deliberating K ω) α}
    (rest : Prog.Within d.cadence.rel p) (s : Deliberating K ω) :
    d.Advances s ((d.advance >>= fun _ => p) s).2 :=
  rest.keeps (F := d.cadence) (fun _ _ moved => moved)
    { s with lastActed := some (d.clock s.world) }

theorem settleToolAction_advances (steady : d.Steady) (goal : Goal K) (summary : String)
    (success : Bool) (s : Deliberating K ω) :
    d.Advances s (d.settleToolAction goal summary success s).2 :=
  advance_then (.bind (close_cadence steady goal _) fun _ => .pure _) s

theorem act_advances (steady : d.Steady) (action : Action K) (goal : Goal K)
    (contents : List (WorkspaceItem K)) (s : Deliberating K ω) :
    d.Advances s (d.act action goal contents s).2 :=
  advance_then (.bind (execute_aside steady.others action contents) fun _ =>
    .bind (remember_aside steady.others _) fun _ =>
    .bind (close_cadence steady goal _) fun _ => .pure _) s

/-! ### The cycle around it -/

/-- Deliberation as the cycle calls it. -/
def stage (d : Deliberation K ω) : DeliberationStage K (Deliberating K ω) where
  deliberate urges mood contents := d.deliberate urges mood contents none
  act := d.act
  settleToolAction := some d.settleToolAction

/-- The cycle with this Deliberation at its stages, on the same clock. -/
def wire (d : Deliberation K ω) (c : CognitiveCycle K (Deliberating K ω)) :
    CognitiveCycle K (Deliberating K ω) :=
  { c with clock := fun s => d.clock s.world, deliberation := some d.stage }

end Deliberation

/-! ### Plans and their commits -/

/-- The time of a deliberation that returned an action. -/
def Happening.plannedAt : Happening K ω → Option K
  | .deliberated time result => if result.action.isSome then some time else none
  | _ => none

def Happening.plansTool : Happening K ω → Bool
  | .deliberated _ result => result.action.any Action.isToolAction
  | _ => false

def Happening.commitReturned : Happening K ω → Bool
  | .commitEnded (.ok _) => true
  | _ => false

/-- When an action was planned, latest first. -/
def planTimes (h : List (Entry K ω)) : List K := h.filterMap fun e => e.what.plannedAt

/-- Any two plans are at least the gap apart. -/
def Spaced [Sub K] [LE K] (gap : K) (h : List (Entry K ω)) : Prop :=
  (planTimes h).Pairwise fun later earlier => gap ≤ later - earlier

/-- Each tool action planned had a commit that returned in its own tick. -/
def SeenThrough (h : List (Entry K ω)) : Prop :=
  ∀ e ∈ h, e.what.plansTool = true → ∃ e' ∈ h, e'.tick = e.tick ∧ e'.what.commitReturned = true

/-- Entries of the tick `n` that plan nothing. -/
def Planless (n : ℕ) (new : List (Entry K ω)) : Prop :=
  ∀ e ∈ new, e.tick = n ∧ e.what.plannedAt = none

theorem planTimes_planless {n : ℕ} {new h : List (Entry K ω)} (planless : Planless n new) :
    planTimes (new ++ h) = planTimes h := by
  unfold planTimes
  rw [List.filterMap_append, List.filterMap_eq_nil_iff.mpr fun e member => (planless e member).2,
    List.nil_append]

/-! ### What holds between the steps -/

section steps
variable [LinearOrder K] {d : Deliberation K ω} {s t u : Mind K (Deliberating K ω)}

/-- The cadence clock has reached every plan. -/
def Paid (s : Mind K (Deliberating K ω)) : Prop :=
  ∀ time ∈ planTimes s.history, ∃ last, s.world.lastActed = some last ∧ time ≤ last

/-- No commit returned in this tick so far. -/
def Uncommitted (s : Mind K (Deliberating K ω)) : Prop :=
  ∀ e ∈ s.history, e.tick = s.tick → e.what.commitReturned = false

/-- A tool action was planned in this tick. -/
def PlannedTool (s : Mind K (Deliberating K ω)) : Prop :=
  ∃ e ∈ s.history, e.tick = s.tick ∧ e.what.plansTool = true

/-- The action of this tick is still to be acted on. -/
structure Owing (s : Mind K (Deliberating K ω)) : Prop where
  agency : s.fullAgency = true
  pursued : s.ctx.goal.isSome = true
  planned : ∃ action, s.ctx.action = some action ∧
    (action.isToolAction = true → PlannedTool s)

/-- The time goes on, and the history grows by entries of this tick without a plan. -/
structure Elapsed (d : Deliberation K ω) (s t : Mind K (Deliberating K ω)) : Prop where
  clock : d.clock s.world.world ≤ d.clock t.world.world
  tick : t.tick = s.tick
  history : ∃ new, t.history = new ++ s.history ∧ Planless s.tick new

/-- The cadence clock stays too, and no commit returns. -/
structure Unsettled (d : Deliberation K ω) (s t : Mind K (Deliberating K ω)) : Prop where
  cadence : d.cadence.rel s.world t.world
  tick : t.tick = s.tick
  history : ∃ new, t.history = new ++ s.history ∧ Planless s.tick new ∧
    ∀ e ∈ new, e.what.commitReturned = false

theorem Unsettled.elapsed (after : Unsettled d s t) : Elapsed d s t := by
  obtain ⟨new, grown, planless, -⟩ := after.history
  exact ⟨after.cadence.2, after.tick, new, grown, planless⟩

theorem Unsettled.refl (s : Mind K (Deliberating K ω)) : Unsettled d s s :=
  ⟨d.cadence.refl _, rfl, [], rfl, List.forall_mem_nil _, List.forall_mem_nil _⟩

theorem Unsettled.noted (what : Happening K (Deliberating K ω))
    (idle : what.plannedAt = none ∧ what.commitReturned = false)
    (moved : d.cadence.rel s.world t.world) (tick : t.tick = s.tick)
    (grown : t.history = ⟨s.tick, what⟩ :: s.history) : Unsettled d s t := by
  refine ⟨moved, tick, [⟨s.tick, what⟩], grown, ?_, ?_⟩
  · intro e member
    rw [List.mem_singleton.mp member]
    exact ⟨rfl, idle.1⟩
  · intro e member
    rw [List.mem_singleton.mp member]
    exact idle.2

theorem Elapsed.trans (first : Elapsed d s t) (second : Elapsed d t u) : Elapsed d s u := by
  obtain ⟨new, grown, planless⟩ := first.history
  obtain ⟨newer, grownOn, planlessOn⟩ := second.history
  refine ⟨first.clock.trans second.clock, second.tick.trans first.tick, newer ++ new,
    by rw [grownOn, grown, List.append_assoc], ?_⟩
  intro e member
  rcases List.mem_append.mp member with later | earlier
  · exact ⟨(planlessOn e later).1.trans first.tick, (planlessOn e later).2⟩
  · exact planless e earlier

theorem Elapsed.plans (after : Elapsed d s t) : planTimes t.history = planTimes s.history := by
  obtain ⟨new, grown, planless⟩ := after.history
  rw [grown, planTimes_planless planless]

theorem Unsettled.paid (after : Unsettled d s t) (paid : Paid s) : Paid t := by
  intro time member
  rw [after.elapsed.plans] at member
  rw [after.cadence.1]
  exact paid time member

theorem Unsettled.uncommitted (after : Unsettled d s t) (uncommitted : Uncommitted s) :
    Uncommitted t := by
  obtain ⟨new, grown, -, failed⟩ := after.history
  intro e member now
  rw [grown] at member
  rcases List.mem_append.mp member with later | earlier
  · exact failed e later
  · exact uncommitted e earlier (now.trans after.tick)

theorem Unsettled.plannedTool (after : Unsettled d s t) (planned : PlannedTool s) :
    PlannedTool t := by
  obtain ⟨new, grown, -⟩ := after.history
  obtain ⟨e, member, now, plans⟩ := planned
  exact ⟨e, by rw [grown]; exact List.mem_append_right _ member, now.trans after.tick.symm, plans⟩

theorem Unsettled.owing (after : Unsettled d s t) (agency : t.fullAgency = s.fullAgency)
    (goal : t.ctx.goal = s.ctx.goal) (action : t.ctx.action = s.ctx.action) (owing : Owing s) :
    Owing t := by
  obtain ⟨agent, pursued, a, planned, tool⟩ := owing
  exact ⟨agency.trans agent, by rw [goal]; exact pursued, a, action.trans planned,
    fun named => after.plannedTool (tool named)⟩

theorem Quiet.unsettled (q : Quiet d.cadence s t) : Unsettled d s t := by
  obtain ⟨new, grown, feedback⟩ := q.history
  have idle (e : Entry K (Deliberating K ω)) (member : e ∈ new) :
      e.what.plannedAt = none ∧ e.what.commitReturned = false := by
    have told := (feedback e member).2
    cases what : e.what <;> rw [what] at told <;> first | exact ⟨rfl, rfl⟩ | cases told
  exact ⟨q.world, q.tick, new, grown, fun e member => ⟨(feedback e member).1, (idle e member).1⟩,
    fun e member => (idle e member).2⟩

end steps

section spacing
variable [Field K] [LinearOrder K] {d : Deliberation K ω} {s t u : Mind K (Deliberating K ω)}

/-- The plans so far are spaced and past, and no entry is of a tick to come. -/
structure Spacing (d : Deliberation K ω) (s : Mind K (Deliberating K ω)) : Prop where
  spaced : Spaced d.minInterval s.history
  past : ∀ time ∈ planTimes s.history, time ≤ d.clock s.world.world
  bounded : ∀ e ∈ s.history, e.tick ≤ s.tick

/-- Between ticks: the last plan was paid, or it was a tool action lost on its way. -/
def CadenceKept (d : Deliberation K ω) (s : Mind K (Deliberating K ω)) : Prop :=
  Spacing d s ∧ (Paid s ∨ PlannedTool s ∧ Uncommitted s)

/-- Before DELIBERATE. -/
def CadenceBegun (d : Deliberation K ω) (s : Mind K (Deliberating K ω)) : Prop :=
  Spacing d s ∧ Uncommitted s ∧ Paid s

/-- Between DELIBERATE and ACT. -/
def CadencePlanned (d : Deliberation K ω) (s : Mind K (Deliberating K ω)) : Prop :=
  Spacing d s ∧ Uncommitted s ∧ (Paid s ∨ Owing s)

theorem Elapsed.spacing (after : Elapsed d s t) (spacing : Spacing d s) : Spacing d t := by
  refine ⟨?_, ?_, ?_⟩
  · unfold Spaced
    rw [after.plans]
    exact spacing.spaced
  · intro time member
    rw [after.plans] at member
    exact (spacing.past time member).trans after.clock
  · obtain ⟨new, grown, planless⟩ := after.history
    intro x member
    rw [grown] at member
    rw [after.tick]
    rcases List.mem_append.mp member with later | earlier
    · exact (planless x later).1.le
    · exact spacing.bounded x earlier

/-- Once the clock is advanced, every plan so far is paid. -/
theorem Spacing.advance (spacing : Spacing d s) {w : Deliberating K ω}
    (advanced : d.Advances s.world w) (after : Unsettled d { s with world := w } t) :
    CadenceKept d t := by
  have moved : Elapsed d s { s with world := w } :=
    ⟨advanced.2, rfl, [], rfl, List.forall_mem_nil _⟩
  have paid : Paid { s with world := w } :=
    fun time member => ⟨_, advanced.1, spacing.past time member⟩
  exact ⟨after.elapsed.spacing (moved.spacing spacing), .inl (after.paid paid)⟩

theorem Unsettled.kept (after : Unsettled d s t) (kept : CadenceKept d s) : CadenceKept d t :=
  ⟨after.elapsed.spacing kept.1,
    kept.2.imp after.paid fun lost => ⟨after.plannedTool lost.1, after.uncommitted lost.2⟩⟩

theorem Unsettled.begun (after : Unsettled d s t) (begun : CadenceBegun d s) :
    CadenceBegun d t :=
  ⟨after.elapsed.spacing begun.1, after.uncommitted begun.2.1, after.paid begun.2.2⟩

theorem Unsettled.planned (after : Unsettled d s t) (agency : t.fullAgency = s.fullAgency)
    (goal : t.ctx.goal = s.ctx.goal) (action : t.ctx.action = s.ctx.action)
    (planned : CadencePlanned d s) : CadencePlanned d t :=
  ⟨after.elapsed.spacing planned.1, after.uncommitted planned.2.1,
    planned.2.2.imp after.paid (after.owing agency goal action)⟩

end spacing

/-! ### A tick -/

section tick
open CognitiveCycle
variable [Field K] [LinearOrder K] {d : Deliberation K ω}
  {c : CognitiveCycle K (Deliberating K ω)} {s : Mind K (Deliberating K ω)}

/-- A new tick starts with every plan paid, unless a tool action was lost. -/
theorem cadence_began (kept : CadenceKept d s) (seen : SeenThrough s.history) :
    CadenceBegun d (begun s) := by
  obtain ⟨⟨spaced, past, bounded⟩, settled⟩ := kept
  refine ⟨⟨spaced, past, ?_⟩, ?_, ?_⟩
  · intro e member
    rcases List.mem_cons.mp member with rfl | member
    · exact le_refl _
    · exact (bounded e member).trans (Nat.le_succ _)
  · intro e member now
    rcases List.mem_cons.mp member with rfl | member
    · rfl
    · have := bounded e member
      change e.tick = s.tick + 1 at now
      omega
  · rcases settled with paid | ⟨⟨e, member, now, plans⟩, uncommitted⟩
    · exact paid
    · obtain ⟨e', member', same, returned⟩ := seen e member plans
      rw [uncommitted e' member' (same.trans now)] at returned
      cases returned

theorem cadence_deliberated [IsStrictOrderedRing K] (steady : d.Steady)
    {r : Except Failure Unit × Mind K (Deliberating K ω)} (begun : CadenceBegun d s)
    (ended : Deliberated (d.wire c) d.cadence s r) : CadencePlanned d r.2 := by
  obtain ⟨spacing, uncommitted, paid⟩ := begun
  have spec := Deliberation.deliberate_spec steady s.ctx.urges s.ctx.mood s.ctx.contents s.world
  cases ended with
  | idle _ => exact ⟨spacing, uncommitted, .inl paid⟩
  | @raised _ e w _ wired called =>
      cases wired
      change d.deliberate s.ctx.urges s.ctx.mood s.ctx.contents none s.world = _ at called
      rw [called] at spec
      have after : Unsettled d s { s with
          world := w, history := ⟨s.tick, .deliberating⟩ :: s.history } :=
        .noted .deliberating ⟨rfl, rfl⟩ spec.1 rfl rfl
      exact ⟨after.elapsed.spacing spacing, after.uncommitted uncommitted, .inl (after.paid paid)⟩
  | @planned _ result w r t agency wired called quiet =>
      cases wired
      change d.deliberate s.ctx.urges s.ctx.mood s.ctx.contents none s.world = _ at called
      rw [called] at spec
      obtain ⟨moved, plans⟩ := spec
      refine quiet.unsettled.planned quiet.fullAgency quiet.goal quiet.action ?_
      cases acts : result.action with
      | none =>
          have after : Unsettled d s { s with
              world := w, ctx := { s.ctx with goal := result.goal, action := result.action }
              history := ⟨s.tick, .deliberated ((d.wire c).clock s.world) result⟩ ::
                ⟨s.tick, .deliberating⟩ :: s.history } :=
            ⟨moved, rfl, [_, _], rfl, by simp [Planless, Happening.plannedAt, acts],
              by simp [Happening.commitReturned]⟩
          exact acts ▸ ⟨after.elapsed.spacing spacing, after.uncommitted uncommitted,
            .inl (after.paid paid)⟩
      | some action =>
          obtain ⟨pursued, due⟩ := plans result rfl (by rw [acts]; rfl)
          have times : planTimes (⟨s.tick, .deliberated ((d.wire c).clock s.world) result⟩ ::
              ⟨s.tick, .deliberating⟩ :: s.history) =
              d.clock s.world.world :: planTimes s.history := by
            simp [planTimes, Happening.plannedAt, acts, Deliberation.wire]
          refine ⟨⟨?_, ?_, ?_⟩, ?_, .inr ⟨agency, pursued, action, rfl, ?_⟩⟩
          · unfold Spaced
            rw [times]
            refine List.pairwise_cons.mpr ⟨fun time member => ?_, spacing.spaced⟩
            obtain ⟨last, acted, reached⟩ := paid time member
            rw [acted] at due
            exact (of_decide_eq_true due).trans (sub_le_sub_left reached _)
          · intro time member
            rw [times] at member
            rcases List.mem_cons.mp member with rfl | earlier
            · exact moved.2
            · exact (spacing.past time earlier).trans moved.2
          · intro e member
            simp only [List.mem_cons] at member
            rcases member with rfl | rfl | earlier
            · exact le_refl _
            · exact le_refl _
            · exact spacing.bounded e earlier
          · intro e member now
            simp only [List.mem_cons] at member
            rcases member with rfl | rfl | earlier
            · rfl
            · rfl
            · exact uncommitted e earlier now
          · intro tool
            exact ⟨_, List.mem_cons_self, rfl, by simpa [Happening.plansTool, acts] using tool⟩

omit [Field K] [LinearOrder K] in
theorem VetTrace.unsettling {e : EffectorDispatch K (Deliberating K ω)} {n : ℕ}
    {proposal : ProposedAction K} {outcome : Except Failure (VettedAction K (Deliberating K ω))}
    {new : List (Entry K (Deliberating K ω))} (trace : VetTrace e n proposal outcome new) :
    Planless n new ∧ ∀ e ∈ new, e.what.commitReturned = false := by
  cases trace <;> simp [Planless, Happening.plannedAt, Happening.commitReturned]

theorem cadence_checked {r : Except Failure Unit × Mind K (Deliberating K ω)}
    (planned : CadencePlanned d s) (ended : Checked c d.cadence s r) : CadencePlanned d r.2 := by
  cases ended with
  | idle _ => exact planned
  | @refused _ _ _ _ w new _ _ _ _ moved trace _ =>
      have after : Unsettled d s { s with world := w, history := new ++ s.history } :=
        ⟨moved, rfl, new, rfl, trace.unsettling.1, trace.unsettling.2⟩
      exact after.planned rfl rfl rfl planned
  | @vetted _ _ _ v w new _ _ _ _ moved trace _ =>
      have after : Unsettled d s { s with
          world := w, history := new ++ s.history, ctx := { s.ctx with vetted := some v } } :=
        ⟨moved, rfl, new, rfl, trace.unsettling.1, trace.unsettling.2⟩
      exact after.planned rfl rfl rfl planned

/-- The vetted tool leaves the cadence clock alone. -/
def Belted (d : Deliberation K ω) (s : Mind K (Deliberating K ω)) : Prop :=
  ∀ v, s.ctx.vetted = some v → ∀ args, Prog.Keeps d.cadence (v.tool.run args)

omit [Field K] in
theorem Quiet.belted {t : Mind K (Deliberating K ω)} (q : Quiet d.cadence s t)
    (belted : Belted d s) : Belted d t := by
  intro v vetted
  exact belted v (q.vetted.symm.trans vetted)

omit [Field K] in
theorem belted_deliberated {r : Except Failure Unit × Mind K (Deliberating K ω)}
    (belted : Belted d s) (ended : Deliberated c d.cadence s r) : Belted d r.2 := by
  cases ended with
  | idle _ => exact belted
  | raised _ _ _ => exact belted
  | planned _ _ _ quiet => exact quiet.belted belted

omit [Field K] in
theorem belted_checked (confined : c.Confined d.cadence)
    {r : Except Failure Unit × Mind K (Deliberating K ω)} (belted : Belted d s)
    (ended : Checked c d.cadence s r) : Belted d r.2 := by
  cases ended with
  | idle _ => exact belted
  | refused _ _ _ _ _ _ _ => exact belted
  | vetted _ wired _ _ _ _ belt =>
      obtain ⟨w, onBelt⟩ := belt
      rintro v ⟨⟩
      exact (confined.dispatch _ wired).run w _ onBelt

theorem cadence_settled (steady : d.Steady) {goal : Goal K} {outcome : DispatchOutcome K}
    {r : Except Failure Unit × Mind K (Deliberating K ω)} (spacing : Spacing d s)
    (ended : Settled (d.wire c) d.cadence goal (.ok outcome, s) r) :
    Leaves (CadenceKept d) (fun s => Spaced d.minInterval s.history) r := by
  have done {t : Mind K (Deliberating K ω)} {r : Except Failure Unit} (kept : CadenceKept d t) :
      Leaves (CadenceKept d) (fun s => Spaced d.minInterval s.history) (r, t) :=
    ⟨fun _ => kept, kept.1.spaced⟩
  cases ended with
  | @unsettled _ _ r t quiet why =>
      rcases why with missing | cancelled
      · cases missing
      · exact ⟨fun other => absurd cancelled other,
          (quiet.unsettled.elapsed.spacing spacing).spaced⟩
  | @refused _ _ s₁ _ summary success e w quiet wired called =>
      cases wired
      have advanced := Deliberation.settleToolAction_advances steady goal summary success s₁.world
      rw [called] at advanced
      exact done ((quiet.unsettled.elapsed.spacing spacing).advance advanced
        (.refl _))
  | @settled _ _ s₁ _ summary success events w r t quiet wired called after =>
      cases wired
      have advanced := Deliberation.settleToolAction_advances steady goal summary success s₁.world
      rw [called] at advanced
      exact done ((quiet.unsettled.elapsed.spacing spacing).advance advanced after.unsettled)

omit [Field K] in
/-- A commit plans nothing, and one that raised settles nothing. -/
theorem commit_elapsed (confined : c.Confined d.cadence) {e : EffectorDispatch K (Deliberating K ω)}
    (wired : c.dispatch = some e) {v : VettedAction K (Deliberating K ω)}
    (runs : ∀ args, Prog.Keeps d.cadence (v.tool.run args)) :
    Elapsed d s (e.commit v s).2 ∧
      ((Happening.commitEnded (ω := Deliberating K ω) (e.commit v s).1).commitReturned = false →
        Unsettled d s (e.commit v s).2) := by
  obtain ⟨w, records, grown, moved, small⟩ := e.commit_spec (confined.dispatch e wired) runs s
  have idle (x : Entry K (Deliberating K ω)) (member : x ∈ records ++ startedBy v s.tick) :
      x.tick = s.tick ∧ x.what.plannedAt = none ∧ x.what.commitReturned = false := by
    rcases List.mem_append.mp member with recorded | started
    · obtain ⟨rec, rfl⟩ := small x recorded
      exact ⟨rfl, rfl, rfl⟩
    · unfold startedBy at started
      split at started
      · rw [List.mem_singleton.mp started]
        exact ⟨rfl, rfl, rfl⟩
      · cases started
  have planless : Planless s.tick
      (⟨s.tick, .commitEnded (e.commit v s).1⟩ :: (records ++ startedBy v s.tick)) := by
    intro x member
    rcases List.mem_cons.mp member with rfl | member
    · exact ⟨rfl, rfl⟩
    · exact ⟨(idle x member).1, (idle x member).2.1⟩
  rw [grown]
  refine ⟨⟨moved.2, rfl, _, by simp, planless⟩, fun failed => ⟨moved, rfl, _, by simp, planless, ?_⟩⟩
  intro x member
  rcases List.mem_cons.mp member with rfl | member
  · exact failed
  · exact (idle x member).2.2

theorem cadence_acted (steady : d.Steady) (confined : (d.wire c).Confined d.cadence)
    {r : Except Failure Unit × Mind K (Deliberating K ω)} (planned : CadencePlanned d s)
    (belted : Belted d s) (ended : Acted (d.wire c) d.cadence s r) :
    Leaves (CadenceKept d) (fun s => Spaced d.minInterval s.history) r := by
  obtain ⟨spacing, uncommitted, settled⟩ := planned
  have done {t : Mind K (Deliberating K ω)} {r : Except Failure Unit} (kept : CadenceKept d t) :
      Leaves (CadenceKept d) (fun s => Spaced d.minInterval s.history) (r, t) :=
    ⟨fun _ => kept, kept.1.spaced⟩
  -- the action of this tick is lost only where it is a tool's
  have unacted (tool : ∀ action, s.ctx.action = some action → s.ctx.goal.isSome = true →
      s.fullAgency = true → action.isToolAction = true) : CadenceKept d s := by
    refine ⟨spacing, settled.imp id fun owing => ?_⟩
    obtain ⟨action, chosen, noted⟩ := owing.planned
    exact ⟨noted (tool action chosen owing.pursued owing.agency), uncommitted⟩
  cases ended with
  | idle gated =>
      refine done (unacted fun action chosen pursued agency => ?_)
      rcases gated with suspended | none | none | ⟨other, same, tool, _⟩ | none
      · rw [suspended] at agency
        cases agency
      · rw [none] at chosen
        cases chosen
      · rw [none] at pursued
        cases pursued
      · rw [same] at chosen
        cases chosen
        exact tool
      · cases none
  | @committed e v goal action r t _ wired chosen tool _ vetted after =>
      obtain ⟨elapsed, failing⟩ := commit_elapsed (s := s) confined wired (belted v vetted)
      rcases committed : e.commit v s with ⟨r', s₁⟩
      rw [committed] at elapsed failing after
      cases r' with
      | ok outcome => exact cadence_settled steady (elapsed.spacing spacing) after
      | error failure =>
          cases after with
          | failed =>
              refine done ((failing rfl).kept (unacted ?_))
              rintro other same _ _
              rw [chosen] at same
              cases same
              exact tool
  | @raised _ goal action failure w _ wired _ _ _ called =>
      cases wired
      have advanced := Deliberation.act_advances steady action goal s.ctx.contents s.world
      change d.act action goal s.ctx.contents s.world = _ at called
      rw [called] at advanced
      exact done (spacing.advance advanced
        (.noted (.acting action) ⟨rfl, rfl⟩ (d.cadence.refl w) rfl rfl))
  | @acted _ goal action outcome w r t _ wired _ _ _ called after =>
      cases wired
      have advanced := Deliberation.act_advances steady action goal s.ctx.contents s.world
      change d.act action goal s.ctx.contents s.world = _ at called
      rw [called] at advanced
      exact done (after.unsettled.kept (spacing.advance advanced
        (.noted (.acting action) ⟨rfl, rfl⟩ (d.cadence.refl w) rfl rfl)))

theorem cadence_tickPlan [FloorRing K] [IsStrictOrderedRing K] (steady : d.Steady)
    (confined : (d.wire c).Confined d.cadence) :
    TickPlan (d.wire c) d.cadence (fun s => CadenceKept d s ∧ SeenThrough s.history)
      (fun s => CadenceBegun d s ∧ Belted d s) (fun s => CadencePlanned d s ∧ Belted d s)
      (fun s => CadencePlanned d s ∧ Belted d s) (CadenceKept d)
      (fun s => Spaced d.minInterval s.history) where
  began _ pre := ⟨cadence_began pre.1 pre.2, nofun⟩
  deliberated _ _ pre ended :=
    have planned := cadence_deliberated steady pre.1 ended
    ⟨fun _ => ⟨planned, belted_deliberated pre.2 ended⟩, planned.1.spaced⟩
  checked _ _ pre ended :=
    have planned := cadence_checked pre.1 ended
    ⟨fun _ => ⟨planned, belted_checked confined pre.2 ended⟩, planned.1.spaced⟩
  acted _ _ pre ended := cadence_acted steady confined pre.1 pre.2 ended
  stable₀ _ _ q pre := ⟨q.unsettled.begun pre.1, q.belted pre.2⟩
  stable₁ _ _ q pre := ⟨q.unsettled.planned q.fullAgency q.goal q.action pre.1, q.belted pre.2⟩
  stable₂ _ _ q pre := ⟨q.unsettled.planned q.fullAgency q.goal q.action pre.1, q.belted pre.2⟩
  stable _ _ q := q.unsettled.kept
  weaken₀ _ pre := pre.1.1.spaced
  weaken _ kept := kept.1.spaced

theorem cadence_slept [FloorRing K] {r : Except Failure Unit × Mind K (Deliberating K ω)}
    (kept : CadenceKept d s) (slept : Slept c d.cadence s r) : CadenceKept d r.2 := by
  -- a verdict neither plans nor commits
  have judged {s t : Mind K (Deliberating K ω)} (verdict : Bool) (kept : CadenceKept d s)
      (moved : d.cadence.rel s.world t.world) (tick : t.tick = s.tick)
      (grown : t.history = ⟨s.tick, .selfChecked verdict⟩ :: s.history) : CadenceKept d t :=
    (Unsettled.noted (.selfChecked verdict) ⟨rfl, rfl⟩ moved tick grown).kept kept
  cases slept with
  | quietly quiet => exact quiet.unsettled.kept kept
  | @raised sc trigger s₁ e s₂ _ before _ _ _ moved ended =>
      have entered := before.unsettled.kept kept
      cases ended with
      | @unchecked _ w asleep _ =>
          have after : Unsettled d s₁ { s₁ with world := w, asleep := asleep } :=
            ⟨moved, rfl, [], rfl, List.forall_mem_nil _, List.forall_mem_nil _⟩
          exact after.kept entered
      | cut _ => exact judged false entered moved rfl rfl
      | @lost _ _ verdict _ _ => exact judged verdict entered moved rfl rfl
  | @woke sc trigger s₁ report s₂ r t _ before moved ended after =>
      have entered := before.unsettled.kept kept
      refine after.unsettled.kept ?_
      cases ended with
      | woke _ => exact judged report.selfCheckOk entered moved rfl rfl

end tick

/-! ### A run -/

/-- Whatever fails in a run on a clock that never goes back: two plans are the minimum
interval apart, if every pass of the loop finds the tool actions so far seen through. -/
theorem run_spaced [Field K] [LinearOrder K] [FloorRing K] [IsStrictOrderedRing K]
    (d : Deliberation K ω) (c : CognitiveCycle K (Deliberating K ω)) (steady : d.Steady)
    (confined : (d.wire c).Confined d.cadence) (turns : List (CognitiveCycle.Turn K (Deliberating K ω)))
    (others : ∀ change, .elsewhere change ∈ turns → ∀ w, d.cadence.rel w (change w)) (world : ω)
    (seen : ∀ before after t, turns = before ++ .beat :: after →
      (d.wire c).run before ((d.wire c).fresh { world := world }) = (.ok (), t) →
      SeenThrough t.history) :
    Spaced d.minInterval
      ((d.wire c).run turns ((d.wire c).fresh { world := world })).2.history := by
  refine CognitiveCycle.run_invariant (W := d.cadence) (I := CadenceKept d)
    (C := fun t => SeenThrough t.history) (E := fun s => Spaced d.minInterval s.history)
    confined ?_ ?_ others ?_ seen
  · refine ⟨CognitiveCycle.tick_triple confined (cadence_tickPlan steady confined), ?_,
      fun _ _ q => q.unsettled.kept, fun _ kept => kept.1.spaced⟩
    intro s s₁ r _ _ kept slept
    have after := cadence_slept kept slept
    exact ⟨fun _ => after, after.1.spaced⟩
  · intro result s kept
    have after : Unsettled d s (CognitiveCycle.wakeChecked result s) :=
      .noted (.wakeChecked result.ok) ⟨rfl, rfl⟩ (d.cadence.refl s.world) rfl rfl
    exact after.kept kept
  · exact ⟨⟨List.Pairwise.nil, List.forall_mem_nil _, List.forall_mem_nil _⟩,
      .inl (List.forall_mem_nil _)⟩

/-! ### A search that raises -/

namespace SearchLost

/-- The world is the time. -/
abbrev Clocked : Type := Deliberating ℚ ℚ

def vectorStoreDown : Failure := .exception (.other "ResponseError") "vector store unreachable"

def deliberation : Deliberation ℚ ℚ where
  arbitrate _ _ _ := pure (some ⟨some 1, "coherence", "make sense of myself", 1, .active, [], [], none, none⟩)
  router := none
  resolve _ _ := pure ()
  recallEpisodes _ _ := pure []
  writeEpisode _ := pure ()
  clock w := w
  toolActions := defaultToolActions
  maxTokens := 200
  recallK := 4
  minInterval := 300
  codeMaxTokens := 400
  codeMaxChars := 4000

def memorySearch (answer : Except Failure (ToolResult ℚ)) : Tool ℚ Clocked where
  name := "memory_search"
  danger := .safe
  validateArgs := .ok
  run _ := Prog.reraise answer

/-- A pass of the loop takes the pause, whatever interval it asked for. -/
def cycle (answer : Except Failure (ToolResult ℚ)) (pause : ℚ) : CognitiveCycle ℚ Clocked where
  broadcast _ := pure ()
  setContents _ := pure ()
  clock s := s.world
  sleepFn _ := Deliberation.outside (Prog.modify (· + pause))
  dispatch := some
    { registry := fun _ => ⟨[memorySearch answer], List.nodup_singleton _⟩
      conscience :=
        { prompt := "", dumps := fun _ => "\x7b\x7d", parseVerdict := fun _ => .ok ⟨.allow, ""⟩
          complete := fun _ _ => pure ⟨""⟩ }
      audit := fun _ => pure ()
      broadcast := fun _ => pure () }
  interval := 1
  minInterval := 1
  maxInterval := 1
  arousalSpeedup := 0
  tiredSlowdown := 0
  attentionDriveWeight := 0
  capacity := 7

def afterwards (answer : Except Failure (ToolResult ℚ)) (pause : ℚ)
    (turns : List (CognitiveCycle.Turn ℚ Clocked)) : List (Entry ℚ Clocked) :=
  ((deliberation.wire (cycle answer pause)).run turns
    ((deliberation.wire (cycle answer pause)).fresh { world := 0 })).2.history

theorem steady : deliberation.Steady where
  arbitrate _ _ _ := (onwardFrame _).refl
  router := nofun
  resolve _ _ := (onwardFrame _).refl
  recallEpisodes _ _ := (onwardFrame _).refl
  writeEpisode _ := (onwardFrame _).refl

theorem confined (answer : Except Failure (ToolResult ℚ)) {pause : ℚ} (onward : 0 ≤ pause) :
    (deliberation.wire (cycle answer pause)).Confined deliberation.cadence where
  broadcast _ := deliberation.cadence.refl
  setContents _ := deliberation.cadence.refl
  sleepFn _ _ := ⟨rfl, le_add_of_nonneg_right onward⟩
  perception := nofun
  attention := nofun
  recaller := nofun
  narration := nofun
  learning := nofun
  drives := nofun
  affect := nofun
  workingMemory := nofun
  fireDue := nofun
  webConsolidator := nofun
  dispatch := by
    rintro _ ⟨⟩
    refine ⟨fun _ _ => deliberation.cadence.refl, fun _ => deliberation.cadence.refl,
      fun _ => deliberation.cadence.refl, ?_⟩
    intro w tool member args s
    rw [List.mem_singleton.mp member]
    cases answer <;> exact deliberation.cadence.refl s
  sleepCycle := nofun

end SearchLost

open SearchLost in
/-- The search raises in the first tick, and the second tick plans again a second later. -/
theorem lost_search_replans :
    deliberation.Steady ∧ (deliberation.wire (cycle (.error vectorStoreDown) 1)).Confined
        deliberation.cadence ∧
      ¬ Spaced deliberation.minInterval (afterwards (.error vectorStoreDown) 1 [.beat, .beat]) := by
  refine ⟨steady, confined _ zero_le_one, ?_⟩
  have times : planTimes (afterwards (.error vectorStoreDown) 1 [.beat, .beat]) = [1, 0] := by
    decide +kernel
  unfold Spaced
  rw [times]
  decide +kernel

open SearchLost in
/-- A search that returns is planned again once the interval has passed. -/
theorem returned_search_waits :
    Spaced deliberation.minInterval (afterwards (.ok ⟨true, [], "found"⟩) 300 [.beat, .beat]) ∧
      planTimes (afterwards (.ok ⟨true, [], "found"⟩) 300 [.beat, .beat]) = [300, 0] := by
  refine ⟨run_spaced deliberation _ steady (confined _ (by decide +kernel)) _ (by simp) 0 ?_,
    by decide +kernel⟩
  have unstarted : SeenThrough (afterwards (.ok ⟨true, [], "found"⟩) 300 []) := by
    unfold SeenThrough
    decide +kernel
  have searched : SeenThrough (afterwards (.ok ⟨true, [], "found"⟩) 300 [.beat]) := by
    unfold SeenThrough
    decide +kernel
  intro before after t split ran
  have reached : afterwards (.ok ⟨true, [], "found"⟩) 300 before = t.history :=
    congrArg (fun r => r.2.history) ran
  rw [← reached]
  match before, split with
  | [], _ => exact unstarted
  | [turn], split =>
      have same : .beat = turn := (List.cons.inj split).1
      rw [← same]
      exact searched
  | _ :: _ :: _, split =>
      have := congrArg List.length split
      simp at this

end Johnny
