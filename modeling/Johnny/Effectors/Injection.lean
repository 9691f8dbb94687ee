import Johnny.Effectors.Scheduler
import Johnny.Lib.Hoare
import Johnny.Lib.Runs

/-!
# What becomes of a wakeup that is claimed

The claim of a batch is committed before the first push, so a wakeup is lost where the
pushes end before its own. Over any sequence of calls, each wakeup waits, or was pushed
once, exactly where no push fails before the last of its batch.
-/
namespace Johnny

namespace InputQueue
variable {K ω : Type}

theorem push_apply (q : InputQueue ω) (raw source : String) (e : Experience K ω) :
    ∃ e', q.push raw source e = ((q.rpush e.world).1.answer, e') ∧
      e'.world = (q.rpush e.world).2 ∧
      (e'.noted = e.noted ∨ ∃ place input, e'.noted = .pushed place input :: e.noted) := by
  let moved : Experience K ω := { e with senses := { e.senses with world := (q.rpush e.world).2 } }
  have ran : q.push raw source e =
      (Prog.onlyIf ((q.rpush e.world).1.takesEffect = true)
        (Prog.modify (q.enqueue { raw := raw, source := source })) >>= fun _ =>
          Prog.reraise (q.rpush e.world).1.answer) moved := rfl
  rw [ran]
  cases (q.rpush e.world).1 with
  | committed => exact ⟨_, rfl, rfl, .inr ⟨_, _, rfl⟩⟩
  | unacknowledged => exact ⟨_, rfl, rfl, .inr ⟨_, _, rfl⟩⟩
  | refused => exact ⟨_, rfl, rfl, .inl rfl⟩
  | rolledBack => exact ⟨_, rfl, rfl, .inl rfl⟩

/-- Of so many pushes in a row, none but the last fails. -/
def AllTried (q : InputQueue ω) : ℕ → ω → Prop
  | 0, _ => True
  | 1, _ => True
  | n + 2, w => (q.rpush w).1.answer = .ok () ∧ AllTried q (n + 1) (q.rpush w).2

end InputQueue

namespace Scheduler
variable {K ω : Type}

/-- The answers to the pushes of a wakeup, newest first. -/
def injections (id : ℕ) (log : List (Noted K)) : List (Except Failure Unit) :=
  log.filterMap fun
    | .injected wakeup answer => if wakeup = id then some answer else none
    | _ => none

@[simp] theorem injections_cons (id wakeup : ℕ) (answer : Except Failure Unit)
    (log : List (Noted K)) : injections id (.injected wakeup answer :: log) =
      if wakeup = id then answer :: injections id log else injections id log := by
  unfold injections
  rw [List.filterMap_cons]
  by_cases same : wakeup = id <;> simp [same]

def rows (s : Scheduler K ω) (e : Experience K ω) : List (ScheduledWakeup K) :=
  (s.sessions.db.get e.world).tables

theorem inject_apply (s : Scheduler K ω) (wakeup : ScheduledWakeup K) (e : Experience K ω) :
    ∃ e', s.inject wakeup e = ((s.queue.rpush e.world).1.answer, e') ∧
      e'.world = (s.queue.rpush e.world).2 ∧
      ∀ id, injections id e'.noted = if wakeup.id = id then
        (s.queue.rpush e.world).1.answer :: injections id e.noted else injections id e.noted := by
  obtain ⟨pushed, ran, world, log⟩ := s.queue.push_apply wakeup.reason wakeupSource e
  have same : ∀ id, injections id pushed.noted = injections id e.noted := by
    intro id
    rcases log with same | ⟨place, input, same⟩ <;> rw [same]
    rfl
  unfold inject
  rw [Prog.outcome_bind, ran]
  dsimp only
  generalize (s.queue.rpush e.world).1.answer = answer
  have noted : (Experience.note (fun _ => .injected wakeup.id answer) >>= fun _ =>
      Prog.reraise answer) pushed =
        (answer, { pushed with noted := .injected wakeup.id answer :: pushed.noted }) := by
    cases answer <;> rfl
  refine ⟨_, noted, world, fun id => ?_⟩
  rw [injections_cons, same]

/-- Of a batch, the wakeups are pushed in order until a push fails. -/
theorem inject_batch (s : Scheduler K ω) (batch : List (ScheduledWakeup K))
    (ids : (batch.map ScheduledWakeup.id).Nodup) (e : Experience K ω) :
    ∃ tried missed, batch = tried ++ missed ∧
      (∀ id, id ∉ tried.map ScheduledWakeup.id →
        injections id (Prog.forEach batch s.inject e).2.noted = injections id e.noted) ∧
      (∀ wakeup ∈ tried, ∃ answer,
        injections wakeup.id (Prog.forEach batch s.inject e).2.noted =
          answer :: injections wakeup.id e.noted) ∧
      (missed = [] ↔ s.queue.AllTried batch.length e.world) := by
  induction batch generalizing e with
  | nil => exact ⟨[], [], rfl, fun _ _ => rfl, nofun, by simp [InputQueue.AllTried]⟩
  | cons first batch ih =>
      obtain ⟨fresh, ids⟩ := List.nodup_cons.mp ids
      obtain ⟨next, ran, world, log⟩ := s.inject_apply first e
      have loop : Prog.forEach (first :: batch) s.inject =
        s.inject first >>= fun _ => Prog.forEach batch s.inject := rfl
      have one := log first.id
      rw [if_pos rfl] at one
      have others : ∀ id, id ≠ first.id → injections id next.noted = injections id e.noted := by
        intro id apart
        rw [log, if_neg (Ne.symm apart)]
      cases answer : (s.queue.rpush e.world).1.answer with
      | error failure =>
          rw [answer] at ran one
          rw [loop, Prog.bind_of_error ran]
          refine ⟨[first], batch, rfl, fun id apart => others id ?_, ?_, ?_⟩
          · simpa using apart
          · intro wakeup member
            rw [List.mem_singleton.mp member]
            exact ⟨_, one⟩
          · cases batch <;> simp [InputQueue.AllTried, answer]
      | ok u =>
          rw [answer] at ran one
          rw [loop, Prog.bind_of_ok ran]
          obtain ⟨tried, missed, split, rest, pushed, all⟩ := ih ids next
          have untried : first.id ∉ tried.map ScheduledWakeup.id := by
            intro among
            apply fresh
            rw [split, List.map_append]
            exact List.mem_append_left _ among
          refine ⟨first :: tried, missed, by rw [split]; rfl, fun id apart => ?_, ?_, ?_⟩
          · rw [List.map_cons, List.mem_cons, not_or] at apart
            rw [rest id apart.2, others id apart.1]
          · intro wakeup member
            rcases List.mem_cons.mp member with rfl | later
            · rw [rest _ untried]
              exact ⟨_, one⟩
            · obtain ⟨a, told⟩ := pushed wakeup later
              refine ⟨a, ?_⟩
              rw [told, others]
              intro same
              exact untried (same ▸ List.mem_map_of_mem later)
          · rw [all, world]
            cases batch <;> simp [InputQueue.AllTried, answer]

/-! ### One call -/

/-- A push onto the queue leaves the database alone. -/
def QueueApart (s : Scheduler K ω) : Prop :=
  ∀ w, s.sessions.db.get (s.queue.rpush w).2 = s.sessions.db.get w

theorem inject_rows {s : Scheduler K ω} (apart : s.QueueApart)
    (batch : List (ScheduledWakeup K)) (e : Experience K ω) :
    s.rows (Prog.forEach batch s.inject e).2 = s.rows e := by
  have each (wakeup : ScheduledWakeup K) :
      Prog.Maintains (fun t => s.rows t = s.rows e) (s.inject wakeup) fun _ => True := by
    intro t same
    obtain ⟨next, ran, world, -⟩ := s.inject_apply wakeup t
    refine ⟨?_, fun _ _ => trivial⟩
    rw [ran, ← same]
    unfold rows
    dsimp only
    rw [world, apart]
  exact (Prog.Maintains.forEach batch (fun wakeup _ => each wakeup) e rfl).1

variable [LinearOrder K]

def batch (s : Scheduler K ω) (e : Experience K ω) : List (ScheduledWakeup K) :=
  duePending (s.nowFn e.world) (s.rows e)

/-- No wakeup of the batch is left behind: the answer to the claim is not lost, and none but
the last of the pushes fails. -/
def NoneLeft (s : Scheduler K ω) (e : Experience K ω) : Prop :=
  match (s.sessions.db.get e.world).ending with
  | .refused _ | .rolledBack _ => True
  | .unacknowledged _ => s.batch e = []
  | .committed => s.queue.AllTried (s.batch e).length
      (s.sessions.scope (claimDue (s.nowFn e.world)) e.world).2

inductive Called (s : Scheduler K ω) (e e' : Experience K ω) : Prop
  | undone (rows : s.rows e' = s.rows e)
      (same : ∀ id, injections id e'.noted = injections id e.noted) (left : s.NoneLeft e)
  | claimed (rows : s.rows e' = markFired ((s.batch e).map ScheduledWakeup.id) (s.rows e))
      (tried missed : List (ScheduledWakeup K)) (split : (s.batch e).map asFired = tried ++ missed)
      (same : ∀ id, id ∉ tried.map ScheduledWakeup.id →
        injections id e'.noted = injections id e.noted)
      (pushed : ∀ wakeup ∈ tried, ∃ answer,
        injections wakeup.id e'.noted = answer :: injections wakeup.id e.noted)
      (all : missed = [] ↔ s.NoneLeft e)

theorem claimDue_transact (s : Scheduler K ω) (e : Experience K ω) :
    let d := s.sessions.db.get e.world
    let marked := (markFired ((s.batch e).map ScheduledWakeup.id) (s.rows e), d.sequences)
    Database.transact (claimDue (s.nowFn e.world)) d = match d.ending with
      | .committed => (.ok ((s.batch e).map asFired), d.commit marked)
      | .unacknowledged failure => (.error failure, d.commit marked)
      | .refused failure | .rolledBack failure => (.error failure, d.rollback d.sequences) := by
  intro d marked
  have claims : claimDue (s.nowFn e.world) (d.tables, d.sequences) =
    (.ok ((s.batch e).map asFired), marked) := rfl
  unfold Database.transact
  rw [claims]
  cases d.ending <;> rfl

theorem fireDue_spec {s : Scheduler K ω} (apart : s.QueueApart) {e : Experience K ω}
    (ids : ((s.rows e).map ScheduledWakeup.id).Nodup) : s.Called e (s.fireDue e).2 := by
  let next : Experience K ω := { e with senses := { e.senses with
    world := (s.sessions.scope (claimDue (s.nowFn e.world)) e.world).2 } }
  have claims := s.claimDue_transact e
  have stored : s.rows next =
      (Database.transact (claimDue (s.nowFn e.world)) (s.sessions.db.get e.world)).2.tables :=
    congrArg Database.tables (s.sessions.scope_db (claimDue (s.nowFn e.world)) e.world)
  have outside : Experience.outside (s.sessions.scope (claimDue (s.nowFn e.world))) e =
      ((Database.transact (claimDue (s.nowFn e.world)) (s.sessions.db.get e.world)).1, next) := by
    rw [← (Prod.ext_iff.mp (s.sessions.scope_apply (claimDue (s.nowFn e.world)) e.world)).1]
    rfl
  have unfolded : s.fireDue e =
      (Experience.outside (s.sessions.scope (claimDue (s.nowFn e.world))) >>= fun fired =>
        Prog.forEach fired s.inject >>= fun _ => pure fired) e := rfl
  rw [unfolded]
  dsimp only at claims
  have left : s.NoneLeft e ↔ match (s.sessions.db.get e.world).ending with
    | .refused _ | .rolledBack _ => True
    | .unacknowledged _ => s.batch e = []
    | .committed => s.queue.AllTried (s.batch e).length next.world := Iff.rfl
  cases ending : (s.sessions.db.get e.world).ending with
  | refused failure =>
      rw [ending] at claims left
      rw [claims] at stored outside
      rw [Prog.bind_of_error outside]
      exact .undone stored (fun _ => rfl) (left.mpr trivial)
  | rolledBack failure =>
      rw [ending] at claims left
      rw [claims] at stored outside
      rw [Prog.bind_of_error outside]
      exact .undone stored (fun _ => rfl) (left.mpr trivial)
  | unacknowledged failure =>
      rw [ending] at claims left
      rw [claims] at stored outside
      rw [Prog.bind_of_error outside]
      exact .claimed stored [] _ rfl (fun _ _ => rfl) nofun (by rw [left, List.map_eq_nil_iff])
  | committed =>
      rw [ending] at claims left
      rw [claims] at stored outside
      rw [Prog.bind_of_ok outside, Prog.bind_pure_apply]
      have unique : (((s.batch e).map asFired).map ScheduledWakeup.id).Nodup := by
        rw [List.map_map]
        exact duePending_ids _ ids
      obtain ⟨tried, missed, split, same, pushed, all⟩ := s.inject_batch _ unique next
      refine .claimed ((inject_rows apart _ next).trans stored) tried missed split same pushed ?_
      rw [all, left, List.length_map]

/-! ### Any sequence of calls -/

/-- Each wakeup waits and was not pushed, or is fired and was pushed once. -/
def NoneMissed (s : Scheduler K ω) (e : Experience K ω) : Prop :=
  ∀ row ∈ s.rows e, row.status = .pending ∧ injections row.id e.noted = [] ∨
    row.status = .fired ∧ ∃ answer, injections row.id e.noted = [answer]

/-- What holds whatever fails. -/
structure Tracked (s : Scheduler K ω) (e : Experience K ω) : Prop where
  ids : ((s.rows e).map ScheduledWakeup.id).Nodup
  known : ∀ id, injections id e.noted ≠ [] → ∃ row ∈ s.rows e, row.id = id
  waiting : ∀ row ∈ s.rows e, row.status = .pending → injections row.id e.noted = []
  once : ∀ id, (injections id e.noted).length ≤ 1

variable {s : Scheduler K ω} {e e' : Experience K ω}

omit [LinearOrder K] in
theorem Tracked.noneMissed_iff (tracked : s.Tracked e) : s.NoneMissed e ↔
    ∀ row ∈ s.rows e, row.status = .fired → injections row.id e.noted ≠ [] := by
  constructor
  · intro none row member fired empty
    rcases none row member with ⟨pending, -⟩ | ⟨-, answer, told⟩
    · rw [pending] at fired
      cases fired
    · rw [told] at empty
      cases empty
  · intro told row member
    cases status : row.status with
    | pending => exact .inl ⟨rfl, tracked.waiting row member status⟩
    | fired =>
        refine .inr ⟨rfl, List.length_eq_one_iff.mp ?_⟩
        have some := List.length_pos_iff.mpr (told row member status)
        have most := tracked.once row.id
        omega

theorem mem_batch {row : ScheduledWakeup K} (due : row ∈ s.batch e) :
    row ∈ s.rows e ∧ row.status = .pending :=
  let ⟨member, pending, _⟩ := mem_duePending.mp due
  ⟨member, pending⟩

theorem Called.tracked (called : s.Called e e') (tracked : s.Tracked e) : s.Tracked e' := by
  cases called with
  | undone rows same =>
      refine ⟨by rw [rows]; exact tracked.ids, ?_, ?_, ?_⟩ <;> simp only [rows, same]
      · exact tracked.known
      · exact tracked.waiting
      · exact tracked.once
  | claimed rows tried missed split same pushed all =>
      have among : ∀ wakeup ∈ tried, ∃ row ∈ s.batch e, wakeup = asFired row := by
        intro wakeup member
        have inside : wakeup ∈ (s.batch e).map asFired := by
          rw [split]
          exact List.mem_append_left _ member
        obtain ⟨row, due, rfl⟩ := List.mem_map.mp inside
        exact ⟨row, due, rfl⟩
      have untried : ∀ wakeup ∈ tried, injections wakeup.id e.noted = [] := by
        intro wakeup member
        obtain ⟨row, due, rfl⟩ := among wakeup member
        exact tracked.waiting row (mem_batch due).1 (mem_batch due).2
      refine ⟨?_, fun id told => ?_, fun row member pending => ?_, fun id => ?_⟩
      · rw [rows, markFired_ids]
        exact tracked.ids
      · have kept : ∀ row ∈ s.rows e, ∃ row' ∈ s.rows e', row'.id = row.id := by
          intro row member
          apply List.mem_map.mp
          rw [rows, markFired_ids]
          exact List.mem_map_of_mem member
        by_cases inside : id ∈ tried.map ScheduledWakeup.id
        · obtain ⟨wakeup, member, rfl⟩ := List.mem_map.mp inside
          obtain ⟨row, due, rfl⟩ := among wakeup member
          exact kept row (mem_batch due).1
        · rw [same id inside] at told
          obtain ⟨row, member, rfl⟩ := tracked.known id told
          exact kept row member
      · rw [rows] at member
        rcases mem_markFired.mp member with ⟨old, outside⟩ | ⟨old, -, -, rfl⟩
        · rw [same, tracked.waiting row old pending]
          intro inside
          apply outside
          obtain ⟨wakeup, there, id⟩ := List.mem_map.mp inside
          obtain ⟨due, inBatch, rfl⟩ := among wakeup there
          rw [← id]
          exact List.mem_map.mpr ⟨due, inBatch, rfl⟩
        · cases pending
      · by_cases inside : id ∈ tried.map ScheduledWakeup.id
        · obtain ⟨wakeup, member, rfl⟩ := List.mem_map.mp inside
          obtain ⟨answer, told⟩ := pushed wakeup member
          rw [told, untried wakeup member]
          simp
        · rw [same id inside]
          exact tracked.once id

/-- A call misses no wakeup exactly if it leaves none behind. -/
theorem Called.noneMissed_iff (called : s.Called e e') (tracked : s.Tracked e) :
    s.NoneMissed e' ↔ s.NoneMissed e ∧ s.NoneLeft e := by
  rw [(called.tracked tracked).noneMissed_iff, tracked.noneMissed_iff]
  cases called with
  | undone rows same left => simp only [rows, same, left, and_true]
  | claimed rows tried missed split same pushed all =>
      have unique : (tried.map ScheduledWakeup.id ++ missed.map ScheduledWakeup.id).Nodup := by
        rw [← List.map_append, ← split, List.map_map]
        exact duePending_ids _ tracked.ids
      have batched : ∀ id, id ∈ (s.batch e).map ScheduledWakeup.id ↔
          id ∈ tried.map ScheduledWakeup.id ∨ id ∈ missed.map ScheduledWakeup.id := by
        intro id
        rw [← List.mem_append, ← List.map_append, ← split, List.map_map]
        rfl
      rw [← all]
      constructor
      · intro told
        refine ⟨fun row member fired => ?_, ?_⟩
        · -- a row that was fired before is not of the batch
          have outside : row.id ∉ (s.batch e).map ScheduledWakeup.id := by
            intro inside
            obtain ⟨due, inBatch, id⟩ := List.mem_map.mp inside
            have one := List.inj_on_of_nodup_map tracked.ids (mem_batch inBatch).1 member id
            have pending := (mem_batch inBatch).2
            rw [one, fired] at pending
            cases pending
          have kept : row ∈ s.rows e' := by
            rw [rows]
            exact mem_markFired.mpr (.inl ⟨member, outside⟩)
          rw [batched, not_or] at outside
          rw [← same _ outside.1]
          exact told row kept fired
        · apply List.eq_nil_iff_forall_not_mem.mpr
          intro wakeup member
          have inside : wakeup ∈ (s.batch e).map asFired := by
            rw [split]
            exact List.mem_append_right _ member
          obtain ⟨row, due, rfl⟩ := List.mem_map.mp inside
          have stored : asFired row ∈ s.rows e' := by
            rw [rows]
            exact mem_markFired.mpr (.inr ⟨row, (mem_batch due).1, List.mem_map_of_mem due, rfl⟩)
          have untried : row.id ∉ tried.map ScheduledWakeup.id := fun among =>
            List.disjoint_of_nodup_append unique among (List.mem_map.mpr ⟨_, member, rfl⟩)
          apply told (asFired row) stored rfl
          rw [asFired_id, same _ untried]
          exact tracked.waiting row (mem_batch due).1 (mem_batch due).2
      · rintro ⟨told, rfl⟩ row member fired
        rw [rows] at member
        have attempted : ∀ id, id ∈ (s.batch e).map ScheduledWakeup.id →
            injections id e'.noted ≠ [] := by
          intro id inside
          rw [batched, List.map_nil, or_iff_left List.not_mem_nil] at inside
          obtain ⟨wakeup, there, rfl⟩ := List.mem_map.mp inside
          obtain ⟨answer, pushes⟩ := pushed wakeup there
          rw [pushes]
          exact List.cons_ne_nil _ _
        rcases mem_markFired.mp member with ⟨old, outside⟩ | ⟨old, -, inside, rfl⟩
        · rw [batched, not_or] at outside
          rw [same _ outside.1]
          exact told row old fired
        · exact attempted _ inside

/-- What happens to the wakeups: a call, or something else. -/
inductive Happening (K ω : Type) where
  | fire
  | elsewhere (change : Experience K ω → Experience K ω)

/-- What else happens adds wakeups that wait, and pushes none. -/
def Adds (s : Scheduler K ω) (change : Experience K ω → Experience K ω) : Prop :=
  ∀ e, (∀ id, injections id (change e).noted = injections id e.noted) ∧
    ∃ new, s.rows (change e) = s.rows e ++ new ∧ (∀ row ∈ new, row.status = .pending) ∧
      (((s.rows e).map ScheduledWakeup.id).Nodup →
        ((s.rows (change e)).map ScheduledWakeup.id).Nodup)

/-- The failure of a call is logged by the loop, which goes on. -/
def happen (s : Scheduler K ω) : Happening K ω → Experience K ω → Experience K ω
  | .fire, e => (s.fireDue e).2
  | .elsewhere change, e => change e

omit [LinearOrder K] in
theorem Adds.tracked {change : Experience K ω → Experience K ω} (adds : s.Adds change)
    (tracked : s.Tracked e) :
    s.Tracked (change e) ∧ (s.NoneMissed (change e) ↔ s.NoneMissed e) := by
  obtain ⟨same, new, rows, waiting, ids⟩ := adds e
  have unique := ids tracked.ids
  have fresh : ∀ row ∈ new, injections row.id e.noted = [] := by
    intro row member
    by_contra told
    obtain ⟨old, there, id⟩ := tracked.known row.id told
    rw [rows, List.map_append] at unique
    refine List.disjoint_of_nodup_append unique (List.mem_map_of_mem there) ?_
    rw [id]
    exact List.mem_map_of_mem member
  constructor
  · refine ⟨unique, fun id told => ?_, fun row member pending => ?_, fun id => ?_⟩
    · rw [same] at told
      obtain ⟨row, there, which⟩ := tracked.known id told
      exact ⟨row, by rw [rows]; exact List.mem_append_left _ there, which⟩
    · rw [same]
      rw [rows] at member
      rcases List.mem_append.mp member with old | added
      · exact tracked.waiting row old pending
      · exact fresh row added
    · rw [same]
      exact tracked.once id
  · unfold NoneMissed
    simp only [rows, same, List.forall_mem_append]
    refine and_iff_left fun row member => .inl ⟨waiting row member, fresh row member⟩

/-- A wakeup that is fired was pushed, whatever the failures, exactly where every call left
none of its batch behind. -/
theorem run_none_missed_iff (s : Scheduler K ω) (apart : s.QueueApart)
    (happenings : List (Happening K ω))
    (adds : ∀ change, .elsewhere change ∈ happenings → s.Adds change)
    (e : Experience K ω) (tracked : s.Tracked e) (start : s.NoneMissed e) :
    s.NoneMissed (runSteps s.happen happenings e) ↔
      ∀ before after, happenings = before ++ .fire :: after →
        s.NoneLeft (runSteps s.happen before e) := by
  have each : ∀ i ∈ happenings, ∀ t, s.Tracked t →
      s.Tracked (s.happen i t) ∧
        (s.NoneMissed (s.happen i t) ↔ s.NoneMissed t ∧ (i = .fire → s.NoneLeft t)) := by
    intro i member t known
    cases i with
    | fire =>
        have called := fireDue_spec apart known.ids
        refine ⟨called.tracked known, (called.noneMissed_iff known).trans ?_⟩
        simp
    | elsewhere change =>
        obtain ⟨kept, same⟩ := (adds change member).tracked known
        refine ⟨kept, same.trans ?_⟩
        simp
  rw [runSteps_iff (C := fun i t => i = .fire → s.NoneLeft t) (I := s.Tracked)
    (fun i member t known => (each i member t known).1)
    (fun i member t known => (each i member t known).2) tracked]
  constructor
  · rintro ⟨-, all⟩ before after split
    exact all before .fire after split rfl
  · intro all
    refine ⟨start, fun before i after split fires => ?_⟩
    rw [fires] at split
    exact all before after split

/-! ### Two wakeups in one batch -/

/-- The table, and how the pushes to come turn out. -/
structure Evening where
  wakeups : Database Failure (List (ScheduledWakeup ℤ)) ℕ
  pushes : List (Ending Failure)

def unreachable : Failure :=
  .exception (.other "ConnectionError") "Error 111 connecting to redis:6379."

/-- The scheduler over it; the queue entry is the text. -/
def evenings : Scheduler ℤ Evening where
  queue := ⟨RawInput.raw, fun w => (w.pushes.headD .committed, { w with pushes := w.pushes.tail })⟩
  sessions :=
    { db := ⟨Evening.wakeups, fun d w => { w with wakeups := d }, fun _ _ => rfl⟩
      meanwhile := id
      apart := fun _ => rfl }
  nowFn _ := 10

def twoDue (pushes : List (Ending Failure)) : Experience ℤ Evening where
  senses := { world :=
    { wakeups := ⟨[{ id := 1, fireAt := 5, reason := "stretch", createdAt := 0 },
        { id := 2, fireAt := 6, reason := "call Dan", createdAt := 0 }], 3, [], []⟩
      pushes := pushes } }
  attention := { bias := { arousal := 0 } }

/-- The first push fails, and the second wakeup is fired although nobody pushed it. -/
theorem second_wakeup_missed :
    ¬ evenings.NoneMissed (runSteps evenings.happen [.fire] (twoDue [.refused unreachable])) := by
  intro none
  have missed : { id := 2, fireAt := 6, reason := "call Dan", status := .fired, createdAt := 0 } ∈
      evenings.rows (runSteps evenings.happen [.fire] (twoDue [.refused unreachable])) := by
    decide +kernel
  have unpushed : injections 2
      (runSteps evenings.happen [.fire] (twoDue [.refused unreachable])).noted = [] := by
    rfl
  rcases none _ missed with ⟨pending, -⟩ | ⟨-, answer, told⟩
  · cases pending
  · rw [unpushed] at told
    cases told

/-- The second push fails, and only its own wakeup is lost. -/
theorem last_push_misses_none :
    evenings.NoneMissed (runSteps evenings.happen [.fire]
      (twoDue [.committed, .refused unreachable])) := by
  have tracked : evenings.Tracked (twoDue [.committed, .refused unreachable]) :=
    ⟨by decide, fun _ told => absurd rfl told, fun _ _ _ => rfl, fun _ => Nat.zero_le 1⟩
  have start : evenings.NoneMissed (twoDue [.committed, .refused unreachable]) := by
    intro row member
    have pending : ∀ row ∈ evenings.rows (twoDue [.committed, .refused unreachable]),
        row.status = .pending := by decide
    exact .inl ⟨pending row member, rfl⟩
  refine (run_none_missed_iff evenings (fun _ => rfl) [.fire] (by simp) _ tracked start).mpr ?_
  intro before after split
  have first : before = [] := by
    cases before with
    | nil => rfl
    | cons i before =>
        have tail := (List.cons.inj split).2
        simp at tail
  rw [first]
  exact ⟨rfl, trivial⟩

end Scheduler
end Johnny
