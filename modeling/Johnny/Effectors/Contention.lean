import Johnny.Effectors.Scheduler
import Johnny.Lib.Parties

/-!
# Schedulers over one database

Any number of calls of `fire_due` and `schedule` take their statements in any order, each
in a transaction at READ COMMITTED: a select reads what is committed, and an update waits
for the rows that another transaction has updated. What was claimed and what was injected
is recorded in the order it happened; nothing in the source reads these two logs.
-/
namespace Johnny

/-- When a call began, and the time it was given to go by. -/
structure Moment (K : Type) where
  given : Option K
  clock : K

def Moment.time {K : Type} (m : Moment K) : K := m.given.getD m.clock

/-- How far a call has come. -/
inductive Caller (K : Type) where
  | idle
  /-- `fire_due`, before its select. -/
  | firing (m : Moment K)
  | selected (m : Moment K) (rows : List (ScheduledWakeup K))
  /-- `mark_fired` is done, and the transaction still open. -/
  | marked (m : Moment K) (rows : List (ScheduledWakeup K))
  | injecting (m : Moment K) (left : List (ScheduledWakeup K))
  /-- `schedule`, before its insert. -/
  | scheduling (fireAt : K) (reason : String)
  | inserted (row : ScheduledWakeup K)
  | ended

/-- A wakeup on the input queue, who put it there, and when. -/
structure Injection (K : Type) where
  caller : ℕ
  wakeup : ScheduledWakeup K
  given : Option K
  clock : K

/-- What the calls share. -/
structure Wakeups (K : Type) where
  clock : K
  /-- The committed rows. -/
  rows : List (ScheduledWakeup K) := []
  nextId : ℕ := 1
  /-- The rows that an open transaction has updated, each with its caller. -/
  locks : List (ℕ × ℕ) := []
  /-- Each committed claim of a wakeup, with its caller. -/
  claimed : List (ℕ × ℕ) := []
  injected : List (Injection K) := []

/-- What a caller does next. -/
inductive CallerMove (K : Type) where
  /-- Time passes. -/
  | pass (clock : K)
  | fire (now : Option K)
  | schedule (delay : K) (reason : String)
  /-- The next statement of the transaction. -/
  | statement
  | commit
  | push
  /-- An exception ends the call; what it left open is rolled back. -/
  | fail

namespace Wakeups
variable {K : Type} [LinearOrder K]

def locked (s : Wakeups K) (rows : List (ScheduledWakeup K)) : Bool :=
  s.locks.any fun lock => lock.1 ∈ rows.map ScheduledWakeup.id

def release (caller : ℕ) (s : Wakeups K) : Wakeups K :=
  { s with locks := s.locks.filter fun lock => lock.2 ≠ caller }

/-- The claim of the rows becomes visible. -/
def claim (caller : ℕ) (rows : List (ScheduledWakeup K)) (s : Wakeups K) : Wakeups K :=
  { s.release caller with
    rows := Scheduler.markFired (rows.map ScheduledWakeup.id) s.rows
    claimed := rows.map (fun row => (caller, row.id)) ++ s.claimed }

/-- The next statement of a call. -/
def statement (caller : ℕ) : Wakeups K × Caller K → Wakeups K × Caller K
  | (s, .firing m) =>
      let rows := Scheduler.duePending m.time s.rows
      (s, if rows.isEmpty then .ended else .selected m rows)
  | (s, .selected m rows) =>
      if s.locked rows then (s, .selected m rows)
      else ({ s with locks := rows.map (fun row => (row.id, caller)) ++ s.locks }, .marked m rows)
  | (s, .scheduling fireAt reason) =>
      ({ s with nextId := s.nextId + 1 },
        .inserted { id := s.nextId, fireAt := fireAt, reason := reason, createdAt := s.clock })
  | sf => sf

def commit (caller : ℕ) : Wakeups K × Caller K → Wakeups K × Caller K
  | (s, .marked m rows) => (s.claim caller rows, .injecting m (rows.map Scheduler.asFired))
  | (s, .inserted row) => ({ s with rows := s.rows ++ [row] }, .ended)
  | sf => sf

def push (caller : ℕ) : Wakeups K × Caller K → Wakeups K × Caller K
  | (s, .injecting m (wakeup :: left)) =>
      ({ s with injected := ⟨caller, wakeup, m.given, s.clock⟩ :: s.injected }, .injecting m left)
  | sf => sf

def move [Add K] (caller : ℕ) : CallerMove K → Wakeups K × Caller K → Wakeups K × Caller K
  | .pass clock, (s, f) => ({ s with clock := max s.clock clock }, f)
  | .fire now, (s, .idle) => (s, .firing ⟨now, s.clock⟩)
  | .schedule delay reason, (s, .idle) => (s, .scheduling (s.clock + delay) reason)
  | .fire _, sf | .schedule _ _, sf => sf
  | .statement, sf => statement caller sf
  | .commit, sf => commit caller sf
  | .push, sf => push caller sf
  | .fail, (s, _) => (s.release caller, .ended)

/-- Every wakeup on the queue was scheduled, came there once, and not before its time. -/
structure FiresOnce (s : Wakeups K) : Prop where
  once : (s.injected.map fun i => i.wakeup.id).Nodup
  scheduled : ∀ i ∈ s.injected, i.wakeup ∈ s.rows
  due : ∀ i ∈ s.injected, i.wakeup.fireAt ≤ i.given.getD i.clock

/-! ### What one move does -/

/-- The moves that change something. -/
inductive Moved (caller : ℕ) (e : CallerMove K) :
    Wakeups K → Caller K → Wakeups K → Caller K → Prop
  | still (s f) : Moved caller e s f s f
  | passed (s f) (clock : K) : Moved caller e s f { s with clock := max s.clock clock } f
  | called (s) (now : Option K) : Moved caller e s .idle s (.firing ⟨now, s.clock⟩)
  | scheduled (s) (fireAt : K) (reason : String) :
      Moved caller e s .idle s (.scheduling fireAt reason)
  | none (s m) : Moved caller e s (.firing m) s .ended
  | selected (s m) :
      Moved caller e s (.firing m) s (.selected m (Scheduler.duePending m.time s.rows))
  | marked (s m rows) (locks : List (ℕ × ℕ)) :
      Moved caller e s (.selected m rows) { s with locks := locks } (.marked m rows)
  | inserted (s : Wakeups K) (row : ScheduledWakeup K) (fireAt : K) (reason : String)
      (drawn : row.id = s.nextId) :
      Moved caller e s (.scheduling fireAt reason) { s with nextId := s.nextId + 1 } (.inserted row)
  | claimed (s m rows) (now : e = .commit) : Moved caller e s (.marked m rows)
      (s.claim caller rows) (.injecting m (rows.map Scheduler.asFired))
  | stored (s : Wakeups K) (row) :
      Moved caller e s (.inserted row) { s with rows := s.rows ++ [row] } .ended
  | pushed (s : Wakeups K) (m wakeup left) : Moved caller e s (.injecting m (wakeup :: left))
      { s with injected := ⟨caller, wakeup, m.given, s.clock⟩ :: s.injected } (.injecting m left)
  | failed (s f) : Moved caller e s f (s.release caller) .ended

theorem move_spec [Add K] (caller : ℕ) (e : CallerMove K) (s : Wakeups K) (f : Caller K) :
    Moved caller e s f (move caller e (s, f)).1 (move caller e (s, f)).2 := by
  cases e with
  | pass clock => exact .passed s f clock
  | fire now => cases f <;> first | exact .called s now | exact .still s _
  | schedule delay reason => cases f <;> first | exact .scheduled s _ reason | exact .still s _
  | statement =>
      cases f with
      | firing m =>
          simp only [move, statement]
          split
          · exact .none s m
          · exact .selected s m
      | selected m rows =>
          simp only [move, statement]
          split
          · exact .still s _
          · exact .marked s m rows _
      | scheduling fireAt reason => exact .inserted s _ fireAt reason rfl
      | _ => exact .still s _
  | commit =>
      cases f with
      | marked m rows => exact .claimed s m rows rfl
      | inserted row => exact .stored s row
      | _ => exact .still s _
  | push =>
      cases f with
      | injecting m left =>
          cases left with
          | nil => exact .still s _
          | cons wakeup left => exact .pushed s m wakeup left
      | _ => exact .still s _
  | fail => exact .failed s f

/-! ### What holds of every interleaving -/

/-- What holds of the table and the two logs. -/
structure Sound (s : Wakeups K) : Prop where
  ids : (s.rows.map ScheduledWakeup.id).Nodup
  below : ∀ row ∈ s.rows, row.id < s.nextId
  claims : ∀ c ∈ s.claimed, ∃ row ∈ s.rows, row.id = c.2 ∧ row.status = .fired
  attributed : ∀ i ∈ s.injected, (i.caller, i.wakeup.id) ∈ s.claimed
  each : (s.injected.map fun i => (i.caller, i.wakeup.id)).Nodup
  scheduled : ∀ i ∈ s.injected, i.wakeup ∈ s.rows ∧ i.wakeup.status = .fired
  due : ∀ i ∈ s.injected, i.wakeup.fireAt ≤ i.given.getD i.clock

def Unclaimed (caller : ℕ) (s : Wakeups K) : Prop := ∀ c ∈ s.claimed, c.1 ≠ caller

/-- The rows of a call that has not committed: each is pending still, or another call has
claimed it. -/
structure Chosen (caller : ℕ) (s : Wakeups K) (m : Moment K)
    (rows : List (ScheduledWakeup K)) : Prop where
  unclaimed : s.Unclaimed caller
  clock : m.clock ≤ s.clock
  ids : (rows.map ScheduledWakeup.id).Nodup
  due : ∀ row ∈ rows, row.fireAt ≤ m.time
  there : ∀ row ∈ rows, ∃ now ∈ s.rows, Scheduler.asFired now = Scheduler.asFired row ∧
    (now.status = .pending ∨ ∃ other, other ≠ caller ∧ (other, row.id) ∈ s.claimed)

/-- The wakeups that a call has claimed and still has to inject. -/
structure Owed (caller : ℕ) (s : Wakeups K) (m : Moment K)
    (left : List (ScheduledWakeup K)) : Prop where
  clock : m.clock ≤ s.clock
  ids : (left.map ScheduledWakeup.id).Nodup
  due : ∀ wakeup ∈ left, wakeup.fireAt ≤ m.time
  fired : ∀ wakeup ∈ left, wakeup ∈ s.rows ∧ wakeup.status = .fired
  claimed : ∀ wakeup ∈ left, (caller, wakeup.id) ∈ s.claimed
  fresh : ∀ wakeup ∈ left, ∀ i ∈ s.injected, i.caller = caller → i.wakeup.id ≠ wakeup.id

/-- What holds of a caller. -/
def Own (caller : ℕ) (s : Wakeups K) : Caller K → Prop
  | .idle | .scheduling _ _ => s.Unclaimed caller
  | .firing m => s.Unclaimed caller ∧ m.clock ≤ s.clock
  | .selected m rows | .marked m rows => s.Chosen caller m rows
  | .injecting m left => s.Owed caller m left
  | .inserted row => row.id < s.nextId ∧ ∀ stored ∈ s.rows, stored.id ≠ row.id
  | .ended => True

/-- No two rows to be stored have one id. -/
def Apart : Caller K → Caller K → Prop
  | .inserted row, .inserted other => row.id ≠ other.id
  | _, _ => True

/-- What a step of one caller can do to the others. -/
structure Onward (caller : ℕ) (s s' : Wakeups K) : Prop where
  clock : s.clock ≤ s'.clock
  drawn : s.nextId ≤ s'.nextId
  claims : ∀ c ∈ s.claimed, c ∈ s'.claimed
  claimed : ∀ c ∈ s'.claimed, c ∈ s.claimed ∨ c.1 = caller
  injected : ∀ i ∈ s'.injected, i ∈ s.injected ∨ i.caller = caller
  rows : ∀ row ∈ s.rows, row ∈ s'.rows ∨
    Scheduler.asFired row ∈ s'.rows ∧ (caller, row.id) ∈ s'.claimed

variable {caller other : ℕ} {e : CallerMove K} {s s' : Wakeups K} {f f' g : Caller K}
  {m : Moment K} {rows left : List (ScheduledWakeup K)}

theorem Onward.rfl : Onward caller s s :=
  ⟨le_refl _, Nat.le_refl _, fun _ => id, fun _ => .inl, fun _ => .inl, fun _ => .inl⟩

omit [LinearOrder K] in
theorem claim_rows : (s.claim caller rows).rows =
    Scheduler.markFired (rows.map ScheduledWakeup.id) s.rows := by rfl

omit [LinearOrder K] in
theorem mem_claimed {c : ℕ × ℕ} : c ∈ (s.claim caller rows).claimed ↔
    (∃ row ∈ rows, c = (caller, row.id)) ∨ c ∈ s.claimed := by
  simp only [claim, List.mem_append, List.mem_map, eq_comm]

theorem claim_onward : Onward caller s (s.claim caller rows) where
  clock := le_refl _
  drawn := Nat.le_refl _
  claims c old := mem_claimed.mpr (.inr old)
  claimed c member := by
    rcases mem_claimed.mp member with ⟨row, -, rfl⟩ | old
    · exact .inr rfl
    · exact .inl old
  injected _ := .inl
  rows row member := by
    rw [claim_rows]
    by_cases inside : row.id ∈ rows.map ScheduledWakeup.id
    · obtain ⟨chosen, among, same⟩ := List.mem_map.mp inside
      refine .inr ⟨Scheduler.mem_markFired.mpr (.inr ⟨row, member, inside, rfl⟩), ?_⟩
      exact mem_claimed.mpr (.inl ⟨chosen, among, by rw [same]⟩)
    · exact .inl (Scheduler.mem_markFired.mpr (.inl ⟨member, inside⟩))

theorem Moved.onward (moved : Moved caller e s f s' f') : Onward caller s s' := by
  cases moved with
  | still | called | scheduled | none | selected => exact .rfl
  | passed =>
      exact ⟨le_max_left _ _, Nat.le_refl _, fun _ => id, fun _ => .inl, fun _ => .inl,
        fun _ => .inl⟩
  | marked | failed =>
      exact ⟨le_refl _, Nat.le_refl _, fun _ => id, fun _ => .inl, fun _ => .inl, fun _ => .inl⟩
  | inserted =>
      exact ⟨le_refl _, Nat.le_succ _, fun _ => id, fun _ => .inl, fun _ => .inl, fun _ => .inl⟩
  | claimed => exact claim_onward
  | stored =>
      exact ⟨le_refl _, Nat.le_refl _, fun _ => id, fun _ => .inl, fun _ => .inl,
        fun _ member => .inl (List.mem_append_left _ member)⟩
  | pushed =>
      refine ⟨le_refl _, Nat.le_refl _, fun _ => id, fun _ => .inl, fun i member => ?_,
        fun _ => .inl⟩
      rcases List.mem_cons.mp member with rfl | old
      · exact .inr rfl
      · exact .inl old

/-- A fired row stays as it is. -/
theorem Onward.fired (onward : Onward caller s s') {row : ScheduledWakeup K}
    (held : row ∈ s.rows ∧ row.status = .fired) : row ∈ s'.rows ∧ row.status = .fired := by
  rcases onward.rows row held.1 with same | ⟨marked, -⟩
  · exact ⟨same, held.2⟩
  · rw [Scheduler.asFired_of_fired held.2] at marked
    exact ⟨marked, held.2⟩

theorem Onward.unclaimed (onward : Onward caller s s') (apart : caller ≠ other)
    (unclaimed : s.Unclaimed other) : s'.Unclaimed other := by
  intro c member
  rcases onward.claimed c member with old | mine
  · exact unclaimed c old
  · rw [mine]
    exact apart

theorem Onward.chosen (onward : Onward caller s s') (apart : caller ≠ other)
    (chosen : s.Chosen other m rows) : s'.Chosen other m rows := by
  refine ⟨onward.unclaimed apart chosen.unclaimed, chosen.clock.trans onward.clock, chosen.ids,
    chosen.due, fun row member => ?_⟩
  obtain ⟨now, stored, same, which⟩ := chosen.there row member
  have id : now.id = row.id := by
    rw [← Scheduler.asFired_id now, same, Scheduler.asFired_id]
  have claimed : (∃ who, who ≠ other ∧ (who, row.id) ∈ s.claimed) →
      ∃ who, who ≠ other ∧ (who, row.id) ∈ s'.claimed := by
    rintro ⟨who, others, old⟩
    exact ⟨who, others, onward.claims _ old⟩
  rcases onward.rows now stored with kept | ⟨marked, mine⟩
  · exact ⟨now, kept, same, which.imp_right claimed⟩
  · rw [id] at mine
    exact ⟨_, marked, same, .inr ⟨caller, apart, mine⟩⟩

theorem Onward.owed (onward : Onward caller s s') (apart : caller ≠ other)
    (owed : s.Owed other m left) : s'.Owed other m left := by
  refine ⟨owed.clock.trans onward.clock, owed.ids, owed.due,
    fun w member => onward.fired (owed.fired w member),
    fun w member => onward.claims _ (owed.claimed w member), fun w member i there mine => ?_⟩
  rcases onward.injected i there with old | theirs
  · exact owed.fresh w member i old mine
  · exact absurd (theirs.symm.trans mine) apart

theorem Moved.others (moved : Moved caller e s f s' f') (apart : caller ≠ other)
    (own : s.Own caller f) (rows : Apart f g) (theirs : s.Own other g) : s'.Own other g := by
  have onward := moved.onward
  cases g with
  | idle => exact onward.unclaimed apart theirs
  | scheduling => exact onward.unclaimed apart theirs
  | firing => exact ⟨onward.unclaimed apart theirs.1, theirs.2.trans onward.clock⟩
  | selected => exact onward.chosen apart theirs
  | marked => exact onward.chosen apart theirs
  | injecting => exact onward.owed apart theirs
  | ended => trivial
  | inserted row =>
      refine ⟨theirs.1.trans_le onward.drawn, ?_⟩
      cases moved with
      | claimed =>
          intro stored member same
          rw [claim_rows] at member
          have among := List.mem_map_of_mem (f := ScheduledWakeup.id) member
          rw [Scheduler.markFired_ids] at among
          obtain ⟨old, there, id⟩ := List.mem_map.mp among
          exact theirs.2 old there (id.trans same)
      | stored mine =>
          intro stored member same
          rcases List.mem_append.mp member with old | new
          · exact theirs.2 stored old same
          · rw [List.mem_singleton.mp new] at same
            exact rows same
      | _ => exact theirs.2

theorem Moved.apart (moved : Moved caller e s f s' f') (own : s.Own caller f)
    (theirs : s.Own other g) (apart : Apart f g) : Apart f' g := by
  cases moved with
  | still | passed => exact apart
  | inserted row fireAt reason drawn =>
      cases g with
      | inserted row' =>
          have below := theirs.1
          unfold Apart
          omega
      | _ => trivial
  | _ => trivial

omit [LinearOrder K] in
theorem Apart.symm (apart : Apart f g) : Apart g f := by
  cases f <;> cases g <;> first | trivial | exact Ne.symm apart

/-- Selecting takes what is due and pending. -/
theorem chosen_of_select (sound : s.Sound) (unclaimed : s.Unclaimed caller)
    (clock : m.clock ≤ s.clock) :
    s.Chosen caller m (Scheduler.duePending m.time s.rows) := by
  refine ⟨unclaimed, clock, Scheduler.duePending_ids _ sound.ids, ?_, ?_⟩
  · intro row member
    exact (Scheduler.mem_duePending.mp member).2.2
  · intro row member
    obtain ⟨stored, pending, -⟩ := Scheduler.mem_duePending.mp member
    exact ⟨row, stored, rfl, .inl pending⟩

/-- The row that a call chose is among the rows, fired, once the call has claimed it. -/
theorem Chosen.claimed (chosen : s.Chosen caller m rows) {row : ScheduledWakeup K}
    (member : row ∈ rows) : Scheduler.asFired row ∈ (s.claim caller rows).rows := by
  obtain ⟨now, stored, same, -⟩ := chosen.there row member
  have id : now.id = row.id := by
    rw [← Scheduler.asFired_id now, same, Scheduler.asFired_id]
  rw [claim_rows, ← same]
  refine Scheduler.mem_markFired.mpr (.inr ⟨now, stored, ?_, rfl⟩)
  rw [id]
  exact List.mem_map_of_mem member

theorem Chosen.owed (sound : s.Sound) (chosen : s.Chosen caller m rows) :
    (s.claim caller rows).Owed caller m (rows.map Scheduler.asFired) := by
  refine ⟨chosen.clock, ?_, ?_, ?_, ?_, ?_⟩
  · rw [List.map_map]
    exact chosen.ids
  · intro wakeup member
    obtain ⟨row, among, rfl⟩ := List.mem_map.mp member
    exact chosen.due row among
  · intro wakeup member
    obtain ⟨row, among, rfl⟩ := List.mem_map.mp member
    exact ⟨chosen.claimed among, rfl⟩
  · intro wakeup member
    obtain ⟨row, among, rfl⟩ := List.mem_map.mp member
    exact mem_claimed.mpr (.inl ⟨row, among, rfl⟩)
  · intro wakeup _ i there mine
    exact absurd mine (chosen.unclaimed _ (sound.attributed i there))

theorem Moved.own (moved : Moved caller e s f s' f') (sound : s.Sound) (own : s.Own caller f) :
    s'.Own caller f' := by
  cases moved with
  | still => exact own
  | passed =>
      cases f with
      | firing => exact ⟨own.1, own.2.trans (le_max_left _ _)⟩
      | selected | marked =>
          exact ⟨own.unclaimed, own.clock.trans (le_max_left _ _), own.ids, own.due, own.there⟩
      | injecting =>
          exact ⟨own.clock.trans (le_max_left _ _), own.ids, own.due, own.fired, own.claimed,
            own.fresh⟩
      | _ => exact own
  | called => exact ⟨own, le_refl _⟩
  | scheduled => exact own
  | none => trivial
  | selected => exact chosen_of_select sound own.1 own.2
  | marked => exact ⟨own.unclaimed, own.clock, own.ids, own.due, own.there⟩
  | inserted row fireAt reason drawn =>
      refine ⟨drawn ▸ Nat.lt_succ_self _, fun stored member same => ?_⟩
      have below := sound.below stored member
      omega
  | claimed => exact own.owed sound
  | stored => trivial
  | pushed m wakeup left =>
      have ids := List.nodup_cons.mp own.ids
      refine ⟨own.clock, ids.2, fun w member => own.due w (List.mem_cons_of_mem _ member),
        fun w member => own.fired w (List.mem_cons_of_mem _ member),
        fun w member => own.claimed w (List.mem_cons_of_mem _ member), ?_⟩
      intro w member i there mine
      rcases List.mem_cons.mp there with rfl | old
      · intro same
        apply ids.1
        rw [same]
        exact List.mem_map_of_mem member
      · exact own.fresh w (List.mem_cons_of_mem _ member) i old mine
  | failed => trivial

theorem Sound.claim (sound : s.Sound) (chosen : s.Chosen caller m rows) :
    (s.claim caller rows).Sound where
  ids := by
    rw [claim_rows, Scheduler.markFired_ids]
    exact sound.ids
  below row member := by
    rw [claim_rows] at member
    rcases Scheduler.mem_markFired.mp member with ⟨old, -⟩ | ⟨old, there, -, rfl⟩
    · exact sound.below row old
    · exact sound.below old there
  claims c member := by
    rcases mem_claimed.mp member with ⟨row, among, rfl⟩ | old
    · exact ⟨_, chosen.claimed among, rfl, rfl⟩
    · obtain ⟨row, there, id, fired⟩ := sound.claims c old
      have kept : row ∈ (s.claim caller rows).rows ∧ row.status = .fired :=
        claim_onward.fired ⟨there, fired⟩
      exact ⟨row, kept.1, id, kept.2⟩
  attributed i member := mem_claimed.mpr (.inr (sound.attributed i member))
  each := sound.each
  scheduled i member := claim_onward.fired (sound.scheduled i member)
  due := sound.due

theorem Sound.store (sound : s.Sound) {row : ScheduledWakeup K} (below : row.id < s.nextId)
    (fresh : ∀ stored ∈ s.rows, stored.id ≠ row.id) :
    Sound { s with rows := s.rows ++ [row] } where
  ids := by
    simp only [List.map_append, List.map_cons, List.map_nil]
    refine List.Nodup.append sound.ids (List.nodup_singleton _) ?_
    intro id among same
    obtain ⟨stored, there, rfl⟩ := List.mem_map.mp among
    exact fresh stored there (List.mem_singleton.mp same)
  below stored member := by
    rcases List.mem_append.mp member with old | new
    · exact sound.below stored old
    · rw [List.mem_singleton.mp new]
      exact below
  claims c member := by
    obtain ⟨stored, there, which⟩ := sound.claims c member
    exact ⟨stored, List.mem_append_left _ there, which⟩
  attributed := sound.attributed
  each := sound.each
  scheduled i member := by
    obtain ⟨there, fired⟩ := sound.scheduled i member
    exact ⟨List.mem_append_left _ there, fired⟩
  due := sound.due

theorem Sound.push {wakeup : ScheduledWakeup K} (sound : s.Sound)
    (owed : s.Owed caller m (wakeup :: left)) :
    Sound { s with injected := ⟨caller, wakeup, m.given, s.clock⟩ :: s.injected } where
  ids := sound.ids
  below := sound.below
  claims := sound.claims
  attributed i member := by
    rcases List.mem_cons.mp member with rfl | old
    · exact owed.claimed wakeup List.mem_cons_self
    · exact sound.attributed i old
  each := by
    refine List.nodup_cons.mpr ⟨fun among => ?_, sound.each⟩
    obtain ⟨i, there, same⟩ := List.mem_map.mp among
    obtain ⟨mine, id⟩ := Prod.mk.inj same
    exact owed.fresh wakeup List.mem_cons_self i there mine id
  scheduled i member := by
    rcases List.mem_cons.mp member with rfl | old
    · exact owed.fired wakeup List.mem_cons_self
    · exact sound.scheduled i old
  due i member := by
    rcases List.mem_cons.mp member with rfl | old
    · have due := owed.due wakeup List.mem_cons_self
      unfold Moment.time at due
      dsimp only
      cases given : m.given with
      | none =>
          rw [given] at due
          exact due.trans owed.clock
      | some now =>
          rw [given] at due
          exact due
    · exact sound.due i old

theorem Moved.sound (moved : Moved caller e s f s' f') (sound : s.Sound) (own : s.Own caller f) :
    s'.Sound := by
  cases moved with
  | still | called | scheduled | none | selected => exact sound
  | passed | marked | failed =>
      exact ⟨sound.ids, sound.below, sound.claims, sound.attributed, sound.each,
        sound.scheduled, sound.due⟩
  | inserted =>
      exact ⟨sound.ids, fun row member => (sound.below row member).trans (Nat.lt_succ_self _),
        sound.claims, sound.attributed, sound.each, sound.scheduled, sound.due⟩
  | claimed => exact sound.claim own
  | stored => exact sound.store own.1 own.2
  | pushed => exact sound.push own

theorem move_keeps [Add K] : Parties.Keeps (move (K := K)) Sound Own Apart where
  shared _ e s f sound own := (move_spec _ e s f).sound sound own
  own _ e s f sound own := (move_spec _ e s f).own sound own
  others _ e s f _ _ apart _ own rows theirs := (move_spec _ e s f).others apart own rows theirs
  apart _ e s f _ _ _ own theirs apart := (move_spec _ e s f).apart own theirs apart
  symm _ _ := Apart.symm

end Wakeups

/-! ### Whole runs -/

/-- A table of wakeups as it can be found. -/
structure WakeupTable (K : Type) where
  rows : List (ScheduledWakeup K)
  nextId : ℕ
  ids : (rows.map ScheduledWakeup.id).Nodup
  below : ∀ row ∈ rows, row.id < nextId

/-- Many callers and what they share. -/
abbrev Schedulers (K : Type) := Parties (Wakeups K) (Caller K)

namespace Schedulers
variable {K : Type} [LinearOrder K] [Add K]

/-- No call has begun. -/
def begin (table : WakeupTable K) (clock : K) : Schedulers K where
  shared := { clock := clock, rows := table.rows, nextId := table.nextId }
  party _ := .idle

def run (moves : List (ℕ × CallerMove K)) (s : Schedulers K) : Schedulers K :=
  runSteps (Parties.step Wakeups.move) moves s

/-- Where this move commits a claim, every row of it is pending still. -/
def StillPending (i : ℕ × CallerMove K) (s : Schedulers K) : Prop :=
  i.2 = .commit → ∀ m rows, s.party i.1 = .marked m rows → ∀ row ∈ rows,
    ∃ now ∈ s.shared.rows, now.id = row.id ∧ now.status = .pending

/-- No claim of the run is of a row that another one has claimed meanwhile. -/
def NeverReclaimed (moves : List (ℕ × CallerMove K)) (s : Schedulers K) : Prop :=
  ∀ before i after, moves = before ++ i :: after → StillPending i (run before s)

/-- Every call has injected what it claimed. -/
def Delivered (s : Schedulers K) : Prop :=
  ∀ c ∈ s.shared.claimed, ∃ i ∈ s.shared.injected, (i.caller, i.wakeup.id) = c

abbrev Sound (s : Schedulers K) : Prop := s.Held Wakeups.Sound Wakeups.Own Wakeups.Apart

omit [Add K] in
theorem begin_sound (table : WakeupTable K) (clock : K) : (begin table clock).Sound where
  shared := ⟨table.ids, table.below, nofun, nofun, List.nodup_nil, nofun, nofun⟩
  own _ := nofun
  apart _ _ _ := trivial

/-- No wakeup was claimed twice. -/
def ClaimedOnce (s : Schedulers K) : Prop := (s.shared.claimed.map Prod.snd).Nodup

theorem step_claimedOnce {s : Schedulers K} (sound : s.Sound) (once : s.ClaimedOnce)
    (i : ℕ × CallerMove K) (pending : StillPending i s) :
    ClaimedOnce (Parties.step Wakeups.move i s) := by
  have moved := Wakeups.move_spec i.1 i.2 s.shared (s.party i.1)
  have own := sound.own i.1
  unfold StillPending at pending
  unfold ClaimedOnce Parties.step at *
  dsimp only
  generalize Wakeups.move i.1 i.2 (s.shared, s.party i.1) = after at moved ⊢
  generalize s.party i.1 = f at moved own pending
  obtain ⟨s', f'⟩ := after
  dsimp only at moved ⊢
  cases moved with
  | claimed m rows now =>
      have claimed : (s.shared.claim i.1 rows).claimed.map Prod.snd =
          rows.map ScheduledWakeup.id ++ s.shared.claimed.map Prod.snd := by
        simp [Wakeups.claim, Function.comp_def]
      rw [claimed]
      refine List.Nodup.append own.ids once ?_
      intro id mine theirs
      obtain ⟨row, member, rfl⟩ := List.mem_map.mp mine
      obtain ⟨c, before, same⟩ := List.mem_map.mp theirs
      -- claimed before, the row is fired; but the condition says that it is pending
      obtain ⟨fired, there, id, status⟩ := sound.shared.claims c before
      obtain ⟨row', stored, id', open'⟩ := pending now m rows rfl row member
      have one : fired = row' := List.inj_on_of_nodup_map sound.shared.ids there stored
        (by rw [id, id', same])
      rw [one, open'] at status
      cases status
  | _ => exact once

omit [Add K] in
theorem fires_once_of_claimedOnce {s : Schedulers K} (sound : s.Sound) (once : s.ClaimedOnce) :
    s.shared.FiresOnce := by
  refine ⟨?_, fun i member => (sound.shared.scheduled i member).1, sound.shared.due⟩
  have same : (s.shared.injected.map fun i => i.wakeup.id) =
      (s.shared.injected.map fun i => (i.caller, i.wakeup.id)).map Prod.snd := by
    simp [Function.comp_def]
  have claimed : ∀ c ∈ s.shared.injected.map fun i => (i.caller, i.wakeup.id),
      c ∈ s.shared.claimed := by
    intro c member
    obtain ⟨i, there, rfl⟩ := List.mem_map.mp member
    exact sound.shared.attributed i there
  rw [same]
  refine List.Nodup.map_on ?_ sound.shared.each
  intro c first c' second
  exact List.inj_on_of_nodup_map once (claimed c first) (claimed c' second)

/-- What was claimed stays so. -/
theorem run_claimed (moves : List (ℕ × CallerMove K)) {s : Schedulers K} {c : ℕ × ℕ}
    (claimed : c ∈ s.shared.claimed) : c ∈ (run moves s).shared.claimed :=
  Parties.run_shared (I := fun t => c ∈ t.claimed)
    (fun caller e t f => (Wakeups.move_spec caller e t f).onward.claims c) moves claimed

/-- Where every call has injected what it claimed, a row that was claimed again is injected
again. -/
theorem neverReclaimed_of_once {table : WakeupTable K} {clock : K}
    {moves : List (ℕ × CallerMove K)} (delivered : (run moves (begin table clock)).Delivered)
    (once : (run moves (begin table clock)).shared.FiresOnce) :
    NeverReclaimed moves (begin table clock) := by
  intro before i after split commits m rows marked row member
  have sound := (begin_sound table clock).run Wakeups.move_keeps before
  have own := sound.own i.1
  change Wakeups.Own i.1 _ ((run before (begin table clock)).party i.1) at own
  rw [marked] at own
  obtain ⟨now, stored, same, pending | ⟨other, apart, theirs⟩⟩ := own.there row member
  · refine ⟨now, stored, ?_, pending⟩
    rw [← Scheduler.asFired_id now, same, Scheduler.asFired_id]
  · exfalso
    have reached : run moves (begin table clock) =
        run after (Parties.step Wakeups.move i (run before (begin table clock))) := by
      unfold run
      rw [split, runSteps_append]
      rfl
    have mine : (i.1, row.id) ∈
        (Parties.step Wakeups.move i (run before (begin table clock))).shared.claimed := by
      unfold Parties.step
      rw [marked, commits]
      exact Wakeups.mem_claimed.mpr (.inl ⟨row, member, rfl⟩)
    have again := run_claimed after mine
    have first := run_claimed (i :: after) theirs
    change _ ∈ (run after (Parties.step Wakeups.move i (run before _))).shared.claimed at first
    rw [← reached] at again first
    obtain ⟨a, there, isMine⟩ := delivered _ again
    obtain ⟨b, there', isTheirs⟩ := delivered _ first
    have one : a = b := List.inj_on_of_nodup_map once.once there there'
      ((Prod.mk.inj isMine).2.trans (Prod.mk.inj isTheirs).2.symm)
    rw [one, isTheirs] at isMine
    exact apart (Prod.mk.inj isMine).1

/-- In every run in which no claim is of a row that another call has claimed meanwhile, each
wakeup is injected once and not before its time, in every state on the way. And where all calls
injected what they claimed, only then. -/
theorem run_fires_once_iff (table : WakeupTable K) (clock : K)
    (moves : List (ℕ × CallerMove K)) :
    (NeverReclaimed moves (begin table clock) → ∀ before after, moves = before ++ after →
        (run before (begin table clock)).shared.FiresOnce) ∧
      ((run moves (begin table clock)).Delivered →
        ((run moves (begin table clock)).shared.FiresOnce ↔
          NeverReclaimed moves (begin table clock))) := by
  have forward : NeverReclaimed moves (begin table clock) → ∀ before after,
      moves = before ++ after → (run before (begin table clock)).shared.FiresOnce := by
    intro never before after split
    have kept : (run before (begin table clock)).Sound ∧
        (run before (begin table clock)).ClaimedOnce := by
      refine runSteps_invariant_of (I := fun s => s.Sound ∧ ClaimedOnce s) (C := StillPending)
        (fun i s pending held => ⟨held.1.step Wakeups.move_keeps i,
          step_claimedOnce held.1 held.2 i pending⟩) before ?_
        (s := begin table clock) ⟨begin_sound table clock, List.nodup_nil⟩
      intro earlier i later inner
      refine never earlier i (later ++ after) ?_
      rw [split, inner, List.append_assoc, List.cons_append]
    exact fires_once_of_claimedOnce kept.1 kept.2
  refine ⟨forward, fun delivered => ⟨neverReclaimed_of_once delivered, fun never => ?_⟩⟩
  exact forward never moves [] (List.append_nil _).symm

/-! ### One call alone, and two at once -/

/-- A call whose transaction no other one delays claims what `fire_due` claims. -/
theorem alone_claims (caller : ℕ) (m : Moment K) (s : Wakeups K) (unlocked : s.locks = []) :
    let after := (Wakeups.move caller .commit (Wakeups.move caller .statement
      (Wakeups.move caller .statement (s, .firing m))))
    let claim := Scheduler.claimDue m.time (s.rows, s.nextId)
    after.1.rows = claim.2.1 ∧ ∀ left, after.2 = .injecting m left → claim.1 = .ok left := by
  intro after claim
  by_cases due : (Scheduler.duePending m.time s.rows).isEmpty
  · have selected : Wakeups.statement caller (s, .firing m) = (s, .ended) := by
      simp [Wakeups.statement, due]
    have ended : after = (s, .ended) := by
      simp only [after, Wakeups.move, selected]
      rfl
    have rows : claim.2.1 = s.rows := by
      change Scheduler.markFired ((Scheduler.duePending m.time s.rows).map _) s.rows = s.rows
      rw [List.isEmpty_iff.mp due]
      exact List.map_id _
    rw [ended, rows]
    exact ⟨rfl, nofun⟩
  · have selected : Wakeups.statement caller (s, .firing m) =
        (s, .selected m (Scheduler.duePending m.time s.rows)) := by
      simp [Wakeups.statement, due]
    have free : s.locked (Scheduler.duePending m.time s.rows) = false := by
      simp [Wakeups.locked, unlocked]
    have marked : ∃ t, Wakeups.statement caller
          (s, .selected m (Scheduler.duePending m.time s.rows)) =
        (t, .marked m (Scheduler.duePending m.time s.rows)) ∧ t.rows = s.rows := by
      simp [Wakeups.statement, free]
    obtain ⟨t, done, rows⟩ := marked
    have claimed : after = (t.claim caller (Scheduler.duePending m.time s.rows),
        .injecting m ((Scheduler.duePending m.time s.rows).map Scheduler.asFired)) := by
      simp only [after, Wakeups.move, selected, done, Wakeups.commit]
    rw [claimed]
    refine ⟨?_, fun left injecting => ?_⟩
    · dsimp only
      rw [Wakeups.claim_rows, rows]
      rfl
    · cases injecting
      rfl

/-- One wakeup that is due. -/
def stretch : WakeupTable ℤ where
  rows := [{ id := 1, fireAt := 10, reason := "stretch", createdAt := 0 }]
  nextId := 2
  ids := by decide
  below := by decide

/-- Two calls at once: the second selects before the first commits. -/
def atOnce : List (ℕ × CallerMove ℤ) :=
  [(1, .fire none), (2, .fire none), (1, .statement), (2, .statement), (1, .statement),
    (1, .commit), (2, .statement), (2, .commit), (1, .push), (2, .push)]

/-- Both inject the wakeup. -/
theorem selected_twice_fires_twice : ¬ (run atOnce (begin stretch 10)).shared.FiresOnce := by
  intro fires
  have twice : (run atOnce (begin stretch 10)).shared.injected.map (fun i => i.wakeup.id) =
      [1, 1] := by decide +kernel
  have once := fires.once
  rw [twice] at once
  exact absurd once (by decide)

/-- One call after the other. -/
def inTurn : List (ℕ × CallerMove ℤ) :=
  [(1, .fire none), (1, .statement), (1, .statement), (1, .commit), (1, .push),
    (2, .fire none), (2, .statement), (2, .statement), (2, .commit), (2, .push)]

/-- The second finds nothing due. -/
theorem claimed_in_turn_fires_once : NeverReclaimed inTurn (begin stretch 10) ∧
    (run inTurn (begin stretch 10)).shared.FiresOnce := by
  have delivered : (run inTurn (begin stretch 10)).Delivered := by
    unfold Delivered
    decide +kernel
  have fires : (run inTurn (begin stretch 10)).shared.FiresOnce :=
    ⟨by decide +kernel, by decide +kernel, by decide +kernel⟩
  exact ⟨((run_fires_once_iff stretch 10 inTurn).2 delivered).mp fires, fires⟩

end Schedulers
end Johnny
