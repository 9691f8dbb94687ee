import Johnny.Agents.Experience
import Johnny.Lib.Transaction

/-!
# Wakeups

A wakeup is a row that waits for its time. Between ticks the due ones are claimed in one
transaction, and then each is pushed onto the queue that the senses drain.
-/
namespace Johnny

inductive WakeupStatus where
  | pending
  | fired
  deriving DecidableEq, Repr

structure ScheduledWakeup (K : Type) where
  id : ℕ
  fireAt : K
  reason : String
  status : WakeupStatus := .pending
  createdAt : K
  deriving DecidableEq

/-- The source stamped on an injected self-percept. -/
def wakeupSource : String := "scheduled_wakeup"

structure Scheduler (K ω : Type) where
  queue : InputQueue ω
  sessions : Sessions Failure (List (ScheduledWakeup K)) ℕ ω
  nowFn : ω → K

namespace Scheduler
variable {K ω : Type} [LinearOrder K]

/-- `due_pending`: oldest due first. -/
def duePending (now : K) (rows : List (ScheduledWakeup K)) : List (ScheduledWakeup K) :=
  (rows.filter fun row => row.status == .pending && decide (row.fireAt ≤ now)).insertionSort
    fun a b => a.fireAt ≤ b.fireAt

def asFired (row : ScheduledWakeup K) : ScheduledWakeup K := { row with status := .fired }

def markFired (ids : List ℕ) (rows : List (ScheduledWakeup K)) : List (ScheduledWakeup K) :=
  rows.map fun row => if row.id ∈ ids then asFired row else row

omit [LinearOrder K] in
@[simp] theorem asFired_id (row : ScheduledWakeup K) : (asFired row).id = row.id := rfl

omit [LinearOrder K] in
@[simp] theorem asFired_fireAt (row : ScheduledWakeup K) : (asFired row).fireAt = row.fireAt := rfl

omit [LinearOrder K] in
theorem asFired_of_fired {row : ScheduledWakeup K} (fired : row.status = .fired) :
    asFired row = row := by
  cases row
  subst fired
  rfl

theorem mem_duePending {now : K} {rows : List (ScheduledWakeup K)} {row : ScheduledWakeup K} :
    row ∈ duePending now rows ↔ row ∈ rows ∧ row.status = .pending ∧ row.fireAt ≤ now := by
  simp [duePending]

theorem duePending_ids (now : K) {rows : List (ScheduledWakeup K)}
    (ids : (rows.map ScheduledWakeup.id).Nodup) :
    ((duePending now rows).map ScheduledWakeup.id).Nodup := by
  unfold duePending
  rw [((List.perm_insertionSort _ _).map _).nodup_iff]
  exact (List.filter_sublist.map _).nodup ids

omit [LinearOrder K] in
theorem mem_markFired {ids : List ℕ} {rows : List (ScheduledWakeup K)} {row : ScheduledWakeup K} :
    row ∈ markFired ids rows ↔
      row ∈ rows ∧ row.id ∉ ids ∨ ∃ old ∈ rows, old.id ∈ ids ∧ row = asFired old := by
  unfold markFired
  rw [List.mem_map]
  constructor
  · rintro ⟨old, member, rfl⟩
    by_cases inside : old.id ∈ ids
    · exact .inr ⟨old, member, inside, if_pos inside⟩
    · rw [if_neg inside]
      exact .inl ⟨member, inside⟩
  · rintro (⟨member, outside⟩ | ⟨old, member, inside, rfl⟩)
    · exact ⟨row, member, if_neg outside⟩
    · exact ⟨old, member, if_pos inside⟩

omit [LinearOrder K] in
@[simp] theorem markFired_ids (ids : List ℕ) (rows : List (ScheduledWakeup K)) :
    (markFired ids rows).map ScheduledWakeup.id = rows.map ScheduledWakeup.id := by
  unfold markFired
  rw [List.map_map]
  apply List.map_congr_left
  intro row _
  by_cases inside : row.id ∈ ids <;> simp [inside]

/-- The claim of the due rows. -/
def claimDue (now : K) :
    Prog Failure (List (ScheduledWakeup K) × ℕ) (List (ScheduledWakeup K)) := do
  let rows ← Prog.reads fun t => duePending now t.1
  Prog.modify fun t => (markFired (rows.map ScheduledWakeup.id) t.1, t.2)
  pure (rows.map asFired)

omit [LinearOrder K] in
/-- The self-percept of a fired wakeup. -/
def inject (s : Scheduler K ω) (wakeup : ScheduledWakeup K) :
    Prog Failure (Experience K ω) Unit := do
  let answer ← (s.queue.push wakeup.reason wakeupSource).outcome
  Experience.note fun _ => .injected wakeup.id answer
  Prog.reraise answer

/-- `fire_due`: the claim commits before anything is pushed. -/
def fireDue (s : Scheduler K ω) : Prog Failure (Experience K ω) (List (ScheduledWakeup K)) := do
  let now ← Prog.reads fun e => s.nowFn e.world
  let fired ← Experience.outside (s.sessions.scope (claimDue now))
  Prog.forEach fired s.inject
  pure fired

end Scheduler
end Johnny
