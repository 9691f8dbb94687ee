import Johnny.Brain.State
import Johnny.Lib.Transaction
import Mathlib.Data.List.Sort

/-!
# The goals and their lifecycle

A goal is promoted to an active row and closed as resolved or abandoned, each in a
transaction of its own. The table carries that its ids are a primary key.
-/
namespace Johnny

structure GoalRow (K : Type) where
  id : ℕ
  source : String
  description : String
  priority : K
  status : GoalStatus := .active
  plan : Dict K := []
  outcome : Dict K := []
  createdAt : K
  resolvedAt : Option K := none

/-- `_row_to_goal`. -/
def GoalRow.toGoal {K : Type} (row : GoalRow K) : Goal K where
  id := some row.id
  source := row.source
  description := row.description
  priority := row.priority
  status := row.status
  plan := row.plan
  outcome := row.outcome
  createdAt := some row.createdAt
  resolvedAt := row.resolvedAt

def GoalRow.isActive {K : Type} (row : GoalRow K) : Bool := row.status == .active

/-- The `goal` table. -/
structure GoalTable (K : Type) where
  rows : List (GoalRow K)
  keyed : (rows.map GoalRow.id).Nodup

def duplicateGoal : Failure :=
  .exception (.other "IntegrityError") "duplicate key value violates unique constraint"

/-- A row closed with this status, if its id is the given one. -/
def GoalRow.closed {K : Type} (row : GoalRow K) (id : ℕ) (status : GoalStatus) (outcome : Dict K)
    (now : K) : GoalRow K :=
  if row.id = id then { row with status := status, outcome := outcome, resolvedAt := some now }
  else row

theorem GoalRow.closed_id {K : Type} (row : GoalRow K) (id : ℕ) (status : GoalStatus)
    (outcome : Dict K) (now : K) : (row.closed id status outcome now).id = row.id := by
  unfold closed
  split <;> rfl

namespace GoalTable
variable {K : Type}

def row? (t : GoalTable K) (id : ℕ) : Option (GoalRow K) := t.rows.find? fun row => row.id == id

def active (t : GoalTable K) : List (GoalRow K) := t.rows.filter GoalRow.isActive

def close (t : GoalTable K) (id : ℕ) (status : GoalStatus) (outcome : Dict K) (now : K) :
    GoalTable K where
  rows := t.rows.map fun row => row.closed id status outcome now
  keyed := by
    rw [List.map_map]
    convert t.keyed using 2
    funext row
    exact row.closed_id id status outcome now

/-- The row as inserted, where its id is not taken. -/
def insert? (t : GoalTable K) (row : GoalRow K) : Option (GoalTable K) :=
  if fresh : row.id ∉ t.rows.map GoalRow.id then
    some ⟨t.rows ++ [row], by
      rw [List.map_append]
      exact List.nodup_append.mpr ⟨t.keyed, List.nodup_singleton _, by
        rintro a old b new rfl
        exact fresh (List.mem_singleton.mp new ▸ old)⟩⟩
  else none

theorem insert?_rows {t u : GoalTable K} {row : GoalRow K} (inserted : t.insert? row = some u) :
    u.rows = t.rows ++ [row] := by
  unfold insert? at inserted
  split at inserted
  · cases inserted
    rfl
  · cases inserted

end GoalTable

/-- The goal table and its id sequence, as a session sees them. -/
abbrev GoalSession (K α : Type) := Prog Failure (GoalTable K × ℕ) α

/-- The boundary to the persisted goals, with its clock. -/
structure GoalStore (K ω : Type) extends Sessions Failure (GoalTable K) ℕ ω where
  nowFn : ω → K

namespace GoalStore
variable {K ω α : Type}

section ordered
variable [LinearOrder K]

/-- The active goals, the latest promoted first. -/
def active (s : GoalStore K ω) : Prog Failure ω (List (Goal K)) :=
  s.scope <| Prog.reads fun t =>
    (t.1.active.insertionSort fun a b => b.createdAt ≤ a.createdAt).map GoalRow.toGoal

end ordered

/-- `nextval` and the insert. -/
def add (row : ℕ → GoalRow K) : GoalSession K (GoalRow K) := do
  let id ← Prog.reads Prod.snd
  Prog.modify fun t => (t.1, id + 1)
  let table ← Prog.reads Prod.fst
  match table.insert? (row id) with
  | none => Prog.raise duplicateGoal
  | some table => do
    Prog.modify fun t => (table, t.2)
    pure (row id)

/-- Persists a new active goal and returns it with its id. -/
def promote (s : GoalStore K ω) (goal : Goal K) : Prog Failure ω (Goal K) := do
  let now ← Prog.reads s.nowFn
  s.scope do
    let row ← add fun id => {
      id := id, source := goal.source, description := goal.description
      priority := goal.priority, plan := goal.plan, createdAt := goal.createdAt.getD now }
    pure row.toGoal

/-- Closes the row, if there is one. -/
def closeRow (id : ℕ) (status : GoalStatus) (outcome : Dict K) (now : K) : GoalSession K Unit :=
  Prog.modify fun t => match t.1.row? id with
    | none => t
    | some _ => (t.1.close id status outcome now, t.2)

def close (s : GoalStore K ω) (id : ℕ) (status : GoalStatus) (outcome : Dict K) :
    Prog Failure ω Unit := do
  let now ← Prog.reads s.nowFn
  s.scope (closeRow id status outcome now)

def resolve (s : GoalStore K ω) (id : ℕ) (outcome : Dict K) : Prog Failure ω Unit :=
  s.close id .resolved outcome

def abandon (s : GoalStore K ω) (id : ℕ) (outcome : Dict K) : Prog Failure ω Unit :=
  s.close id .abandoned outcome

end GoalStore
end Johnny
