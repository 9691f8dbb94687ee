import Johnny.LLM.Base
import Johnny.Lib.Transaction
import Mathlib.Algebra.Order.BigOperators.Group.List
import Mathlib.Algebra.Order.Ring.Rat
import Mathlib.Tactic.Linarith

/-!
# The call log and the budget it feeds

Every inference attempt is a row of `llm_call_log`. Writing the log never breaks
cognition: a failed write is swallowed. The governor sums the day's rows against the
ceiling; a day starts at midnight UTC. Times are microseconds since the epoch.
-/
namespace Johnny.LLM

structure CallLogRecord where
  role : String
  provider : String
  model : String
  promptTokens : ℤ
  completionTokens : ℤ
  latencyMs : ℤ
  status : String
  costUsd : ℚ

structure CallLogRow extends CallLogRecord where
  id : ℕ
  ts : ℤ

/-- The table, in transactions, with the server clock that stamps its rows. -/
structure CallLog (ω : Type) extends Sessions Error (List CallLogRow) ℕ ω where
  serverNow : ω → ℤ

namespace CallLog
variable {ω : Type}

def rows (log : CallLog ω) (w : ω) : List CallLogRow := (log.db.get w).tables

/-- The row of an entry, under the next id. -/
def insert (entry : CallLogRecord) (ts : ℤ) : Prog Error (List CallLogRow × ℕ) Unit :=
  Prog.modify fun t => (t.1 ++ [{ entry with id := t.2, ts := ts }], t.2 + 1)

def record (log : CallLog ω) (entry : CallLogRecord) : Prog Error ω Unit :=
  Prog.rescue (fun _ => true)
    (do
      let ts ← Prog.reads log.serverNow
      log.scope (insert entry ts))
    fun _ => pure ()

/-- Writing the log never raises. -/
theorem record_apply (log : CallLog ω) (entry : CallLogRecord) (w : ω) :
    log.record entry w = (.ok (), (log.scope (insert entry (log.serverNow w)) w).2) := by
  unfold record Prog.rescue
  rw [Prog.reads_bind]
  rcases log.scope (insert entry (log.serverNow w)) w with ⟨_ | _, w'⟩
  · rfl
  · rfl

/-- The entry is added, or nothing is. -/
theorem record_rows (log : CallLog ω) (entry : CallLogRecord) (w : ω) :
    log.rows (log.record entry w).2 = log.rows w ∨
      ∃ row, row.toCallLogRecord = entry ∧
        log.rows (log.record entry w).2 = log.rows w ++ [row] := by
  rw [record_apply]
  refine (Sessions.scope_rule log.toSessions (insert entry (log.serverNow w)) w
    (A := fun d => d.tables = log.rows w ∨ ∃ row : CallLogRow, row.toCallLogRecord = entry ∧
      d.tables = log.rows w ++ [row]) (B := fun _ _ => True) ?_ fun _ => .inl rfl).1
  rintro _ _ ⟨⟩
  exact ⟨.inr ⟨_, rfl, rfl⟩, trivial⟩

end CallLog

/-! ### The governor -/

def microsecondsPerDay : ℤ := 86400000000

/-- `now.replace(hour=0, minute=0, second=0, microsecond=0)`. -/
def dayStart (now : ℤ) : ℤ := now - now % microsecondsPerDay

theorem dayStart_mono {a b : ℤ} (le : a ≤ b) : dayStart a ≤ dayStart b := by
  unfold dayStart microsecondsPerDay
  omega

/-- Total spend recorded at or after a time. -/
def spentSince (rows : List CallLogRow) (since : ℤ) : ℚ :=
  ((rows.filter fun row => since ≤ row.ts).map fun row => row.costUsd).sum

structure BudgetGovernor (ω : Type) where
  log : CallLog ω
  budget : ℚ
  nowFn : ω → ℤ

namespace BudgetGovernor
variable {ω : Type}

/-- `spent_since`: the sum is one query. -/
def querySince (g : BudgetGovernor ω) (since : ℤ) : Prog Error ω ℚ :=
  g.log.scope (Prog.reads fun t => spentSince t.1 since)

/-- `spent_today`. -/
def querySpentToday (g : BudgetGovernor ω) : Prog Error ω ℚ := do
  let now ← Prog.reads g.nowFn
  g.querySince (dayStart now)

def isExhausted (g : BudgetGovernor ω) : Prog Error ω Bool := do
  let spent ← g.querySpentToday
  pure (decide (g.budget ≤ spent))

/-- What is recorded for the day that the clock shows. -/
def spentToday (g : BudgetGovernor ω) (w : ω) : ℚ :=
  spentSince (g.log.rows w) (dayStart (g.nowFn w))

end BudgetGovernor

/-! ### What is spent does not come back -/

section sums
variable {rows : List CallLogRow}

/-- Spend that counts: no row of the log gives money back. -/
def Spends (rows : List CallLogRow) : Prop := ∀ row ∈ rows, 0 ≤ row.costUsd

theorem spentSince_append (rows more : List CallLogRow) (since : ℤ) :
    spentSince (rows ++ more) since = spentSince rows since + spentSince more since := by
  unfold spentSince
  simp

theorem spentSince_nonneg (spends : Spends rows) (since : ℤ) : 0 ≤ spentSince rows since := by
  unfold spentSince
  apply List.sum_nonneg
  intro cost member
  obtain ⟨row, kept, rfl⟩ := List.mem_map.mp member
  exact spends row (List.mem_filter.mp kept).1

/-- The later the window starts, the less falls into it. -/
theorem spentSince_anti (spends : Spends rows) {since later : ℤ} (le : since ≤ later) :
    spentSince rows later ≤ spentSince rows since := by
  induction rows with
  | nil => exact le_refl _
  | cons row rows ih =>
      have rest := ih fun r member => spends r (List.mem_cons_of_mem row member)
      have cost := spends row List.mem_cons_self
      unfold spentSince at rest ⊢
      by_cases late : later ≤ row.ts
      · have early : since ≤ row.ts := le.trans late
        simp only [List.filter_cons, late, early, decide_true, if_true, List.map_cons,
          List.sum_cons]
        exact add_le_add_right rest _
      · by_cases early : since ≤ row.ts
        · simp only [List.filter_cons, late, early, decide_true, decide_false, if_true,
            Bool.false_eq_true, if_false, List.map_cons, List.sum_cons]
          linarith
        · simp only [List.filter_cons, late, early, decide_false, Bool.false_eq_true, if_false]
          exact rest

theorem spentSince_single {row : CallLogRow} (nonneg : 0 ≤ row.costUsd) (since : ℤ) :
    spentSince [row] since ≤ row.costUsd := by
  unfold spentSince
  by_cases counted : since ≤ row.ts
  · simp [counted]
  · simpa [counted] using nonneg

end sums
end Johnny.LLM
