import Johnny.Goals.Store

/-!
# The goal arbiter

The strongest urge becomes the goal, unless the incumbent is held: by its dwell
against anyone, and by the margin against another drive. A switch is two transactions,
the incumbent's abandonment and the promotion.
-/
namespace Johnny

def driveIntent : List (String × String) :=
  [("curiosity", "explore something new and learn"),
    ("boredom", "find something fresh to engage with"),
    ("connection", "reconnect — reach out or reflect on the people I care about"),
    ("mastery", "practise and get better at something I've struggled with"),
    ("coherence", "reconcile something that doesn't add up in what I believe"),
    ("continuity", "make sure I'll persist — check my memory is safe")]

def describe (drive : String) : String :=
  (dictGet driveIntent drive).getD ("address my rising " ++ drive)

/-- `max(items, key=key)`: the first of the greatest. -/
def firstMax {α K : Type} [LT K] [DecidableLT K] (key : α → K) : List α → Option α
  | [] => none
  | a :: as => some (as.foldl (fun best b => if key best < key b then b else best) a)

theorem eq_nil_of_firstMax {α K : Type} [LT K] [DecidableLT K] {key : α → K} {as : List α}
    (none : firstMax key as = none) : as = [] := by
  cases as with
  | nil => rfl
  | cons a as => cases none

theorem firstMax_mem {α K : Type} [LT K] [DecidableLT K] {key : α → K} {as : List α} {a : α}
    (best : firstMax key as = some a) : a ∈ as := by
  cases as with
  | nil => cases best
  | cons b as =>
      cases best
      induction as generalizing b with
      | nil => exact List.mem_cons_self
      | cons c as ih =>
          rw [List.foldl_cons]
          split
          · exact List.mem_cons_of_mem b (ih c)
          · rcases List.mem_cons.mp (ih b) with same | inside
            · rw [same]
              exact List.mem_cons_self
            · exact List.mem_cons_of_mem b (List.mem_cons_of_mem c inside)

/-- Of a growing key the last is the greatest. -/
theorem firstMax_of_increasing {α K : Type} [LT K] [DecidableLT K] {key : α → K} {as : List α}
    (increasing : (as.map key).Pairwise (· < ·)) : firstMax key as = as.getLast? := by
  cases as with
  | nil => rfl
  | cons a as =>
      induction as generalizing a with
      | nil => rfl
      | cons b as ih =>
          obtain ⟨first, rest⟩ := List.pairwise_cons.mp increasing
          have less : key a < key b := first (key b) (by simp)
          rw [List.getLast?_cons_cons, ← ih b rest]
          simp [firstMax, less]

structure GoalArbiter (K ω : Type) where
  store : GoalStore K ω
  minDwell : K
  margin : K
  arousalWeight : K
  nowFn : ω → K

namespace GoalArbiter
variable {K ω : Type} [Field K] [LinearOrder K]

omit [LinearOrder K] in
/-- Intensity times affect. -/
def priority (a : GoalArbiter K ω) (urge : Urge K) (mood : Option (Mood K)) : K :=
  urge.urgency * (1 + a.arousalWeight * (mood.map Mood.arousal).getD 0)

omit [LinearOrder K] in
def goalFromUrge (a : GoalArbiter K ω) (urge : Urge K) (mood : Option (Mood K)) (now : K) :
    Goal K where
  source := urge.drive
  description := describe urge.drive
  priority := a.priority urge mood
  createdAt := some now

omit [LinearOrder K] in
/-- The current priority of a drive, `0` when it no longer urges. -/
def currentPriority (a : GoalArbiter K ω) (drive : String) (urges : List (Urge K))
    (mood : Option (Mood K)) : K :=
  match urges.find? fun u => u.drive == drive with
  | some urge => a.priority urge mood
  | none => 0

omit [LinearOrder K] in
def incumbentPriority (a : GoalArbiter K ω) (incumbent : Goal K) (urges : List (Urge K))
    (mood : Option (Mood K)) : K := a.currentPriority incumbent.source urges mood

/-- The incumbent was promoted less than the dwell ago. -/
def isFresh (a : GoalArbiter K ω) (incumbent : Goal K) (reference : K) : Bool :=
  incumbent.createdAt.any fun created => decide (reference - created < a.minDwell)

/-- The goal to promote at the clock reading `now`, or nothing to keep the incumbent. -/
def select (a : GoalArbiter K ω) (urges : List (Urge K)) (mood : Option (Mood K))
    (activeGoals : List (Goal K)) (reference now : K) : Option (Goal K) :=
  let actionable := urges.filter fun u => !u.isSleepSignal
  match firstMax (fun u => a.priority u mood) actionable with
  | none => none
  | some best =>
    match activeGoals.head? with
    | none => some (a.goalFromUrge best mood now)
    | some incumbent =>
      if a.isFresh incumbent reference = true then none
      else if best.drive = incumbent.source then none
      else if a.incumbentPriority incumbent urges mood + a.margin < a.priority best mood then
        some (a.goalFromUrge best mood now)
      else none

/-- The displaced incumbent is abandoned before the promotion. -/
def displace (a : GoalArbiter K ω) (incumbent : Option (Goal K)) (decision : Goal K) :
    Prog Failure ω Unit :=
  Prog.onSome (incumbent.bind Goal.id) fun id =>
    a.store.abandon id [("abandoned_for", .str decision.source)]

/-- Loads the incumbent, decides, and persists a promotion; the result is the pursuit. -/
def arbitrate (a : GoalArbiter K ω) (urges : List (Urge K)) (mood : Option (Mood K))
    (now : Option K) : Prog Failure ω (Option (Goal K)) := do
  let active ← a.store.active
  let reading ← Prog.reads a.nowFn
  match a.select urges mood active (now.getD reading) reading with
  | none => pure active.head?
  | some decision => do
    a.displace active.head? decision
    let promoted ← a.store.promote decision
    pure (some promoted)

/-! ### The decision -/

/-- What a goal has to be for the arbiter to promote it. -/
structure Promotable (a : GoalArbiter K ω) (urges : List (Urge K)) (mood : Option (Mood K))
    (decision : Goal K) : Prop where
  urged : ∃ urge ∈ urges, urge.isSleepSignal = false ∧ decision.source = urge.drive ∧
    decision.priority = a.priority urge mood

/-- What it takes to displace the incumbent of a drive promoted at `created`. -/
structure Displaces (a : GoalArbiter K ω) (urges : List (Urge K)) (mood : Option (Mood K))
    (reference : K) (drive : String) (created : K) (decision : Goal K) : Prop where
  dwelt : a.minDwell ≤ reference - created
  otherDrive : decision.source ≠ drive
  stronger : a.currentPriority drive urges mood + a.margin < decision.priority

variable {a : GoalArbiter K ω} {urges : List (Urge K)} {mood : Option (Mood K)}
  {activeGoals : List (Goal K)} {reference now : K} {decision : Goal K}

theorem select_promotable (selected : a.select urges mood activeGoals reference now = some decision) :
    a.Promotable urges mood decision := by
  unfold select at selected
  dsimp only at selected
  split at selected
  · cases selected
  · next best strongest =>
      have inside := List.mem_filter.mp (firstMax_mem strongest)
      have awake : best.isSleepSignal = false := by simpa using inside.2
      have promoted : some (a.goalFromUrge best mood now) = some decision → 
          a.Promotable urges mood decision := by
        rintro ⟨⟩
        exact ⟨best, inside.1, awake, rfl, rfl⟩
      split at selected
      · exact promoted selected
      · split at selected
        · cases selected
        · split at selected
          · cases selected
          · split at selected
            · exact promoted selected
            · cases selected

theorem select_displaces {incumbent : GoalRow K} {rest : List (Goal K)}
    (selected : a.select urges mood (incumbent.toGoal :: rest) reference now = some decision) :
    a.Displaces urges mood reference incumbent.source incumbent.createdAt decision := by
  unfold select at selected
  dsimp only [List.head?_cons] at selected
  split at selected
  · cases selected
  · split at selected
    · cases selected
    · next dwelt =>
        split at selected
        · cases selected
        · next other =>
            split at selected
            · next stronger =>
                cases selected
                refine ⟨?_, other, stronger⟩
                have elapsed : ¬ reference - incumbent.createdAt < a.minDwell := by
                  intro short
                  exact dwelt (by simpa [isFresh, GoalRow.toGoal] using short)
                exact not_lt.mp elapsed
            · cases selected

end GoalArbiter
end Johnny
