import Johnny.Lib.Footprint
import Mathlib.Order.Defs.PartialOrder

/-!
# Transactions and sessions

A database changes its tables in transactions alone. A transaction that fails rolls
its changes back, except that numbers drawn from a sequence stay drawn; and a commit
whose answer is lost raises although it took effect. The endings of the transactions
to come are part of the state, so a pattern of failures is a state to start from.
-/

/-- How a transaction turns out. -/
inductive Ending (ε : Type) where
  | committed
  /-- It fails before its first statement. -/
  | refused (e : ε)
  | rolledBack (e : ε)
  /-- It is committed, but the answer is lost. -/
  | unacknowledged (e : ε)

def Ending.takesEffect {ε : Type} : Ending ε → Bool
  | .committed | .unacknowledged _ => true
  | .refused _ | .rolledBack _ => false

def Ending.acknowledged {ε : Type} : Ending ε → Bool
  | .committed => true
  | _ => false

def Ending.answer {ε : Type} : Ending ε → Except ε Unit
  | .committed => .ok ()
  | .refused e | .rolledBack e | .unacknowledged e => .error e

/-- One component of a larger state. -/
structure Component (σ τ : Type) where
  get : σ → τ
  put : τ → σ → σ
  get_put : ∀ t s, get (put t s) = t

def Component.whole {σ : Type} : Component σ σ where
  get s := s
  put t _ := t
  get_put _ _ := rfl

structure Database (ε τ ν : Type) where
  tables : τ
  sequences : ν
  /-- Of the transactions to come; those beyond are committed. -/
  endings : List (Ending ε) := []
  /-- What the commits made visible, newest first. Nothing reads it. -/
  versions : List τ := []

namespace Database
variable {ε τ ν α : Type}

def ending (d : Database ε τ ν) : Ending ε := d.endings.headD .committed

/-- The tables as a commit leaves them. -/
def commit (d : Database ε τ ν) (s : τ × ν) : Database ε τ ν :=
  ⟨s.1, s.2, d.endings.tail, s.1 :: d.versions⟩

/-- The tables stay; the sequences do not go back. -/
def rollback (d : Database ε τ ν) (sequences : ν) : Database ε τ ν :=
  { d with sequences := sequences, endings := d.endings.tail }

def transact (body : Prog ε (τ × ν) α) : Prog ε (Database ε τ ν) α := fun d =>
  match d.ending with
  | .refused e => (.error e, d.rollback d.sequences)
  | .committed =>
    match body (d.tables, d.sequences) with
    | (.ok a, s) => (.ok a, d.commit s)
    | (.error e, s) => (.error e, d.rollback s.2)
  | .unacknowledged e =>
    match body (d.tables, d.sequences) with
    | (.ok _, s) => (.error e, d.commit s)
    | (.error e, s) => (.error e, d.rollback s.2)
  | .rolledBack e =>
    match body (d.tables, d.sequences) with
    | (.ok _, s) => (.error e, d.rollback s.2)
    | (.error e, s) => (.error e, d.rollback s.2)

/-- The ways a transaction can end from `d`. -/
inductive Transacted (body : Prog ε (τ × ν) α) (d : Database ε τ ν) :
    Except ε α × Database ε τ ν → Prop
  | done {a s} (ended : d.ending = .committed) (ran : body (d.tables, d.sequences) = (.ok a, s)) :
      Transacted body d (.ok a, d.commit s)
  | lost {e a s} (ended : d.ending = .unacknowledged e)
      (ran : body (d.tables, d.sequences) = (.ok a, s)) :
      Transacted body d (.error e, d.commit s)
  | undone (e : ε) (sequences : ν) : Transacted body d (.error e, d.rollback sequences)

theorem transact_spec (body : Prog ε (τ × ν) α) (d : Database ε τ ν) :
    Transacted body d (transact body d) := by
  unfold transact
  cases ended : d.ending with
  | refused e => exact .undone e d.sequences
  | committed =>
      rcases ran : body (d.tables, d.sequences) with ⟨_ | _, s⟩
      · exact .undone _ _
      · exact .done ended ran
  | unacknowledged e =>
      rcases ran : body (d.tables, d.sequences) with ⟨_ | _, s⟩
      · exact .undone _ _
      · exact .lost ended ran
  | rolledBack e =>
      rcases body (d.tables, d.sequences) with ⟨_ | _, s⟩
      · exact .undone _ _
      · exact .undone _ _

theorem transact_modify (change : τ → τ) (d : Database ε τ ν) :
    (transact (Prog.modify fun s => (change s.1, s.2)) d).1 = d.ending.answer ∧
      (transact (Prog.modify fun s => (change s.1, s.2)) d).2.tables =
        (if d.ending.takesEffect then change d.tables else d.tables) ∧
      (transact (Prog.modify fun s => (change s.1, s.2)) d).2.endings = d.endings.tail := by
  unfold transact
  rw [Prog.modify_apply]
  cases d.ending <;> exact ⟨rfl, rfl, rfl⟩

/-- Changes with a transaction for each, up to the first that is not acknowledged: the tables then,
and whether all were. -/
def execute : List (Ending ε) → List (τ → τ) → τ → τ × Bool
  | _, [], tables => (tables, true)
  | endings, change :: changes, tables =>
    match endings.headD .committed with
    | .committed => execute endings.tail changes (change tables)
    | .unacknowledged _ => (change tables, false)
    | .refused _ | .rolledBack _ => (tables, false)

theorem execute_acknowledged {endings : List (Ending ε)} {changes : List (τ → τ)} {tables : τ} :
    (execute endings changes tables).2 = true ↔
      ∀ ending ∈ endings.take changes.length, ending.acknowledged = true := by
  induction changes generalizing endings tables with
  | nil => simp [execute]
  | cons change changes ih =>
      cases endings with
      | nil =>
          unfold execute
          rw [List.headD_nil, List.take_nil]
          exact ih.trans (by rw [List.tail_nil, List.take_nil])
      | cons ending endings =>
          unfold execute
          rw [List.headD_cons, List.length_cons, List.take_succ_cons, List.forall_mem_cons]
          cases ending with
          | committed => exact ih.trans (and_iff_right rfl).symm
          | refused e => exact iff_of_false Bool.false_ne_true fun all => by cases all.1
          | rolledBack e => exact iff_of_false Bool.false_ne_true fun all => by cases all.1
          | unacknowledged e => exact iff_of_false Bool.false_ne_true fun all => by cases all.1

/-- How many of `n` changes take effect, by how their transactions end. -/
def effects : List (Ending ε) → ℕ → ℕ
  | _, 0 => 0
  | endings, n + 1 =>
    match endings.headD .committed with
    | .committed => effects endings.tail n + 1
    | .unacknowledged _ => 1
    | .refused _ | .rolledBack _ => 0

/-- The changes that take effect are the first few. -/
theorem execute_eq_foldl (endings : List (Ending ε)) (changes : List (τ → τ)) (tables : τ) :
    (execute endings changes tables).1 =
      (changes.take (effects endings changes.length)).foldl (fun tables change => change tables)
        tables := by
  induction changes generalizing endings tables with
  | nil => rfl
  | cons change changes ih =>
      rw [execute, List.length_cons, effects]
      cases endings.headD .committed with
      | committed =>
          dsimp only
          rw [List.take_succ_cons, List.foldl_cons]
          exact ih endings.tail (change tables)
      | refused e => rfl
      | rolledBack e => rfl
      | unacknowledged e => rfl

/-- Lines added one by one: the first few of them stand, and all where the last is told. -/
theorem execute_append {β : Type} (endings : List (Ending ε)) (lines table : List β) :
    ∃ n ≤ lines.length,
      (execute endings (lines.map fun line table => table ++ [line]) table).1 =
        table ++ lines.take n ∧
      ((execute endings (lines.map fun line table => table ++ [line]) table).2 = true →
        n = lines.length) := by
  induction lines generalizing endings table with
  | nil => exact ⟨0, Nat.le_refl 0, (List.append_nil table).symm, fun _ => rfl⟩
  | cons line lines ih =>
      rw [List.map_cons, execute]
      cases endings.headD .committed with
      | refused e => exact ⟨0, Nat.zero_le _, (List.append_nil table).symm, nofun⟩
      | rolledBack e => exact ⟨0, Nat.zero_le _, (List.append_nil table).symm, nofun⟩
      | unacknowledged e => exact ⟨1, Nat.succ_le_succ (Nat.zero_le _), rfl, nofun⟩
      | committed =>
          obtain ⟨n, within, stand, all⟩ := ih endings.tail (table ++ [line])
          refine ⟨n + 1, Nat.succ_le_succ within, ?_, fun told => congrArg (· + 1) (all told)⟩
          exact stand.trans (by rw [List.take_succ_cons, List.append_assoc, List.singleton_append])

variable {body : Prog ε (τ × ν) α} {d d' : Database ε τ ν} {a : α} {s : τ × ν}

/-- A body that returns is committed where the transaction takes effect, and its return is
passed on where that is acknowledged. -/
theorem transact_of_ok (ran : body (d.tables, d.sequences) = (.ok a, s)) :
    ((transact body d).1 = .ok a ↔ d.ending.acknowledged = true) ∧
      (transact body d).2.versions =
        (if d.ending.takesEffect then [s.1] else []) ++ d.versions := by
  unfold transact
  rw [ran]
  cases d.ending <;> exact ⟨by simp [Ending.acknowledged], rfl⟩

theorem transact_ran (ran : body (d.tables, d.sequences) = (.ok a, s)) :
    (transact body d).1 = d.ending.answer.map (fun _ => a) ∧
      (transact body d).2.tables = if d.ending.takesEffect then s.1 else d.tables := by
  unfold transact
  rw [ran]
  cases d.ending <;> exact ⟨rfl, rfl⟩

/-- Either the body returned and its changes stand, or the tables are as they were. -/
theorem transact_left (body : Prog ε (τ × ν) α) (d : Database ε τ ν) :
    (∃ a, (body (d.tables, d.sequences)).1 = .ok a ∧ d.ending.takesEffect = true ∧
      (transact body d).2.tables = (body (d.tables, d.sequences)).2.1 ∧
      (transact body d).2.sequences = (body (d.tables, d.sequences)).2.2) ∨
    (((∃ e, (body (d.tables, d.sequences)).1 = .error e) ∨ d.ending.takesEffect = false) ∧
      (transact body d).2.tables = d.tables ∧
      ((transact body d).2.sequences = d.sequences ∨
        (transact body d).2.sequences = (body (d.tables, d.sequences)).2.2)) := by
  unfold transact
  rcases body (d.tables, d.sequences) with ⟨e | a, s⟩
  · right
    cases d.ending with
    | refused f => exact ⟨.inl ⟨e, rfl⟩, rfl, .inl rfl⟩
    | committed => exact ⟨.inl ⟨e, rfl⟩, rfl, .inr rfl⟩
    | unacknowledged f => exact ⟨.inl ⟨e, rfl⟩, rfl, .inr rfl⟩
    | rolledBack f => exact ⟨.inl ⟨e, rfl⟩, rfl, .inr rfl⟩
  · cases d.ending with
    | refused f => exact .inr ⟨.inr rfl, rfl, .inl rfl⟩
    | committed => exact .inl ⟨a, rfl, rfl, rfl, rfl⟩
    | unacknowledged f => exact .inl ⟨a, rfl, rfl, rfl, rfl⟩
    | rolledBack f => exact .inr ⟨.inr rfl, rfl, .inr rfl⟩

/-- A property of the tables that every commit keeps holds of all that ever became visible. -/
structure Always (P : τ → Prop) (d : Database ε τ ν) : Prop where
  now : P d.tables
  before : ∀ v ∈ d.versions, P v

theorem Always.commit {P : τ → Prop} (always : d.Always P) {s : τ × ν} (kept : P s.1) :
    (d.commit s).Always P := by
  refine ⟨kept, fun v member => ?_⟩
  rcases List.mem_cons.mp member with rfl | old
  · exact kept
  · exact always.before v old

theorem Always.transact {P : τ → Prop} (always : d.Always P)
    (kept : ∀ a s, body (d.tables, d.sequences) = (.ok a, s) → P s.1) :
    (transact body d).2.Always P := by
  have ended := transact_spec body d
  generalize Database.transact body d = r at ended ⊢
  cases ended with
  | done _ ran => exact always.commit (kept _ _ ran)
  | lost _ ran => exact always.commit (kept _ _ ran)
  | undone _ _ => exact ⟨always.now, always.before⟩

end Database

/-! ### Sessions of a larger world -/

/-- A database in the world, and what else happens while a transaction on it is awaited:
nobody else writes it. -/
structure Sessions (ε τ ν ω : Type) where
  db : Component ω (Database ε τ ν)
  meanwhile : ω → ω
  apart : ∀ w, db.get (meanwhile w) = db.get w

namespace Sessions
variable {ε τ ν ω α : Type}

def scope (s : Sessions ε τ ν ω) (body : Prog ε (τ × ν) α) : Prog ε ω α := do
  let r ← (Prog.zoom s.db.get s.db.put (Database.transact body)).outcome
  Prog.modify s.meanwhile
  Prog.reraise r

/-- The database after a transaction from `w`. -/
def after (s : Sessions ε τ ν ω) (body : Prog ε (τ × ν) α) (w : ω) : Database ε τ ν :=
  (Database.transact body (s.db.get w)).2

theorem scope_apply (s : Sessions ε τ ν ω) (body : Prog ε (τ × ν) α) (w : ω) :
    s.scope body w =
      ((Database.transact body (s.db.get w)).1, s.meanwhile (s.db.put (s.after body w) w)) := by
  unfold scope
  rw [Prog.outcome_bind, Prog.modify_bind]
  unfold Prog.zoom after
  generalize Database.transact body (s.db.get w) = r
  rcases r with ⟨_ | _, _⟩ <;> rfl

theorem scope_db (s : Sessions ε τ ν ω) (body : Prog ε (τ × ν) α) (w : ω) :
    s.db.get (s.scope body w).2 = s.after body w := by
  rw [scope_apply, s.apart, s.db.get_put]

theorem scope_ended (s : Sessions ε τ ν ω) (body : Prog ε (τ × ν) α) (w : ω) :
    Database.Transacted body (s.db.get w) ((s.scope body w).1, s.db.get (s.scope body w).2) := by
  rw [scope_db, scope_apply]
  exact Database.transact_spec body (s.db.get w)

/-- What no transaction of the database writes, and nobody else meanwhile. -/
theorem scope_apart {β : Type} (s : Sessions ε τ ν ω) {f : ω → β} (put : ∀ d w, f (s.db.put d w) = f w)
    (meanwhile : ∀ w, f (s.meanwhile w) = f w) (body : Prog ε (τ × ν) α) (w : ω) :
    f (s.scope body w).2 = f w := by
  rw [scope_apply, meanwhile, put]

variable {s : Sessions ε τ ν ω}

/-- What every end of a transaction leaves, and what its return tells besides. -/
theorem scope_rule (s : Sessions ε τ ν ω) (body : Prog ε (τ × ν) α) (w : ω)
    {A : Database ε τ ν → Prop} {B : α → Database ε τ ν → Prop}
    (committed : ∀ a t, body ((s.db.get w).tables, (s.db.get w).sequences) = (.ok a, t) →
      A ((s.db.get w).commit t) ∧ B a ((s.db.get w).commit t))
    (undone : ∀ n, A ((s.db.get w).rollback n)) :
    A (s.db.get (s.scope body w).2) ∧
      ∀ a, (s.scope body w).1 = .ok a → B a (s.db.get (s.scope body w).2) := by
  have ended := scope_ended s body w
  generalize s.db.get (s.scope body w).2 = d at ended ⊢
  generalize (s.scope body w).1 = r at ended ⊢
  cases ended with
  | done _ ran =>
      obtain ⟨left, told⟩ := committed _ _ ran
      refine ⟨left, ?_⟩
      rintro _ ⟨⟩
      exact told
  | lost _ ran => exact ⟨(committed _ _ ran).1, nofun⟩
  | undone _ n => exact ⟨undone n, nofun⟩

theorem scope_ok {body : Prog ε (τ × ν) α} {w w' : ω} {a : α}
    (ran : s.scope body w = (.ok a, w')) :
    ∃ t, body ((s.db.get w).tables, (s.db.get w).sequences) = (.ok a, t) ∧
      s.db.get w' = (s.db.get w).commit t := by
  have ended := scope_ended s body w
  rw [ran] at ended
  dsimp only at ended
  generalize s.db.get w' = d at ended ⊢
  cases ended with
  | done _ returned => exact ⟨_, returned, rfl⟩

/-- Where no failure is to come, a body that returns is committed. -/
theorem scope_calm {body : Prog ε (τ × ν) α} {w : ω} {a : α} {t : τ × ν}
    (calm : (s.db.get w).endings = [])
    (ran : body ((s.db.get w).tables, (s.db.get w).sequences) = (.ok a, t)) :
    (s.scope body w).1 = .ok a ∧ s.db.get (s.scope body w).2 = (s.db.get w).commit t := by
  have run : Database.transact body (s.db.get w) = (.ok a, (s.db.get w).commit t) := by
    unfold Database.transact Database.ending
    rw [calm, ran]
    rfl
  constructor
  · rw [scope_apply, run]
  · rw [scope_db, after, run]

/-- A body that returns leaves its tables where the transaction takes effect. -/
theorem scope_ran {body : Prog ε (τ × ν) α} {w : ω} {a : α} {t : τ × ν}
    (ran : body ((s.db.get w).tables, (s.db.get w).sequences) = (.ok a, t)) :
    (s.scope body w).1 = (s.db.get w).ending.answer.map (fun _ => a) ∧
      (s.db.get (s.scope body w).2).tables =
        (if (s.db.get w).ending.takesEffect then t.1 else (s.db.get w).tables) ∧
      (s.db.get (s.scope body w).2).endings = (s.db.get w).endings.tail := by
  rw [scope_db, scope_apply]
  unfold after Database.transact
  rw [ran]
  cases (s.db.get w).ending <;> exact ⟨rfl, rfl, rfl⟩

/-- A loop of transactions that cannot fail themselves, each seen as a change of what the tables
show: they show what the changes up to the first unacknowledged one make of it, and the loop
returns exactly if there is none. -/
theorem forEach_execute {β ρ : Type} (f : β → Prog ε ω Unit) (body : β → ω → Prog ε (τ × ν) α)
    (shows : τ → ρ) (change : β → ρ → ρ)
    (each : ∀ b w, f b w = (s.scope (body b w) >>= fun _ => pure ()) w)
    (ran : ∀ b w t, ∃ a t', body b w t = (.ok a, t') ∧ shows t'.1 = change b (shows t.1))
    (bs : List β) (w : ω) :
    shows (s.db.get (Prog.forEach bs f w).2).tables =
        (Database.execute (s.db.get w).endings (bs.map change) (shows (s.db.get w).tables)).1 ∧
      ((Prog.forEach bs f w).1 = .ok () ↔
        (Database.execute (s.db.get w).endings (bs.map change)
          (shows (s.db.get w).tables)).2 = true) := by
  induction bs generalizing w with
  | nil => exact ⟨rfl, iff_of_true rfl rfl⟩
  | cons b bs ih =>
      obtain ⟨a, t, returned, changed⟩ := ran b w ((s.db.get w).tables, (s.db.get w).sequences)
      obtain ⟨answer, tables, endings⟩ := scope_ran returned
      have first : f b w = ((s.scope (body b w) w).1.map (fun _ => ()), (s.scope (body b w) w).2) :=
        (each b w).trans (Prog.bind_pure_apply _ _ _)
      have step : Prog.forEach (b :: bs) f w = (f b >>= fun _ => Prog.forEach bs f) w := rfl
      rw [step, Prog.bind_apply, first, answer, List.map_cons, Database.execute,
        ← Database.ending]
      cases ended : (s.db.get w).ending with
      | committed =>
          rw [ended] at tables
          have rest := ih (s.scope (body b w) w).2
          rw [endings, tables] at rest
          rw [← changed]
          exact rest
      | unacknowledged e =>
          rw [ended] at tables
          refine ⟨?_, iff_of_false nofun Bool.false_ne_true⟩
          rw [← changed]
          exact congrArg shows tables
      | refused e =>
          rw [ended] at tables
          exact ⟨congrArg shows tables, iff_of_false nofun Bool.false_ne_true⟩
      | rolledBack e =>
          rw [ended] at tables
          exact ⟨congrArg shows tables, iff_of_false nofun Bool.false_ne_true⟩

/-- A body that raises leaves the tables, whatever is to come. -/
theorem scope_failed {body : Prog ε (τ × ν) α} {w : ω} {e : ε} {t : τ × ν}
    (ran : body ((s.db.get w).tables, (s.db.get w).sequences) = (.error e, t)) :
    (∃ e', (s.scope body w).1 = .error e') ∧
      (s.db.get (s.scope body w).2).tables = (s.db.get w).tables := by
  have ended := scope_ended s body w
  generalize s.db.get (s.scope body w).2 = d at ended ⊢
  generalize (s.scope body w).1 = r at ended ⊢
  cases ended with
  | done _ returned => cases ran.symm.trans returned
  | lost _ returned => cases ran.symm.trans returned
  | undone e' n => exact ⟨⟨e', rfl⟩, rfl⟩

/-- No transaction unmakes what earlier ones made visible. -/
theorem scope_grows (s : Sessions ε τ ν ω) (body : Prog ε (τ × ν) α) :
    Prog.Keeps (Frame.grows (fun w => (s.db.get w).versions) fun _ => True) (s.scope body) := by
  intro w
  have ended := scope_ended s body w
  unfold Frame.grows
  dsimp only
  generalize s.db.get (s.scope body w).2 = d at ended ⊢
  generalize (s.scope body w).1 = r at ended
  cases ended with
  | @done _ t _ _ => exact ⟨[t.1], rfl, fun _ _ => trivial⟩
  | @lost _ _ t _ _ => exact ⟨[t.1], rfl, fun _ _ => trivial⟩
  | undone _ _ => exact ⟨[], rfl, fun _ _ => trivial⟩

structure Onward {κ : Type} [Preorder κ] (s : Sessions ε τ ν ω) (clock : ω → κ) : Prop where
  passes : ∀ w, clock w ≤ clock (s.meanwhile w)
  timeless : ∀ d w, clock (s.db.put d w) = clock w

theorem scope_onward {κ : Type} [Preorder κ] {clock : ω → κ} (onward : s.Onward clock)
    (body : Prog ε (τ × ν) α) (w : ω) : clock w ≤ clock (s.scope body w).2 := by
  rw [scope_apply, ← onward.timeless (s.after body w) w]
  exact onward.passes _

end Sessions
