import Johnny.Brain.Heartbeat
import Johnny.Lib.Transaction

/-!
# The last sleep, as the log and as the cycle have it

A sleep opens a row of its log when it begins and fills it when it ends, and only then hands
its report on. The snapshot of the state reads the latest row, the live frame the last report.
-/
namespace Johnny

structure SleepLogRow (K : Type) where
  id : ℕ
  startedAt : K
  endedAt : Option K := none
  trigger : String
  factsWritten : ℕ := 0
  episodesDecayed : ℕ := 0
  factsMerged : ℕ := 0
  selfModelVersion : Option ℕ := none
  snapshotPath : Option String := none
  selfCheckOk : Option Bool := none
  notes : Dict K := []

/-- The last-sleep summary, from a row of the log. -/
def sleepSummaryFromLog {K : Type} : Option (SleepLogRow K) → Json K
  | none => .null
  | some log =>
    let degraded := (dictGet log.notes "degraded").getD (.arr [])
    .obj [("trigger", .str log.trigger),
      ("ended_at", match log.endedAt with
        | some ended => .num ended
        | none => .null),
      ("facts_written", .int log.factsWritten), ("episodes_decayed", .int log.episodesDecayed),
      ("facts_merged", .int log.factsMerged), ("self_model_version", jsonId log.selfModelVersion),
      ("self_check_ok", match log.selfCheckOk with
        | some ok => .bool ok
        | none => .null),
      ("degraded_stages", match degraded with
        | .arr stages => .arr stages
        | _ => .arr [])]

/-- The table of the log, in transactions; its sequence gives the ids. -/
structure SleepLogStore (K ω : Type) where
  sessions : Sessions Failure (List (SleepLogRow K)) ℕ ω

namespace SleepLogStore
variable {K ω : Type}

/-- The row that opens a sleep, with the defaults of the server. -/
def opened (id : ℕ) (trigger : SleepTrigger) (startedAt : K) : SleepLogRow K where
  id := id
  startedAt := startedAt
  trigger := trigger.label

/-- `open`. -/
def openRow (store : SleepLogStore K ω) (trigger : SleepTrigger) (startedAt : K) :
    Prog Failure ω ℕ :=
  store.sessions.scope fun t => (.ok t.2, (t.1 ++ [opened t.2 trigger startedAt], t.2 + 1))

def filled (endedAt : K) (report : SleepReport K) (row : SleepLogRow K) : SleepLogRow K :=
  { row with
    endedAt := some endedAt
    factsWritten := report.factsWritten
    episodesDecayed := report.episodesDecayed
    factsMerged := report.factsMerged
    selfModelVersion := report.selfModelVersion
    snapshotPath := report.snapshotPath
    selfCheckOk := some report.selfCheckOk
    notes := report.notes }

/-- `close`: nothing happens where the row is gone. -/
def closeRow (store : SleepLogStore K ω) (id : ℕ) (endedAt : K) (report : SleepReport K) :
    Prog Failure ω Unit :=
  store.sessions.scope (Prog.modify fun t =>
    (t.1.map fun row => if row.id = id then filled endedAt report row else row, t.2))

/-- The table of the log in the world. -/
def rows (store : SleepLogStore K ω) (w : ω) : List (SleepLogRow K) :=
  (store.sessions.db.get w).tables

section ordered
variable [LinearOrder K]

/-- `ORDER BY started_at DESC LIMIT 1`. -/
def newest (rows : List (SleepLogRow K)) : Option (SleepLogRow K) :=
  (rows.insertionSort fun a b => b.startedAt ≤ a.startedAt).head?

def latest (store : SleepLogStore K ω) : Prog Failure ω (Option (SleepLogRow K)) :=
  store.sessions.scope (Prog.reads fun t => newest t.1)

end ordered
end SleepLogStore

namespace SleepCycle
variable {K ω : Type}

/-- The cycle that keeps its log in the store. -/
def logged (c : SleepCycle K ω) (store : SleepLogStore K ω) : SleepCycle K ω :=
  { c with
    logOpen := store.openRow
    logClose := store.closeRow }

def latestSleep [LinearOrder K] (store : SleepLogStore K ω) :
    Prog Failure ω (Option (SleepLogRow K)) := store.latest

/-! ### The moments of a process -/

section moments
variable [Field K] [LinearOrder K]

/-- The moments of a process that began with an empty log, with the report of the sleep completed
last and whether a sleep is in progress. Each sleep begins as `C` asks, of the log and of its
start. Between the close of a row and the return of the report there is no moment. -/
inductive Moment (c : SleepCycle K ω) (store : SleepLogStore K ω)
    (C : List (SleepLogRow K) → K → Prop) : Mind K ω → Option (SleepReport K) → Bool → Prop
  | booted {s} (awake : s.asleep = false) (calm : (store.sessions.db.get s.world).endings = [])
      (empty : store.rows s.world = []) : Moment c store C s none false
  /-- Whatever else goes on, nobody writes the log. -/
  | passed {s t last busy} (before : Moment c store C s last busy) (asleep : t.asleep = s.asleep)
      (same : store.sessions.db.get t.world = store.sessions.db.get s.world) :
      Moment c store C t last busy
  | entered {s last id} (trigger : SleepTrigger) (now : Option K)
      (before : Moment c store C s last false) (starts : C (store.rows s.world) (c.startOf now s))
      (opened : ((c.logged store).logOpen trigger (c.startOf now s) s.world).1 = .ok id) :
      Moment c store C { s with
        asleep := true
        world := ((c.logged store).logOpen trigger (c.startOf now s) s.world).2 } last true
  | completed {s t last report} (trigger : SleepTrigger) (now : Option K) (degradedTicks : ℕ)
      (before : Moment c store C s last false) (starts : C (store.rows s.world) (c.startOf now s))
      (ran : (c.logged store).sleep trigger now degradedTicks s = (.ok (some report), t)) :
      Moment c store C t (some report) false

/-- What the snapshot and the live frame show of the last sleep is the same. -/
def Agrees (store : SleepLogStore K ω) (s : Mind K ω) (last : Option (SleepReport K)) : Prop :=
  ∃ log, (latestSleep store s.world).1 = .ok log ∧
    sleepSummaryFromLog log = sleepSummaryFromReport last

end moments
end SleepCycle

/-! ### The newest row -/

section newest
variable {K : Type} [LinearOrder K]

/-- A row that starts later than all others is the newest. -/
theorem SleepLogStore.newest_snoc {rows : List (SleepLogRow K)} {row : SleepLogRow K}
    (later : ∀ old ∈ rows, old.startedAt < row.startedAt) : newest (rows ++ [row]) = some row := by
  have : IsTrans (SleepLogRow K) fun a b => b.startedAt ≤ a.startedAt :=
    ⟨fun _ _ _ first second => second.trans first⟩
  have : Std.Total fun a b : SleepLogRow K => b.startedAt ≤ a.startedAt :=
    ⟨fun a b => le_total b.startedAt a.startedAt⟩
  have perm := List.perm_insertionSort (fun a b : SleepLogRow K => b.startedAt ≤ a.startedAt)
    (rows ++ [row])
  have sorted := List.pairwise_insertionSort (fun a b : SleepLogRow K => b.startedAt ≤ a.startedAt)
    (rows ++ [row])
  unfold newest
  generalize List.insertionSort (fun a b : SleepLogRow K => b.startedAt ≤ a.startedAt)
    (rows ++ [row]) = order at perm sorted ⊢
  have inside : row ∈ order := perm.mem_iff.mpr (List.mem_append_right rows List.mem_cons_self)
  cases order with
  | nil => cases inside
  | cons first rest =>
      rw [List.head?_cons]
      rcases List.mem_cons.mp inside with same | behind
      · rw [same]
      · have least := (List.pairwise_cons.mp sorted).1 row behind
        rcases List.mem_append.mp (perm.mem_iff.mp List.mem_cons_self) with old | new
        · exact absurd least (later first old).not_ge
        · rw [List.mem_singleton.mp new]

end newest

/-! ### What a sleep does to the log -/

namespace SleepLogStore
variable {K ω : Type} {store : SleepLogStore K ω} {w : ω}

theorem openRow_calm (calm : (store.sessions.db.get w).endings = []) (trigger : SleepTrigger)
    (startedAt : K) :
    (store.openRow trigger startedAt w).1 = .ok (store.sessions.db.get w).sequences ∧
      store.sessions.db.get (store.openRow trigger startedAt w).2 =
        (store.sessions.db.get w).commit
          (store.rows w ++ [opened (store.sessions.db.get w).sequences trigger startedAt],
            (store.sessions.db.get w).sequences + 1) :=
  Sessions.scope_calm calm rfl

theorem closeRow_calm (calm : (store.sessions.db.get w).endings = []) (id : ℕ) (endedAt : K)
    (report : SleepReport K) :
    (store.closeRow id endedAt report w).1 = .ok () ∧
      store.sessions.db.get (store.closeRow id endedAt report w).2 =
        (store.sessions.db.get w).commit
          ((store.rows w).map fun row => if row.id = id then filled endedAt report row else row,
            (store.sessions.db.get w).sequences) :=
  Sessions.scope_calm calm rfl

theorem latest_calm [LinearOrder K] (calm : (store.sessions.db.get w).endings = []) :
    (store.latest w).1 = .ok (newest (store.rows w)) :=
  (Sessions.scope_calm calm rfl).1

end SleepLogStore

namespace SleepCycle
variable {K ω α : Type}

/-- The trigger of the report and the open row stay. -/
def titled : Frame (Mind K ω × SleepLocals K) where
  rel s t := t.2.report.trigger = s.2.report.trigger ∧ t.2.sleepId = s.2.sleepId
  refl _ := ⟨rfl, rfl⟩
  trans ab bc := ⟨bc.1.trans ab.1, bc.2.trans ab.2⟩

theorem setLocals_titled {f : SleepLocals K → SleepLocals K}
    (trigger : ∀ l, (f l).report.trigger = l.report.trigger)
    (row : ∀ l, (f l).sleepId = l.sleepId) :
    Prog.Within titled.rel (setLocals f : Sleeping K ω Unit) :=
  .modify fun s => ⟨trigger s.2, row s.2⟩

theorem stage_titled (name : String) (p : Stage K ω α) :
    Prog.Within titled.rel (stage name p) := by
  refine .rescue (.bind (.zoom fun s => ⟨rfl, rfl⟩) fun _ => .pure _) fun e => ?_
  exact .bind (setLocals_titled (fun _ => rfl) fun _ => rfl) fun _ =>
    .bind (setLocals_titled (fun _ => rfl) fun _ => rfl) fun _ => .pure _

section pipeline
variable [Field K] [LinearOrder K]

omit [LinearOrder K] in
theorem offline_titled (c : SleepCycle K ω) (started : K) (degradedTicks : ℕ) :
    Prog.Within titled.rel (c.offline started degradedTicks) := by
  have written {f : SleepReport K → SleepReport K} (same : ∀ r, (f r).trigger = r.trigger) :
      Prog.Within titled.rel (setReport f : Sleeping K ω Unit) :=
    setLocals_titled (fun l => same l.report) fun _ => rfl
  exact .bind (stage_titled _ _) fun _ => .bind (written fun _ => rfl) fun _ =>
    .bind (.onlyIf fun _ => setLocals_titled (fun _ => rfl) fun _ => rfl) fun _ =>
    .bind (stage_titled _ _) fun _ => .bind (.onSome fun _ _ => written fun _ => rfl) fun _ =>
    .bind (stage_titled _ _) fun _ => .bind (.onSome fun _ _ => written fun _ => rfl) fun _ =>
    .bind (stage_titled _ _) fun _ => .bind (.onSome fun _ _ => written fun _ => rfl) fun _ =>
    .bind (stage_titled _ _) fun _ => .bind (written fun _ => rfl) fun _ =>
    .bind (stage_titled _ _) fun _ => .pure _

theorem selfCheck_titled (c : SleepCycle K ω) : Prog.Within titled.rel c.selfCheck :=
  .bind (stage_titled _ _) fun _ => .bind (setLocals_titled (fun _ => rfl) fun _ => rfl) fun _ =>
    .onSome fun _ _ => .onlyIf fun _ => setLocals_titled (fun _ => rfl) fun _ => rfl

variable {c : SleepCycle K ω} {store : SleepLogStore K ω}

/-- What the pipeline leaves to the exit path of the row that it opened. -/
theorem pipeline_logged (h : c.Confined (Frame.eqOn store.sessions.db.get)) (trigger : SleepTrigger)
    (started : K) (degradedTicks : ℕ) {s : Mind K ω × SleepLocals K}
    (calm : (store.sessions.db.get s.1.world).endings = []) :
    let d := store.sessions.db.get s.1.world
    let e := ((c.logged store).pipeline trigger started degradedTicks s).2
    store.sessions.db.get e.1.world =
        d.commit (d.tables ++ [SleepLogStore.opened d.sequences trigger started], d.sequences + 1) ∧
      e.2.report.trigger = s.2.report.trigger ∧ e.2.sleepId = some d.sequences := by
  obtain ⟨opened, table⟩ := SleepLogStore.openRow_calm calm trigger started
  have opening : inMind (Mind.outside ((c.logged store).logOpen trigger started)) s =
      (.ok (store.sessions.db.get s.1.world).sequences,
        ({ s.1 with world := (store.openRow trigger started s.1.world).2 }, s.2)) :=
    Prod.ext opened rfl
  let s₁ : Mind K ω × SleepLocals K := ({ s.1 with
      world := (store.openRow trigger started s.1.world).2 },
    { s.2 with sleepId := some (store.sessions.db.get s.1.world).sequences })
  have rest : (c.logged store).pipeline trigger started degradedTicks s =
      (c.offline started degradedTicks >>= fun _ => c.selfCheck) s₁ := Prog.bind_of_ok opening
  have world := (Prog.Within.bind (offline_world h started degradedTicks)
    fun _ => selfCheck_world h).keeps (fun _ _ moved => moved) s₁
  have title := (Prog.Within.bind (offline_titled c started degradedTicks)
    fun _ => selfCheck_titled c).keeps (fun _ _ moved => moved) s₁
  dsimp only
  rw [rest]
  exact ⟨Eq.trans world table, title⟩

/-- A sleep that returned has one row more in the log, filled from its report. -/
theorem sleep_logged (h : c.Confined (Frame.eqOn store.sessions.db.get)) {trigger : SleepTrigger}
    {now : Option K} {degradedTicks : ℕ} {s t : Mind K ω} {report : SleepReport K}
    (calm : (store.sessions.db.get s.world).endings = [])
    (numbered : ∀ row ∈ store.rows s.world, row.id < (store.sessions.db.get s.world).sequences)
    (ran : (c.logged store).sleep trigger now degradedTicks s = (.ok (some report), t)) :
    report.trigger = trigger ∧
      dictGet report.notes "degraded" = some (.arr (report.degradedStages.map .str)) ∧
      (store.sessions.db.get t.world).endings = [] ∧
      (store.sessions.db.get t.world).sequences = (store.sessions.db.get s.world).sequences + 1 ∧
      store.rows t.world = store.rows s.world ++ [SleepLogStore.filled report.endedAt report
        (SleepLogStore.opened (store.sessions.db.get s.world).sequences trigger
          (c.startOf now s))] := by
  have awake : s.asleep = false := by
    by_contra busy
    rw [sleep_busy (c.logged store) trigger now degradedTicks (Bool.eq_true_of_not_eq_false busy)]
      at ran
    cases ran
  rw [sleep_awake (c.logged store) trigger now degradedTicks awake] at ran
  have left := pipeline_logged h trigger (c.startOf now s) degradedTicks
    (s := (c.logged store).entering trigger now s) calm
  rcases piped : (c.logged store).pipeline trigger ((c.logged store).startOf now s) degradedTicks
    ((c.logged store).entering trigger now s) with ⟨r, e⟩
  have start : (c.logged store).startOf now s = c.startOf now s := rfl
  rw [start] at piped
  rw [piped] at left
  obtain ⟨table, title, row⟩ := left
  dsimp only at table title row
  have still : (store.sessions.db.get e.1.world).endings = [] := by
    rw [table]
    unfold Database.commit
    exact congrArg List.tail calm
  obtain ⟨closed, rows⟩ := SleepLogStore.closeRow_calm still
    (store.sessions.db.get s.world).sequences ((c.logged store).finished e).endedAt
    ((c.logged store).finished e)
  have woken := ((c.logged store).wake_closing row).trans (Prog.bind_of_ok (Prod.ext closed rfl))
  have ended := Prog.ensure_of_ok (p := (c.logged store).pipeline trigger (c.startOf now s)
    degradedTicks) piped woken
  rw [start] at ran
  cases r with
  | error raised =>
      rw [Prog.bind_of_error ended] at ran
      cases ran
  | ok _ =>
      rw [Prog.bind_of_ok ended] at ran
      cases ran
      have filling : store.rows e.1.world = store.rows s.world ++
          [SleepLogStore.opened (store.sessions.db.get s.world).sequences trigger
            (c.startOf now s)] := congrArg Database.tables table
      refine ⟨title, dictGet_dictSet _ _ _, ?_, ?_, ?_⟩
      · exact (congrArg Database.endings rows).trans (congrArg List.tail still)
      · exact (congrArg Database.sequences rows).trans (congrArg Database.sequences table)
      · refine (congrArg Database.tables rows).trans ?_
        change (store.rows e.1.world).map _ = _
        rw [filling, List.map_append]
        congr 1
        · refine (List.map_congr_left fun row inside => ?_).trans (List.map_id _)
          exact if_neg (numbered row inside).ne
        · exact congrArg ([·]) (if_pos rfl)

/-! ### Every moment -/

/-- A sleep starts later than every sleep in the log. -/
def Later (rows : List (SleepLogRow K)) (started : K) : Prop := ∀ row ∈ rows, row.startedAt < started

/-- The log between its transactions: the newest row is that of the last completed sleep, or an
open one. -/
structure Kept (store : SleepLogStore K ω) (s : Mind K ω) (last : Option (SleepReport K))
    (busy : Bool) : Prop where
  calm : (store.sessions.db.get s.world).endings = []
  numbered : ∀ row ∈ store.rows s.world, row.id < (store.sessions.db.get s.world).sequences
  idle : busy = false →
    sleepSummaryFromLog (SleepLogStore.newest (store.rows s.world)) = sleepSummaryFromReport last
  inProgress : busy = true →
    ∃ row, SleepLogStore.newest (store.rows s.world) = some row ∧ row.endedAt = none

omit [Field K] [LinearOrder K] in
theorem numbered_snoc {rows : List (SleepLogRow K)} {row : SleepLogRow K} {n : ℕ}
    (below : ∀ old ∈ rows, old.id < n) (id : row.id = n) : ∀ old ∈ rows ++ [row], old.id < n + 1 := by
  intro old member
  rcases List.mem_append.mp member with inside | new
  · exact (below old inside).trans (Nat.lt_succ_self n)
  · rw [List.mem_singleton.mp new, id]
    exact Nat.lt_succ_self n

omit [Field K] [LinearOrder K] in
/-- A filled row shows what its report shows. -/
theorem summary_filled {report : SleepReport K} {trigger : SleepTrigger} (id : ℕ) (started : K)
    (title : report.trigger = trigger)
    (degraded : dictGet report.notes "degraded" = some (.arr (report.degradedStages.map .str))) :
    sleepSummaryFromLog (some (SleepLogStore.filled report.endedAt report
      (SleepLogStore.opened id trigger started))) = sleepSummaryFromReport (some report) := by
  unfold sleepSummaryFromLog sleepSummaryFromReport SleepLogStore.filled SleepLogStore.opened
  dsimp only
  rw [degraded, title]
  rfl

omit [Field K] [LinearOrder K] in
/-- An open row shows no end, and every report does. -/
theorem summary_open {row : SleepLogRow K} (unended : row.endedAt = none)
    (last : Option (SleepReport K)) :
    sleepSummaryFromLog (some row) ≠ sleepSummaryFromReport last := by
  intro same
  unfold sleepSummaryFromLog sleepSummaryFromReport at same
  dsimp only at same
  rw [unended] at same
  cases last with
  | none => cases same
  | some report =>
      have entries := (List.cons.inj (Json.obj.inj same)).2
      cases (Prod.mk.inj (List.cons.inj entries).1).2

/-- Of a sleep that starts later than all others the row is the newest. -/
theorem moment_kept (h : c.Confined (Frame.eqOn store.sessions.db.get)) {s : Mind K ω}
    {last : Option (SleepReport K)} {busy : Bool} (moment : c.Moment store Later s last busy) :
    Kept store s last busy := by
  induction moment with
  | @booted s awake calm empty =>
      refine ⟨calm, ?_, fun _ => ?_, nofun⟩
      · rw [empty]
        exact List.forall_mem_nil _
      · rw [empty]
        rfl
  | @passed s t last busy _ _ same kept =>
      have rows : store.rows t.world = store.rows s.world := congrArg Database.tables same
      refine ⟨?_, ?_, ?_, ?_⟩
      · rw [same]
        exact kept.calm
      · rw [rows, same]
        exact kept.numbered
      · rw [rows]
        exact kept.idle
      · rw [rows]
        exact kept.inProgress
  | @entered s last id trigger now _ starts opened kept =>
      obtain ⟨-, table⟩ := SleepLogStore.openRow_calm kept.calm trigger (c.startOf now s)
      have rows := congrArg Database.tables table
      refine ⟨?_, ?_, nofun, fun _ => ?_⟩
      · exact (congrArg Database.endings table).trans (congrArg List.tail kept.calm)
      · change ∀ row ∈ (store.sessions.db.get (store.openRow trigger (c.startOf now s) s.world).2).tables,
          row.id < (store.sessions.db.get
            (store.openRow trigger (c.startOf now s) s.world).2).sequences
        rw [table]
        have id : (SleepLogStore.opened (store.sessions.db.get s.world).sequences trigger
          (c.startOf now s)).id = (store.sessions.db.get s.world).sequences := rfl
        exact numbered_snoc kept.numbered id
      · refine ⟨SleepLogStore.opened (store.sessions.db.get s.world).sequences trigger
          (c.startOf now s), ?_, rfl⟩
        exact (congrArg SleepLogStore.newest rows).trans (SleepLogStore.newest_snoc starts)
  | @completed s t last report trigger now degradedTicks _ starts ran kept =>
      obtain ⟨title, degraded, calm, sequences, rows⟩ := sleep_logged h kept.calm kept.numbered ran
      have later : ∀ old ∈ store.rows s.world, old.startedAt <
        (SleepLogStore.filled report.endedAt report (SleepLogStore.opened
          (store.sessions.db.get s.world).sequences trigger (c.startOf now s))).startedAt := starts
      refine ⟨calm, ?_, fun _ => ?_, nofun⟩
      · rw [rows, sequences]
        exact numbered_snoc kept.numbered rfl
      · rw [rows, SleepLogStore.newest_snoc later]
        exact summary_filled _ _ title degraded

end pipeline
end SleepCycle

/-- Where each sleep starts later than those before it, the snapshot and the live frame agree on
the last sleep at exactly the moments at which none is in progress. -/
theorem last_sleep_agrees_iff {K ω : Type} [Field K] [LinearOrder K] (c : SleepCycle K ω)
    (store : SleepLogStore K ω) (h : c.Confined (Frame.eqOn store.sessions.db.get)) {s : Mind K ω}
    {last : Option (SleepReport K)} {busy : Bool}
    (moment : c.Moment store SleepCycle.Later s last busy) :
    SleepCycle.Agrees store s last ↔ busy = false := by
  have kept := SleepCycle.moment_kept h moment
  have read := SleepLogStore.latest_calm kept.calm
  constructor
  · rintro ⟨log, returned, same⟩
    cases busy with
    | false => rfl
    | true =>
        obtain ⟨row, newest, unended⟩ := kept.inProgress rfl
        rw [newest] at read
        cases read.symm.trans returned
        exact absurd same (SleepCycle.summary_open unended last)
  · intro idle
    exact ⟨_, read, kept.idle idle⟩

/-! ### The first sleep, in progress -/

namespace FirstSleep

abbrev Log := Database Failure (List (SleepLogRow ℚ)) ℕ

def store : SleepLogStore ℚ Log where
  sessions := { db := .whole, meanwhile := id, apart := fun _ => rfl }

/-- Every stage of a sleep succeeds. -/
def sleepCycle : SleepCycle ℚ Log where
  everyTicks := 0
  clock _ := 0
  logOpen _ _ := pure 1
  logClose _ _ _ := pure ()
  consolidate := pure []
  decay _ := pure {}
  refreshSelfModel _ := pure ⟨"Johnny", "I am Johnny.", 2⟩
  review _ := pure "steady"
  snapshot := pure "/backups/latest"
  stepDrives _ _ := pure ()
  selfModelCurrent := pure ⟨"Johnny", "I am Johnny.", 2⟩
  drivesCurrent := pure []
  anchorName := "Johnny"

def booted : Mind ℚ Log := { world := { tables := [], sequences := 1 }, nextInterval := 0 }

def entered : Mind ℚ Log := { booted with
  asleep := true
  world := ((sleepCycle.logged store).logOpen .manual (sleepCycle.startOf none booted)
    booted.world).2 }

theorem entered_moment (C : List (SleepLogRow ℚ) → ℚ → Prop) (starts : C [] 0) :
    sleepCycle.Moment store C entered none true :=
  .entered .manual none (.booted rfl rfl rfl) starts rfl

theorem confined : sleepCycle.Confined (Frame.eqOn store.sessions.db.get) := by
  constructor <;> intros <;> exact fun _ => rfl

/-- The decay of this one fails. -/
def forgetless : SleepCycle ℚ Log :=
  { sleepCycle with decay := fun _ => Prog.raise (.exception (.other "OperationalError") "") }

theorem forgetless_confined : forgetless.Confined (Frame.eqOn store.sessions.db.get) := by
  constructor <;> intros <;> exact fun _ => rfl

end FirstSleep

open FirstSleep in
/-- While the first sleep is in progress the snapshot shows its open row, where the live frame
shows no sleep. -/
theorem open_sleep_shown : ∃ s last busy, sleepCycle.Moment store (fun _ _ => True) s last busy ∧
    last = none ∧ ¬ SleepCycle.Agrees store s last := by
  refine ⟨entered, none, true, entered_moment _ trivial, rfl, ?_⟩
  rintro ⟨log, returned, same⟩
  cases returned
  cases same

open FirstSleep in
/-- After a sleep without its decay both show that stage as degraded. -/
theorem last_sleep_agrees_degraded : ∃ report woken,
    (forgetless.logged store).sleep .manual none 0 booted = (.ok (some report), woken) ∧
      report.degradedStages = ["decay"] ∧ SleepCycle.Agrees store woken (some report) :=
  ⟨_, _, rfl, rfl, (last_sleep_agrees_iff forgetless store forgetless_confined
    (.completed (s := booted) .manual none 0 (.booted rfl rfl rfl) nofun rfl)).mpr rfl⟩

end Johnny
