import Johnny.Memory.Standing

/-!
# All or nothing

The tables are filled in one transaction. Working memory is another store, written after it by one
command for each key, and an item is made only when its turn comes.
-/
namespace Johnny
variable {K T ω : Type}

namespace MemorySnapshot
variable {m : MemorySnapshot K T ω}

open WorkingSet (hset zadd)

/-! ### The commands to Redis -/

def WellFormed (m : MemorySnapshot K T ω) (fresh : ℕ → String)
    (lines : List (Json K PyText × ℕ)) : Prop :=
  ∀ line ∈ lines, ∃ item, m.makeItem line.1 (fresh line.2) = .ok item

/-- From a world with these endings to come and this working set, the program executes the changes,
and returns if all are acknowledged and `complete` holds. -/
def Executes {α : Type} (m : MemorySnapshot K T ω) (p : Prog Failure ω α)
    (changes : List (WorkingSet K → WorkingSet K)) (complete : Prop) : Prop :=
  ∀ w, m.working.held (p w).2 =
      (Database.execute (m.redisEndings w) changes (m.working.held w)).1 ∧
    ((∃ a, (p w).1 = .ok a) ↔
      (Database.execute (m.redisEndings w) changes (m.working.held w)).2 = true ∧ complete)

theorem Executes.pure {α : Type} (a : α) : m.Executes (pure a) [] True := fun _ =>
  ⟨rfl, iff_of_true ⟨a, rfl⟩ ⟨rfl, trivial⟩⟩

theorem Executes.command {α : Type} (change : WorkingSet K → WorkingSet K) {p : Prog Failure ω α}
    {changes : List (WorkingSet K → WorkingSet K)} {complete : Prop}
    (rest : m.Executes p changes complete) :
    m.Executes (m.working.command change >>= fun _ => p) (change :: changes) complete := by
  intro w
  obtain ⟨answer, tables, endings⟩ := Database.transact_modify change (m.working.redis.db.get w)
  have after := Sessions.scope_db m.working.redis (Prog.modify fun s => (change s.1, s.2)) w
  have result := congrArg Prod.fst
    (Sessions.scope_apply m.working.redis (Prog.modify fun s => (change s.1, s.2)) w)
  rcases ran : m.working.command change w with ⟨r, w'⟩
  unfold WorkingMemory.command at ran
  rw [ran] at after result
  dsimp only at after result
  unfold Sessions.after at after
  rw [answer] at result
  have held : m.working.held w' =
      if (m.working.redis.db.get w).ending.takesEffect then change (m.working.held w)
      else m.working.held w := by
    unfold WorkingMemory.held
    rw [after]
    exact tables
  have left : m.redisEndings w' = (m.redisEndings w).tail := by
    unfold redisEndings
    rw [after]
    exact endings
  subst result
  have head : (m.redisEndings w).headD .committed = (m.working.redis.db.get w).ending := rfl
  have raised (e : Failure) : ¬ ∃ a : α, (.error e : Except Failure α) = .ok a := by
    rintro ⟨a, same⟩
    cases same
  unfold Database.execute
  rw [head]
  unfold WorkingMemory.command
  cases ended : (m.working.redis.db.get w).ending with
  | committed =>
      rw [ended] at ran held
      rw [Prog.bind_of_ok ran, ← left, ← show m.working.held w' = change (m.working.held w) from held]
      exact rest w'
  | refused e =>
      rw [ended] at ran held
      rw [Prog.bind_of_error ran]
      exact ⟨held, iff_of_false (raised e) fun all => Bool.false_ne_true all.1⟩
  | rolledBack e =>
      rw [ended] at ran held
      rw [Prog.bind_of_error ran]
      exact ⟨held, iff_of_false (raised e) fun all => Bool.false_ne_true all.1⟩
  | unacknowledged e =>
      rw [ended] at ran held
      rw [Prog.bind_of_error ran]
      exact ⟨held, iff_of_false (raised e) fun all => Bool.false_ne_true all.1⟩

/-- One line of the file: the body of the loop of `refill`. -/
def storeLine (m : MemorySnapshot K T ω) (fresh : ℕ → String) (line : Json K PyText × ℕ) :
    Prog Failure ω Unit := do
  let item ← Prog.reraise (m.makeItem line.1 (fresh line.2))
  m.working.persist item

theorem storeLine_of_made {fresh : ℕ → String} {line : Json K PyText × ℕ}
    {item : WorkingMemoryItem K} (made : m.makeItem line.1 (fresh line.2) = .ok item) :
    m.storeLine fresh line = m.working.persist item := by
  unfold storeLine
  rw [made]
  rfl

/-- Working memory is refilled as far as the lines and the commands go. -/
theorem refill_executes (fresh : ℕ → String) (lines : List (Json K PyText)) :
    m.Executes (m.refill fresh lines) (script (m.made fresh lines.zipIdx))
      (m.WellFormed fresh lines.zipIdx) := by
  change m.Executes (Prog.forEach lines.zipIdx (m.storeLine fresh)) _ _
  generalize lines.zipIdx = lines
  induction lines with
  | nil => exact fun w => ⟨rfl, iff_of_true ⟨(), rfl⟩ ⟨rfl, nofun⟩⟩
  | cons line lines ih =>
      unfold made
      cases made : m.makeItem line.1 (fresh line.2) with
      | error e =>
          intro w
          have stops : m.storeLine fresh line w = (.error e, w) := by
            unfold storeLine
            rw [made]
            rfl
          have ends : Prog.forEach (line :: lines) (m.storeLine fresh) w = (.error e, w) :=
            Prog.bind_of_error stops
          rw [ends]
          refine ⟨rfl, iff_of_false nofun fun all => ?_⟩
          obtain ⟨item, good⟩ := all.2 line List.mem_cons_self
          cases made.symm.trans good
      | ok item =>
          have goes : Prog.forEach (line :: lines) (m.storeLine fresh) =
              (m.working.command (hset item) >>= fun _ =>
                m.working.command (zadd item.id item.salience) >>= fun _ =>
                  Prog.forEach lines (m.storeLine fresh)) := by
            change (m.storeLine fresh line >>= fun _ => Prog.forEach lines (m.storeLine fresh)) = _
            rw [storeLine_of_made made]
            exact Prog.bind_assoc' _ _ _
          rw [goes]
          intro w
          obtain ⟨held, returns⟩ :=
            Executes.command (hset item) (Executes.command (zadd item.id item.salience) ih) w
          refine ⟨held, returns.trans (and_congr_right fun _ => ?_)⟩
          constructor
          · intro rest other inside
            rcases List.mem_cons.mp inside with rfl | later
            · exact ⟨item, made⟩
            · exact rest other later
          · exact fun all other inside => all other (List.mem_cons_of_mem _ inside)

theorem Executes.bind_pure {α β : Type} {p : Prog Failure ω α}
    {changes : List (WorkingSet K → WorkingSet K)} {complete : Prop}
    (first : m.Executes p changes complete) (b : β) :
    m.Executes (p >>= fun _ => Pure.pure b) changes complete := by
  intro w
  obtain ⟨held, returns⟩ := first w
  rw [Prog.bind_pure_apply p (fun _ => b) w]
  refine ⟨held, Iff.trans ?_ returns⟩
  cases (p w).1 with
  | error e => exact iff_of_false nofun nofun
  | ok a => exact iff_of_true ⟨b, rfl⟩ ⟨a, rfl⟩

theorem settle_executes (fresh : ℕ → String) (b : Backup K) (replace : Bool) :
    m.Executes (m.settle fresh b replace) (commands (m.made fresh b.working.zipIdx) replace)
      (m.WellFormed fresh b.working.zipIdx) := by
  have rest := (refill_executes (m := m) fresh b.working).bind_pure b.counts
  cases replace with
  | true =>
      exact Executes.command (fun _ => { items := [], salience := [] }) rest
  | false => exact rest

/-! ### A restore that raises -/

/-- If the restore raises, every table and working memory are as they were. -/
def AllOrNothing (m : MemorySnapshot K T ω) (d : Directory) (replace : Bool) (v : ω) : Prop :=
  (∃ e, (m.restore d replace v).1 = .error e) →
    SameTables (m.stored (m.restore d replace v).2) (m.stored v) ∧
      m.working.held (m.restore d replace v).2 = m.working.held v

def commitEnding (m : MemorySnapshot K T ω) (v : ω) : Ending Failure := (m.sessions.db.get v).ending

def sent (m : MemorySnapshot K T ω) (b : Backup K) (replace : Bool) (v : ω) :
    List (WorkingSet K → WorkingSet K) := commands (m.restoredItems b v) replace

/-- The commit is acknowledged, every line of working memory makes an item, and Redis acknowledges
every command. -/
structure Completes (m : MemorySnapshot K T ω) (b : Backup K) (replace : Bool) (v : ω) : Prop where
  commit : (m.commitEnding v).acknowledged = true
  lines : m.WellFormed (m.freshIds v) b.working.zipIdx
  commands : ∀ ending ∈ (m.redisEndings v).take (m.sent b replace v).length,
    ending.acknowledged = true

/-- The backup is of what stands: of the rows, and where the commit is acknowledged, of the items
whose commands take effect. -/
structure Stands (m : MemorySnapshot K T ω) (b : Backup K) (replace : Bool) (v : ω) : Prop where
  tables : m.RowsStand b replace (m.stored v)
  working : (m.commitEnding v).acknowledged = true → ItemsStand (m.restoredItems b v) replace
    (Database.effects (m.redisEndings v) (m.sent b replace v).length) (m.working.held v)

section outcomes
variable {d : Directory} {b : Backup K} {replace : Bool} {t : Tables K T} {v : ω}

theorem awaited_working (single : m.SingleWriter) {v' : ω} {r : Except Failure Unit}
    (awaited : m.sessions.scope (m.loadTables b replace) v = (r, v')) :
    m.working.held v' = m.working.held v ∧ m.redisEndings v' = m.redisEndings v := by
  have redis := scope_working single (m.loadTables b replace) v
  rw [awaited] at redis
  unfold WorkingMemory.held redisEndings
  rw [redis]
  exact ⟨rfl, rfl⟩

/-- Rows that can be loaded are there where the transaction takes effect. -/
theorem awaited_of_loads (loads : m.load b replace (m.stored v) = .ok t) :
    (m.sessions.scope (m.loadTables b replace) v).1 = (m.commitEnding v).answer ∧
      m.stored (m.sessions.scope (m.loadTables b replace) v).2 =
        if (m.commitEnding v).takesEffect then t else m.stored v := by
  obtain ⟨result, tables⟩ := Database.transact_ran (loadTables_of_ok loads)
  unfold stored
  rw [Sessions.scope_db, Sessions.scope_apply, Sessions.after]
  refine ⟨result.trans ?_, tables⟩
  unfold commitEnding
  cases (m.sessions.db.get v).ending <;> rfl

/-- Where the transaction raises, what it did to the tables is all that was done. -/
theorem restore_awaited_error (single : m.SingleWriter) (read : m.readBackup d = .ok b) {v' : ω}
    {e : Failure} (awaited : m.sessions.scope (m.loadTables b replace) v = (.error e, v')) :
    m.AllOrNothing d replace v ↔ SameTables (m.stored v') (m.stored v) := by
  unfold AllOrNothing
  rw [restore_read read, Prog.bind_of_error awaited]
  constructor
  · exact fun whole => (whole ⟨e, rfl⟩).1
  · exact fun same _ => ⟨same, (awaited_working single awaited).1⟩

theorem restore_awaited_ok (single : m.SingleWriter) (read : m.readBackup d = .ok b) {v' : ω}
    (acknowledged : (m.commitEnding v).acknowledged = true)
    (loads : m.load b replace (m.stored v) = .ok (m.stored v'))
    (awaited : m.sessions.scope (m.loadTables b replace) v = (.ok (), v')) :
    m.AllOrNothing d replace v ↔ m.Completes b replace v ∨ m.Stands b replace v := by
  obtain ⟨held, endings⟩ := awaited_working single awaited
  obtain ⟨after, returns⟩ := settle_executes (m := m) (m.freshIds v) b replace v'
  rw [held, endings] at after returns
  have stored : m.stored (m.settle (m.freshIds v) b replace v').2 = m.stored v' :=
    congrArg Database.tables ((settle_within single (m.freshIds v) b replace).keeps
      (F := Frame.eqOn m.sessions.db.get) (fun _ _ h => h) v')
  rw [Database.execute_acknowledged] at returns
  have same : (Database.execute (m.redisEndings v) (m.sent b replace v) (m.working.held v)).1 =
      m.working.held v ↔ ItemsStand (m.restoredItems b v) replace
        (Database.effects (m.redisEndings v) (m.sent b replace v).length) (m.working.held v) := by
    rw [Database.execute_eq_foldl]
    exact foldl_commands_same_iff
  unfold AllOrNothing
  rw [restore_read read, Prog.bind_of_ok awaited, stored, after]
  cases result : (m.settle (m.freshIds v) b replace v').1 with
  | ok counts =>
      obtain ⟨commands, lines⟩ := returns.mp ⟨counts, result⟩
      exact iff_of_true nofun (.inl ⟨acknowledged, lines, commands⟩)
  | error e =>
      have raises : ¬ m.Completes b replace v := fun completes => by
        obtain ⟨counts, returned⟩ := returns.mpr ⟨completes.commands, completes.lines⟩
        cases result.symm.trans returned
      rw [or_iff_right raises]
      constructor
      · intro whole
        obtain ⟨tables, working⟩ := whole ⟨e, rfl⟩
        exact ⟨(load_same_iff loads).mp tables, fun _ => same.mp working⟩
      · exact fun stands _ =>
          ⟨(load_same_iff loads).mpr stands.tables, same.mpr (stands.working acknowledged)⟩

theorem loaded_all_or_nothing_iff (single : m.SingleWriter) (read : m.readBackup d = .ok b)
    (loads : m.load b replace (m.stored v) = .ok t) :
    m.AllOrNothing d replace v ↔ ((m.commitEnding v).takesEffect = true →
      m.Completes b replace v ∨ m.Stands b replace v) := by
  obtain ⟨result, after⟩ := awaited_of_loads loads
  rcases awaited : m.sessions.scope (m.loadTables b replace) v with ⟨r, v'⟩
  rw [awaited] at result after
  dsimp only at result after
  subst result
  cases ended : m.commitEnding v with
  | committed =>
      rw [ended] at awaited after
      have filled : m.stored v' = t := after.trans (if_pos rfl)
      rw [restore_awaited_ok single read (by rw [ended]; rfl) (filled ▸ loads) awaited]
      exact ⟨fun whole _ => whole, fun one => one rfl⟩
  | unacknowledged e =>
      rw [ended] at awaited after
      have filled : m.stored v' = t := after.trans (if_pos rfl)
      rw [restore_awaited_error single read awaited, filled]
      have lost : ¬ (m.commitEnding v).acknowledged = true := by
        rw [ended]
        exact Bool.false_ne_true
      constructor
      · exact fun same _ =>
          .inr ⟨(load_same_iff loads).mp same, fun acknowledged => absurd acknowledged lost⟩
      · intro one
        rcases one rfl with completes | stands
        · exact absurd completes.commit lost
        · exact (load_same_iff loads).mpr stands.tables
  | refused e =>
      rw [ended] at awaited after
      have kept : m.stored v' = m.stored v := after.trans (if_neg Bool.false_ne_true)
      rw [restore_awaited_error single read awaited, kept]
      exact iff_of_true ⟨rfl, rfl⟩ nofun
  | rolledBack e =>
      rw [ended] at awaited after
      have kept : m.stored v' = m.stored v := after.trans (if_neg Bool.false_ne_true)
      rw [restore_awaited_error single read awaited, kept]
      exact iff_of_true ⟨rfl, rfl⟩ nofun

end outcomes

/-- A restore is all or nothing exactly where its transaction does not take effect, or everything
behind it succeeds as well, or the backup is of what stands. -/
theorem all_or_nothing_iff (single : m.SingleWriter) (d : Directory) (replace : Bool) (v : ω) :
    m.AllOrNothing d replace v ↔ ∀ b, m.readBackup d = .ok b →
      (∃ t, m.load b replace (m.stored v) = .ok t) → (m.commitEnding v).takesEffect = true →
        m.Completes b replace v ∨ m.Stands b replace v := by
  cases read : m.readBackup d with
  | error e =>
      refine iff_of_true (fun _ => ?_) nofun
      unfold restore
      rw [Prog.reads_bind, read]
      exact ⟨⟨rfl, rfl⟩, rfl⟩
  | ok b =>
      cases loads : m.load b replace (m.stored v) with
      | error e =>
          obtain ⟨⟨e', raised⟩, same⟩ := Sessions.scope_failed (loadTables_of_error loads)
          rcases awaited : m.sessions.scope (m.loadTables b replace) v with ⟨r, v'⟩
          rw [awaited] at raised same
          dsimp only at raised same
          rw [raised] at awaited
          refine iff_of_true ((restore_awaited_error single read awaited).mpr ?_) ?_
          · exact ⟨congrArg Tables.rows same, congrArg Tables.thoughtMoods same⟩
          · rintro _ ⟨⟩ ⟨t, loaded⟩
            cases loads.symm.trans loaded
      | ok t =>
          rw [loaded_all_or_nothing_iff single read loads]
          constructor
          · rintro one _ ⟨⟩ -
            exact one
          · exact fun all => all b rfl ⟨t, loads⟩

/-! ### One line of working memory -/

namespace Keepsake

def lost : Failure := .exception (.other "OperationalError") "connection was closed"

def failing : World :=
  { world with tables := { world.tables with endings := [.rolledBack lost] } }

/-- A snapshot of empty stores, but for a line in the file of working memory that has no field. -/
def malformed : Directory :=
  { snapshots.directory (fun _ => []) [] stamp with
    working := some (.ok (jsonl numbers [[]])) }

theorem malformed_read : snapshots.readBackup malformed =
    .ok (snapshots.backupOf true (fun _ => []) [.obj []]) := by
  have writable : snapshots.Writable (fun _ => []) [] :=
    ⟨fun _ _ inside => absurd inside List.not_mem_nil, nofun, fun _ => rfl⟩
  have version : snapshots.readVersion (snapshots.directory (fun _ => []) [] stamp) = .ok true :=
    readVersion_directory writable
  have line : ∀ row ∈ [([] : Dict Bool)], (Json.obj row).Proper := fun row inside => by
    rw [List.mem_singleton.mp inside]
    exact ⟨List.nodup_nil, trivial⟩
  refine readBackup_of version (fun s => ?_) (readJsonl_jsonl (m := json) line (by decide))
  have table : snapshots.readFile ((snapshots.directory (fun _ => []) [] stamp).tables s) = _ :=
    readFile_table (fun _ _ inside => absurd inside List.not_mem_nil) writable s
  exact table

theorem malformed_loads : snapshots.load (snapshots.backupOf true (fun _ => []) [.obj []]) true
    (snapshots.stored world) = .ok (loaded true (fun _ => []) (snapshots.stored world)) := by
  rw [load_backupOf ⟨fun _ _ inside => absurd inside List.not_mem_nil, fun _ => List.Pairwise.nil⟩]
  exact if_neg fun ⟨_, inside, _⟩ => List.not_mem_nil inside

end Keepsake

open Keepsake in
/-- A transaction that rolls back has changed nothing. -/
theorem failing_restore_whole :
    snapshots.AllOrNothing (snapshots.directory (fun s => [row s]) [item] stamp) true failing :=
  (all_or_nothing_iff single _ true failing).mpr fun _ _ _ effect => by cases effect

open Keepsake in
/-- The tables are emptied, and then the line makes no item. -/
theorem malformed_restore_halfway : ¬ snapshots.AllOrNothing malformed true world := by
  rw [loaded_all_or_nothing_iff single malformed_read malformed_loads]
  intro one
  rcases one rfl with completes | stands
  · obtain ⟨item, made⟩ := completes.lines (.obj [], 0) (List.mem_singleton_self _)
    cases made
  · cases stands.tables.replaced rfl .goals (by decide)

end MemorySnapshot
end Johnny
