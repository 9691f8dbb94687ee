import Johnny.Memory.Loading

/-!
# There and back

Where nothing fails and nobody else writes, a restore puts back what the snapshot read, whatever
the target held before.
-/
namespace Johnny
variable {K T ω : Type}

namespace WorkingSet

theorem upsert_fresh {items : List (WorkingMemoryItem K)} {item : WorkingMemoryItem K}
    (fresh : ∀ old ∈ items, old.id ≠ item.id) : upsert item items = items ++ [item] := by
  refine if_neg fun known => ?_
  obtain ⟨old, inside, same⟩ := List.any_eq_true.mp known
  exact fresh old inside (beq_iff_eq.mp same)

/-- Items with ids of their own are stored one behind the other. -/
theorem foldl_upsert (done new : List (WorkingMemoryItem K)) (distinct : DistinctIds (done ++ new)) :
    new.foldl (fun items item => upsert item items) done = done ++ new := by
  induction new generalizing done with
  | nil => exact (List.append_nil done).symm
  | cons item new ih =>
      have ids := distinct
      unfold DistinctIds at ids
      rw [List.map_append, List.map_cons] at ids
      have fresh : ∀ old ∈ done, old.id ≠ item.id := fun old inside =>
        (List.nodup_append.mp ids).2.2 _ (List.mem_map_of_mem inside) _ List.mem_cons_self
      have front : done ++ item :: new = (done ++ [item]) ++ new := by
        rw [List.append_assoc, List.singleton_append]
      rw [List.foldl_cons, upsert_fresh fresh, front]
      exact ih (done ++ [item]) (front ▸ distinct)

/-- The hash holds these items, each under its id, whatever the index holds. -/
def Keyed (s : WorkingSet K) (items : List (WorkingMemoryItem K)) : Prop :=
  s.items = items.map fun item => (item.id, item)

variable {s : WorkingSet K} {items : List (WorkingMemoryItem K)}

theorem Keyed.hvals (keyed : s.Keyed items) : s.hvals = items := by
  have held := hvals_ofItems items
  unfold WorkingSet.hvals ofItems at *
  rwa [keyed]

theorem Keyed.evict (keyed : s.Keyed items) (id : String) :
    (zrem id (hdel id s)).Keyed (without id items) := by
  have left := filter_map_ids (fun item => item) id items
  unfold Keyed zrem hdel at *
  rw [← left, ← keyed]

end WorkingSet

namespace WorkingMemory
variable {m : WorkingMemory K ω} {s : WorkingSet K} {items : List (WorkingMemoryItem K)} {β : Type}

theorem evictAll_keyed (keyed : s.Keyed items) (key : β → String) (bs : List β) :
    ∃ s', m.Moves s (Prog.forEach bs fun b => m.evict (key b)) () s' ∧
      s'.Keyed (items.filter fun item => decide (item.id ∉ bs.map key)) := by
  induction bs generalizing s items with
  | nil =>
      have all : items.filter (fun item => decide (item.id ∉ [].map key)) = items :=
        List.filter_eq_self.mpr fun _ _ => by simp
      rw [all]
      exact ⟨s, .pure (), keyed⟩
  | cons b bs ih =>
      obtain ⟨s', moves, left⟩ := ih (keyed.evict (key b))
      rw [filter_without] at left
      have first : m.Moves s (m.evict (key b)) () _ := (command_moves _).bind (command_moves _)
      exact ⟨s', first.bind moves, left⟩

/-- What is exported is what the hash holds and is not expired. -/
theorem exportItems_keyed [LinearOrder K] (keyed : s.Keyed items) (distinct : WorkingSet.DistinctIds items)
    {w : ω} (has : m.Has s w) : (m.exportItems w).1 = .ok (live (m.clock w) items) := by
  have read := ask_moves (m := m) (s := s) WorkingSet.hvals
  rw [keyed.hvals] at read
  obtain ⟨s', moves, left⟩ := evictAll_keyed (m := m) keyed WorkingMemoryItem.id
    (items.filter (WorkingMemoryItem.expired (m.clock w)))
  rw [← live_eq_filter distinct] at left
  have reread := ask_moves (m := m) (s := s') WorkingSet.hvals
  rw [left.hvals] at reread
  have pruned : m.Moves s (m.pruneExpired (m.clock w)) _ s' :=
    read.bind (Moves.bind (a := ()) moves (.pure _))
  exact ((pruned.bind reread) w has).1

end WorkingMemory

namespace MemorySnapshot
variable {m : MemorySnapshot K T ω} {w : ω}

open WorkingSet (ofItems DistinctIds)

/-- Both databases answer everything from here on. -/
structure Calm (m : MemorySnapshot K T ω) (w : ω) : Prop where
  tables : (m.sessions.db.get w).endings = []
  working : (m.working.redis.db.get w).endings = []

/-- The program is one of moves that leave the tables alone. -/
def Elsewhere {α : Type} (m : MemorySnapshot K T ω) (p : Prog Failure ω α) : Prop :=
  Prog.Within (fun v w => m.sessions.db.get w = m.sessions.db.get v) p

/-! ### The stores of the one writer -/

section apart
variable (single : m.SingleWriter)
include single

/-- No session of the tables touches working memory. -/
theorem scope_working {α : Type} (body : Prog Failure (Tables K T × Unit) α) (w : ω) :
    m.working.redis.db.get (m.sessions.scope body w).2 = m.working.redis.db.get w :=
  m.sessions.scope_apart single.workingPut single.workingMeanwhile body w

/-- No command to Redis touches the tables. -/
theorem redis_within {α : Type} (body : Prog Failure (WorkingSet K × Unit) α) :
    m.Elsewhere (m.working.redis.scope body) := fun v =>
  .single (m.working.redis.scope_apart single.tablesPut single.tablesMeanwhile body v)

theorem persist_within (item : WorkingMemoryItem K) : m.Elsewhere (m.working.persist item) :=
  .bind (redis_within single _) fun _ => redis_within single _

theorem refill_within (fresh : ℕ → String) (lines : List (Json K PyText)) :
    m.Elsewhere (m.refill fresh lines) :=
  .forEach (fun _ => .bind (.reraise _) fun item => persist_within single item) _

end apart

/-! ### Restoring -/

/-- The lines of items. -/
def itemLines (items : List (WorkingMemoryItem K)) : List (Json K PyText) := items.map itemLine

/-- They are read one by one. -/
theorem refill_moves (fresh : ℕ → String) (items done : List (WorkingMemoryItem K)) :
    m.working.Moves (ofItems done) (m.refill fresh (itemLines items)) ()
      (ofItems (items.foldl (fun items item => WorkingSet.upsert item items) done)) := by
  have each (lines : List (Json K PyText × ℕ)) (same : lines.map Prod.fst = itemLines items)
      (done : List (WorkingMemoryItem K)) :
      m.working.Moves (ofItems done) (Prog.forEach lines fun line => do
        let item ← Prog.reraise (m.makeItem line.1 (fresh line.2))
        m.working.persist item) ()
        (ofItems (items.foldl (fun items item => WorkingSet.upsert item items) done)) := by
    induction items generalizing lines done with
    | nil =>
        rw [itemLines, List.map_nil, List.map_eq_nil_iff] at same
        rw [same]
        exact .pure ()
    | cons item items ih =>
        obtain ⟨line, lines, rfl, head, tail⟩ := List.map_eq_cons_iff.mp same
        have made : m.makeItem line.1 (fresh line.2) = .ok item := by
          rw [head]
          unfold makeItem itemLine
          dsimp only
          rw [m.validates]
          rfl
        refine WorkingMemory.Moves.bind (a := ()) ?_ (ih lines tail _)
        dsimp only
        rw [made]
        exact WorkingMemory.persist_moves item
  exact each _ (List.zipIdx_map_fst 0 _) done

/-- A restore behind its transaction. -/
def settle (m : MemorySnapshot K T ω) (fresh : ℕ → String) (b : Backup K) (replace : Bool) :
    Prog Failure ω (List (String × ℕ)) := do
  Prog.onlyIf replace m.working.clear
  m.refill fresh b.working
  pure b.counts

theorem restore_read {d : Directory} {b : Backup K} (read : m.readBackup d = .ok b) (replace : Bool)
    (v : ω) : m.restore d replace v =
      (m.sessions.scope (m.loadTables b replace) >>= fun _ => m.settle (m.freshIds v) b replace) v := by
  unfold restore
  rw [Prog.reads_bind, read, Prog.reraise_ok, Prog.pure_bind']
  rfl

theorem settle_within (single : m.SingleWriter) (fresh : ℕ → String) (b : Backup K) (replace : Bool) :
    m.Elsewhere (m.settle fresh b replace) :=
  .bind (.onlyIf fun _ => redis_within single _) fun _ =>
    .bind (refill_within single _ _) fun _ => .pure _

variable {d : Directory} {items : List (WorkingMemoryItem K)} {t : Tables K T} {v : ω}

theorem loadTables_of_ok {b : Backup K} {replace : Bool} (loads : m.load b replace (m.stored v) = .ok t) :
    m.loadTables b replace ((m.sessions.db.get v).tables, (m.sessions.db.get v).sequences) =
      (.ok (), (t, (m.sessions.db.get v).sequences)) := by
  unfold stored at loads
  unfold loadTables
  rw [loads]

theorem loadTables_of_error {b : Backup K} {replace : Bool} {e : Failure}
    (loads : m.load b replace (m.stored v) = .error e) :
    m.loadTables b replace ((m.sessions.db.get v).tables, (m.sessions.db.get v).sequences) =
      (.error e, ((m.sessions.db.get v).tables, (m.sessions.db.get v).sequences)) := by
  unfold stored at loads
  unfold loadTables
  rw [loads]

/-- What a restore that replaces has left. -/
structure Replaced (m : MemorySnapshot K T ω) (t : Tables K T) (items : List (WorkingMemoryItem K))
    (d : Directory) (v : ω) : Prop where
  returns : ∃ counts, (m.restore d true v).1 = .ok counts
  tables : m.stored (m.restore d true v).2 = t
  working : m.working.held (m.restore d true v).2 = ofItems items
  calm : m.Calm (m.restore d true v).2

theorem restore_calm (single : m.SingleWriter) (calm : m.Calm v) {b : Backup K}
    (read : m.readBackup d = .ok b) (loads : m.load b true (m.stored v) = .ok t)
    (lines : b.working = itemLines items) (distinct : DistinctIds items) :
    m.Replaced t items d v := by
  obtain ⟨returned, committed⟩ := Sessions.scope_calm calm.tables (loadTables_of_ok loads)
  have redis := scope_working single (m.loadTables b true) v
  have run := restore_read read true v
  rcases awaited : m.sessions.scope (m.loadTables b true) v with ⟨r, v'⟩
  rw [awaited] at returned committed redis
  dsimp only at returned committed redis
  rw [returned] at awaited
  rw [Prog.bind_of_ok awaited] at run
  have has : m.working.Has (m.working.held v') v' := ⟨by rw [redis]; exact calm.working, rfl⟩
  have moves : m.working.Moves (m.working.held v') (m.settle (m.freshIds v) b true) b.counts
      (ofItems items) := by
    refine WorkingMemory.Moves.bind (a := ()) WorkingMemory.clear_moves ?_
    have refilled := refill_moves (m := m) (m.freshIds v) items []
    rw [WorkingSet.foldl_upsert [] items distinct, List.nil_append, ← lines] at refilled
    exact refilled.bind (.pure _)
  have ended := moves v' has
  have kept : m.sessions.db.get (m.restore d true v).2 = m.sessions.db.get v' := by
    rw [run]
    exact (settle_within single _ _ true).keeps (F := Frame.eqOn m.sessions.db.get) (fun _ _ h => h) v'
  refine ⟨⟨b.counts, ?_⟩, ?_, ?_, ?_, ?_⟩
  · rw [run]
    exact ended.1
  · unfold stored
    rw [kept, committed]
    rfl
  · rw [run]
    exact ended.2.held
  · rw [kept, committed]
    unfold Database.commit
    rw [calm.tables]
    rfl
  · rw [run]
    exact ended.2.calm

/-- Rows that cannot be loaded change no table. -/
theorem restore_unloaded {b : Backup K} (read : m.readBackup d = .ok b) {replace : Bool} {e : Failure}
    (loads : m.load b replace (m.stored v) = .error e) :
    (∃ e', (m.restore d replace v).1 = .error e') ∧
      m.stored (m.restore d replace v).2 = m.stored v := by
  obtain ⟨⟨e', raised⟩, same⟩ := Sessions.scope_failed (loadTables_of_error loads)
  rcases awaited : m.sessions.scope (m.loadTables b replace) v with ⟨r, v'⟩
  rw [awaited] at raised same
  dsimp only at raised same
  rw [raised] at awaited
  rw [restore_read read, Prog.bind_of_error awaited]
  exact ⟨⟨e', rfl⟩, same⟩

/-! ### What a snapshot has read -/

theorem clashes_comm (s : Store) (a b : Row K T) : s.clashes a b = s.clashes b a := by
  unfold Store.clashes
  congr 1
  funext names
  exact Bool.eq_iff_iff.mpr ⟨fun same => beq_iff_eq.mpr (beq_iff_eq.mp same).symm,
    fun same => beq_iff_eq.mpr (beq_iff_eq.mp same).symm⟩

/-- A query returns rows that can stand in the table again. -/
theorem Sound.scan {rows : Store → List (Row K T)} (sound : m.Sound rows) :
    m.Sound fun s => m.postgres.scan s (rows s) where
  holds s row inside := sound.holds s row ((m.postgres.scan_perm s _).mem_iff.mp inside)
  unique s := by
    refine ((m.postgres.scan_perm s _).pairwise_iff fun {a b} apart => ?_).mpr (sound.unique s)
    rw [clashes_comm]
    exact apart

theorem refers_perm {facts others : List (Row K T)} (same : facts.Perm others) (edge : Row K T) :
    refers facts edge = refers others edge := by
  unfold refers
  congr 1
  funext name
  exact Bool.eq_iff_iff.mpr (by simp only [List.any_eq_true, same.mem_iff])

theorem Referring.scan {rows : Store → List (Row K T)} (refer : Referring rows) :
    Referring fun s => m.postgres.scan s (rows s) := by
  intro edge inside
  rw [refers_perm (m.postgres.scan_perm .facts _)]
  exact refer edge ((m.postgres.scan_perm .edges _).mem_iff.mp inside)

theorem readBackup_directory {tables : Store → List (Row K T)} (sound : m.Sound tables)
    (writable : m.Writable tables items) (createdAt : String) :
    m.readBackup (m.directory tables items createdAt) =
      .ok (m.backupOf true tables (itemLines items)) :=
  readBackup_of (readVersion_directory writable) (readFile_table sound.holds writable)
    (readFile_working writable)

section snapshots
variable [LinearOrder K]

/-- The rows of every table, as a query returns them. -/
def scanned (m : MemorySnapshot K T ω) (w : ω) (s : Store) : List (Row K T) :=
  m.postgres.scan s ((m.stored w).rows s)

/-- When the snapshot reads working memory: the tables are read by then. -/
def exportTime (m : MemorySnapshot K T ω) (w : ω) : K := m.working.clock (m.readTables w).2

/-- A snapshot is taken exactly if all of it can be written, and then of what is there. -/
theorem snapshot_calm (single : m.SingleWriter) (calm : m.Calm w)
    (held : (m.working.held w).Keyed items) (distinct : DistinctIds items) :
    ∃ createdAt, ∀ d, (m.snapshot w).1 = .ok d ↔
      m.Writable (m.scanned w) (WorkingMemory.live (m.exportTime w) items) ∧
        d = m.directory (m.scanned w) (WorkingMemory.live (m.exportTime w) items) createdAt := by
  have read : (m.readTables w).1 = .ok (m.scanned w) := (Sessions.scope_calm calm.tables rfl).1
  have redis : m.working.redis.db.get (m.readTables w).2 = m.working.redis.db.get w :=
    scope_working single _ w
  unfold exportTime
  rcases tables : m.readTables w with ⟨r, w'⟩
  rw [tables] at read redis
  dsimp only at read redis ⊢
  rw [read] at tables
  have has : m.working.Has (m.working.held w) w' := by
    refine ⟨by rw [redis]; exact calm.working, ?_⟩
    unfold WorkingMemory.held
    rw [redis]
  have exported := WorkingMemory.exportItems_keyed held distinct has
  generalize WorkingMemory.live (m.working.clock w') items = live at exported ⊢
  rcases ended : m.working.exportItems w' with ⟨r', w''⟩
  rw [ended] at exported
  dsimp only at exported
  rw [exported] at ended
  refine ⟨m.nowText w'', fun d => ?_⟩
  unfold snapshot
  rw [Prog.bind_of_ok tables]
  cases files : m.writeTables (m.scanned w) with
  | error e =>
      refine iff_of_false nofun fun both => ?_
      cases files.symm.trans (writeTables_ok_iff.mpr ⟨both.1.rows, rfl⟩)
  | ok texts =>
  obtain ⟨rows, rfl⟩ := writeTables_ok_iff.mp files
  rw [Prog.reraise_ok, Prog.pure_bind', Prog.bind_of_ok ended]
  cases lines : writeJsonl m.json (live.map itemDict) with
  | error e =>
      refine iff_of_false nofun fun both => ?_
      cases lines.symm.trans (writeJsonl_ok_iff.mpr ⟨List.forall_mem_map.mpr both.1.working, rfl⟩)
  | ok text =>
  obtain ⟨working, rfl⟩ := writeJsonl_ok_iff.mp lines
  rw [Prog.reraise_ok, Prog.pure_bind', Prog.reads_bind]
  cases manifest : m.writeManifest (storeCounts true (fun s => (m.scanned w s).length)
      live.length) (m.nowText w'') with
  | error e =>
      refine iff_of_false nofun fun both => ?_
      cases manifest.symm.trans (JsonModule.dumps_ok_iff.mpr ⟨both.1.manifest _, rfl⟩)
  | ok text =>
  obtain ⟨within, rfl⟩ := JsonModule.dumps_ok_iff.mp manifest
  refine ⟨fun taken => ⟨⟨rows, List.forall_mem_map.mp working, fun _ => within⟩, ?_⟩, ?_⟩
  · exact (Except.ok.inj taken).symm
  · rintro ⟨-, rfl⟩
    rfl

/-- What a restore of a snapshot of `source` and `items` does to the world `v`. -/
structure Reproduces (m : MemorySnapshot K T ω) (source : Tables K T)
    (items : List (WorkingMemoryItem K)) (d : Directory) (v : ω) : Prop where
  returns : ∃ counts, (m.restore d true v).1 = .ok counts
  rows : ∀ s, ((m.stored (m.restore d true v).2).rows s).Perm (source.rows s)
  working : m.working.held (m.restore d true v).2 = ofItems items
  twice : m.stored (m.restore d true (m.restore d true v).2).2 = m.stored (m.restore d true v).2 ∧
    m.working.held (m.restore d true (m.restore d true v).2).2 =
      m.working.held (m.restore d true v).2
  numbers : ∀ s ∈ Store.serialTables, ∀ row ∈ (m.stored (m.restore d true v).2).rows s, ∀ n,
    s.id row = some n → n < ((m.stored (m.restore d true v).2).sequences s).next

omit [LinearOrder K] in
theorem restore_directory (single : m.SingleWriter) (calm : m.Calm v)
    {tables : Store → List (Row K T)} (sound : m.Sound tables) (refer : Referring tables)
    (distinct : DistinctIds items) (writable : m.Writable tables items) (createdAt : String) :
    m.Replaced (loaded true tables (m.stored v)) items (m.directory tables items createdAt) v := by
  refine restore_calm single calm (readBackup_directory sound writable createdAt) ?_ rfl distinct
  rw [load_backupOf sound]
  refine if_neg fun lost => ?_
  obtain ⟨edge, inside, lost⟩ := lost
  cases lost.symm.trans (refer edge inside)

omit [LinearOrder K] in
theorem directory_reproduces (single : m.SingleWriter) (calm : m.Calm v) {source : Tables K T}
    (sound : m.Sound source.rows) (refer : Referring source.rows) (distinct : DistinctIds items)
    (writable : m.Writable (fun s => m.postgres.scan s (source.rows s)) items)
    (createdAt : String) : m.Reproduces source items
      (m.directory (fun s => m.postgres.scan s (source.rows s)) items createdAt) v := by
  have once := restore_directory single calm sound.scan refer.scan distinct writable createdAt
  have twice := restore_directory single once.calm sound.scan refer.scan distinct writable createdAt
  refine ⟨once.returns, fun s => ?_, once.working, ⟨?_, ?_⟩, fun s serial row inside n numbered => ?_⟩
  · rw [once.tables, loaded_rows, if_pos (Store.mem_restored s)]
    exact m.postgres.scan_perm s _
  · rw [twice.tables, once.tables, loaded_loaded]
  · rw [twice.working, once.working]
  · rw [once.tables] at inside ⊢
    have synced : (loaded true (fun s => m.postgres.scan s (source.rows s)) (m.stored v)).sequences s =
        Tables.resynced s ((loaded true (fun s => m.postgres.scan s (source.rows s))
          (m.stored v)).rows s) := if_pos serial
    rw [synced]
    exact lt_next_resynced inside numbered

/-! ### A snapshot of the first version -/

omit [LinearOrder K] in
theorem readBackup_version {d : Directory} {b : Backup K} (read : m.readBackup d = .ok b) :
    m.readVersion d = .ok b.isV2 := by
  obtain ⟨isV2, version, read⟩ := ok_of_bind read
  obtain ⟨_, -, read⟩ := ok_of_bind read
  obtain ⟨_, -, read⟩ := ok_of_bind read
  obtain ⟨_, -, read⟩ := ok_of_bind read
  obtain ⟨_, -, read⟩ := ok_of_bind read
  obtain ⟨_, -, read⟩ := ok_of_bind read
  obtain ⟨_, -, read⟩ := ok_of_bind read
  obtain ⟨_, -, read⟩ := ok_of_bind read
  obtain ⟨_, -, read⟩ := ok_of_bind read
  obtain ⟨_, -, read⟩ := ok_of_bind read
  cases read
  exact version

omit [LinearOrder K] in
/-- However a restore ends, the tables that its version does not have are as they were. -/
theorem restore_other (single : m.SingleWriter) {d : Directory} {isV2 : Bool}
    (version : m.readVersion d = .ok isV2) (replace : Bool) (v : ω) {s : Store}
    (kept : s ∉ Store.restored isV2) :
    (m.stored (m.restore d replace v).2).rows s = (m.stored v).rows s := by
  cases read : m.readBackup d with
  | error e =>
      unfold restore
      rw [Prog.reads_bind, read]
      rfl
  | ok b =>
      obtain rfl : b.isV2 = isV2 := Except.ok.inj ((readBackup_version read).symm.trans version)
      rw [restore_read read]
      have first : (m.stored (m.sessions.scope (m.loadTables b replace) v).2).rows s =
          (m.stored v).rows s := by
        refine (Sessions.scope_rule m.sessions (m.loadTables b replace) v
          (A := fun d => d.tables.rows s = (m.stored v).rows s) (B := fun _ _ => True)
          (fun _ t ran => ⟨?_, trivial⟩) fun _ => rfl).1
        unfold loadTables at ran
        split at ran
        · next loads =>
            cases ran
            exact load_other loads kept
        · cases ran
      rcases awaited : m.sessions.scope (m.loadTables b replace) v with ⟨r, v'⟩
      rw [awaited] at first
      cases r with
      | error e =>
          rw [Prog.bind_of_error awaited]
          exact first
      | ok u =>
          rw [Prog.bind_of_ok awaited]
          have elsewhere := (settle_within single (m.freshIds v) b replace).keeps
            (F := Frame.eqOn m.sessions.db.get) (fun _ _ h => h) v'
          unfold stored at first ⊢
          rw [show m.sessions.db.get _ = m.sessions.db.get v' from elsewhere]
          exact first

/-- A snapshot of all nine stores, restored into whatever there is, gives them back; it can be
taken where all of it can be written. One of the first version leaves the tables alone that it does
not have. -/
theorem snapshot_round_trip (m : MemorySnapshot K T ω) (single : m.SingleWriter) {w : ω}
    (calm : m.Calm w) (sound : m.Sound (m.stored w).rows) (refer : Referring (m.stored w).rows)
    {items : List (WorkingMemoryItem K)} (held : (m.working.held w).Keyed items)
    (distinct : DistinctIds items) :
    (m.Writable (m.scanned w) (WorkingMemory.live (m.exportTime w) items) →
      ∃ d, (m.snapshot w).1 = .ok d) ∧
    (∀ d, (m.snapshot w).1 = .ok d → ∀ v, m.Calm v →
      m.Reproduces (m.stored w) (WorkingMemory.live (m.exportTime w) items) d v) ∧
    ∀ d, m.readVersion d = .ok false → ∀ replace v, ∀ s ∈ [Store.identity, .drives, .moods, .goals],
      (m.stored (m.restore d replace v).2).rows s = (m.stored v).rows s := by
  obtain ⟨createdAt, taken⟩ := snapshot_calm single calm held distinct
  refine ⟨fun writable => ⟨_, (taken _).mpr ⟨writable, rfl⟩⟩, fun d written v calm => ?_, ?_⟩
  · obtain ⟨writable, rfl⟩ := (taken d).mp written
    exact directory_reproduces single calm sound refer (distinct.sublist List.filter_sublist)
      writable createdAt
  · intro d version replace v s newer
    refine restore_other single version replace v fun filled => ?_
    revert newer filled
    cases s <;> decide

end snapshots

/-! ### Nine stores with an entry each -/

namespace Keepsake

structure World where
  tables : Database Failure (Tables Bool Unit) Unit
  working : Database Failure (WorkingSet Bool) Unit

/-- Two floats are enough. -/
def numbers : NumberText Bool where
  repr x := if x then "1.0".toList else "0.0".toList
  float cs := cs == "1.0".toList
  nan := false
  infinity := false
  negInfinity := false
  equals x n := (if x then 1 else 0) == n
  reads x := by
    left
    cases x with
    | true => exact ⟨⟨['1'], ['.', '0'], []⟩, rfl, rfl, rfl, rfl⟩
    | false => exact ⟨⟨['0'], ['.', '0'], []⟩, rfl, rfl, rfl, rfl⟩
  printed x := by
    cases x with
    | true => exact List.all_eq_true.mp rfl
    | false => exact List.all_eq_true.mp rfl

/-- And so is one time. -/
def stamp : String := "2026-01-01T12:00:00+00:00"

def times : TimeText Unit where
  isoformat _ := stamp
  fromisoformat text := if text = points stamp then .ok () else .error notText
  reads _ := rfl

def row : Store → Row Bool Unit
  | .episodes => [.int 7, .time (), .text "message", .text "line\nbreak — ✓", .texts ["dan"],
      .texts [], .float true, .floats [true, false]]
  | .facts => [.int 3, .text "dan", .text "likes", .text "tea", .float true, .ints [7],
      .floats [true], .time (), .time ()]
  | .edges => [.int 2, .int 3, .int 3, .text "same"]
  | .skills => [.int 1, .text "greet", .object [("steps", .arr [.str "wave"])], .float false,
      .int 0, .int 0, .floats [], .time (), .time ()]
  | .identity => [.int 1, .text "Johnny", .text "", .list [], .list [], .object [], .int 1, .time ()]
  | .drives => [.text "mastery", .float true, .float false, .float false, .float false, .float true,
      .time ()]
  | .moods => [.int 9, .time (), .float true, .float false, .object []]
  | .goals => [.int 4, .text "drive", .text "learn", .float true, .text "open", .object [],
      .object [], .time (), .maybeTime none]

/-- The tables take these rows. -/
def postgres : Postgres Bool Unit where
  Holds s new := new = row s
  scan _ rows := rows
  construct s arguments :=
    if arguments.map Prod.fst = s.columns.map fun column => points column.1 then
      .ok { drawsId := false, row := fun _ => .ok (row s) }
    else .error notMapping
  integrityError _ := .exception (.other "IntegrityError") "violates a constraint"
  fits {s new} := by
    rintro rfl
    cases s <;> rfl
  proper {s new} := by
    rintro rfl
    cases s <;> simp [row, Cell.Proper, Json.Proper, ItemsProper, FieldsProper]
  scan_perm _ _ := .refl _
  constructs {s new} := by
    rintro rfl
    cases s <;> rfl

def tablesOf : Component World (Database Failure (Tables Bool Unit) Unit) where
  get := World.tables
  put d w := { w with tables := d }
  get_put _ _ := rfl

def workingOf : Component World (Database Failure (WorkingSet Bool) Unit) where
  get := World.working
  put d w := { w with working := d }
  get_put _ _ := rfl

def memory : WorkingMemory Bool World where
  redis := { db := workingOf, meanwhile := id, apart := fun _ => rfl }
  capacity := 50
  decayFactor := true
  floor := false
  defaultTtl := true
  clock _ := false
  freshId _ := "fresh"

def textIn (d : PyDict Bool) (name : String) : Option String :=
  match dictGet d (points name) with
  | some (.str s) => JsonString.scalars s
  | _ => none

def numberIn (d : PyDict Bool) (name : String) : Option Bool :=
  match dictGet d (points name) with
  | some (.num x) => some x
  | _ => none

/-- The item of a dictionary that has all fields. -/
def itemOf (d : PyDict Bool) : Option (WorkingMemoryItem Bool) := do
  let id ← textIn d "id"
  let content ← textIn d "content"
  let kind ← textIn d "kind"
  let salience ← numberIn d "salience"
  let createdAt ← numberIn d "created_at"
  let expiresAt ← match dictGet d (points "expires_at") with
    | some (.num expiry) => some (some expiry)
    | some .null => some none
    | _ => none
  pure ⟨id, content, kind, salience, createdAt, expiresAt⟩

theorem itemOf_dict (item : WorkingMemoryItem Bool) :
    itemOf (mapFields points (itemDict item)) = some item := by
  have text (name : String) (s : String)
      (held : dictGet (mapFields points (itemDict item)) (points name) = some (.str (points s))) :
      textIn (mapFields points (itemDict item)) name = some s := by
    unfold textIn
    rw [held]
    exact JsonString.scalars_toNat s
  unfold itemOf
  rw [text "id" item.id rfl, text "content" item.content rfl, text "kind" item.kind rfl]
  obtain ⟨id, content, kind, salience, createdAt, expiresAt⟩ := item
  cases expiresAt with
  | none => rfl
  | some expiry => rfl

/-- `WorkingMemoryItem(**d)`. -/
def validate (d : PyDict Bool) : Except Failure (String → WorkingMemoryItem Bool) :=
  match itemOf d with
  | some item => .ok fun _ => item
  | none => .error (.exception .validationError "1 validation error for WorkingMemoryItem")

/-- The default limit of digits, and some limit of depth. -/
def json : JsonModule Bool where
  numbers := numbers
  limits := { digits := some 4300, depth := some 1000 }
  loadError _ := .exception (.other "JSONDecodeError") "Expecting value"
  dumpError _ := .exception (.other "RecursionError") "maximum recursion depth exceeded"

-- A lone surrogate is read like any other code point.
example : json.loads "\x7b\"id\": \"\\ud800\"\x7d" =
    .ok (.obj [(points "id", .str [0xd800])]) := rfl

def snapshots : MemorySnapshot Bool Unit World where
  sessions := { db := tablesOf, meanwhile := id, apart := fun _ => rfl }
  working := memory
  json := json
  times := times
  postgres := postgres
  nowText _ := stamp
  reprOf _ := ""
  validate := validate
  validates item := by
    unfold validate
    rw [itemOf_dict]
  freshIds _ _ := "fresh"

def item : WorkingMemoryItem Bool :=
  { id := "a", content := "The kettle is on.", salience := true, createdAt := false }

def tables : Tables Bool Unit where
  rows s := [row s]
  thoughtMoods := [some 9]
  sequences _ := { last := 9, isCalled := true }

def world : World where
  tables := { tables := tables, sequences := () }
  working := { tables := WorkingSet.ofItems [item], sequences := () }

theorem single : snapshots.SingleWriter := ⟨fun _ _ => rfl, fun _ => rfl, fun _ _ => rfl, fun _ => rfl⟩

theorem sound : snapshots.Sound (snapshots.stored world).rows where
  holds _ _ inside := List.mem_singleton.mp inside
  unique _ := List.pairwise_singleton _ _

theorem referring : Referring (snapshots.stored world).rows := by
  intro edge inside
  rw [List.mem_singleton.mp inside]
  decide

theorem writable : snapshots.Writable (snapshots.scanned world)
    (WorkingMemory.live (snapshots.exportTime world) [item]) where
  rows s row inside := by
    rw [List.mem_singleton.mp inside]
    cases s <;> decide
  working := by decide
  manifest _ := rfl

end Keepsake

open Keepsake in
theorem keepsake_round_trip :
    (∃ d, (snapshots.snapshot world).1 = .ok d ∧ ∀ v, snapshots.Calm v →
      snapshots.Reproduces (snapshots.stored world)
        (WorkingMemory.live (snapshots.exportTime world) [item]) d v) ∧
    ∀ d, snapshots.readVersion d = .ok false → ∀ replace v,
      ∀ s ∈ [Store.identity, .drives, .moods, .goals],
        (snapshots.stored (snapshots.restore d replace v).2).rows s =
          (snapshots.stored v).rows s := by
  obtain ⟨taken, reproduced, older⟩ := snapshot_round_trip snapshots single ⟨rfl, rfl⟩ sound
    referring rfl (List.nodup_singleton _)
  obtain ⟨d, written⟩ := taken writable
  exact ⟨⟨d, written, reproduced d written⟩, older⟩

end MemorySnapshot
end Johnny
