import Johnny.Lib.Hoare
import Johnny.Memory.HeldItems
import Johnny.Memory.Rows

/-!
# Snapshot and restore

A snapshot is a directory with a manifest and a file for each store. A restore reads all of
it first, then clears and fills the tables in one transaction, and then clears and refills
working memory, item by item.
-/
namespace Johnny

variable {K T : Type}

/-! ### The stores -/

/-- The tables of a snapshot. Working memory is the ninth store. -/
inductive Store where
  | episodes
  | facts
  | edges
  | skills
  | identity
  | drives
  | moods
  | goals
  deriving DecidableEq

namespace Store

def columns : Store → Columns
  | .episodes => episodeColumns
  | .facts => factColumns
  | .edges => edgeColumns
  | .skills => skillColumns
  | .identity => identityColumns
  | .drives => driveColumns
  | .moods => moodColumns
  | .goals => goalColumns

def dict (times : TimeText T) : Store → Row K T → Dict K
  | .episodes => episodeDict times
  | .facts => factDict times
  | .edges => edgeDict times
  | .skills => skillDict times
  | .identity => identityDict times
  | .drives => driveDict times
  | .moods => moodDict times
  | .goals => goalDict times

def row (times : TimeText T) : Store → PyDict K → Except Failure (Arguments K T)
  | .episodes => episodeRow times
  | .facts => factRow times
  | .edges => edgeRow times
  | .skills => skillRow times
  | .identity => identityRow times
  | .drives => driveRow times
  | .moods => moodRow times
  | .goals => goalRow times

/-- The name of its count in the manifest. -/
def countKey : Store → String
  | .episodes => "episodes"
  | .facts => "semantic_facts"
  | .edges => "semantic_edges"
  | .skills => "skills"
  | .identity => "identity"
  | .drives => "drive_state"
  | .moods => "mood"
  | .goals => "goal"

/-- The columns of its unique constraints, the primary key first. -/
def uniques : Store → List (List String)
  | .episodes => [["id"]]
  | .facts => [["id"], ["subject", "predicate"]]
  | .edges => [["id"], ["from_fact", "to_fact", "relation"]]
  | .skills => [["id"], ["name"]]
  | .identity => [["id"], ["version"]]
  | .drives => [["drive"]]
  | .moods => [["id"]]
  | .goals => [["id"]]

def memoryTables : List Store := [.episodes, .facts, .edges, .skills]

/-- `_V2_TRUNCATE_TABLES`. -/
def v2TruncateTables : List Store := [.identity, .goals, .drives]

def serialTables : List Store := memoryTables ++ [.identity, .moods, .goals]

/-- Filled by the first flush of a restore: facts must exist before edges. -/
def first : List Store := [.episodes, .facts]

/-- Filled by the second. -/
def second (isV2 : Bool) : List Store :=
  [.edges, .skills] ++ if isV2 then [.identity, .drives, .moods, .goals] else []

def cell (s : Store) (row : Row K T) (name : String) : Option (Cell K T) :=
  dictGet (s.columns.zipWith (fun column cell => (column.1, cell)) row) name

def id (s : Store) (row : Row K T) : Option ℤ :=
  match s.cell row "id" with
  | some (.int n) => some n
  | _ => none

end Store

/-- The part of a key that one column holds. -/
inductive KeyPart where
  | number (n : ℤ)
  | word (s : String)
  deriving DecidableEq

def Cell.keyPart : Cell K T → Option KeyPart
  | .int n => some (.number n)
  | .text s => some (.word s)
  | _ => none

namespace Store

def key (s : Store) (names : List String) (row : Row K T) : List (Option KeyPart) :=
  names.map fun name => (s.cell row name).bind Cell.keyPart

/-- The rows cannot both stand in the table. -/
def clashes (s : Store) (a b : Row K T) : Bool :=
  s.uniques.any fun names => s.key names a == s.key names b

end Store

/-! ### The database -/

/-- A sequence: the last number set, and whether it was handed out. -/
structure Sequence where
  last : ℤ := 1
  isCalled : Bool := false

namespace Sequence

/-- `nextval`. -/
def next (q : Sequence) : ℤ := if q.isCalled then q.last + 1 else q.last

def advance (q : Sequence) : Sequence where
  last := q.next
  isCalled := true

end Sequence

structure Tables (K T : Type) where
  rows : Store → List (Row K T)
  /-- The mood that each thought refers to. -/
  thoughtMoods : List (Option ℤ)
  /-- Those of the serial ids. A restarted one rolls back with its transaction. -/
  sequences : Store → Sequence

namespace Tables

def setRows (s : Store) (rows : List (Row K T)) (t : Tables K T) : Tables K T :=
  { t with rows := fun other => if other = s then rows else t.rows other }

/-- The table without rows, and its sequence restarted. -/
def empty (s : Store) (t : Tables K T) : Tables K T :=
  { t with
    rows := fun other => if other = s then [] else t.rows other
    sequences := fun other => if other = s then {} else t.sequences other }

/-- `TRUNCATE ... RESTART IDENTITY CASCADE`: the edges refer to the facts. -/
def truncate (s : Store) (t : Tables K T) : Tables K T :=
  if s = .facts then (t.empty s).empty .edges else t.empty s

/-- `DELETE FROM mood`: what a thought refers to becomes null. -/
def deleteMoods (t : Tables K T) : Tables K T :=
  { t.setRows .moods [] with thoughtMoods := t.thoughtMoods.map fun _ => none }

def clear (restoreV2 : Bool) (t : Tables K T) : Tables K T :=
  let t := Store.memoryTables.reverse.foldl (fun t s => t.truncate s) t
  if restoreV2 then (Store.v2TruncateTables.foldl (fun t s => t.truncate s) t).deleteMoods else t

def draw (s : Store) (t : Tables K T) : Tables K T :=
  { t with
    sequences := fun other => if other = s then (t.sequences s).advance else t.sequences other }

/-- `setval(seq, GREATEST(COALESCE(MAX(id), 0), 1), COUNT(*) > 0)`. -/
def resynced (s : Store) (rows : List (Row K T)) : Sequence where
  last := max ((rows.filterMap s.id).max?.getD 0) 1
  isCalled := decide (0 < rows.length)

/-- `_resync_sequences`. -/
def resync (restoreV2 : Bool) (t : Tables K T) : Tables K T :=
  { t with
    sequences := fun s =>
      if s ∈ (if restoreV2 then Store.serialTables else Store.memoryTables) then
        resynced s (t.rows s)
      else t.sequences s }

end Tables

/-- Both ends of the edge are among the facts. -/
def refers (facts : List (Row K T)) (edge : Row K T) : Bool :=
  ["from_fact", "to_fact"].all fun name =>
    facts.any fun fact => Store.key .facts ["id"] fact == Store.key .edges [name] edge

/-- An object of a model class that is to be inserted. -/
structure Pending (K T : Type) where
  /-- It has no id of its own. -/
  drawsId : Bool
  /-- The row, given the id to take where it has none. -/
  row : ℤ → Except Failure (Row K T)

/-- What Postgres and the model classes make of rows. -/
structure Postgres (K T : Type) where
  /-- A row that the table can hold. -/
  Holds : Store → Row K T → Prop
  /-- The rows of a table, in the order in which a query returns them. -/
  scan : Store → List (Row K T) → List (Row K T)
  /-- The model class, called with these keyword arguments. -/
  construct : Store → Arguments K T → Except Failure (Pending K T)
  integrityError : Store → Failure
  fits : ∀ {s row}, Holds s row → Fits s.columns row
  proper : ∀ {s row}, Holds s row → ∀ cell ∈ row, cell.Proper
  scan_perm : ∀ s rows, (scan s rows).Perm rows
  /-- The attributes of a row that was read make the same row. -/
  constructs : ∀ {s row}, Holds s row → construct s (rowAttributes s.columns row) =
    .ok { drawsId := false, row := fun _ => .ok row }

namespace Postgres

/-- One `INSERT`. -/
def insert (postgres : Postgres K T) (t : Tables K T) (new : Store × Pending K T) :
    Except Failure (Tables K T) := do
  let (s, object) := new
  let row ← object.row (t.sequences s).next
  let t := if object.drawsId then t.draw s else t
  if (t.rows s).any (s.clashes row) || (s == .edges && !refers (t.rows .facts) row) then
    throw (postgres.integrityError s)
  else pure (t.setRows s (t.rows s ++ [row]))

end Postgres

/-! ### The files -/

/-- What reading a file gives. -/
abbrev Contents := Except Failure String

structure Directory where
  manifest : Option Contents
  tables : Store → Option Contents
  working : Option Contents

def snapshotVersion : ℤ := 2

/-- The counts of the stores, as the manifest and the return of a restore have them. -/
def storeCounts (isV2 : Bool) (tables : Store → ℕ) (working : ℕ) : List (String × ℕ) :=
  (Store.memoryTables.map fun s => (s.countKey, tables s)) ++ [("working_memory", working)] ++
    if isV2 then [.identity, .drives, .moods, .goals].map fun s : Store => (s.countKey, tables s)
    else []

/-- `item.model_dump()`. -/
def itemDict (item : WorkingMemoryItem K) : Dict K :=
  [("id", .str item.id), ("content", .str item.content), ("kind", .str item.kind),
    ("salience", .num item.salience), ("created_at", .num item.createdAt),
    ("expires_at", match item.expiresAt with
      | some expiry => .num expiry
      | none => .null)]

/-- What a restore has read before it changes anything. -/
structure Backup (K : Type) where
  isV2 : Bool
  tables : Store → List (Json K PyText)
  working : List (Json K PyText)

def Backup.counts (b : Backup K) : List (String × ℕ) :=
  storeCounts b.isV2 (fun s => (b.tables s).length) b.working.length

def fileNotFound : Failure := .exception (.other "FileNotFoundError") "manifest.json"

def noGet : Failure := .exception (.other "AttributeError") "object has no attribute 'get'"

def notMapping : Failure := .exception (.other "TypeError") "object is not a mapping"

structure MemorySnapshot (K T ω : Type) where
  sessions : Sessions Failure (Tables K T) Unit ω
  working : WorkingMemory K ω
  json : JsonModule K
  times : TimeText T
  postgres : Postgres K T
  /-- `datetime.now(UTC).isoformat()`. -/
  nowText : ω → String
  /-- `repr(value)`. -/
  reprOf : Json K PyText → String
  /-- `WorkingMemoryItem(**d)`, given the id to take where it has none. -/
  validate : PyDict K → Except Failure (String → WorkingMemoryItem K)
  validates : ∀ item, validate (mapFields points (itemDict item)) = .ok fun _ => item
  /-- The `uuid.uuid4().hex` to come. -/
  freshIds : ω → ℕ → String

namespace MemorySnapshot
variable {ω : Type} (m : MemorySnapshot K T ω)

/-! ### Snapshot -/

def manifestOf (counts : List (String × ℕ)) (createdAt : String) : Dict K :=
  [("version", .int snapshotVersion), ("created_at", .str createdAt),
    ("counts", .obj (counts.map fun entry => (entry.1, .int entry.2)))]

/-- The rows of every table, read in one session. -/
def readTables : Prog Failure ω (Store → List (Row K T)) :=
  m.sessions.scope (Prog.reads fun t s => m.postgres.scan s (t.1.rows s))

def writeTable (s : Store) (rows : List (Row K T)) : Except Failure String :=
  writeJsonl m.json (rows.map (s.dict m.times))

/-- The files of the tables, one after the other. -/
def writeTables (tables : Store → List (Row K T)) : Except Failure (Store → String) := do
  let episodes ← m.writeTable .episodes (tables .episodes)
  let facts ← m.writeTable .facts (tables .facts)
  let edges ← m.writeTable .edges (tables .edges)
  let skills ← m.writeTable .skills (tables .skills)
  let identities ← m.writeTable .identity (tables .identity)
  let drives ← m.writeTable .drives (tables .drives)
  let moods ← m.writeTable .moods (tables .moods)
  let goals ← m.writeTable .goals (tables .goals)
  pure fun
    | .episodes => episodes
    | .facts => facts
    | .edges => edges
    | .skills => skills
    | .identity => identities
    | .drives => drives
    | .moods => moods
    | .goals => goals

def writeManifest (counts : List (String × ℕ)) (createdAt : String) : Except Failure String :=
  m.json.dumps (.indented 2) (.obj (manifestOf counts createdAt))

def snapshot [LinearOrder K] : Prog Failure ω Directory := do
  let tables ← m.readTables
  let files ← Prog.reraise (m.writeTables tables)
  let items ← m.working.exportItems
  let working ← Prog.reraise (writeJsonl m.json (items.map itemDict))
  let counts := storeCounts true (fun s => (tables s).length) items.length
  let createdAt ← Prog.reads m.nowText
  let manifest ← Prog.reraise (m.writeManifest counts createdAt)
  pure {
    manifest := some (.ok manifest)
    tables := fun s => some (.ok (files s))
    working := some (.ok working) }

/-! ### Restore -/

/-- `version == n`. -/
def versionIs (n : ℤ) : Json K PyText → Bool
  | .int i => i == n
  | .bool b => (if b then 1 else 0) == n
  | .num x => m.json.numbers.equals x n
  | _ => false

def unsupported (version : Json K PyText) : Failure :=
  .exception (.other "ValueError") ("unsupported snapshot version " ++ m.reprOf version ++
    " (this build reads v1–v2)")

/-- Whether the version of the manifest is the second; any but the first two is refused. -/
def readVersion (d : Directory) : Except Failure Bool := do
  let contents ← d.manifest.elim (.error fileNotFound) id
  match ← m.json.loads contents with
  | .obj manifest =>
    let version := (dictGet manifest (points "version")).getD .null
    if m.versionIs 1 version then pure false
    else if m.versionIs snapshotVersion version then pure true
    else throw (m.unsupported version)
  | _ => throw noGet

/-- `_read_jsonl`. -/
def readFile (file : Option Contents) : Except Failure (List (Json K PyText)) :=
  match file with
  | none => .ok []
  | some contents => do readJsonl m.json (← contents)

def readBackup (d : Directory) : Except Failure (Backup K) := do
  let isV2 ← m.readVersion d
  let episodes ← m.readFile (d.tables .episodes)
  let facts ← m.readFile (d.tables .facts)
  let edges ← m.readFile (d.tables .edges)
  let skills ← m.readFile (d.tables .skills)
  let working ← m.readFile d.working
  let identities ← m.readFile (d.tables .identity)
  let drives ← m.readFile (d.tables .drives)
  let moods ← m.readFile (d.tables .moods)
  let goals ← m.readFile (d.tables .goals)
  pure {
    isV2 := isV2
    tables := fun
      | .episodes => episodes
      | .facts => facts
      | .edges => edges
      | .skills => skills
      | .identity => identities
      | .drives => drives
      | .moods => moods
      | .goals => goals
    working := working }

/-- The object that a line of the file makes. -/
def makeRow : Store × Json K PyText → Except Failure (Store × Pending K T)
  | (s, .obj d) => do
    let arguments ← s.row m.times d
    let object ← m.postgres.construct s arguments
    pure (s, object)
  | _ => .error notMapping

def linesOf (b : Backup K) (stores : List Store) : List (Store × Json K PyText) :=
  stores.flatMap fun s => (b.tables s).map fun line => (s, line)

/-- `add_all` of each store, and a flush. -/
def fill (b : Backup K) (stores : List Store) (t : Tables K T) : Except Failure (Tables K T) := do
  let objects ← (linesOf b stores).mapM m.makeRow
  objects.foldlM m.postgres.insert t

/-- What the transaction of a restore does to the tables. -/
def load (b : Backup K) (replace : Bool) (t : Tables K T) : Except Failure (Tables K T) := do
  let t := if replace then t.clear b.isV2 else t
  let t ← m.fill b Store.first t
  let t ← m.fill b (Store.second b.isV2) t
  pure (t.resync b.isV2)

def loadTables (b : Backup K) (replace : Bool) : Prog Failure (Tables K T × Unit) Unit := fun t =>
  match m.load b replace t.1 with
  | .ok loaded => (.ok (), (loaded, t.2))
  | .error e => (.error e, t)

/-- The item of a line, with the id to take where it has none. -/
def makeItem (line : Json K PyText) (fresh : String) : Except Failure (WorkingMemoryItem K) :=
  match line with
  | .obj d => (m.validate d).map fun item => item fresh
  | _ => .error notMapping

/-- `import_items` of the lines: an item is made when its turn comes. -/
def refill (fresh : ℕ → String) (lines : List (Json K PyText)) : Prog Failure ω Unit :=
  Prog.forEach lines.zipIdx fun line => do
    let item ← Prog.reraise (m.makeItem line.1 (fresh line.2))
    m.working.persist item

def restore (d : Directory) (replace : Bool) : Prog Failure ω (List (String × ℕ)) := do
  let fresh ← Prog.reads m.freshIds
  let b ← Prog.reraise (m.readBackup d)
  m.sessions.scope (m.loadTables b replace)
  Prog.onlyIf replace m.working.clear
  m.refill fresh b.working
  pure b.counts

/-! ### Two stores, one writer -/

/-- The tables as they stand. -/
def stored (w : ω) : Tables K T := (m.sessions.db.get w).tables

/-- Nobody writes one of the stores while the other is awaited. -/
structure SingleWriter : Prop where
  tablesPut : ∀ d w, m.sessions.db.get (m.working.redis.db.put d w) = m.sessions.db.get w
  tablesMeanwhile : ∀ w, m.sessions.db.get (m.working.redis.meanwhile w) = m.sessions.db.get w
  workingPut : ∀ d w, m.working.redis.db.get (m.sessions.db.put d w) = m.working.redis.db.get w
  workingMeanwhile : ∀ w, m.working.redis.db.get (m.sessions.meanwhile w) =
    m.working.redis.db.get w

/-! ### Rows, items and their lines -/

section reading
variable {m}

theorem columns_nodup (s : Store) : (s.columns.map Prod.fst).Nodup := by
  cases s <;> decide

theorem dict_eq (times : TimeText T) (s : Store) (row : Row K T) :
    s.dict times row = rowDict s.columns times row := by
  cases s <;> rfl

theorem row_eq (times : TimeText T) (s : Store) (d : PyDict K) :
    s.row times d = rowArguments s.columns times d := by
  cases s <;> rfl

theorem dict_proper {s : Store} {row : Row K T} (holds : m.postgres.Holds s row) :
    (Json.obj (s.dict m.times row)).Proper := by
  rw [dict_eq]
  exact rowDict_proper (columns_nodup s) (m.postgres.fits holds) (m.postgres.proper holds)

/-- A row, on its way into the table again. -/
def again (row : Row K T) : Pending K T where
  drawsId := false
  row _ := .ok row

/-- The line of a row, as it is read. -/
def rowLine (m : MemorySnapshot K T ω) (s : Store) (row : Row K T) : Json K PyText :=
  .obj (mapFields points (s.dict m.times row))

def itemLine (item : WorkingMemoryItem K) : Json K PyText := .obj (mapFields points (itemDict item))

/-- The line of a row makes the row again. -/
theorem makeRow_line {s : Store} {row : Row K T} (holds : m.postgres.Holds s row) :
    m.makeRow (s, m.rowLine s row) = .ok (s, again row) := by
  have read : s.row m.times (mapFields points (s.dict m.times row)) =
      .ok (rowAttributes s.columns row) := by
    rw [row_eq, dict_eq]
    exact rowArguments_rowDict (columns_nodup s) (m.postgres.fits holds)
  unfold makeRow rowLine
  dsimp only
  rw [read]
  change (m.postgres.construct s _ >>= _) = _
  rw [m.postgres.constructs holds]
  rfl

theorem itemDict_proper (item : WorkingMemoryItem K) : (Json.obj (itemDict item)).Proper := by
  have keys : ((itemDict item).map Prod.fst).Nodup := by
    unfold itemDict
    simp only [List.map_cons, List.map_nil]
    decide
  refine ⟨keys, trivial, trivial, trivial, trivial, trivial, ?_, trivial⟩
  cases item.expiresAt with
  | none => trivial
  | some expiry => trivial

theorem countKeys_nodup (isV2 : Bool) (tables : Store → ℕ) (working : ℕ) :
    ((storeCounts isV2 tables working).map Prod.fst).Nodup := by
  have keys : (storeCounts isV2 tables working).map Prod.fst =
      ["episodes", "semantic_facts", "semantic_edges", "skills", "working_memory"] ++
        if isV2 then ["identity", "drive_state", "mood", "goal"] else [] := by
    cases isV2 <;> rfl
  rw [keys]
  cases isV2 <;> decide

theorem manifest_proper (tables : Store → ℕ) (working : ℕ) (createdAt : String) :
    (Json.obj (manifestOf (K := K) (storeCounts true tables working) createdAt)).Proper := by
  have keys : ["version", "created_at", "counts"].Nodup := by decide
  refine ⟨keys, trivial, trivial, ⟨?_, ?_⟩, trivial⟩
  · rw [List.map_map]
    exact countKeys_nodup true tables working
  · generalize storeCounts true tables working = counts
    induction counts with
    | nil => trivial
    | cons entry counts ih => exact ⟨trivial, ih⟩

theorem readBackup_of {d : Directory} {isV2 : Bool} {tables : Store → List (Json K PyText)}
    {working : List (Json K PyText)} (version : m.readVersion d = .ok isV2)
    (lines : ∀ s, m.readFile (d.tables s) = .ok (tables s))
    (items : m.readFile d.working = .ok working) :
    m.readBackup d = .ok { isV2 := isV2, tables := tables, working := working } := by
  have same : (fun
      | .episodes => tables .episodes
      | .facts => tables .facts
      | .edges => tables .edges
      | .skills => tables .skills
      | .identity => tables .identity
      | .drives => tables .drives
      | .moods => tables .moods
      | .goals => tables .goals : Store → List (Json K PyText)) = tables := by
    funext s
    cases s <;> rfl
  have made := congrArg (fun tables : Store → List (Json K PyText) =>
    (.ok { isV2 := isV2, tables := tables, working := working } : Except Failure (Backup K))) same
  unfold readBackup
  rw [version, lines .episodes, lines .facts, lines .edges, lines .skills, items,
    lines .identity, lines .drives, lines .moods, lines .goals]
  exact made

/-! ### What a snapshot writes -/

/-- Every row and item and the manifest are within the limits of `json`. -/
structure Writable (m : MemorySnapshot K T ω) (tables : Store → List (Row K T))
    (items : List (WorkingMemoryItem K)) : Prop where
  rows : ∀ s, ∀ row ∈ tables s, (Json.obj (s.dict m.times row)).within m.json.limits = true
  working : ∀ item ∈ items, (Json.obj (itemDict item)).within m.json.limits = true
  manifest : ∀ createdAt, (Json.obj (manifestOf (K := K)
    (storeCounts true (fun s => (tables s).length) items.length) createdAt)).within
      m.json.limits = true

/-- The directory with these rows and items. -/
def directory (m : MemorySnapshot K T ω) (tables : Store → List (Row K T))
    (items : List (WorkingMemoryItem K)) (createdAt : String) : Directory where
  manifest := some (.ok (String.ofList (writeValue m.json.numbers (.indented 2) 0 (.obj
    (manifestOf (storeCounts true (fun s => (tables s).length) items.length) createdAt)))))
  tables s := some (.ok (jsonl m.json.numbers ((tables s).map (s.dict m.times))))
  working := some (.ok (jsonl m.json.numbers (items.map itemDict)))

variable {tables : Store → List (Row K T)} {items : List (WorkingMemoryItem K)}
  {createdAt : String}

theorem writeTable_ok_iff {s : Store} {rows : List (Row K T)} {text : String} :
    m.writeTable s rows = .ok text ↔
      (∀ row ∈ rows, (Json.obj (s.dict m.times row)).within m.json.limits = true) ∧
        text = jsonl m.json.numbers (rows.map (s.dict m.times)) := by
  unfold writeTable
  rw [writeJsonl_ok_iff, List.forall_mem_map]

theorem writeTables_ok_iff {files : Store → String} : m.writeTables tables = .ok files ↔
    (∀ s, ∀ row ∈ tables s, (Json.obj (s.dict m.times row)).within m.json.limits = true) ∧
      files = fun s => jsonl m.json.numbers ((tables s).map (s.dict m.times)) := by
  constructor
  · intro written
    obtain ⟨_, episodes, written⟩ := ok_of_bind written
    obtain ⟨_, facts, written⟩ := ok_of_bind written
    obtain ⟨_, edges, written⟩ := ok_of_bind written
    obtain ⟨_, skills, written⟩ := ok_of_bind written
    obtain ⟨_, identities, written⟩ := ok_of_bind written
    obtain ⟨_, drives, written⟩ := ok_of_bind written
    obtain ⟨_, moods, written⟩ := ok_of_bind written
    obtain ⟨_, goals, written⟩ := ok_of_bind written
    rw [writeTable_ok_iff] at episodes facts edges skills identities drives moods goals
    refine ⟨fun s => ?_, (Except.ok.inj written).symm.trans (funext fun s => ?_)⟩
    · cases s with
      | episodes => exact episodes.1
      | facts => exact facts.1
      | edges => exact edges.1
      | skills => exact skills.1
      | identity => exact identities.1
      | drives => exact drives.1
      | moods => exact moods.1
      | goals => exact goals.1
    · cases s with
      | episodes => exact episodes.2
      | facts => exact facts.2
      | edges => exact edges.2
      | skills => exact skills.2
      | identity => exact identities.2
      | drives => exact drives.2
      | moods => exact moods.2
      | goals => exact goals.2
  · rintro ⟨within, rfl⟩
    have file (s : Store) : m.writeTable s (tables s) =
        .ok (jsonl m.json.numbers ((tables s).map (s.dict m.times))) :=
      writeTable_ok_iff.mpr ⟨within s, rfl⟩
    unfold writeTables
    rw [file .episodes, file .facts, file .edges, file .skills, file .identity, file .drives,
      file .moods, file .goals]
    refine congrArg Except.ok (funext fun s => ?_)
    cases s <;> rfl

/-! ### What was written reads back -/

theorem loads_manifest (writable : m.Writable tables items) (createdAt : String) :
    m.json.loads (String.ofList (writeValue m.json.numbers (.indented 2) 0 (.obj
        (manifestOf (storeCounts true (fun s => (tables s).length) items.length) createdAt)))) =
      .ok (.obj (mapFields points
        (manifestOf (storeCounts true (fun s => (tables s).length) items.length) createdAt))) :=
  JsonModule.loads_dumps (manifest_proper (fun s => (tables s).length) items.length createdAt)
    (JsonModule.dumps_ok_iff.mpr ⟨writable.manifest createdAt, rfl⟩)

theorem readVersion_directory (writable : m.Writable tables items) :
    m.readVersion (m.directory tables items createdAt) = .ok true := by
  have read := loads_manifest writable createdAt
  unfold readVersion directory
  generalize String.ofList _ = text at read ⊢
  dsimp only [Option.elim_some, id_eq]
  change (m.json.loads text >>= _) = _
  rw [read]
  rfl

theorem readFile_table (holds : ∀ s, ∀ row ∈ tables s, m.postgres.Holds s row)
    (writable : m.Writable tables items) (s : Store) :
    m.readFile ((m.directory tables items createdAt).tables s) =
      .ok ((tables s).map (m.rowLine s)) := by
  have proper : ∀ d ∈ (tables s).map (s.dict m.times), (Json.obj d).Proper := by
    intro d inside
    obtain ⟨row, member, rfl⟩ := List.mem_map.mp inside
    exact dict_proper (holds s row member)
  have read := readJsonl_jsonl proper (List.forall_mem_map.mpr (writable.rows s))
  rw [List.map_map] at read
  exact read

theorem readFile_working (writable : m.Writable tables items) :
    m.readFile (m.directory tables items createdAt).working = .ok (items.map itemLine) := by
  have proper : ∀ d ∈ items.map (itemDict (K := K)), (Json.obj d).Proper := by
    intro d inside
    obtain ⟨item, -, rfl⟩ := List.mem_map.mp inside
    exact itemDict_proper item
  have read := readJsonl_jsonl proper (List.forall_mem_map.mpr writable.working)
  rw [List.map_map] at read
  exact read

end reading

end MemorySnapshot

end Johnny
