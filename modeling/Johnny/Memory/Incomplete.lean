import Johnny.Memory.RoundTrip

/-!
# Incomplete directories

The manifest counts the rows of every store, but a restore never reads the counts: a file that was
removed is read as an empty one, and a file that was cut short as a shorter one.
-/
namespace Johnny
variable {K T ω : Type}

/-- What is left of the lines of a file that was removed, or cut behind its first lines. -/
def kept {α : Type} : Option ℕ → List α → List α
  | none, _ => []
  | some n, lines => lines.take n

theorem kept_sublist {α : Type} (cut : Option ℕ) (lines : List α) : (kept cut lines).Sublist lines := by
  cases cut with
  | none => exact List.nil_sublist lines
  | some n => exact List.take_sublist n lines

theorem kept_map {α β : Type} (f : α → β) (cut : Option ℕ) (lines : List α) :
    kept cut (lines.map f) = (kept cut lines).map f := by
  cases cut with
  | none => rfl
  | some n => exact List.map_take.symm

theorem kept_whole {α : Type} {cut : Option ℕ} {lines : List α}
    (length : (kept cut lines).length = lines.length) : kept cut lines = lines :=
  (kept_sublist cut lines).eq_of_length length

/-- A file after the copy of it broke off. -/
def cutFile (cut : Option ℕ) (file : Option Contents) : Option Contents :=
  match cut with
  | none => none
  | some n => file.map fun contents => contents.map fun text => String.ofList (takeLines n text.toList)

/-- The directory, with each of its data files removed or cut. -/
def Directory.cut (tables : Store → Option ℕ) (working : Option ℕ) (d : Directory) : Directory where
  manifest := d.manifest
  tables s := cutFile (tables s) (d.tables s)
  working := cutFile working d.working

namespace MemorySnapshot
variable {m : MemorySnapshot K T ω}

open WorkingSet (ofItems DistinctIds)

/-- The count under this key in the manifest. -/
def recorded (m : MemorySnapshot K T ω) (d : Directory) (key : String) : Option ℤ :=
  match d.manifest with
  | some (.ok text) =>
    match m.json.loads text with
    | .ok (.obj manifest) =>
      match dictGet manifest (points "counts") with
      | some (.obj counts) =>
        match dictGet counts (points key) with
        | some (.int n) => some n
        | _ => none
      | _ => none
    | _ => none
  | _ => none

/-- The restore raises and leaves the tables as they were, or leaves in each store as many rows as
the manifest records. -/
def Refuses (m : MemorySnapshot K T ω) (d : Directory) (v : ω) : Prop :=
  ((∃ e, (m.restore d true v).1 = .error e) ∧
    m.stored (m.restore d true v).2 = m.stored v) ∨
  ((∀ s : Store, m.recorded d s.countKey =
      some (((m.stored (m.restore d true v).2).rows s).length : ℤ)) ∧
    m.recorded d "working_memory" =
      some ((m.working.held (m.restore d true v).2).items.length : ℤ))

variable {tables : Store → List (Row K T)} {items : List (WorkingMemoryItem K)} {createdAt : String}
  {cut : Store → Option ℕ} {cutWorking : Option ℕ} {v : ω}

theorem readFile_cut {rows : List (Dict K)} (proper : ∀ row ∈ rows, (Json.obj row).Proper)
    (within : ∀ row ∈ rows, (Json.obj row).within m.json.limits = true) (cut : Option ℕ) :
    m.readFile (cutFile cut (some (.ok (jsonl m.json.numbers rows)))) =
      .ok ((kept cut rows).map fun row => .obj (mapFields points row)) := by
  cases cut with
  | none => rfl
  | some n =>
      have shorter : cutFile (some n) (some (.ok (jsonl m.json.numbers rows))) =
          some (.ok (jsonl m.json.numbers (rows.take n))) := by
        unfold cutFile
        dsimp only [Option.map_some, Except.map]
        rw [takeLines_jsonl, String.ofList_toList]
      rw [shorter]
      exact readJsonl_jsonl (fun row inside => proper row (List.mem_of_mem_take inside))
        fun row inside => within row (List.mem_of_mem_take inside)

/-- What is left of the rows is what is read. -/
theorem readBackup_cut (sound : m.Sound tables) (writable : m.Writable tables items) :
    m.readBackup ((m.directory tables items createdAt).cut cut cutWorking) =
      .ok (m.backupOf true (fun s => kept (cut s) (tables s)) (itemLines (kept cutWorking items))) := by
  have intact : m.readVersion (m.directory tables items createdAt) = .ok true :=
    readVersion_directory writable
  have version : m.readVersion ((m.directory tables items createdAt).cut cut cutWorking) = .ok true :=
    intact
  refine readBackup_of version (fun s => ?_) ?_
  · have proper : ∀ d ∈ (tables s).map (s.dict m.times), (Json.obj d).Proper := by
      intro d inside
      obtain ⟨row, member, rfl⟩ := List.mem_map.mp inside
      exact dict_proper (sound.holds s row member)
    have read := readFile_cut proper (List.forall_mem_map.mpr (writable.rows s)) (cut s)
    rw [kept_map, List.map_map] at read
    exact read
  · have proper : ∀ d ∈ items.map (itemDict (K := K)), (Json.obj d).Proper := by
      intro d inside
      obtain ⟨item, -, rfl⟩ := List.mem_map.mp inside
      exact itemDict_proper item
    have read := readFile_cut proper (List.forall_mem_map.mpr writable.working) cutWorking
    rw [kept_map, List.map_map] at read
    exact read

theorem Sound.left (sound : m.Sound tables) (cut : Store → Option ℕ) :
    m.Sound fun s => kept (cut s) (tables s) where
  holds s row inside := sound.holds s row ((kept_sublist _ _).subset inside)
  unique s := (sound.unique s).sublist (kept_sublist _ _)

/-! ### The counts -/

theorem recorded_directory (writable : m.Writable tables items) (createdAt : String)
    (cut : Store → Option ℕ) (cutWorking : Option ℕ) :
    (∀ s : Store, m.recorded ((m.directory tables items createdAt).cut cut cutWorking) s.countKey =
        some ((tables s).length : ℤ)) ∧
      m.recorded ((m.directory tables items createdAt).cut cut cutWorking) "working_memory" =
        some (items.length : ℤ) := by
  have found (key : String) :
      m.recorded ((m.directory tables items createdAt).cut cut cutWorking) key =
        match (dictGet ((storeCounts true (fun s => (tables s).length) items.length).map
          fun entry => (entry.1, (.int entry.2 : Json K))) key).map (Json.mapText points) with
        | some (.int n) => some n
        | _ => none := by
    unfold recorded Directory.cut directory
    dsimp only
    rw [loads_manifest writable, ← dictGet_mapFields points_injective]
    rfl
  constructor
  · intro s
    rw [found]
    cases s <;> rfl
  · rw [found]
    rfl

/-! ### What a restore does with it -/

/-- An edge that is left refers to a fact that is not. -/
def Dangling (rows : Store → List (Row K T)) : Prop :=
  ∃ edge ∈ rows .edges, refers (rows .facts) edge = false

theorem restore_dangling (sound : m.Sound tables) (writable : m.Writable tables items)
    (dangling : Dangling fun s => kept (cut s) (tables s)) (v : ω) :
    m.Refuses ((m.directory tables items createdAt).cut cut cutWorking) v := by
  have refused : m.load (m.backupOf true (fun s => kept (cut s) (tables s))
      (itemLines (kept cutWorking items))) true (m.stored v) = _ :=
    load_backupOf (sound.left cut) (m.stored v)
  have lost : ∃ edge ∈ kept (cut .edges) (tables .edges),
      refers (kept (cut .facts) (tables .facts)) edge = false := dangling
  rw [if_pos lost] at refused
  exact .inl (restore_unloaded (readBackup_cut sound writable) refused)

/-- Without an edge that dangles, what is left is loaded. -/
theorem restore_left (single : m.SingleWriter) (calm : m.Calm v) (sound : m.Sound tables)
    (distinct : DistinctIds items) (writable : m.Writable tables items)
    (whole : ¬ Dangling fun s => kept (cut s) (tables s)) :
    m.Replaced (loaded true (fun s => kept (cut s) (tables s)) (m.stored v)) (kept cutWorking items)
      ((m.directory tables items createdAt).cut cut cutWorking) v := by
  refine restore_calm single calm (readBackup_cut sound writable) ?_ rfl
    (distinct.sublist (kept_sublist cutWorking items))
  rw [load_backupOf (sound.left cut)]
  exact if_neg whole

/-- Nothing was lost. -/
def Whole (cut : Store → Option ℕ) (cutWorking : Option ℕ) (tables : Store → List (Row K T))
    (items : List (WorkingMemoryItem K)) : Prop :=
  (∀ s, kept (cut s) (tables s) = tables s) ∧ kept cutWorking items = items

theorem refuses_cut_iff (single : m.SingleWriter) (calm : m.Calm v) (sound : m.Sound tables)
    (distinct : DistinctIds items) (writable : m.Writable tables items) :
    m.Refuses ((m.directory tables items createdAt).cut cut cutWorking) v ↔
      Whole cut cutWorking tables items ∨ Dangling fun s => kept (cut s) (tables s) := by
  by_cases dangling : Dangling fun s => kept (cut s) (tables s)
  · exact iff_of_true (restore_dangling sound writable dangling v) (.inr dangling)
  rw [or_iff_left dangling]
  have left : m.Replaced _ (kept cutWorking items)
      ((m.directory tables items createdAt).cut cut cutWorking) v :=
    restore_left single calm sound distinct writable dangling
  obtain ⟨⟨counts, returned⟩, filled, working, -⟩ := left
  obtain ⟨recorded, recordedWorking⟩ :=
    recorded_directory writable createdAt cut cutWorking
  have rows (s : Store) : (m.stored (m.restore ((m.directory tables items createdAt).cut cut
      cutWorking) true v).2).rows s = kept (cut s) (tables s) := by
    rw [filled, loaded_rows, if_pos (Store.mem_restored s)]
  have held : (m.working.held (m.restore ((m.directory tables items createdAt).cut cut
      cutWorking) true v).2).items.length = (kept cutWorking items).length := by
    rw [working]
    exact List.length_map ..
  unfold Refuses
  rw [returned, recordedWorking, held]
  simp only [recorded, rows]
  constructor
  · rintro (⟨⟨e, raised⟩, -⟩ | ⟨each, items⟩)
    · cases raised
    · refine ⟨fun s => kept_whole ?_, kept_whole ?_⟩
      · exact Int.ofNat.inj (Option.some.inj (each s)).symm
      · exact Int.ofNat.inj (Option.some.inj items).symm
  · rintro ⟨each, items⟩
    refine .inr ⟨fun s => ?_, ?_⟩
    · rw [each s]
    · rw [items]

/-- A directory that lost rows is refused exactly where a fact is missing to an edge that is
left. -/
theorem incomplete_refused_iff [LinearOrder K] (single : m.SingleWriter) {w : ω} (calm : m.Calm w)
    (sound : m.Sound (m.stored w).rows) {items : List (WorkingMemoryItem K)}
    (held : (m.working.held w).Keyed items) (distinct : DistinctIds items) {d : Directory}
    (taken : (m.snapshot w).1 = .ok d) (cut : Store → Option ℕ) (cutWorking : Option ℕ) {v : ω}
    (ready : m.Calm v) :
    m.Refuses (d.cut cut cutWorking) v ↔
      Whole cut cutWorking (fun s => m.postgres.scan s ((m.stored w).rows s))
          (WorkingMemory.live (m.exportTime w) items) ∨
        Dangling fun s => kept (cut s) (m.postgres.scan s ((m.stored w).rows s)) := by
  obtain ⟨createdAt, written⟩ := snapshot_calm single calm held distinct
  obtain ⟨writable, rfl⟩ := (written d).mp taken
  exact refuses_cut_iff single ready sound.scan (distinct.sublist List.filter_sublist) writable

/-! ### A file that was not copied -/

namespace Keepsake

/-- Every file was copied, except that of one store. -/
def without (s : Store) : Store → Option ℕ := fun other => if other = s then none else some 1

theorem keyed : (snapshots.working.held world).Keyed [item] := rfl

end Keepsake

open Keepsake in
/-- The edge came without its fact. -/
theorem facts_missing_refused : ∃ d, (snapshots.snapshot world).1 = .ok d ∧
    snapshots.Refuses (d.cut (without .facts) (some 1)) world := by
  obtain ⟨createdAt, written⟩ := snapshot_calm single (w := world) ⟨rfl, rfl⟩ keyed
    (List.nodup_singleton _)
  have taken := (written _).mpr ⟨writable, rfl⟩
  refine ⟨_, taken, ?_⟩
  exact (incomplete_refused_iff single ⟨rfl, rfl⟩ sound keyed (List.nodup_singleton _) taken
    (without .facts) (some 1) ⟨rfl, rfl⟩).mpr (.inr ⟨row .edges, List.mem_singleton_self _, by decide⟩)

open Keepsake in
/-- Nothing is missed without the goals: the table of goals is emptied. -/
theorem goals_missing_restored : ∃ d, (snapshots.snapshot world).1 = .ok d ∧
    ¬ snapshots.Refuses (d.cut (without .goals) (some 1)) world := by
  obtain ⟨createdAt, written⟩ := snapshot_calm single (w := world) ⟨rfl, rfl⟩ keyed
    (List.nodup_singleton _)
  have distinct : DistinctIds (WorkingMemory.live (snapshots.exportTime world) [item]) :=
    List.nodup_singleton _
  refine ⟨_, (written _).mpr ⟨writable, rfl⟩, fun refused => ?_⟩
  rcases (refuses_cut_iff single ⟨rfl, rfl⟩ sound.scan distinct writable).mp refused with
    whole | ⟨edge, inside, lost⟩
  · cases whole.1 .goals
  · cases List.mem_singleton.mp inside
    revert lost
    decide

end MemorySnapshot
end Johnny
