import Johnny.Lib.LastWrite
import Johnny.Memory.RoundTrip
import Mathlib.Data.List.Induction

/-!
# A backup of what stands

When a restore changes nothing: the lines of each table make just the rows that stand in it, and the
items written to working memory are those it holds.
-/
namespace Johnny
variable {K T ω : Type}

/-! ### Writes that change nothing -/

section writes
variable {κ α : Type} {d writes : List (κ × α)} {key : κ} {value : α}

open LastWrite (IsLast)

/-- The key is there, with this value and no other. -/
def Only (d : List (κ × α)) (key : κ) (value : α) : Prop :=
  key ∈ d.map Prod.fst ∧ ∀ e ∈ d, e.1 = key → e = (key, value)

variable [DecidableEq κ]

theorem dictSet_present (present : key ∈ d.map Prod.fst) (value : α) :
    dictSet d key value = d.map fun e => if e.1 == key then (key, value) else e := by
  obtain ⟨e, inside, same⟩ := List.mem_map.mp present
  have known : (d.any fun e => e.1 == key) = true :=
    List.any_eq_true.mpr ⟨e, inside, beq_iff_eq.mpr same⟩
  exact if_pos known

theorem only_dictSet (d : List (κ × α)) (key : κ) (value : α) :
    Only (dictSet d key value) key value :=
  ⟨List.mem_map_of_mem (mem_of_dictGet (dictGet_dictSet d key value)),
    fun _ inside same => dictSet_only inside same⟩

theorem Only.dictSet (only : Only d key value) {other : κ} (differs : other ≠ key) (new : α) :
    Only (dictSet d other new) key value := by
  refine ⟨?_, fun e inside same => ?_⟩
  · rw [keys_dictSet]
    split
    · exact only.1
    · exact List.mem_append_left _ only.1
  · rcases mem_dictSet inside with old | rfl
    · exact only.2 e old same
    · exact absurd same differs

theorem only_written (last : IsLast writes key value) (d : List (κ × α)) :
    Only (writes.foldl (fun d e => dictSet d e.1 e.2) d) key value := by
  obtain ⟨earlier, later, rfl, absent⟩ := last
  rw [List.foldl_append, List.foldl_cons]
  have only := only_dictSet (earlier.foldl (fun d e => dictSet d e.1 e.2) d) key value
  generalize dictSet _ key value = d at only ⊢
  induction later generalizing d with
  | nil => exact only
  | cons w later ih =>
      rw [List.map_cons, List.mem_cons, not_or] at absent
      exact ih absent.2 _ (only.dictSet (Ne.symm absent.1) w.2)

def rewritten (writes : List (κ × α)) (e : κ × α) : κ × α :=
  writes.foldl (fun e w => if e.1 == w.1 then (w.1, w.2) else e) e

/-- Writes to keys that are there rewrite the entries in their places. -/
theorem foldl_dictSet_present (present : ∀ w ∈ writes, w.1 ∈ d.map Prod.fst) :
    writes.foldl (fun d e => dictSet d e.1 e.2) d = d.map (rewritten writes) := by
  induction writes generalizing d with
  | nil => exact (List.map_id d).symm
  | cons w writes ih =>
      have keys : (dictSet d w.1 w.2).map Prod.fst = d.map Prod.fst := by
        rw [keys_dictSet, if_pos (present w List.mem_cons_self)]
      rw [List.foldl_cons, ih fun later inside => by
        rw [keys]
        exact present later (List.mem_cons_of_mem w inside)]
      rw [dictSet_present (present w List.mem_cons_self), List.map_map]
      rfl

theorem rewritten_key (writes : List (κ × α)) (e : κ × α) : (rewritten writes e).1 = e.1 := by
  unfold rewritten
  induction writes generalizing e with
  | nil => rfl
  | cons w writes ih =>
      rw [List.foldl_cons, ih]
      split
      · next same => exact (beq_iff_eq.mp same).symm
      · rfl

theorem rewritten_append (writes : List (κ × α)) (w e : κ × α) :
    rewritten (writes ++ [w]) e = if e.1 == w.1 then (w.1, w.2) else rewritten writes e := by
  have split : rewritten (writes ++ [w]) e =
      if (rewritten writes e).1 == w.1 then (w.1, w.2) else rewritten writes e :=
    List.foldl_append
  rw [split, rewritten_key]

theorem rewritten_same {e : κ × α} (last : ∀ value, IsLast writes e.1 value → (e.1, value) = e) :
    rewritten writes e = e := by
  induction writes using List.reverseRecOn with
  | nil => rfl
  | append_singleton writes w ih =>
      rw [rewritten_append]
      by_cases same : e.1 = w.1
      · have whole := last w.2 (LastWrite.isLast_append.mpr
          (.inl (LastWrite.isLast_singleton.mpr ⟨same, rfl⟩)))
        rw [same, beq_self_eq_true, if_pos rfl, ← same, whole]
      · rw [beq_false_of_ne same, if_neg Bool.false_ne_true]
        exact ih fun value before => last value (LastWrite.isLast_append.mpr
          (.inr ⟨before, by simpa using same⟩))

/-- Writes leave a dictionary as it is exactly where it holds what each key is written last. -/
theorem foldl_dictSet_eq_iff : writes.foldl (fun d e => dictSet d e.1 e.2) d = d ↔
    ∀ key value, IsLast writes key value → Only d key value := by
  constructor
  · intro same key value last
    have only := only_written last d
    rwa [same] at only
  · intro all
    have present : ∀ w ∈ writes, w.1 ∈ d.map Prod.fst := fun w inside => by
      obtain ⟨value, last⟩ := LastWrite.exists_isLast (List.mem_map_of_mem (f := Prod.fst) inside)
      exact (all w.1 value last).1
    rw [foldl_dictSet_present present]
    refine (List.map_congr_left fun e inside => ?_).trans (List.map_id d)
    exact rewritten_same fun value last => ((all e.1 value last).2 e inside rfl).symm

end writes

namespace MemorySnapshot
variable {m : MemorySnapshot K T ω} {s : Store} {q : Sequence} {lines : List (Json K PyText)}
  {t t' : Tables K T}

/-! ### Tables that stay as they are -/

/-- The rows of the tables, and what the thoughts refer to. -/
def SameTables (t u : Tables K T) : Prop := t.rows = u.rows ∧ t.thoughtMoods = u.thoughtMoods

/-- Where the ids of a table start after it was cleared: `DELETE` leaves its sequence alone. -/
def restarted (t : Tables K T) : Store → Sequence
  | .moods => t.sequences .moods
  | _ => {}

/-- With `replace` the lines of each table make just the rows that stand in it, and no thought
refers to a mood that is deleted; without it there are no lines. -/
structure RowsStand (m : MemorySnapshot K T ω) (b : Backup K) (replace : Bool) (t : Tables K T) :
    Prop where
  replaced : replace = true → ∀ s ∈ Store.restored b.isV2,
    m.Makes s (restarted t s) (b.tables s) (t.rows s)
  thoughts : replace = true → b.isV2 = true → ∀ mood ∈ t.thoughtMoods, mood = none
  added : replace = false → ∀ s ∈ Store.restored b.isV2, b.tables s = []

theorem clear_sequences {isV2 : Bool} (t : Tables K T) (filled : s ∈ Store.restored isV2) :
    (t.clear isV2).sequences s = restarted t s := by
  cases isV2 with
  | true => cases s <;> rfl
  | false =>
      cases s with
      | episodes => rfl
      | facts => rfl
      | edges => rfl
      | skills => rfl
      | _ => exact absurd filled (by decide)

theorem clear_thoughts (isV2 : Bool) (t : Tables K T) : (t.clear isV2).thoughtMoods =
    if isV2 then t.thoughtMoods.map fun _ => none else t.thoughtMoods := by
  cases isV2 <;> rfl

theorem map_none_iff {moods : List (Option ℤ)} :
    moods.map (fun _ => none) = moods ↔ ∀ mood ∈ moods, mood = none := by
  induction moods with
  | nil => exact iff_of_true rfl nofun
  | cons mood moods ih =>
      rw [List.map_cons, List.cons.injEq, ih, List.forall_mem_cons]
      exact and_congr_left fun _ => eq_comm

theorem Makes.nil_iff : m.Makes s q lines [] ↔ lines = [] := by
  constructor
  · intro makes
    cases makes
    rfl
  · rintro rfl
    exact .nil

section loads
variable {b : Backup K}

/-- Into a table that was cleared go the rows of its lines, and no others. -/
theorem replaced_rows (loads : m.load b true t = .ok t') (inside : s ∈ Store.restored b.isV2) :
    m.Makes s (restarted t s) (b.tables s) (t'.rows s) := by
  obtain ⟨rows, filled, makes⟩ := (load_lines loads).1 s inside
  rw [show (cleared b true t).rows s = [] from Tables.clear_rows t inside,
    List.nil_append] at filled
  rw [show (cleared b true t).sequences s = restarted t s from clear_sequences t inside] at makes
  rwa [filled]

theorem replaced_same_iff (loads : m.load b true t = .ok t') :
    SameTables t' t ↔ m.RowsStand b true t := by
  obtain ⟨-, beyond, thoughts⟩ := load_lines loads
  have moods : t'.thoughtMoods = if b.isV2 then t.thoughtMoods.map fun _ => none
      else t.thoughtMoods := thoughts.trans (clear_thoughts b.isV2 t)
  constructor
  · rintro ⟨rows, same⟩
    refine ⟨fun _ s inside => ?_, fun _ isV2 => ?_, nofun⟩
    · have makes := replaced_rows loads inside
      rwa [rows] at makes
    · rw [isV2, if_pos rfl, same] at moods
      exact map_none_iff.mp moods.symm
  · rintro ⟨replaced, none, -⟩
    constructor
    · funext s
      by_cases inside : s ∈ Store.restored b.isV2
      · exact (replaced_rows loads inside).unique (replaced rfl s inside)
      · rw [beyond s inside]
        exact Tables.clear_other t inside
    · rw [moods]
      split
      · next isV2 => exact map_none_iff.mpr (none rfl isV2)
      · rfl

theorem added_same_iff (loads : m.load b false t = .ok t') :
    SameTables t' t ↔ m.RowsStand b false t := by
  obtain ⟨filled, beyond, thoughts⟩ := load_lines loads
  constructor
  · rintro ⟨rows, -⟩
    refine ⟨nofun, nofun, fun _ s inside => ?_⟩
    obtain ⟨made, grown, makes⟩ := filled s inside
    rw [rows] at grown
    rw [List.self_eq_append_right.mp grown] at makes
    exact Makes.nil_iff.mp makes
  · rintro ⟨-, -, none⟩
    refine ⟨funext fun s => ?_, thoughts⟩
    by_cases inside : s ∈ Store.restored b.isV2
    · obtain ⟨made, grown, makes⟩ := filled s inside
      rw [none rfl s inside] at makes
      cases makes
      exact grown.trans (List.append_nil _)
    · exact beyond s inside

/-- A load leaves the tables as they are exactly if their rows are those to be loaded. -/
theorem load_same_iff {replace : Bool} (loads : m.load b replace t = .ok t') :
    SameTables t' t ↔ m.RowsStand b replace t := by
  cases replace with
  | true => exact replaced_same_iff loads
  | false => exact added_same_iff loads

end loads

/-! ### Working memory that stays as it is -/

open WorkingSet (hset zadd)

/-- The items of the lines, up to the first that makes none. -/
def made (m : MemorySnapshot K T ω) (fresh : ℕ → String) :
    List (Json K PyText × ℕ) → List (WorkingMemoryItem K)
  | [] => []
  | line :: lines =>
    match m.makeItem line.1 (fresh line.2) with
    | .ok item => item :: m.made fresh lines
    | .error _ => []

def script (items : List (WorkingMemoryItem K)) : List (WorkingSet K → WorkingSet K) :=
  items.flatMap fun item => [hset item, zadd item.id item.salience]

/-- The items of a backup that a restore comes to. -/
def restoredItems (m : MemorySnapshot K T ω) (b : Backup K) (v : ω) : List (WorkingMemoryItem K) :=
  m.made (m.freshIds v) b.working.zipIdx

/-- The commands of a restore behind its transaction. -/
def commands (items : List (WorkingMemoryItem K)) (replace : Bool) :
    List (WorkingSet K → WorkingSet K) :=
  (if replace then [fun _ => { items := [], salience := [] }] else []) ++ script items

def redisEndings (m : MemorySnapshot K T ω) (w : ω) : List (Ending Failure) :=
  (m.working.redis.db.get w).endings

/-- The keys and values that the first commands of a script write to the hash. -/
def hashWrites (items : List (WorkingMemoryItem K)) (n : ℕ) : List (String × WorkingMemoryItem K) :=
  (items.take ((n + 1) / 2)).map fun item => (item.id, item)

def indexWrites (items : List (WorkingMemoryItem K)) (n : ℕ) : List (String × K) :=
  (items.take (n / 2)).map fun item => (item.id, item.salience)

theorem foldl_script (items : List (WorkingMemoryItem K)) (n : ℕ) (s : WorkingSet K) :
    ((script items).take n).foldl (fun s change => change s) s =
      { items := (hashWrites items n).foldl (fun d e => dictSet d e.1 e.2) s.items
        salience := (indexWrites items n).foldl (fun d e => dictSet d e.1 e.2) s.salience } := by
  induction items generalizing n s with
  | nil =>
      have none : (script ([] : List (WorkingMemoryItem K))).take n = [] := List.take_nil
      rw [none]
      unfold hashWrites indexWrites
      rw [List.take_nil, List.take_nil]
      rfl
  | cons item items ih =>
      match n with
      | 0 => rfl
      | 1 => rfl
      | n + 2 =>
          have more : (script (item :: items)).take (n + 2) =
              hset item :: zadd item.id item.salience :: (script items).take n := rfl
          have half : (n + 2 + 1) / 2 = (n + 1) / 2 + 1 := by omega
          have down : (n + 2) / 2 = n / 2 + 1 := by omega
          rw [more, List.foldl_cons, List.foldl_cons, ih]
          unfold hashWrites indexWrites
          rw [half, down, List.take_succ_cons, List.take_succ_cons]
          rfl

/-- The dictionary holds what is written last to each key. -/
def Holds {α : Type} (d writes : List (String × α)) : Prop :=
  ∀ key value, LastWrite.IsLast writes key value → Only d key value

/-- Of `n` commands that take effect, those behind a clearing make just what is held, and without
one write what is held. -/
structure ItemsStand (items : List (WorkingMemoryItem K)) (replace : Bool) (n : ℕ)
    (held : WorkingSet K) : Prop where
  replaced : replace = true → 0 < n →
    held.items = dictOf (hashWrites items (n - 1)) ∧
      held.salience = dictOf (indexWrites items (n - 1))
  added : replace = false →
    Holds held.items (hashWrites items n) ∧ Holds held.salience (indexWrites items n)

/-- The first commands leave the working set as it is exactly if it is what they write. -/
theorem foldl_commands_same_iff {items : List (WorkingMemoryItem K)} {replace : Bool} {n : ℕ}
    {held : WorkingSet K} :
    ((commands items replace).take n).foldl (fun s change => change s) held = held ↔
      ItemsStand items replace n held := by
  obtain ⟨hash, index⟩ := held
  cases replace with
  | true =>
      cases n with
      | zero => exact iff_of_true rfl ⟨fun _ some => absurd some (Nat.lt_irrefl 0), nofun⟩
      | succ n =>
          have rest : ((commands items true).take (n + 1)).foldl (fun s change => change s)
              { items := hash, salience := index } = _ :=
            foldl_script items n { items := [], salience := [] }
          rw [rest, WorkingSet.mk.injEq]
          constructor
          · rintro ⟨same, index⟩
            exact ⟨fun _ _ => ⟨same.symm, index.symm⟩, nofun⟩
          · rintro ⟨replaced, -⟩
            obtain ⟨same, index⟩ := replaced rfl n.succ_pos
            exact ⟨same.symm, index.symm⟩
  | false =>
      have all : (commands items false).take n = (script items).take n := rfl
      rw [all, foldl_script, WorkingSet.mk.injEq, foldl_dictSet_eq_iff, foldl_dictSet_eq_iff]
      exact ⟨fun both => ⟨nofun, fun _ => both⟩, fun stand => stand.added rfl⟩

end MemorySnapshot
end Johnny
