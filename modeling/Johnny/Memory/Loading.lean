import Johnny.Memory.Snapshot

/-!
# Loading a backup

Into tables that were cleared, the rows of a backup go in as they are, as long as the tables they
come from kept their constraints and no edge has lost one of its facts. Whatever the lines are, a
table gets the rows that they make behind its own.
-/
namespace Johnny
variable {K T ω : Type}

namespace Store

/-- What a restore fills. -/
def restored (isV2 : Bool) : List Store := first ++ second isV2

theorem mem_restored (s : Store) : s ∈ restored true := by
  cases s <;> decide

theorem second_nodup (isV2 : Bool) : (second isV2).Nodup := by
  cases isV2 <;> decide

theorem facts_first (isV2 : Bool) : .facts ∉ second isV2 := by
  cases isV2 <;> decide

theorem edges_second (isV2 : Bool) : .edges ∈ second isV2 := by
  cases isV2 <;> decide

/-- No table is filled twice. -/
theorem second_apart (isV2 : Bool) {s : Store} (inside : s ∈ second isV2) : s ∉ first := by
  revert s
  cases isV2 <;> decide

end Store

namespace Tables

/-- The tables of `stores` with other rows. -/
def withRows (stores : List Store) (rows : Store → List (Row K T)) (t : Tables K T) : Tables K T :=
  { t with rows := fun s => if s ∈ stores then rows s else t.rows s }

variable {stores : List Store} {rows : Store → List (Row K T)} {t : Tables K T} {s : Store}

theorem eta (t : Tables K T) : Tables.mk t.rows t.thoughtMoods t.sequences = t := rfl

theorem setRows_same (s : Store) (rows : List (Row K T)) (t : Tables K T) :
    (t.setRows s rows).rows s = rows := if_pos rfl

theorem setRows_other {other : Store} (differs : other ≠ s) (rows : List (Row K T))
    (t : Tables K T) : (t.setRows s rows).rows other = t.rows other := if_neg differs

theorem setRows_rows (s : Store) (t : Tables K T) : t.setRows s (t.rows s) = t := by
  unfold setRows
  congr 1
  funext other
  split
  · next same => rw [same]
  · rfl

theorem setRows_setRows (s : Store) (old new : List (Row K T)) (t : Tables K T) :
    (t.setRows s old).setRows s new = t.setRows s new := by
  unfold setRows
  dsimp only
  congr 1
  funext other
  split <;> rfl

theorem setRows_withRows : (t.setRows s (rows s)).withRows stores rows = t.withRows (s :: stores) rows := by
  unfold setRows withRows
  dsimp only
  congr 1
  funext other
  by_cases same : other = s
  · subst same
    simp
  · simp [same]

theorem withRows_withRows (more : List Store) :
    (t.withRows stores rows).withRows more rows = t.withRows (stores ++ more) rows := by
  unfold withRows
  dsimp only
  congr 1
  funext other
  by_cases here : other ∈ more
  · simp [here]
  · simp [here]

theorem withRows_other (kept : s ∉ stores) : (t.withRows stores rows).rows s = t.rows s := if_neg kept

theorem clear_rows {isV2 : Bool} (t : Tables K T) (filled : s ∈ Store.restored isV2) :
    (t.clear isV2).rows s = [] := by
  cases isV2 with
  | true => cases s <;> rfl
  | false =>
      cases s with
      | episodes => rfl
      | facts => rfl
      | edges => rfl
      | skills => rfl
      | _ => exact absurd filled (by decide)

/-- The tables of the second version are left alone. -/
theorem clear_other {isV2 : Bool} (t : Tables K T) (kept : s ∉ Store.restored isV2) :
    (t.clear isV2).rows s = t.rows s := by
  cases isV2 with
  | true => exact absurd (Store.mem_restored s) kept
  | false =>
      cases s with
      | identity => rfl
      | drives => rfl
      | moods => rfl
      | goals => rfl
      | _ => exact absurd (by decide) kept

end Tables

namespace Store

/-- The rows can stand in the table together. -/
def Unique (s : Store) (rows : List (Row K T)) : Prop :=
  rows.Pairwise fun a b => s.clashes b a = false

end Store

namespace Postgres
variable {postgres : Postgres K T} {t : Tables K T} {s : Store}

open MemorySnapshot (again)

/-- A row with an id of its own. -/
theorem insert_again (t : Tables K T) (s : Store) (row : Row K T) :
    postgres.insert t (s, again row) =
      if (t.rows s).any (s.clashes row) || (s == .edges && !refers (t.rows .facts) row) then
        .error (postgres.integrityError s)
      else .ok (t.setRows s (t.rows s ++ [row])) := rfl

/-- Rows of one table go in, unless there is an edge among them that has lost a fact. -/
theorem insertAll (rows : List (Row K T)) (t : Tables K T) (unique : s.Unique (t.rows s ++ rows)) :
    (rows.map fun row => (s, again row)).foldlM postgres.insert t =
      if s = .edges ∧ ∃ row ∈ rows, refers (t.rows .facts) row = false then
        .error (postgres.integrityError s)
      else .ok (t.setRows s (t.rows s ++ rows)) := by
  induction rows generalizing t with
  | nil =>
      rw [if_neg fun ⟨_, row, inside, _⟩ => List.not_mem_nil inside, List.append_nil,
        Tables.setRows_rows]
      rfl
  | cons row rows ih =>
      have fits : (t.rows s).any (s.clashes row) = false := by
        rw [List.any_eq_false]
        intro old inside
        rw [(List.pairwise_append.mp unique).2.2 old inside row List.mem_cons_self]
        exact Bool.false_ne_true
      rw [List.map_cons, List.foldlM_cons, insert_again, fits, Bool.false_or]
      by_cases lost : s = .edges ∧ refers (t.rows .facts) row = false
      · rw [if_pos (by rw [lost.2, lost.1]; rfl),
          if_pos ⟨lost.1, row, List.mem_cons_self, lost.2⟩]
        rfl
      · have goes : ¬ (s == .edges && !refers (t.rows .facts) row) = true := by
          rw [Bool.and_eq_true, beq_iff_eq, Bool.not_eq_true']
          exact lost
        rw [if_neg goes]
        change (rows.map fun row => (s, again row)).foldlM postgres.insert
          (t.setRows s (t.rows s ++ [row])) = _
        rw [ih, Tables.setRows_same, Tables.setRows_setRows, List.append_assoc, List.singleton_append]
        · refine if_congr ?_ rfl rfl
          constructor
          · rintro ⟨rfl, edge, inside, broken⟩
            exact ⟨rfl, edge, List.mem_cons_of_mem _ inside, broken⟩
          · rintro ⟨rfl, edge, inside, broken⟩
            rcases List.mem_cons.mp inside with rfl | later
            · exact absurd ⟨rfl, broken⟩ lost
            · exact ⟨rfl, edge, later, broken⟩
        · rw [Tables.setRows_same, List.append_assoc]
          exact unique

/-- The rows of several tables, one table after the other. -/
theorem insertStores {rows : Store → List (Row K T)} (unique : ∀ s, Store.Unique s (rows s))
    {stores : List Store} (once : stores.Nodup) (apart : .edges ∈ stores → .facts ∉ stores)
    (t : Tables K T) (empty : ∀ s ∈ stores, t.rows s = []) :
    (stores.flatMap fun s => (rows s).map fun row => (s, again row)).foldlM postgres.insert t =
      if .edges ∈ stores ∧ ∃ row ∈ rows .edges, refers (t.rows .facts) row = false then
        .error (postgres.integrityError .edges)
      else .ok (t.withRows stores rows) := by
  induction stores generalizing t with
  | nil =>
      rw [if_neg fun bad => by cases bad.1]
      rfl
  | cons s stores ih =>
      obtain ⟨fresh, once⟩ := List.nodup_cons.mp once
      have none := empty s List.mem_cons_self
      rw [List.flatMap_cons, List.foldlM_append, insertAll (rows s) t (by rw [none]; exact unique s),
        none, List.nil_append]
      have others : ∀ other ∈ stores, (t.setRows s (rows s)).rows other = [] := fun other inside => by
        have differs : other ≠ s := fun same => fresh (same ▸ inside)
        rw [Tables.setRows_other differs]
        exact empty other (List.mem_cons_of_mem _ inside)
      have rest := ih once (fun inside there => apart (List.mem_cons_of_mem _ inside)
        (List.mem_cons_of_mem _ there)) (t.setRows s (rows s)) others
      rw [Tables.setRows_withRows] at rest
      by_cases lost : s = .edges ∧ ∃ row ∈ rows s, refers (t.rows .facts) row = false
      · obtain ⟨rfl, broken⟩ := lost
        rw [if_pos ⟨rfl, broken⟩, if_pos ⟨List.mem_cons_self, broken⟩]
        rfl
      · rw [if_neg lost]
        change List.foldlM _ (t.setRows s (rows s)) _ = _
        rw [rest]
        refine if_congr ?_ rfl rfl
        by_cases here : s = .edges
        · subst here
          exact iff_of_false (fun bad => fresh bad.1) fun bad => lost ⟨rfl, bad.2⟩
        · rw [List.mem_cons, or_iff_right fun same => here same.symm]
          refine and_congr_right fun inside => ?_
          have facts : Store.facts ≠ s := fun same =>
            apart (List.mem_cons_of_mem _ inside) (same ▸ List.mem_cons_self)
          rw [Tables.setRows_other facts]

end Postgres

namespace MemorySnapshot
variable {m : MemorySnapshot K T ω}

/-- A backup of these rows, and of these lines for working memory. -/
def backupOf (m : MemorySnapshot K T ω) (isV2 : Bool) (rows : Store → List (Row K T))
    (working : List (Json K PyText)) : Backup K where
  isV2 := isV2
  tables s := (rows s).map (m.rowLine s)
  working := working

/-- Rows that their tables can hold together, as far as no other table is concerned. -/
structure Sound (m : MemorySnapshot K T ω) (rows : Store → List (Row K T)) : Prop where
  holds : ∀ s, ∀ row ∈ rows s, m.postgres.Holds s row
  unique : ∀ s, Store.Unique s (rows s)

/-- No edge has lost a fact. -/
def Referring (rows : Store → List (Row K T)) : Prop :=
  ∀ edge ∈ rows .edges, refers (rows .facts) edge = true

variable {rows : Store → List (Row K T)} {working : List (Json K PyText)} {isV2 : Bool}

theorem fill_backupOf (sound : m.Sound rows) {stores : List Store} (once : stores.Nodup)
    (apart : .edges ∈ stores → .facts ∉ stores) (t : Tables K T)
    (empty : ∀ s ∈ stores, t.rows s = []) :
    m.fill (m.backupOf isV2 rows working) stores t =
      if .edges ∈ stores ∧ ∃ row ∈ rows .edges, refers (t.rows .facts) row = false then
        .error (m.postgres.integrityError .edges)
      else .ok (t.withRows stores rows) := by
  have made : (linesOf (m.backupOf isV2 rows working) stores).mapM m.makeRow =
      .ok (stores.flatMap fun s => (rows s).map fun row => (s, again row)) := by
    have lines : linesOf (m.backupOf isV2 rows working) stores =
        (stores.flatMap fun s => (rows s).map (Prod.mk s)).map fun entry =>
          (entry.1, m.rowLine entry.1 entry.2) := by
      unfold linesOf backupOf
      rw [List.map_flatMap]
      simp only [List.map_map]
      rfl
    rw [lines, List.mapM_map, mapM_ok (h := fun entry => (entry.1, again entry.2)), List.map_flatMap]
    · simp only [List.map_map]
      rfl
    · intro entry inside
      obtain ⟨s, -, inside⟩ := List.mem_flatMap.mp inside
      obtain ⟨row, member, rfl⟩ := List.mem_map.mp inside
      exact makeRow_line (sound.holds s row member)
  unfold fill
  rw [made]
  exact Postgres.insertStores sound.unique once apart t empty

/-- The tables after a backup of these rows took their place. -/
def loaded (isV2 : Bool) (rows : Store → List (Row K T)) (t : Tables K T) : Tables K T :=
  ((t.clear isV2).withRows (Store.restored isV2) rows).resync isV2

/-- A backup of rows replaces what was there, or is refused for an edge that lost a fact. -/
theorem load_backupOf (sound : m.Sound rows) (t : Tables K T) :
    m.load (m.backupOf isV2 rows working) true t =
      if ∃ row ∈ rows .edges, refers (rows .facts) row = false then
        .error (m.postgres.integrityError .edges)
      else .ok (loaded isV2 rows t) := by
  have facts : ((t.clear isV2).withRows Store.first rows).rows .facts = rows .facts := rfl
  have first : m.fill (m.backupOf isV2 rows working) Store.first (t.clear isV2) =
      .ok ((t.clear isV2).withRows Store.first rows) := by
    rw [fill_backupOf sound (by decide) (by decide) _ fun s inside =>
      Tables.clear_rows t (List.mem_append_left _ inside)]
    exact if_neg fun bad => absurd bad.1 (by decide)
  have second : m.fill (m.backupOf isV2 rows working) (Store.second isV2)
      ((t.clear isV2).withRows Store.first rows) = _ :=
    fill_backupOf sound (Store.second_nodup isV2) (fun _ => Store.facts_first isV2) _
      fun s inside => by
        rw [Tables.withRows_other (Store.second_apart isV2 inside)]
        exact Tables.clear_rows t (List.mem_append_right _ inside)
  rw [facts, Tables.withRows_withRows] at second
  unfold load
  rw [if_pos rfl]
  change (m.fill (m.backupOf isV2 rows working) Store.first (t.clear isV2) >>= _) = _
  rw [first]
  change (m.fill (m.backupOf isV2 rows working) (Store.second isV2) _ >>= _) = _
  rw [second]
  by_cases lost : ∃ row ∈ rows .edges, refers (rows .facts) row = false
  · rw [if_pos ⟨Store.edges_second isV2, lost⟩, if_pos lost]
    rfl
  · rw [if_neg fun bad => lost bad.2, if_neg lost]
    rfl

/-! ### The rows that lines make -/

/-- The lines make these rows, one each; ids are drawn from the sequence. -/
inductive Makes (m : MemorySnapshot K T ω) (s : Store) :
    Sequence → List (Json K PyText) → List (Row K T) → Prop
  | nil {q} : m.Makes s q [] []
  | cons {q line lines object row rows} (made : m.makeRow (s, line) = .ok (s, object))
      (placed : object.row q.next = .ok row)
      (rest : m.Makes s (if object.drawsId then q.advance else q) lines rows) :
      m.Makes s q (line :: lines) (row :: rows)

section lines
variable {s : Store} {q : Sequence} {lines : List (Json K PyText)} {rows rows' : List (Row K T)}
  {t t' : Tables K T}

theorem Makes.unique (first : m.Makes s q lines rows) (second : m.Makes s q lines rows') :
    rows = rows' := by
  induction first generalizing rows' with
  | nil =>
      cases second
      rfl
  | cons made placed rest ih =>
      cases second with
      | cons made' placed' rest' =>
          cases made.symm.trans made'
          cases placed.symm.trans placed'
          rw [ih rest']

/-- What inserting into one table spares. -/
structure Spared (s : Store) (t t' : Tables K T) : Prop where
  rows : ∀ other ≠ s, t'.rows other = t.rows other
  sequences : ∀ other ≠ s, t'.sequences other = t.sequences other
  thoughts : t'.thoughtMoods = t.thoughtMoods

theorem insert_spec {object : Pending K T} (inserted : m.postgres.insert t (s, object) = .ok t') :
    ∃ row, object.row (t.sequences s).next = .ok row ∧ t'.rows s = t.rows s ++ [row] ∧
      t'.sequences s = (if object.drawsId then (t.sequences s).advance else t.sequences s) ∧
      Spared s t t' := by
  obtain ⟨row, placed, inserted⟩ := ok_of_bind inserted
  have drawn : (if object.drawsId then t.draw s else t).rows = t.rows ∧
      (if object.drawsId then t.draw s else t).thoughtMoods = t.thoughtMoods ∧
      (if object.drawsId then t.draw s else t).sequences s =
        (if object.drawsId then (t.sequences s).advance else t.sequences s) ∧
      ∀ other ≠ s, (if object.drawsId then t.draw s else t).sequences other =
        t.sequences other := by
    split
    · exact ⟨rfl, rfl, if_pos rfl, fun other differs => if_neg differs⟩
    · exact ⟨rfl, rfl, rfl, fun _ _ => rfl⟩
  dsimp only at inserted
  generalize (if object.drawsId then t.draw s else t) = ready at inserted drawn
  obtain ⟨sameRows, sameThoughts, next, sameSequences⟩ := drawn
  split at inserted
  · cases inserted
  · cases inserted
    refine ⟨row, placed, ?_, next, ?_, sameSequences, sameThoughts⟩
    · rw [Tables.setRows_same, sameRows]
    · intro other differs
      rw [Tables.setRows_other differs, sameRows]

/-- An object goes into the table of its line. -/
theorem makeRow_store {s : Store} {line : Json K PyText} {new : Store × Pending K T}
    (made : m.makeRow (s, line) = .ok new) : new.1 = s := by
  unfold makeRow at made
  split at made
  · next heq =>
      cases heq
      obtain ⟨arguments, -, made⟩ := ok_of_bind made
      obtain ⟨object, -, made⟩ := ok_of_bind made
      cases made
      rfl
  · cases made

/-- The lines of one table, made and inserted. -/
theorem insert_lines {objects : List (Store × Pending K T)}
    (made : (lines.map fun line => (s, line)).mapM m.makeRow = .ok objects)
    (inserted : objects.foldlM m.postgres.insert t = .ok t') :
    ∃ rows, t'.rows s = t.rows s ++ rows ∧ m.Makes s (t.sequences s) lines rows ∧
      Spared s t t' := by
  induction lines generalizing t objects with
  | nil =>
      cases made
      cases inserted
      exact ⟨[], (List.append_nil _).symm, .nil, fun _ _ => rfl, fun _ _ => rfl, rfl⟩
  | cons line lines ih =>
      rw [List.map_cons, List.mapM_cons] at made
      obtain ⟨⟨store, object⟩, head, made⟩ := ok_of_bind made
      obtain ⟨others, tail, made⟩ := ok_of_bind made
      cases made
      obtain rfl : store = s := makeRow_store head
      rw [List.foldlM_cons] at inserted
      obtain ⟨t₁, first, rest⟩ := ok_of_bind inserted
      obtain ⟨row, placed, grown, next, apart⟩ := insert_spec first
      obtain ⟨rows, filled, makes, beyond⟩ := ih tail rest
      rw [next] at makes
      refine ⟨row :: rows, ?_, .cons head placed makes, fun other differs => ?_,
        fun other differs => ?_, beyond.thoughts.trans apart.thoughts⟩
      · rw [filled, grown, List.append_assoc, List.singleton_append]
      · rw [beyond.rows other differs, apart.rows other differs]
      · rw [beyond.sequences other differs, apart.sequences other differs]

/-- A fill adds to each of its tables what the lines make, and spares the others. -/
theorem fill_lines {b : Backup K} {stores : List Store} (once : stores.Nodup)
    (filled : m.fill b stores t = .ok t') :
    (∀ s ∈ stores, ∃ rows, t'.rows s = t.rows s ++ rows ∧
      m.Makes s (t.sequences s) (b.tables s) rows) ∧
    (∀ s ∉ stores, t'.rows s = t.rows s ∧ t'.sequences s = t.sequences s) ∧
    t'.thoughtMoods = t.thoughtMoods := by
  obtain ⟨objects, made, inserted⟩ := ok_of_bind filled
  clear filled
  induction stores generalizing t objects with
  | nil =>
      cases made
      cases inserted
      exact ⟨nofun, fun _ _ => ⟨rfl, rfl⟩, rfl⟩
  | cons first stores ih =>
      obtain ⟨fresh, once⟩ := List.nodup_cons.mp once
      unfold linesOf at made ih
      rw [List.flatMap_cons, List.mapM_append] at made
      obtain ⟨front, head, made⟩ := ok_of_bind made
      obtain ⟨back, tail, made⟩ := ok_of_bind made
      cases made
      rw [List.foldlM_append] at inserted
      obtain ⟨t₁, start, rest⟩ := ok_of_bind inserted
      obtain ⟨rows, grown, makes, spared⟩ := insert_lines head start
      obtain ⟨others, beyond, thoughts⟩ := ih once back tail rest
      refine ⟨fun s inside => ?_, fun s outside => ?_, thoughts.trans spared.thoughts⟩
      · rcases List.mem_cons.mp inside with rfl | later
        · exact ⟨rows, by rw [(beyond _ fresh).1, grown], makes⟩
        · have differs : s ≠ first := fun same => fresh (same ▸ later)
          obtain ⟨rows, filled, makes⟩ := others s later
          rw [spared.sequences s differs] at makes
          exact ⟨rows, by rw [filled, spared.rows s differs], makes⟩
      · rw [List.mem_cons, not_or] at outside
        obtain ⟨same, next⟩ := beyond s outside.2
        exact ⟨by rw [same, spared.rows s outside.1], by rw [next, spared.sequences s outside.1]⟩

/-- The tables before a restore fills them. -/
def cleared (b : Backup K) (replace : Bool) (t : Tables K T) : Tables K T :=
  if replace then t.clear b.isV2 else t

theorem load_lines {b : Backup K} {replace : Bool} (loads : m.load b replace t = .ok t') :
    (∀ s ∈ Store.restored b.isV2, ∃ rows, t'.rows s = (cleared b replace t).rows s ++ rows ∧
      m.Makes s ((cleared b replace t).sequences s) (b.tables s) rows) ∧
    (∀ s ∉ Store.restored b.isV2, t'.rows s = (cleared b replace t).rows s) ∧
    t'.thoughtMoods = (cleared b replace t).thoughtMoods := by
  obtain ⟨t₁, first, loads⟩ := ok_of_bind loads
  obtain ⟨t₂, second, loads⟩ := ok_of_bind loads
  cases loads
  obtain ⟨front, spared, thoughts⟩ := fill_lines (by decide) first
  obtain ⟨back, beyond, same⟩ := fill_lines (Store.second_nodup b.isV2) second
  refine ⟨fun s inside => ?_, fun s outside => ?_, same.trans thoughts⟩
  · rcases List.mem_append.mp inside with early | late
    · obtain ⟨rows, filled, makes⟩ := front s early
      have left := (beyond s fun late => Store.second_apart b.isV2 late early).1
      exact ⟨rows, left.trans filled, makes⟩
    · obtain ⟨rows, filled, makes⟩ := back s late
      obtain ⟨left, next⟩ := spared s (Store.second_apart b.isV2 late)
      rw [left] at filled
      rw [next] at makes
      exact ⟨rows, filled, makes⟩
  · exact ((beyond s fun late => outside (List.mem_append_right _ late)).1).trans
      (spared s fun early => outside (List.mem_append_left _ early)).1

/-- A restore leaves the tables alone that it does not fill. -/
theorem load_other {b : Backup K} {replace : Bool} (loads : m.load b replace t = .ok t')
    (kept : s ∉ Store.restored b.isV2) : t'.rows s = t.rows s := by
  rw [(load_lines loads).2.1 s kept]
  cases replace with
  | true => exact Tables.clear_other t kept
  | false => rfl

end lines

/-! ### What is in the tables then -/

theorem loaded_rows (rows : Store → List (Row K T)) (t : Tables K T) (s : Store) :
    (loaded isV2 rows t).rows s = if s ∈ Store.restored isV2 then rows s else t.rows s := by
  have placed : (loaded isV2 rows t).rows s =
      if s ∈ Store.restored isV2 then rows s else (t.clear isV2).rows s := rfl
  rw [placed]
  by_cases filled : s ∈ Store.restored isV2
  · rw [if_pos filled, if_pos filled]
  · rw [if_neg filled, if_neg filled, Tables.clear_other t filled]

/-- A sequence goes on behind every id of its table. -/
theorem lt_next_resynced {s : Store} {rows : List (Row K T)} {row : Row K T} (inside : row ∈ rows)
    {n : ℤ} (numbered : s.id row = some n) : n < (Tables.resynced s rows).next := by
  have called : (Tables.resynced s rows).isCalled = true :=
    decide_eq_true (List.length_pos_of_mem inside)
  have among : n ∈ rows.filterMap s.id := List.mem_filterMap.mpr ⟨row, inside, numbered⟩
  have below : n ≤ (Tables.resynced s rows).last := by
    cases most : (rows.filterMap s.id).max? with
    | none =>
        rw [List.max?_eq_none_iff.mp most] at among
        cases among
    | some top =>
        have upper := (List.max?_eq_some_iff.mp most).2 n among
        unfold Tables.resynced
        rw [most]
        exact upper.trans (le_max_left _ _)
  unfold Sequence.next
  rw [if_pos called]
  omega

/-- Loading the same rows again changes nothing. -/
theorem loaded_loaded (rows : Store → List (Row K T)) (t : Tables K T) :
    loaded true rows (loaded true rows t) = loaded true rows t := by
  have same : (loaded true rows (loaded true rows t)).rows = (loaded true rows t).rows := by
    funext s
    rw [loaded_rows, loaded_rows, if_pos (Store.mem_restored s), if_pos (Store.mem_restored s)]
  have thoughts : (loaded true rows (loaded true rows t)).thoughtMoods =
      (loaded true rows t).thoughtMoods := by
    change (t.thoughtMoods.map fun _ => none).map (fun _ => none) = t.thoughtMoods.map fun _ => none
    rw [List.map_map]
    rfl
  have numbers : (loaded true rows (loaded true rows t)).sequences =
      (loaded true rows t).sequences := by
    funext s
    cases s <;> rfl
  rw [← Tables.eta (loaded true rows (loaded true rows t)), same, thoughts, numbers]

end MemorySnapshot
end Johnny
