import Johnny.Lib.Transaction
import Johnny.Lib.Runs
import Johnny.Memory.Recall

/-!
# Procedural memory

Skills are keyed by name. Each use of a skill is one atomic update of its counters, and a skill
that is stored again keeps them; so in every interleaving the counters count what was committed.
The embedder and the vector index are outside.
-/
namespace Johnny

structure SkillRow (K : Type) where
  id : ℕ
  name : String
  recipe : Dict K
  successRate : K
  uses : ℕ
  successes : ℕ
  embedding : List K

structure Skill (K : Type) where
  id : Option ℕ := none
  name : String
  description : String := ""
  recipe : Dict K := []
  successRate : K
  uses : ℤ := 0
  successes : ℤ := 0
  score : Option K := none

def skillText {K : Type} (skill : Skill K) : String := strip (skill.name ++ " " ++ skill.description)

/-- `_row_to_skill`. -/
def SkillRow.toSkill {K : Type} (row : SkillRow K) (score : Option K) : Skill K where
  id := some row.id
  name := row.name
  recipe := row.recipe
  successRate := row.successRate
  uses := row.uses
  successes := row.successes
  score := score

/-- What is done to a skill that is already there. -/
inductive Deed (K : Type) where
  | learned (recipe : Dict K) (embedding : List K)
  | tried (success : Bool)

section rows
variable {K : Type} [Field K]

def SkillRow.after (row : SkillRow K) : Deed K → SkillRow K
  | .learned recipe embedding => { row with recipe := recipe, embedding := embedding }
  | .tried success =>
    let uses := row.uses + 1
    let successes := row.successes + if success then 1 else 0
    { row with uses := uses, successes := successes
               successRate := (successes : K) / (uses : K) }

/-- The row of a skill that is stored for the first time. -/
def SkillRow.first [LinearOrder K] (skill : Skill K) (embedding : List K) (id : ℕ) : SkillRow K :=
  let uses := (max 0 skill.uses).toNat
  let successes := min (max 0 skill.successes).toNat uses
  { id := id, name := skill.name, recipe := skill.recipe
    successRate := if uses ≠ 0 then (successes : K) / (uses : K) else clamp01 skill.successRate
    uses := uses, successes := successes, embedding := embedding }

end rows

structure ProceduralMemory (K ω : Type) extends Sessions Failure (List (SkillRow K)) ℕ ω where
  embedOne : String → Prog Failure ω (List K)
  /-- Up to so many of the nearest rows, each with its cosine distance. -/
  nearest : List K → ℤ → List (SkillRow K) → List (SkillRow K × K)

namespace ProceduralMemory
variable {K ω : Type} [Field K]

abbrev Session (K α : Type) := Prog Failure (List (SkillRow K) × ℕ) α

/-- The insert, or the update of the skill of this name. The id is drawn in either case. -/
def learn [LinearOrder K] (skill : Skill K) (embedding : List K) : Session K (Skill K) := fun t =>
  match t.1.find? fun row => row.name == skill.name with
  | some known =>
    (.ok ((known.after (.learned skill.recipe embedding)).toSkill none),
      t.1.map fun row =>
        if row.name = skill.name then row.after (.learned skill.recipe embedding) else row,
      t.2 + 1)
  | none =>
    let row := SkillRow.first skill embedding t.2
    (.ok (row.toSkill none), t.1 ++ [row], t.2 + 1)

def unknownSkill (skillId : ℕ) : Failure :=
  .exception (.other "ValueError") ("skill " ++ toString skillId ++ " not found")

def bump (skillId : ℕ) (success : Bool) : Session K (Skill K) := fun t =>
  match t.1.find? fun row => row.id == skillId with
  | some row =>
    (.ok ((row.after (.tried success)).toSkill none),
      t.1.map fun row => if row.id = skillId then row.after (.tried success) else row, t.2)
  | none => (.error (unknownSkill skillId), t)

def store [LinearOrder K] (m : ProceduralMemory K ω) (skill : Skill K) :
    Prog Failure ω (Skill K) := do
  let embedding ← m.embedOne (skillText skill)
  m.scope (learn skill embedding)

def find [LinearOrder K] (m : ProceduralMemory K ω) (query : String) (k : ℤ) :
    Prog Failure ω (List (Skill K)) :=
  if k ≤ 0 then pure []
  else do
    let vector ← m.embedOne query
    let candidates ← m.scope (Prog.reads fun t => m.nearest vector k t.1)
    pure (candidates.map fun c => c.1.toSkill (some (similarityFromDistance c.2)))

def reinforce (m : ProceduralMemory K ω) (skillId : ℕ) (success : Bool) :
    Prog Failure ω (Skill K) := m.scope (bump skillId success)

/-! ### The history of one skill -/

/-- The tries among the deeds. -/
def tries (deeds : List (Deed K)) : List Bool :=
  deeds.filterMap fun
    | .tried success => some success
    | .learned _ _ => none

/-- The recipe after the deeds. -/
def lastRecipe (recipe : Dict K) (deeds : List (Deed K)) : Dict K :=
  deeds.foldl (fun recipe deed =>
    match deed with
    | .learned newer _ => newer
    | .tried _ => recipe) recipe

/-- The rate of a skill is that of its tries, once there is one. -/
structure Sound [LinearOrder K] (row : SkillRow K) : Prop where
  counted : row.successes ≤ row.uses
  rate : row.uses ≠ 0 → row.successRate = (row.successes : K) / (row.uses : K)
  unused : row.uses = 0 → 0 ≤ row.successRate ∧ row.successRate ≤ 1

theorem after_id (row : SkillRow K) (deed : Deed K) : (row.after deed).id = row.id := by
  cases deed <;> rfl

theorem after_name (row : SkillRow K) (deed : Deed K) : (row.after deed).name = row.name := by
  cases deed <;> rfl

theorem foldl_after_id (row : SkillRow K) (deeds : List (Deed K)) :
    (deeds.foldl SkillRow.after row).id = row.id := by
  induction deeds generalizing row with
  | nil => rfl
  | cons deed deeds ih => exact (ih _).trans (after_id row deed)

theorem foldl_after_name (row : SkillRow K) (deeds : List (Deed K)) :
    (deeds.foldl SkillRow.after row).name = row.name := by
  induction deeds generalizing row with
  | nil => rfl
  | cons deed deeds ih => exact (ih _).trans (after_name row deed)

/-- The counters count the tries, and the recipe is the last one learned. -/
theorem foldl_after_counts (row : SkillRow K) (deeds : List (Deed K)) :
    (deeds.foldl SkillRow.after row).uses = row.uses + (tries deeds).length ∧
      (deeds.foldl SkillRow.after row).successes = row.successes + (tries deeds).count true ∧
      (deeds.foldl SkillRow.after row).recipe = lastRecipe row.recipe deeds := by
  induction deeds generalizing row with
  | nil => exact ⟨rfl, rfl, rfl⟩
  | cons deed deeds ih =>
      obtain ⟨uses, successes, recipe⟩ := ih (row.after deed)
      rw [List.foldl_cons, uses, successes, recipe]
      cases deed with
      | learned newer embedding => exact ⟨rfl, rfl, rfl⟩
      | tried success =>
          have more : tries (.tried success :: deeds) = success :: tries deeds := rfl
          rw [more, List.length_cons, List.count_cons]
          refine ⟨?_, ?_, rfl⟩
          · simp only [SkillRow.after]
            omega
          · cases success <;> simp [SkillRow.after]
            omega

theorem Sound.after [LinearOrder K] {row : SkillRow K} (sound : Sound row) (deed : Deed K) :
    Sound (row.after deed) := by
  cases deed with
  | learned recipe embedding => exact ⟨sound.counted, sound.rate, sound.unused⟩
  | tried success =>
      have counted := sound.counted
      refine ⟨?_, fun _ => rfl, fun none => absurd none (Nat.succ_ne_zero _)⟩
      simp only [SkillRow.after]
      split <;> omega

theorem Sound.first [LinearOrder K] [IsStrictOrderedRing K] (skill : Skill K)
    (embedding : List K) (id : ℕ) : Sound (SkillRow.first skill embedding id) where
  counted := min_le_right _ _
  rate used := if_pos used
  unused none := by
    have same : (SkillRow.first skill embedding id).successRate = clamp01 skill.successRate :=
      if_neg (not_not.mpr none)
    rw [same]
    exact ⟨clamp01_nonneg _, clamp01_le_one _⟩

/-- A rate is between nought and one. -/
theorem Sound.rate_bounds [LinearOrder K] [IsStrictOrderedRing K] {row : SkillRow K}
    (sound : Sound row) : 0 ≤ row.successRate ∧ row.successRate ≤ 1 := by
  by_cases used : row.uses = 0
  · exact sound.unused used
  · rw [sound.rate used]
    have positive : (0 : K) < row.uses := Nat.cast_pos.mpr (Nat.pos_of_ne_zero used)
    have below : (row.successes : K) ≤ row.uses := Nat.cast_le.mpr sound.counted
    exact ⟨div_nonneg (Nat.cast_nonneg _) positive.le, (div_le_one positive).mpr below⟩

/-! ### What a transaction does to the table -/

section table
variable [LinearOrder K] {rows more : List (SkillRow K)} {next : ℕ}

structure Table (rows : List (SkillRow K)) (next : ℕ) : Prop where
  ids : (rows.map SkillRow.id).Nodup
  names : (rows.map SkillRow.name).Nodup
  below : ∀ row ∈ rows, row.id < next
  sound : ∀ row ∈ rows, Sound row

/-- Each skill of the first table with what was done to it, by id and name, and new ones. -/
def Evolves (deeds : ℕ → String → List (Deed K)) (rows more : List (SkillRow K)) : Prop :=
  ∃ news, more = rows.map (fun row => (deeds row.id row.name).foldl SkillRow.after row) ++ news

omit [LinearOrder K] in
theorem Evolves.refl (rows : List (SkillRow K)) : Evolves (fun _ _ => []) rows rows :=
  ⟨[], by rw [List.append_nil]; exact (List.map_id rows).symm⟩

omit [LinearOrder K] in
theorem Evolves.trans {first second : ℕ → String → List (Deed K)} {last : List (SkillRow K)}
    (begun : Evolves first rows more) (goes : Evolves second more last) :
    Evolves (fun id name => first id name ++ second id name) rows last := by
  obtain ⟨news, rfl⟩ := begun
  obtain ⟨newer, rfl⟩ := goes
  refine ⟨news.map (fun row => (second row.id row.name).foldl SkillRow.after row) ++ newer, ?_⟩
  rw [List.map_append, List.append_assoc, List.map_map]
  refine congrArg (· ++ _) (List.map_congr_left fun row _ => ?_)
  rw [Function.comp_apply, foldl_after_id, foldl_after_name, List.foldl_append]

/-- A deed to the rows that meet a condition keeps the table sound. -/
theorem Table.map (table : Table rows next) (hit : SkillRow K → Prop) [DecidablePred hit]
    (deed : Deed K) : Table (rows.map fun row => if hit row then row.after deed else row) next := by
  have same {β : Type} (f : SkillRow K → β) (kept : ∀ row, f (row.after deed) = f row) :
      (rows.map fun row => if hit row then row.after deed else row).map f = rows.map f := by
    rw [List.map_map]
    refine List.map_congr_left fun row _ => ?_
    rw [Function.comp_apply]
    split
    · exact kept row
    · rfl
  refine ⟨?_, ?_, ?_, ?_⟩
  · rw [same SkillRow.id fun row => after_id row deed]
    exact table.ids
  · rw [same SkillRow.name fun row => after_name row deed]
    exact table.names
  · intro row inside
    obtain ⟨old, there, rfl⟩ := List.mem_map.mp inside
    split
    · rw [after_id]
      exact table.below old there
    · exact table.below old there
  · intro row inside
    obtain ⟨old, there, rfl⟩ := List.mem_map.mp inside
    split
    · exact (table.sound old there).after deed
    · exact table.sound old there

omit [LinearOrder K] in
theorem Evolves.map (rows : List (SkillRow K)) (hit : ℕ → String → Prop)
    [∀ id name, Decidable (hit id name)] (deed : Deed K) :
    Evolves (fun id name => if hit id name then [deed] else []) rows
      (rows.map fun row => if hit row.id row.name then row.after deed else row) := by
  refine ⟨[], ?_⟩
  rw [List.append_nil]
  refine List.map_congr_left fun row _ => ?_
  dsimp only
  split <;> rfl

theorem Table.drawn (table : Table rows next) : Table rows (next + 1) where
  ids := table.ids
  names := table.names
  below row inside := (table.below row inside).trans (Nat.lt_succ_self _)
  sound := table.sound

theorem Table.append [IsStrictOrderedRing K] (table : Table rows next) {skill : Skill K}
    (fresh : ∀ row ∈ rows, row.name ≠ skill.name) (embedding : List K) :
    Table (rows ++ [SkillRow.first skill embedding next]) (next + 1) where
  ids := by
    rw [List.map_append]
    refine List.nodup_append.mpr ⟨table.ids, List.nodup_singleton _, ?_⟩
    intro id old id' new
    obtain ⟨row, inside, rfl⟩ := List.mem_map.mp old
    rw [List.mem_singleton.mp new]
    exact (table.below row inside).ne
  names := by
    rw [List.map_append]
    refine List.nodup_append.mpr ⟨table.names, List.nodup_singleton _, ?_⟩
    intro name old name' new
    obtain ⟨row, inside, rfl⟩ := List.mem_map.mp old
    rw [List.mem_singleton.mp new]
    exact fresh row inside
  below row inside := by
    rcases List.mem_append.mp inside with old | new
    · exact table.drawn.below row old
    · rw [List.mem_singleton.mp new]
      exact Nat.lt_succ_self _
  sound row inside := by
    rcases List.mem_append.mp inside with old | new
    · exact table.sound row old
    · rw [List.mem_singleton.mp new]
      exact Sound.first skill embedding next

theorem learn_spec [IsStrictOrderedRing K] (table : Table rows next) (skill : Skill K)
    (embedding : List K) :
    (∃ told, (learn skill embedding (rows, next)).1 = .ok told) ∧
      (learn skill embedding (rows, next)).2.2 = next + 1 ∧
      Table (learn skill embedding (rows, next)).2.1 (next + 1) ∧
      Evolves (fun _ name => if name = skill.name then [.learned skill.recipe embedding] else [])
        rows (learn skill embedding (rows, next)).2.1 := by
  unfold learn
  dsimp only
  cases found : rows.find? fun row => row.name == skill.name with
  | some known =>
      exact ⟨⟨_, rfl⟩, rfl, (table.map (fun row => row.name = skill.name) _).drawn,
        .map rows (fun _ name => name = skill.name) _⟩
  | none =>
      have fresh : ∀ row ∈ rows, row.name ≠ skill.name := by
        intro row inside same
        exact List.find?_eq_none.mp found row inside (beq_iff_eq.mpr same)
      refine ⟨⟨_, rfl⟩, rfl, table.append fresh embedding, [SkillRow.first skill embedding next], ?_⟩
      refine congrArg (· ++ _) ((List.map_id rows).symm.trans ?_)
      refine List.map_congr_left fun row inside => ?_
      dsimp only
      rw [if_neg (fresh row inside)]
      rfl

/-- The ways a reinforcement can turn out in a session. -/
inductive Bumped (skillId : ℕ) (success : Bool) (t : List (SkillRow K) × ℕ) :
    Except Failure (Skill K) × List (SkillRow K) × ℕ → Prop
  | known {row} (inside : row ∈ t.1) (here : row.id = skillId) :
      Bumped skillId success t (.ok ((row.after (.tried success)).toSkill none),
        t.1.map fun row => if row.id = skillId then row.after (.tried success) else row, t.2)
  | unknown (gone : ∀ row ∈ t.1, row.id ≠ skillId) :
      Bumped skillId success t (.error (unknownSkill skillId), t)

omit [LinearOrder K] in
theorem bump_spec (skillId : ℕ) (success : Bool) (t : List (SkillRow K) × ℕ) :
    Bumped skillId success t (bump skillId success t) := by
  unfold bump
  cases found : t.1.find? fun row => row.id == skillId with
  | some row =>
      have hit := List.find?_some found
      exact .known (List.mem_of_find?_eq_some found) (beq_iff_eq.mp hit)
  | none =>
      refine .unknown fun row inside same => ?_
      exact List.find?_eq_none.mp found row inside (beq_iff_eq.mpr same)

end table

/-! ### Runs -/

section runs
variable [LinearOrder K]

/-- What happens to the skills, one transaction after the other. -/
inductive Turn (m : ProceduralMemory K ω) where
  | store (skill : Skill K)
  | find (query : String) (k : ℤ)
  | reinforce (skillId : ℕ) (success : Bool)
  /-- Anything else, which leaves their table alone. -/
  | elsewhere (happens : ω → ω) (apart : ∀ w, m.db.get (happens w) = m.db.get w)

def turn (m : ProceduralMemory K ω) : m.Turn → ω → ω
  | .store skill, w => (m.store skill w).2
  | .find query k, w => (m.find query k w).2
  | .reinforce skillId success, w => (m.reinforce skillId success w).2
  | .elsewhere happens _, w => happens w

/-- What a turn commits to the skill of an id and name. -/
def deeds (m : ProceduralMemory K ω) : m.Turn → ω → ℕ → String → List (Deed K)
  | .store skill, w, _, name =>
    match m.embedOne (skillText skill) w with
    | (.ok embedding, v) =>
      if (m.db.get v).ending.takesEffect ∧ name = skill.name then
        [.learned skill.recipe embedding]
      else []
    | (.error _, _) => []
  | .reinforce skillId success, w, id, _ =>
    if (m.db.get w).ending.takesEffect ∧ id = skillId then [.tried success] else []
  | _, _, _, _ => []

/-- What a run commits to it, in the order of the commits. -/
def deedsIn (m : ProceduralMemory K ω) : List m.Turn → ω → ℕ → String → List (Deed K)
  | [], _, _, _ => []
  | t :: ts, w, id, name => m.deeds t w id name ++ m.deedsIn ts (m.turn t w) id name

def rows (m : ProceduralMemory K ω) (w : ω) : List (SkillRow K) := (m.db.get w).tables

def TableAt (m : ProceduralMemory K ω) (w : ω) : Prop :=
  Table (m.db.get w).tables (m.db.get w).sequences

/-- Nobody else writes the table while a text is embedded. -/
structure Alone (m : ProceduralMemory K ω) : Prop where
  embedder : ∀ text w, m.db.get (m.embedOne text w).2 = m.db.get w

variable {m : ProceduralMemory K ω} {w v : ω}

theorem still_of_same (table : m.TableAt w) (same : m.db.get v = m.db.get w) :
    m.TableAt v ∧ Evolves (fun _ _ => []) (m.rows w) (m.rows v) := by
  unfold TableAt rows
  rw [same]
  exact ⟨table, .refl _⟩

/-- A transaction that does not stand leaves the rows, wherever the ids stand. -/
theorem still_of_drawn (table : m.TableAt w) (tables : (m.db.get v).tables = (m.db.get w).tables)
    (sequences : (m.db.get v).sequences = (m.db.get w).sequences ∨
      (m.db.get v).sequences = (m.db.get w).sequences + 1) :
    m.TableAt v ∧ Evolves (fun _ _ => []) (m.rows w) (m.rows v) := by
  unfold TableAt rows
  rw [tables]
  refine ⟨?_, .refl _⟩
  rcases sequences with same | drawn
  · rwa [same]
  · rw [drawn]
    exact Table.drawn table

omit [Field K] [LinearOrder K] in
theorem deeds_store {skill : Skill K} {embedding : List K}
    (embedded : m.embedOne (skillText skill) w = (.ok embedding, v)) :
    m.deeds (.store skill) w = fun _ name =>
      if (m.db.get v).ending.takesEffect ∧ name = skill.name then
        [.learned skill.recipe embedding]
      else [] := by
  funext id name
  simp only [deeds, embedded]

theorem store_evolves [IsStrictOrderedRing K] (alone : m.Alone) (skill : Skill K)
    (table : m.TableAt w) : m.TableAt (m.store skill w).2 ∧
      Evolves (m.deeds (.store skill) w) (m.rows w) (m.rows (m.store skill w).2) := by
  have still := alone.embedder (skillText skill) w
  rcases embedded : m.embedOne (skillText skill) w with ⟨e | embedding, v⟩
  · have ran : m.store skill w = (.error e, v) := Prog.bind_of_error embedded
    have nothing : m.deeds (.store skill) w = fun _ _ => [] := by
      funext id name
      simp only [deeds, embedded]
    rw [embedded] at still
    rw [ran, nothing]
    exact still_of_same table still
  have ran : m.store skill w = m.scope (learn skill embedding) v := Prog.bind_of_ok embedded
  rw [embedded] at still
  rw [ran, deeds_store embedded]
  have here : m.TableAt v := by
    unfold TableAt
    rwa [still]
  obtain ⟨⟨told, returned⟩, drawn, next, grown⟩ := learn_spec here skill embedding
  have left := Database.transact_left (learn skill embedding) (m.db.get v)
  rw [← Sessions.after, ← Sessions.scope_db] at left
  have before : m.rows v = m.rows w := congrArg Database.tables still
  rw [← before]
  rcases left with ⟨_, -, effect, tables, sequences⟩ | ⟨failed, tables, sequences⟩
  · simp only [effect, true_and]
    unfold TableAt rows
    rw [tables, sequences, drawn]
    exact ⟨next, grown⟩
  · have none : (m.db.get v).ending.takesEffect = false := by
      rcases failed with ⟨e, raised⟩ | none
      · cases returned.symm.trans raised
      · exact none
    rw [drawn] at sequences
    simp only [none, Bool.false_eq_true, false_and, if_false]
    exact still_of_drawn here tables sequences

omit [Field K] [LinearOrder K] in
theorem deeds_reinforce (skillId : ℕ) (success : Bool) :
    m.deeds (.reinforce skillId success) w = fun id _ =>
      if (m.db.get w).ending.takesEffect ∧ id = skillId then [.tried success] else [] := by
  funext id name
  rfl

theorem reinforce_evolves (skillId : ℕ) (success : Bool) (table : m.TableAt w) :
    m.TableAt (m.reinforce skillId success w).2 ∧
      Evolves (m.deeds (.reinforce skillId success) w) (m.rows w)
        (m.rows (m.reinforce skillId success w).2) := by
  have left := Database.transact_left (bump (K := K) skillId success) (m.db.get w)
  have ended := bump_spec (K := K) skillId success ((m.db.get w).tables, (m.db.get w).sequences)
  rw [← Sessions.after, ← Sessions.scope_db] at left
  rw [deeds_reinforce]
  change m.TableAt (m.scope (bump skillId success) w).2 ∧
    Evolves _ (m.rows w) (m.rows (m.scope (bump skillId success) w).2)
  generalize bump skillId success ((m.db.get w).tables, (m.db.get w).sequences) = result at ended left
  cases ended with
  | @known row inside here =>
      rcases left with ⟨_, -, effect, tables, sequences⟩ | ⟨failed, tables, sequences⟩
      · simp only [effect, true_and]
        unfold TableAt rows
        rw [tables, sequences]
        exact ⟨Table.map table (fun row => row.id = skillId) _,
          .map _ (fun id _ => id = skillId) _⟩
      · have none : (m.db.get w).ending.takesEffect = false := by
          rcases failed with ⟨e, raised⟩ | none
          · cases raised
          · exact none
        simp only [none, Bool.false_eq_true, false_and, if_false]
        exact still_of_drawn table tables (.inl (sequences.elim id id))
  | unknown gone =>
      rcases left with ⟨_, returned, -⟩ | ⟨-, tables, sequences⟩
      · cases returned
      · obtain ⟨kept, -⟩ := still_of_drawn table tables (.inl (sequences.elim id id))
        refine ⟨kept, [], ?_⟩
        rw [List.append_nil, rows, tables]
        refine (List.map_id _).symm.trans (List.map_congr_left fun row inside => ?_)
        dsimp only
        rw [if_neg fun hit => gone row inside hit.2]
        rfl

theorem find_evolves (alone : m.Alone) (query : String) (k : ℤ) (table : m.TableAt w) :
    m.TableAt (m.find query k w).2 ∧
      Evolves (fun _ _ => []) (m.rows w) (m.rows (m.find query k w).2) := by
  have still := alone.embedder query w
  unfold find
  split
  · exact still_of_same table rfl
  rcases embedded : m.embedOne query w with ⟨e | vector, v⟩
  · rw [embedded] at still
    rw [Prog.bind_of_error embedded]
    exact still_of_same table still
  rw [embedded] at still
  rw [Prog.bind_of_ok embedded, Prog.bind_pure_apply]
  let reading : Session K (List (SkillRow K × K)) := Prog.reads fun t => m.nearest vector k t.1
  have left := Database.transact_left reading (m.db.get v)
  rw [← Sessions.after, ← Sessions.scope_db, still] at left
  rcases left with ⟨_, -, -, tables, sequences⟩ | ⟨-, tables, sequences⟩
  · exact still_of_drawn table tables (.inl sequences)
  · exact still_of_drawn table tables (.inl (sequences.elim id id))

theorem turn_evolves [IsStrictOrderedRing K] (alone : m.Alone) (t : m.Turn) (table : m.TableAt w) :
    m.TableAt (m.turn t w) ∧ Evolves (m.deeds t w) (m.rows w) (m.rows (m.turn t w)) := by
  cases t with
  | store skill => exact store_evolves alone skill table
  | find query k => exact find_evolves alone query k table
  | reinforce skillId success => exact reinforce_evolves skillId success table
  | elsewhere happens apart => exact still_of_same table (apart w)

theorem run_evolves [IsStrictOrderedRing K] (alone : m.Alone) (turns : List m.Turn)
    (table : m.TableAt w) : m.TableAt (runSteps m.turn turns w) ∧
      Evolves (m.deedsIn turns w) (m.rows w) (m.rows (runSteps m.turn turns w)) := by
  induction turns generalizing w with
  | nil => exact ⟨table, .refl _⟩
  | cons t turns ih =>
      obtain ⟨next, first⟩ := turn_evolves alone t table
      obtain ⟨last, rest⟩ := ih next
      exact ⟨last, first.trans rest⟩

/-- In every run, whatever fails, each skill has counted exactly the reinforcements of it that were
committed, keeps its history when it is stored again, and its rate is theirs. -/
theorem run_skills [IsStrictOrderedRing K] (alone : m.Alone) (turns : List m.Turn) {w : ω}
    (start : m.TableAt w) :
    let v := runSteps m.turn turns w
    m.TableAt v ∧ (∀ row ∈ m.rows v, 0 ≤ row.successRate ∧ row.successRate ≤ 1) ∧
      ∀ row ∈ m.rows w, ∃ now ∈ m.rows v,
        let done := m.deedsIn turns w row.id row.name
        now.id = row.id ∧ now.name = row.name ∧
          now.uses = row.uses + (tries done).length ∧
          now.successes = row.successes + (tries done).count true ∧
          now.recipe = lastRecipe row.recipe done ∧
          (now.uses ≠ 0 → now.successRate = (now.successes : K) / (now.uses : K)) := by
  intro v
  obtain ⟨table, news, grown⟩ := run_evolves alone turns start
  refine ⟨table, fun row inside => (table.sound row inside).rate_bounds, fun row inside => ?_⟩
  obtain ⟨uses, successes, recipe⟩ := foldl_after_counts row (m.deedsIn turns w row.id row.name)
  have here : (m.deedsIn turns w row.id row.name).foldl SkillRow.after row ∈ m.rows v := by
    rw [grown]
    exact List.mem_append_left _ (List.mem_map_of_mem inside)
  exact ⟨_, here, foldl_after_id _ _, foldl_after_name _ _, uses, successes, recipe,
    (table.sound _ here).rate⟩

end runs

/-! ### A kettle learned twice -/

namespace Kettle

def memory : ProceduralMemory ℚ (Database Failure (List (SkillRow ℚ)) ℕ) where
  db := .whole
  meanwhile := id
  apart _ := rfl
  embedOne _ := pure [1]
  nearest _ _ _ := []

def boil : SkillRow ℚ := ⟨1, "boil water", [], 0, 0, 0, [1]⟩

/-- The second reinforcement is rolled back; the third is committed, but its answer is lost. -/
def start : Database Failure (List (SkillRow ℚ)) ℕ :=
  ⟨[boil], 2, [.committed, .rolledBack .cancelled, .unacknowledged .cancelled], []⟩

def evening : List memory.Turn :=
  [.reinforce 1 true, .reinforce 1 true, .reinforce 1 false,
    .store { name := "boil water", recipe := [("heat", .bool true)], successRate := 0 }]

theorem start_table : memory.TableAt start where
  ids := by decide
  names := by decide
  below := by
    intro row inside
    rw [List.mem_singleton.mp inside]
    exact Nat.one_lt_two
  sound := by
    intro row inside
    rw [List.mem_singleton.mp inside]
    exact ⟨le_rfl, nofun, fun _ => ⟨le_rfl, zero_le_one⟩⟩

end Kettle

open Kettle in
theorem kettle_skills : tries (memory.deedsIn evening start 1 "boil water") = [true, false] ∧
    ∃ now ∈ memory.rows (runSteps memory.turn evening start), now.uses = 2 ∧ now.successes = 1 := by
  obtain ⟨-, -, each⟩ := run_skills ⟨fun _ _ => rfl⟩ evening start_table
  obtain ⟨now, inside, -, -, uses, successes, -⟩ := each boil List.mem_cons_self
  exact ⟨rfl, now, inside, uses, successes⟩

end ProceduralMemory
end Johnny
