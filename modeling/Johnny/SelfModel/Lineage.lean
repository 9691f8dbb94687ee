import Johnny.SelfModel.Identity
import Johnny.Lib.Runs

/-!
# One line of selves

Whatever fails and in whatever order the self-model is booted, read and refreshed, its table is
one line: the versions count up from the first without a gap, nothing that was written changes,
and what is told as the current self is the last of the line. Every row that comes to it is the
seed, under the Core's name, or a reply of the model, under that of the agent's anchor.
-/
namespace Johnny
namespace SelfModel
variable {K ω : Type} {m : SelfModel K ω} {rows : List (IdentityRow K)} {doc : Identity K}

/-! ### The line -/

/-- The versions count up, and the names are that of the Core and that of the agent's anchor. -/
structure Lineage (m : SelfModel K ω) (rows : List (IdentityRow K)) : Prop where
  versions : rows.map IdentityRow.version = List.range' 1 rows.length
  named : ∀ row ∈ rows, row.name = johnnyName ∨ row.name = m.anchor.name

/-- The document tells the last of the rows. -/
def Newest (doc : Identity K) (rows : List (IdentityRow K)) : Prop :=
  ∃ row, rows.getLast? = some row ∧ doc = row.toDoc

theorem Lineage.nil (m : SelfModel K ω) : m.Lineage [] where
  versions := rfl
  named := by simp

theorem Lineage.latest (line : m.Lineage rows) : IdentityStore.latest rows = rows.getLast? := by
  apply firstMax_of_increasing
  rw [line.versions]
  exact List.pairwise_lt_range'

theorem Lineage.nextVersion (line : m.Lineage rows) :
    IdentityStore.nextVersion rows = rows.length + 1 := by
  unfold IdentityStore.nextVersion
  rw [line.latest]
  cases last : rows.getLast? with
  | none => simp [List.getLast?_eq_none_iff.mp last]
  | some row =>
      obtain ⟨before, rfl⟩ := List.getLast?_eq_some_iff.mp last
      have versions := line.versions
      rw [List.map_append, List.length_append, List.length_singleton, List.range'_concat] at versions
      have tail := (List.append_inj' versions rfl).2
      simp only [List.map_cons, List.map_nil, List.cons.injEq, and_true] at tail
      simp only [List.length_append, List.length_singleton]
      omega

/-- The next row goes on with the line. -/
theorem Lineage.append (line : m.Lineage rows)
    (named : doc.name = johnnyName ∨ doc.name = m.anchor.name) (now : K) (id : ℕ) :
    m.Lineage (rows ++ [IdentityStore.rowOf doc now rows id]) where
  versions := by
    rw [List.map_append, line.versions, List.length_append, List.length_singleton,
      List.range'_concat]
    simp [IdentityStore.rowOf, line.nextVersion]
    omega
  named := by
    intro row inside
    rcases List.mem_append.mp inside with old | new
    · exact line.named row old
    · rw [List.mem_singleton.mp new]
      exact named

/-! ### What each operation does to it -/

def stored (m : SelfModel K ω) (w : ω) : List (IdentityRow K) := (m.store.db.get w).tables

/-- The first self-model, around the Core's anchor. -/
def seed (m : SelfModel K ω) : Identity K :=
  IdentityStore.seedDoc (loadIdentityAnchor m.store.memorySnapshotDir)

/-- What a seeding adds: the row of the seed at most, and that to an empty table alone. -/
def Seeds (m : SelfModel K ω) (w : ω) (added : List (IdentityRow K)) : Prop :=
  added = [] ∨ m.stored w = [] ∧ ∃ now id, added = [IdentityStore.rowOf m.seed now [] id]

/-- Nobody but the self-model writes its table. -/
structure Alone (m : SelfModel K ω) : Prop where
  router : ∀ complete, m.router = some complete → ∀ role messages temperature maxTokens w,
    m.store.db.get (complete role messages temperature maxTokens w).2 = m.store.db.get w

theorem browse_stored (m : SelfModel K ω) (w : ω) :
    m.stored (m.store.current w).2 = m.stored w :=
  (Sessions.scope_rule m.store.toSessions
    (Prog.reads fun t => (IdentityStore.latest t.1).map IdentityRow.toDoc) w
    (A := fun d => d.tables = m.stored w) (B := fun _ _ => True)
    (by rintro _ _ ⟨⟩; exact ⟨rfl, trivial⟩) fun _ => rfl).1

/-- What an append leaves, and what its return tells. -/
theorem append_spec (m : SelfModel K ω) (doc : Identity K) (w : ω) :
    (m.stored (m.store.append doc w).2 = m.stored w ∨ ∃ id, m.stored (m.store.append doc w).2 =
      m.stored w ++ [IdentityStore.rowOf doc (m.store.nowFn w) (m.stored w) id]) ∧
    ∀ told, (m.store.append doc w).1 = .ok told → ∃ id,
      told = (IdentityStore.rowOf doc (m.store.nowFn w) (m.stored w) id).toDoc ∧
        m.stored (m.store.append doc w).2 =
          m.stored w ++ [IdentityStore.rowOf doc (m.store.nowFn w) (m.stored w) id] := by
  apply Sessions.scope_rule m.store.toSessions (IdentityStore.add doc (m.store.nowFn w)) w
    (A := fun d => d.tables = m.stored w ∨ ∃ id, d.tables =
      m.stored w ++ [IdentityStore.rowOf doc (m.store.nowFn w) (m.stored w) id])
    (B := fun told d => ∃ id,
      told = (IdentityStore.rowOf doc (m.store.nowFn w) (m.stored w) id).toDoc ∧
        d.tables = m.stored w ++ [IdentityStore.rowOf doc (m.store.nowFn w) (m.stored w) id])
  · rintro _ _ ⟨⟩
    exact ⟨.inr ⟨_, rfl⟩, _, rfl, rfl⟩
  · exact fun _ => .inl rfl

theorem current_seeds (m : SelfModel K ω) (w : ω) :
    ∃ seeds, m.stored (m.current w).2 = m.stored w ++ seeds ∧ m.Seeds w seeds := by
  have same := browse_stored m w
  unfold current IdentityStore.ensureSeeded
  rw [Prog.bind_apply]
  rcases read : m.store.current w with ⟨e | doc, v⟩
  · rw [read] at same
    exact ⟨[], by rw [List.append_nil]; exact same, .inl rfl⟩
  rw [read] at same
  cases doc with
  | some doc => exact ⟨[], by rw [List.append_nil]; exact same, .inl rfl⟩
  | none =>
      obtain ⟨t, answered, -⟩ := Sessions.scope_ok read
      have unfound : IdentityStore.latest (m.stored w) = none :=
        Option.map_eq_none_iff.mp (Except.ok.inj (Prod.mk.inj answered).1)
      have empty : m.stored w = [] := eq_nil_of_firstMax unfound
      dsimp only at same ⊢
      rcases (append_spec m m.seed v).1 with still | ⟨id, more⟩
      · exact ⟨[], by rw [List.append_nil]; exact still.trans same, .inl rfl⟩
      · rw [same, empty] at more
        exact ⟨_, by rw [empty]; exact more, .inr ⟨empty, _, _, rfl⟩⟩

theorem append_newest {w w' : ω} {told : Identity K}
    (ran : m.store.append doc w = (.ok told, w')) : Newest told (m.stored w') := by
  obtain ⟨id, same, more⟩ := (append_spec m doc w).2 told (congrArg Prod.fst ran)
  rw [ran] at more
  exact ⟨_, by rw [more, List.getLast?_concat], same⟩

/-- On a line, the row of the highest version is the last. -/
theorem current_newest {w w' : ω} {told : Identity K} (line : m.Lineage (m.stored w))
    (ran : m.current w = (.ok told, w')) : Newest told (m.stored w') := by
  unfold current IdentityStore.ensureSeeded at ran
  obtain ⟨found, v, read, rest⟩ := Prog.ok_of_bind ran
  cases found with
  | none => exact append_newest rest
  | some doc =>
      cases rest
      obtain ⟨t, answered, after⟩ := Sessions.scope_ok read
      obtain ⟨latest, same⟩ := Prod.mk.inj answered
      have stored : m.stored w' = m.stored w := by
        rw [SelfModel.stored, after, ← same]
        rfl
      obtain ⟨row, best, told⟩ := Option.map_eq_some_iff.mp (Except.ok.inj latest)
      exact ⟨row, by rw [stored, ← line.latest]; exact best, told.symm⟩

section agent
variable [Field K]

/-- To reflect is to leave the table alone. -/
theorem reflect_db (alone : m.Alone) (current : Identity K) (inputs : ReflectionInputs) (w : ω) :
    m.store.db.get (m.reflect current inputs w).2 = m.store.db.get w := by
  have within : Prog.Within (Frame.eqOn m.store.db.get).rel (m.reflect current inputs) := by
    unfold reflect
    cases routed : m.router with
    | none => exact .pure none
    | some complete =>
        apply Prog.Within.ite (.pure none)
        apply consult_within
        intro role messages temperature maxTokens v
        exact .single (alone.router complete routed _ _ _ _ v)
  exact within.keeps (fun _ _ moved => moved) w

/-- The delta is what the reader took from the completion that the model returned to a refresh. -/
def Replied (m : SelfModel K ω) (inputs : ReflectionInputs) (w : ω) (delta : IdentityDelta) :
    Prop :=
  ∃ complete self v completion v', m.router = some complete ∧ m.current w = (.ok self, v) ∧
    complete "self_model" [⟨"system", m.prompt⟩, ⟨"user", m.render self inputs⟩] (frac 6 10)
      m.maxTokens v = (.ok completion, v') ∧
    m.parseIdentityDelta completion.content = .ok delta

/-- What a refresh adds after the seed: the row of a reply at most, under the anchor's name. -/
def Replies (m : SelfModel K ω) (inputs : ReflectionInputs) (w : ω)
    (rows added : List (IdentityRow K)) : Prop :=
  added = [] ∨ ∃ delta now id, m.Replied inputs w delta ∧
    added = [IdentityStore.rowOf (m.reflected delta) now rows id]

theorem reflect_delta {current : Identity K} {inputs : ReflectionInputs} {w w' : ω}
    {delta : IdentityDelta} (ran : m.reflect current inputs w = (.ok (some delta), w')) :
    ∃ complete completion, m.router = some complete ∧
      complete "self_model" [⟨"system", m.prompt⟩, ⟨"user", m.render current inputs⟩] (frac 6 10)
        m.maxTokens w = (.ok completion, w') ∧
      m.parseIdentityDelta completion.content = .ok delta := by
  unfold reflect at ran
  cases routed : m.router with
  | none =>
      rw [routed] at ran
      cases ran
  | some complete =>
      rw [routed] at ran
      dsimp only at ran
      split at ran
      · cases ran
      · obtain ⟨completion, asked, read⟩ := consult_reply ran
        exact ⟨complete, completion, rfl, asked, read⟩

theorem refresh_adds (alone : m.Alone) (inputs : ReflectionInputs) (w : ω) :
    ∃ seeds replies, m.stored (m.refresh inputs w).2 = m.stored w ++ seeds ++ replies ∧
      m.Seeds w seeds ∧ m.Replies inputs w (m.stored w ++ seeds) replies := by
  obtain ⟨seeds, stored, seeded⟩ := current_seeds m w
  refine ⟨seeds, ?_⟩
  unfold refresh
  rw [Prog.bind_apply]
  change m.stored (m.store.ensureSeeded w).2 = _ at stored
  rcases first : m.store.ensureSeeded w with ⟨e | self, v⟩
  · rw [first] at stored
    exact ⟨[], by rw [List.append_nil]; exact stored, seeded, .inl rfl⟩
  rw [first] at stored
  have still := congrArg Database.tables (reflect_db alone self inputs v)
  dsimp only at stored ⊢
  rw [Prog.bind_apply]
  rcases ran : m.reflect self inputs v with ⟨e | delta, v'⟩
  · rw [ran] at still
    exact ⟨[], by rw [List.append_nil]; exact still.trans stored, seeded, .inl rfl⟩
  rw [ran] at still
  have before : m.stored v' = m.stored w ++ seeds := still.trans stored
  cases delta with
  | none => exact ⟨[], by rw [List.append_nil]; exact before, seeded, .inl rfl⟩
  | some delta =>
      dsimp only
      rcases (append_spec m (m.reflected delta) v').1 with same | ⟨id, more⟩
      · exact ⟨[], by rw [List.append_nil]; exact same.trans before, seeded, .inl rfl⟩
      · obtain ⟨complete, completion, routed, asked, read⟩ := reflect_delta ran
        rw [before] at more
        exact ⟨_, more, seeded, .inr ⟨delta, _, id,
          ⟨complete, self, v, completion, v', routed, first, asked, read⟩, rfl⟩⟩

theorem refresh_newest (alone : m.Alone) {inputs : ReflectionInputs} {w w' : ω}
    {told : Identity K} (line : m.Lineage (m.stored w))
    (ran : m.refresh inputs w = (.ok told, w')) : Newest told (m.stored w') := by
  unfold refresh at ran
  obtain ⟨self, v, seeded, rest⟩ := Prog.ok_of_bind ran
  obtain ⟨delta, v', reflected, rest⟩ := Prog.ok_of_bind rest
  cases delta with
  | some delta => exact append_newest rest
  | none =>
      cases rest
      have same := reflect_db alone told inputs v
      rw [reflected] at same
      have newest := current_newest line seeded
      rwa [SelfModel.stored, ← same] at newest

/-! ### Runs -/

/-- What happens to the self-model, one after the other. -/
inductive Turn (m : SelfModel K ω) where
  | bootstrap
  | browse
  | refresh (inputs : ReflectionInputs)
  /-- Anything else, which leaves its table alone. -/
  | elsewhere (happens : ω → ω) (apart : ∀ w, m.store.db.get (happens w) = m.store.db.get w)

def turn (m : SelfModel K ω) : m.Turn → ω → ω
  | .bootstrap, w => (m.current w).2
  | .browse, w => (m.store.current w).2
  | .refresh inputs, w => (m.refresh inputs w).2
  | .elsewhere happens _, w => happens w

/-- What a turn adds to the table. -/
def Adds (m : SelfModel K ω) : m.Turn → ω → List (IdentityRow K) → Prop
  | .bootstrap, w, added => m.Seeds w added
  | .refresh inputs, w, added => ∃ seeds replies, added = seeds ++ replies ∧
      m.Seeds w seeds ∧ m.Replies inputs w (m.stored w ++ seeds) replies
  | .browse, _, added => added = []
  | .elsewhere _ _, _, added => added = []

theorem turn_adds (alone : m.Alone) (t : m.Turn) (w : ω) :
    ∃ added, m.stored (m.turn t w) = m.stored w ++ added ∧ m.Adds t w added := by
  cases t with
  | bootstrap => exact current_seeds m w
  | browse => exact ⟨[], by rw [List.append_nil]; exact browse_stored m w, rfl⟩
  | refresh inputs =>
      obtain ⟨seeds, replies, stored, seeded, replied⟩ := refresh_adds alone inputs w
      exact ⟨seeds ++ replies, by rw [← List.append_assoc]; exact stored,
        seeds, replies, rfl, seeded, replied⟩
  | elsewhere happens apart =>
      have same : m.stored (happens w) = m.stored w := congrArg Database.tables (apart w)
      exact ⟨[], by rw [List.append_nil]; exact same, rfl⟩

/-- The turn wrote the row. -/
def Wrote (m : SelfModel K ω) (t : m.Turn) (w : ω) (row : IdentityRow K) : Prop :=
  ∃ added, m.stored (m.turn t w) = m.stored w ++ added ∧ m.Adds t w added ∧ row ∈ added

omit [Field K] in
theorem Lineage.seeds {w : ω} {seeds : List (IdentityRow K)} (line : m.Lineage (m.stored w))
    (seeded : m.Seeds w seeds) : m.Lineage (m.stored w ++ seeds) := by
  rcases seeded with rfl | ⟨empty, now, id, rfl⟩
  · rwa [List.append_nil]
  · rw [empty] at line ⊢
    exact line.append (.inl rfl) now id

theorem Lineage.replies {inputs : ReflectionInputs} {w : ω} {replies : List (IdentityRow K)}
    (line : m.Lineage rows) (replied : m.Replies inputs w rows replies) :
    m.Lineage (rows ++ replies) := by
  rcases replied with rfl | ⟨delta, now, id, -, rfl⟩
  · rwa [List.append_nil]
  · exact line.append (.inr rfl) now id

theorem turn_lineage (alone : m.Alone) (t : m.Turn) {w : ω} (line : m.Lineage (m.stored w)) :
    m.Lineage (m.stored (m.turn t w)) := by
  obtain ⟨added, stored, adds⟩ := turn_adds alone t w
  rw [stored]
  cases t with
  | bootstrap => exact line.seeds adds
  | refresh inputs =>
      obtain ⟨seeds, replies, rfl, seeded, replied⟩ := adds
      rw [← List.append_assoc]
      exact (line.seeds seeded).replies replied
  | browse =>
      obtain rfl : added = [] := adds
      rwa [List.append_nil]
  | elsewhere happens apart =>
      obtain rfl : added = [] := adds
      rwa [List.append_nil]

theorem run_line (alone : m.Alone) (turns : List m.Turn) {w : ω}
    (start : m.Lineage (m.stored w)) : m.Lineage (m.stored (runSteps m.turn turns w)) :=
  runSteps_invariant (I := fun v => m.Lineage (m.stored v)) (fun t _ => turn_lineage alone t) turns
    start

theorem run_prefix (alone : m.Alone) (turns : List m.Turn) (w : ω) :
    m.stored w <+: m.stored (runSteps m.turn turns w) := by
  refine runSteps_invariant (I := fun v => m.stored w <+: m.stored v) (fun t v reached => ?_) turns
    List.prefix_rfl
  obtain ⟨added, stored, -⟩ := turn_adds alone t v
  rw [stored]
  exact reached.trans (List.prefix_append _ _)

/-- A row that was not there at the start is one that a turn wrote. -/
theorem run_wrote (alone : m.Alone) (turns : List m.Turn) {w : ω} {row : IdentityRow K}
    (inside : row ∈ m.stored (runSteps m.turn turns w)) :
    row ∈ m.stored w ∨ ∃ before t after, turns = before ++ t :: after ∧
      m.Wrote t (runSteps m.turn before w) row := by
  refine runSteps_traced (W := m.Wrote) (fun t v row inside => ?_) turns inside
  obtain ⟨added, stored, adds⟩ := turn_adds alone t v
  rw [stored] at inside
  rcases List.mem_append.mp inside with old | new
  · exact .inl old
  · exact .inr ⟨added, stored, adds, new⟩

/-- A row that a turn wrote is the seed, or holds what the model replied to a refresh. -/
theorem Wrote.source {t : m.Turn} {w : ω} {row : IdentityRow K} (wrote : m.Wrote t w row) :
    (∃ now id, row = IdentityStore.rowOf m.seed now [] id) ∨ ∃ inputs delta now rows id,
      t = .refresh inputs ∧ m.Replied inputs w delta ∧
        row = IdentityStore.rowOf (m.reflected delta) now rows id := by
  obtain ⟨added, -, adds, inside⟩ := wrote
  have seeded {seeds : List (IdentityRow K)} (seeds_of : m.Seeds w seeds) (here : row ∈ seeds) :
      ∃ now id, row = IdentityStore.rowOf m.seed now [] id := by
    rcases seeds_of with rfl | ⟨-, now, id, rfl⟩
    · cases here
    · exact ⟨now, id, List.mem_singleton.mp here⟩
  cases t with
  | bootstrap => exact .inl (seeded adds inside)
  | refresh inputs =>
      obtain ⟨seeds, replies, rfl, seeds_of, replied⟩ := adds
      rcases List.mem_append.mp inside with first | later
      · exact .inl (seeded seeds_of first)
      · rcases replied with rfl | ⟨delta, now, id, told, rfl⟩
        · cases later
        · exact .inr ⟨inputs, delta, now, _, id, rfl, told, List.mem_singleton.mp later⟩
  | browse =>
      obtain rfl : added = [] := adds
      cases inside
  | elsewhere happens apart =>
      obtain rfl : added = [] := adds
      cases inside

/-- In every run, whatever fails, the table stays one line that only grows, each of its rows was
there or was written by a turn as the seed or as what the model replied to that turn, and what the
agent tells as the current self is its last row. -/
theorem run_lineage (alone : m.Alone) (turns : List m.Turn) {w : ω}
    (start : m.Lineage (m.stored w)) :
    let v := runSteps m.turn turns w
    m.Lineage (m.stored v) ∧ m.stored w <+: m.stored v ∧
      (∀ row ∈ m.stored v, row ∈ m.stored w ∨ ∃ before t after, turns = before ++ t :: after ∧
        m.Wrote t (runSteps m.turn before w) row) ∧
      (∀ told v', m.current v = (.ok told, v') → Newest told (m.stored v')) ∧
      ∀ inputs told v', m.refresh inputs v = (.ok told, v') → Newest told (m.stored v') := by
  intro v
  have kept := run_line alone turns start
  exact ⟨kept, run_prefix alone turns w, fun _ inside => run_wrote alone turns inside,
    fun _ _ ran => current_newest kept ran, fun _ _ _ ran => refresh_newest alone kept ran⟩

end agent

/-! ### A first night -/

namespace FirstNight

def selfModel : SelfModel ℚ (Database Failure (List (IdentityRow ℚ)) ℕ) where
  router := some fun _ _ _ _ => pure ⟨"I have slept once."⟩
  parseIdentityDelta content := .ok { selfModelDoc := content }
  store := {
    db := .whole
    meanwhile := id
    apart := fun _ => rfl
    nowFn := fun _ => 0
    memorySnapshotDir := "snapshots" }
  anchor := loadIdentityAnchor "snapshots"
  prompt := "Reflect on who you are becoming."
  maxTokens := 1024

/-- The first self-model is written, but the answer to its commit is lost. -/
def unborn : Database Failure (List (IdentityRow ℚ)) ℕ :=
  ⟨[], 1, [.committed, .unacknowledged (.exception (.other "OperationalError") "lost")], []⟩

end FirstNight

open FirstNight in
theorem first_night_lineage :
    (selfModel.stored (runSteps selfModel.turn [.bootstrap, .refresh {}] unborn)).map
        IdentityRow.version = [1, 2] ∧
      selfModel.Lineage (selfModel.stored
        (runSteps selfModel.turn [.bootstrap, .refresh {}] unborn)) := by
  have alone : selfModel.Alone := by
    constructor
    rintro _ ⟨⟩ _ _ _ _ _
    rfl
  have start : selfModel.Lineage (selfModel.stored unborn) := Lineage.nil selfModel
  exact ⟨rfl, (run_lineage alone [.bootstrap, .refresh {}] start).1⟩

end SelfModel
end Johnny
