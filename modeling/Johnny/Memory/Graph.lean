import Johnny.Lib.Collapse
import Johnny.Lib.Transaction
import Johnny.Memory.Recall
import Johnny.Memory.Repointing

/-!
# The knowledge graph

Facts are asserted and linked while sleeps merge the near-duplicates among them, each in a
transaction of its own. Whatever is committed and in whatever order, the graph is the image of
all that was ever linked, under the merges.
-/
namespace Johnny

/-- `SemanticFact` as the graph tells it. -/
structure KnownFact (K : Type) extends SemanticFact where
  id : ℕ
  confidence : K
  sourceEpisodeIds : List ℕ

/-- `_row_to_fact`. -/
def SemanticFactRow.toKnown {K : Type} (row : SemanticFactRow K) : KnownFact K where
  id := row.id
  subject := row.subject
  predicate := row.predicate
  object := row.object
  confidence := row.confidence
  sourceEpisodeIds := row.sourceEpisodeIds

structure SemanticEdge where
  id : ℕ
  fromFact : ℕ
  toFact : ℕ
  relation : String

/-- `_row_to_edge`. -/
def SemanticEdgeRow.toEdge (row : SemanticEdgeRow) : SemanticEdge where
  id := row.id
  fromFact := row.fromFact
  toFact := row.toFact
  relation := row.relation

/-- The ids the next fact and the next edge get. -/
structure GraphIds where
  fact : ℕ
  edge : ℕ

/-- Semantic memory over its tables, with the decay that merges them in a sleep. -/
structure SemanticGraph (K ω : Type) [Field K] [LinearOrder K]
    extends Sessions Failure (MemoryStore K) GraphIds ω where
  embedOne : String → Prog Failure ω (List K)
  decay : MemoryDecay K

abbrev GraphSession (K α : Type) := Prog Failure (MemoryStore K × GraphIds) α

namespace SemanticGraph
variable {K ω : Type}

/-! ### The operations -/

section sessions

/-- The insert, or the update of the fact of this key. The id is drawn in either case. -/
def assert (row : SemanticFactRow K) : GraphSession K (KnownFact K) := fun t =>
  let told := match t.1.facts.find? fun f => f.key == row.key with
    | some known => { row with id := known.id }
    | none => { row with id := t.2.fact }
  (.ok told.toKnown, { t.1 with nextFact := t.2.fact }.upsert row,
    { t.2 with fact := t.2.fact + 1 })

def foreignKeyError : Failure :=
  .exception (.other "IntegrityError") "insert on table semantic_edge violates foreign key constraint"

/-- The insert, which does nothing on a conflict, and the edge that is then there. -/
def connect (fromFact toFact : ℕ) (relation : String) : GraphSession K SemanticEdge := fun t =>
  let drawn := { t.2 with edge := t.2.edge + 1 }
  match t.1.edges.find? fun e => MemoryDecay.edgeKey e == (fromFact, toFact, relation) with
  | some row => (.ok row.toEdge, t.1, drawn)
  | none =>
    let ids := t.1.facts.map SemanticFactRow.id
    if fromFact ∈ ids ∧ toFact ∈ ids then
      let row : SemanticEdgeRow := ⟨t.2.edge, fromFact, toFact, relation⟩
      (.ok row.toEdge, { t.1 with edges := t.1.edges ++ [row] }, drawn)
    else (.error foreignKeyError, t.1, drawn)

/-- The facts at the far end of the edges from here, edge by edge. -/
def outgoing (s : MemoryStore K) (factId : ℕ) (relation : Option String) :
    List (SemanticFactRow K) :=
  (s.edges.filter fun e => e.fromFact == factId && relation.all (e.relation == ·)).filterMap fun e =>
    s.facts.find? fun f => f.id == e.toFact

end sessions

section operations
variable [Field K] [LinearOrder K]

def upsertFact (g : SemanticGraph K ω) (subject predicate obj : String) (confidence : K)
    (sourceEpisodeIds : List ℕ) : Prog Failure ω (KnownFact K) := do
  let embedding ← g.embedOne (factText subject predicate obj)
  g.scope (assert {
    id := 0, subject := subject, predicate := predicate, object := obj
    confidence := clamp01 confidence
    sourceEpisodeIds := sourceEpisodeIds, embedding := embedding })

def link (g : SemanticGraph K ω) (fromFact toFact : ℕ) (relation : String) :
    Prog Failure ω SemanticEdge := g.scope (connect fromFact toFact relation)

def neighbours (g : SemanticGraph K ω) (factId : ℕ) (relation : Option String) :
    Prog Failure ω (List (KnownFact K)) :=
  g.scope <| Prog.reads fun t => (outgoing t.1 factId relation).map SemanticFactRow.toKnown

/-- `MemoryDecay.run`: both passes in one transaction. -/
def fade (g : SemanticGraph K ω) (now : K) : Prog Failure ω DecayReport :=
  g.scope fun t => (.ok (g.decay.run now t.1).2, (g.decay.run now t.1).1, t.2)

end operations

/-! ### What one merge pass does -/

/-- The graph of the tables. A fact's id is gone once it was drawn and is no longer in use. -/
def stage (s : MemoryStore K) (ids : GraphIds) : Collapse.Stage ℕ String where
  alive id := id ∈ s.facts.map SemanticFactRow.id
  usable id := id ∈ s.facts.map SemanticFactRow.id ∨ ids.fact ≤ id
  links a b r := (a, b, r) ∈ s.edges.map MemoryDecay.edgeKey

/-- Where the facts of a store go, and that those which are left stay. -/
structure Lands (send : ℕ → ℕ) (s t : MemoryStore K) : Prop where
  lands : ∀ id ∈ s.facts.map SemanticFactRow.id, send id ∈ t.facts.map SemanticFactRow.id
  rests : ∀ id ∈ t.facts.map SemanticFactRow.id,
    id ∈ s.facts.map SemanticFactRow.id ∧ send id = id

section pass
variable [LinearOrder K] {s t : MemoryStore K}

open MemoryDecay in
/-- One more group, whose survivor is still there. -/
theorem Lands.snoc {send : ℕ → ℕ} {survivor : SemanticFactRow K} {dups : List (SemanticFactRow K)}
    (lands : Lands send s t) (present : survivor.id ∈ t.facts.map SemanticFactRow.id)
    (fresh : survivor.id ∉ dups.map SemanticFactRow.id) :
    Lands (fun id => aimOf (survivor :: dups) (send id)) s (mergeGroup t (survivor :: dups)) where
  lands id inside := by
    refine mem_mergeGroup_ids ?_ (aim_not_mem fresh _)
    change aim _ _ _ ∈ _
    unfold aim
    split
    · exact present
    · exact lands.lands id inside
  rests id left := by
    rw [mergeGroup_facts] at left
    obtain ⟨kept, member, rfl⟩ := List.mem_map.mp left
    obtain ⟨fact, inside, settled⟩ := List.mem_filterMap.mp member
    have same := settle_id settled
    have here : kept.id ∈ t.facts.map SemanticFactRow.id :=
      List.mem_map.mpr ⟨fact, inside, same.symm⟩
    obtain ⟨before, still⟩ := lands.rests _ here
    refine ⟨before, ?_⟩
    rw [still]
    refine if_neg fun dup => ?_
    cases dups with
    | nil => cases dup
    | cons dup' dups =>
        rw [same] at dup
        simp only [settle, if_pos dup] at settled
        cases settled

open MemoryDecay in
theorem Lands.groups {groups : List (List (SemanticFactRow K))} (h : Groups s groups) :
    Lands (aimAll groups) s (groups.foldl mergeGroup s) := by
  induction groups using List.reverseRecOn with
  | nil => exact ⟨fun _ inside => inside, fun _ inside => ⟨inside, rfl⟩⟩
  | append_singleton before group ih =>
      have earlier := ih h.initial
      cases group with
      | nil => exact absurd rfl (h.filled [] (List.mem_append_right _ List.mem_cons_self))
      | cons survivor dups =>
          obtain ⟨present, -, own⟩ := h.next
          have more := earlier.snoc present (List.nodup_cons.mp own).1
          have sends : (fun id => aimOf (survivor :: dups) (aimAll before id)) =
              aimAll (before ++ [survivor :: dups]) := by
            funext id
            unfold aimAll
            rw [List.foldl_append]
            rfl
          rwa [List.foldl_append, ← sends]

open MemoryDecay in
theorem foldl_mergeGroup_edge_ids (schema : Schema s) {groups : List (List (SemanticFactRow K))}
    (h : Groups s groups) : ∀ e ∈ (groups.foldl mergeGroup s).edges, ∃ old ∈ s.edges, old.id = e.id := by
  induction groups using List.reverseRecOn with
  | nil => exact fun e inside => ⟨e, inside, rfl⟩
  | append_singleton before group ih =>
      have kept := (foldl_mergeGroup_kept schema h.initial).1
      intro e inside
      rw [List.foldl_append] at inside
      cases group with
      | nil => exact absurd rfl (h.filled [] (List.mem_append_right _ List.mem_cons_self))
      | cons survivor dups =>
          rw [List.foldl_cons, List.foldl_nil, mergeGroup_edges] at inside
          obtain ⟨origin, member, rfl⟩ := repointEdges_origin kept.once inside
          exact ih h.initial origin member

end pass

/-- The tables as the schema and the writers leave them. -/
structure Sound [Zero K] [One K] [LE K] (s : MemoryStore K) (ids : GraphIds) : Prop where
  schema : MemoryDecay.Schema s
  keys : (s.facts.map SemanticFactRow.key).Nodup
  facts : ∀ f ∈ s.facts, f.id < ids.fact
  edges : ∀ e ∈ s.edges, e.id < ids.edge
  confident : ∀ f ∈ s.facts, 0 ≤ f.confidence ∧ f.confidence ≤ 1

section merge
variable [Field K] [LinearOrder K] {s : MemoryStore K} {ids : GraphIds}

/-- The groups of a pass, over the facts in the order of their ids. -/
def passGroups (d : MemoryDecay K) (s : MemoryStore K) : List (List (SemanticFactRow K)) :=
  d.duplicateFactGroups (s.facts.insertionSort fun a b => a.id ≤ b.id)

open MemoryDecay in
theorem passGroups_groups (d : MemoryDecay K) (schema : Schema s) :
    Groups s (passGroups d s) := by
  have perm := List.perm_insertionSort (fun a b : SemanticFactRow K => a.id ≤ b.id) s.facts
  have partition := (duplicateFactGroups_grouped d
    (s.facts.insertionSort fun a b => a.id ≤ b.id)).partition
  have whole := partition.whole.trans perm
  exact ⟨(whole.map SemanticFactRow.id).nodup_iff.mpr schema.facts, partition.filled,
    fun fact inside => List.mem_map_of_mem (whole.mem_iff.mp inside)⟩

open MemoryDecay in
/-- The facts a pass leaves, up to their order: the survivor of each group. -/
theorem mergeFacts_survivors (d : MemoryDecay K) (schema : Schema s) :
    (d.mergeFacts s).1.facts.Perm ((passGroups d s).filterMap survivorOf) ∧
      List.Forall₂ Survives (passGroups d s) ((passGroups d s).filterMap survivorOf) := by
  have perm := List.perm_insertionSort (fun a b : SemanticFactRow K => a.id ≤ b.id) s.facts
  have partition := (duplicateFactGroups_grouped d
    (s.facts.insertionSort fun a b => a.id ≤ b.id)).partition
  have distinct := (perm.map SemanticFactRow.id).nodup_iff.mpr schema.facts
  refine ⟨?_, forall₂_survives partition.filled⟩
  have left : (d.mergeFacts s).1.facts = s.facts.filterMap (settleAll (passGroups d s)) :=
    foldl_mergeGroup_facts _ s
  have ordered : (s.facts.insertionSort fun a b => a.id ≤ b.id).filterMap
      (settleAll (passGroups d s)) = (passGroups d s).filterMap survivorOf :=
    filterMap_settleAll partition distinct
  rw [left, ← ordered]
  exact (perm.filterMap _).symm

open MemoryDecay in
theorem Sound.mergeFacts (sound : Sound s ids) (d : MemoryDecay K) :
    Sound (d.mergeFacts s).1 ids := by
  have perm := List.perm_insertionSort (fun a b : SemanticFactRow K => a.id ≤ b.id) s.facts
  have partition := (duplicateFactGroups_grouped d
    (s.facts.insertionSort fun a b => a.id ≤ b.id)).partition
  have groups := passGroups_groups d sound.schema
  obtain ⟨facts, survive⟩ := mergeFacts_survivors d sound.schema
  have lands : Lands (aimAll (passGroups d s)) s (d.mergeFacts s).1 := .groups groups
  refine ⟨(foldl_mergeGroup_kept sound.schema groups).1, ?_, ?_, ?_, ?_⟩
  · rw [(facts.map SemanticFactRow.key).nodup_iff,
      survivors_eq_heads survive SemanticFactRow.key fun _ _ _ => rfl]
    have all := (perm.map SemanticFactRow.key).nodup_iff.mpr sound.keys
    exact (partition.byFirst.map SemanticFactRow.key).nodup all
  · intro f inside
    obtain ⟨old, there, same⟩ := List.mem_map.mp (lands.rests f.id (List.mem_map_of_mem inside)).1
    exact same ▸ sound.facts old there
  · intro e inside
    obtain ⟨old, there, same⟩ := foldl_mergeGroup_edge_ids sound.schema groups e inside
    exact same ▸ sound.edges old there
  · intro f inside
    obtain ⟨group, member, left⟩ := List.mem_filterMap.mp (facts.mem_iff.mp inside)
    obtain ⟨g, within, same⟩ := (survivorOf_survives left).confident
    have stored : g ∈ s.facts := by
      refine perm.mem_iff.mp (partition.whole.mem_iff.mp ?_)
      exact List.mem_flatten_of_mem member within
    exact same ▸ sound.confident g stored

open MemoryDecay in
/-- A pass sends every fact to the survivor of its group. -/
theorem mergeFacts_follows (sound : Sound s ids) (d : MemoryDecay K) :
    Collapse.Follows (survivorId (passGroups d s)) (fun _ _ _ => False) (stage s ids)
      (stage (d.mergeFacts s).1 ids) := by
  have groups := passGroups_groups d sound.schema
  have sends : survivorId (passGroups d s) = aimAll (passGroups d s) :=
    (funext (aimAll_eq_survivorId groups.distinct)).symm
  have lands : Lands (aimAll (passGroups d s)) s (d.mergeFacts s).1 := .groups groups
  have image := (foldl_mergeGroup_kept sound.schema groups).2
  rw [sends]
  refine ⟨lands.lands _, ?_, ?_, False.elim, ?_, ?_⟩
  · rintro id (here | ahead)
    · exact (lands.rests id here).2
    · refine aimAll_of_other fun again => ?_
      obtain ⟨fact, inside, same⟩ := List.mem_map.mp again
      obtain ⟨row, stored, same'⟩ := List.mem_map.mp (groups.present fact inside)
      have below := sound.facts row stored
      omega
  · rintro id (here | ahead)
    · exact .inl (lands.rests id here).1
    · exact .inr ahead
  · intro a b r here
    obtain ⟨e, inside, rfl, rfl, rfl, -⟩ := (image a b r).mp here
    exact ⟨e.fromFact, e.toFact, .inl (List.mem_map_of_mem inside), rfl, rfl⟩
  · rintro x y r (here | ⟨⟨⟩⟩) apart
    obtain ⟨e, inside, same⟩ := List.mem_map.mp here
    cases same
    exact (image _ _ _).mpr ⟨e, inside, rfl, rfl, rfl, .inl apart⟩

end merge

/-! ### What the other transactions do -/

section writes
variable {s : MemoryStore K} {ids : GraphIds}

/-- Drawn numbers alone break nothing. -/
theorem stage_drawn {more : GraphIds} (drawn : ids.fact ≤ more.fact) :
    Collapse.Follows id (fun _ _ _ => False) (stage s ids) (stage s more) := by
  apply Collapse.Follows.grow
  · exact fun _ here => here
  · exact fun id here => here.imp_right drawn.trans
  · exact fun _ _ _ => (or_iff_left id).symm
  · exact fun _ _ _ => False.elim

theorem Sound.drawn [Zero K] [One K] [LE K] (sound : Sound s ids) {more : GraphIds}
    (fact : ids.fact ≤ more.fact) (edge : ids.edge ≤ more.edge) : Sound s more where
  schema := sound.schema
  keys := sound.keys
  facts f inside := (sound.facts f inside).trans_le fact
  edges e inside := (sound.edges e inside).trans_le edge
  confident := sound.confident

/-- The facts after an upsert: the one of this key rewritten in place, or one more. -/
theorem upsert_cases (s : MemoryStore K) (row : SemanticFactRow K) :
    (row.key ∈ s.facts.map SemanticFactRow.key ∧
      (s.upsert row).facts = s.facts.map fun f => if f.key = row.key then { row with id := f.id }
        else f) ∨
    (row.key ∉ s.facts.map SemanticFactRow.key ∧
      (s.upsert row).facts = s.facts ++ [{ row with id := s.nextFact }]) := by
  unfold MemoryStore.upsert
  split
  next known =>
    obtain ⟨f, inside, same⟩ := List.any_eq_true.mp known
    exact .inl ⟨List.mem_map.mpr ⟨f, inside, beq_iff_eq.mp same⟩, rfl⟩
  next unknown =>
    refine .inr ⟨fun known => ?_, rfl⟩
    obtain ⟨f, inside, same⟩ := List.mem_map.mp known
    exact unknown (List.any_eq_true.mpr ⟨f, inside, beq_iff_eq.mpr same⟩)

theorem upsert_edges (s : MemoryStore K) (row : SemanticFactRow K) :
    (s.upsert row).edges = s.edges := by
  unfold MemoryStore.upsert
  split <;> rfl

theorem upsert_ids (s : MemoryStore K) (row : SemanticFactRow K) :
    (s.upsert row).facts.map SemanticFactRow.id = s.facts.map SemanticFactRow.id ∨
      (s.upsert row).facts.map SemanticFactRow.id =
        s.facts.map SemanticFactRow.id ++ [s.nextFact] := by
  rcases upsert_cases s row with ⟨-, facts⟩ | ⟨-, facts⟩
  · left
    rw [facts, List.map_map]
    refine List.map_congr_left fun f _ => ?_
    rw [Function.comp_apply]
    split <;> rfl
  · right
    rw [facts, List.map_append]
    rfl

theorem mem_upsert_ids {id : ℕ} {row : SemanticFactRow K}
    (here : id ∈ s.facts.map SemanticFactRow.id) :
    id ∈ (s.upsert row).facts.map SemanticFactRow.id := by
  rcases upsert_ids s row with same | more
  · rwa [same]
  · rw [more]
    exact List.mem_append_left _ here

theorem Sound.upsert [Zero K] [One K] [LE K] (sound : Sound s ids) {row : SemanticFactRow K}
    (next : s.nextFact = ids.fact) (confident : 0 ≤ row.confidence ∧ row.confidence ≤ 1) :
    Sound (s.upsert row) { ids with fact := ids.fact + 1 } := by
  have bounds : ∀ id ∈ (s.upsert row).facts.map SemanticFactRow.id, id < ids.fact + 1 := by
    intro id inside
    have old : id ∈ s.facts.map SemanticFactRow.id → id < ids.fact + 1 := by
      intro here
      obtain ⟨f, stored, rfl⟩ := List.mem_map.mp here
      exact (sound.facts f stored).trans (Nat.lt_succ_self _)
    rcases upsert_ids s row with same | more
    · exact old (same ▸ inside)
    · rw [more, List.mem_append, List.mem_singleton, next] at inside
      rcases inside with here | rfl
      · exact old here
      · exact Nat.lt_succ_self _
  refine ⟨⟨?_, ?_, ?_, ?_⟩, ?_, fun f inside => bounds f.id (List.mem_map_of_mem inside), ?_, ?_⟩
  · rcases upsert_ids s row with same | more
    · rw [same]
      exact sound.schema.facts
    · rw [more, next]
      refine List.nodup_append.mpr ⟨sound.schema.facts, List.nodup_singleton _, ?_⟩
      intro id inside id' new
      obtain ⟨f, stored, rfl⟩ := List.mem_map.mp inside
      rw [List.mem_singleton.mp new]
      exact (sound.facts f stored).ne
  · rw [upsert_edges]
    exact sound.schema.edges
  · rw [upsert_edges]
    exact sound.schema.once
  · rw [upsert_edges]
    exact fun e inside => (sound.schema.attached e inside).imp mem_upsert_ids mem_upsert_ids
  · rcases upsert_cases s row with ⟨-, facts⟩ | ⟨fresh, facts⟩
    · have same : (s.upsert row).facts.map SemanticFactRow.key =
          s.facts.map SemanticFactRow.key := by
        rw [facts, List.map_map]
        refine List.map_congr_left fun f _ => ?_
        rw [Function.comp_apply]
        split
        · exact Eq.symm ‹_›
        · rfl
      rw [same]
      exact sound.keys
    · rw [facts, List.map_append]
      refine List.nodup_append.mpr ⟨sound.keys, List.nodup_singleton _, ?_⟩
      intro key old key' new same
      rw [same, List.mem_singleton.mp new] at old
      exact fresh old
  · rw [upsert_edges]
    exact sound.edges
  · intro f inside
    rcases upsert_cases s row with ⟨-, facts⟩ | ⟨-, facts⟩
    · rw [facts] at inside
      obtain ⟨old, stored, rfl⟩ := List.mem_map.mp inside
      split
      · exact confident
      · exact sound.confident old stored
    · rw [facts] at inside
      rcases List.mem_append.mp inside with old | new
      · exact sound.confident f old
      · rw [List.mem_singleton.mp new]
        exact confident

theorem upsert_follows {row : SemanticFactRow K} (next : s.nextFact = ids.fact) :
    Collapse.Follows id (fun _ _ _ => False) (stage s ids)
      (stage (s.upsert row) { ids with fact := ids.fact + 1 }) := by
  apply Collapse.Follows.grow
  · exact fun _ => mem_upsert_ids
  · rintro id (here | ahead)
    · rcases upsert_ids s row with same | more
      · exact .inl (same ▸ here)
      · rw [more, List.mem_append, List.mem_singleton, next] at here
        exact here.imp_right fun same => same.ge
    · exact .inr (Nat.le_of_succ_le ahead)
  · intro a b r
    change _ ∈ (s.upsert row).edges.map _ ↔ _
    rw [upsert_edges]
    exact (or_iff_left id).symm
  · exact fun _ _ _ => False.elim

theorem assert_leads [Zero K] [One K] [LE K] (sound : Sound s ids) (row : SemanticFactRow K)
    (confident : 0 ≤ row.confidence ∧ row.confidence ≤ 1) :
    Sound (assert row (s, ids)).2.1 (assert row (s, ids)).2.2 ∧
      Collapse.Follows id (fun _ _ _ => False) (stage s ids)
        (stage (assert row (s, ids)).2.1 (assert row (s, ids)).2.2) := by
  have base : Sound { s with nextFact := ids.fact } ids :=
    ⟨⟨sound.schema.facts, sound.schema.edges, sound.schema.once, sound.schema.attached⟩,
      sound.keys, sound.facts, sound.edges, sound.confident⟩
  exact ⟨base.upsert rfl confident, upsert_follows (s := { s with nextFact := ids.fact }) rfl⟩

/-- The ways a link can turn out in a session. -/
inductive Connected (a b : ℕ) (r : String) (t : MemoryStore K × GraphIds) :
    Except Failure SemanticEdge × MemoryStore K × GraphIds → Prop
  | known {row} (inside : row ∈ t.1.edges) (same : MemoryDecay.edgeKey row = (a, b, r)) :
      Connected a b r t (.ok row.toEdge, t.1, { t.2 with edge := t.2.edge + 1 })
  | fresh (unknown : (a, b, r) ∉ t.1.edges.map MemoryDecay.edgeKey)
      (source : a ∈ t.1.facts.map SemanticFactRow.id)
      (target : b ∈ t.1.facts.map SemanticFactRow.id) :
      Connected a b r t (.ok (SemanticEdgeRow.toEdge ⟨t.2.edge, a, b, r⟩),
        { t.1 with edges := t.1.edges ++ [⟨t.2.edge, a, b, r⟩] },
        { t.2 with edge := t.2.edge + 1 })
  | dangling (unknown : (a, b, r) ∉ t.1.edges.map MemoryDecay.edgeKey)
      (gone : ¬ (a ∈ t.1.facts.map SemanticFactRow.id ∧ b ∈ t.1.facts.map SemanticFactRow.id)) :
      Connected a b r t (.error foreignKeyError, t.1, { t.2 with edge := t.2.edge + 1 })

theorem connect_spec (a b : ℕ) (r : String) (t : MemoryStore K × GraphIds) :
    Connected a b r t (connect a b r t) := by
  unfold connect
  dsimp only
  cases found : t.1.edges.find? fun e => MemoryDecay.edgeKey e == (a, b, r) with
  | some row =>
      have same := List.find?_some found
      exact .known (List.mem_of_find?_eq_some found) (beq_iff_eq.mp same)
  | none =>
      have unknown : (a, b, r) ∉ t.1.edges.map MemoryDecay.edgeKey := by
        intro here
        obtain ⟨e, inside, same⟩ := List.mem_map.mp here
        exact List.find?_eq_none.mp found e inside (beq_iff_eq.mpr same)
      dsimp only
      split
      next ends => exact .fresh unknown ends.1 ends.2
      next gone => exact .dangling unknown gone

theorem Sound.connect [Zero K] [One K] [LE K] (sound : Sound s ids) {a b : ℕ} {r : String}
    (unknown : (a, b, r) ∉ s.edges.map MemoryDecay.edgeKey)
    (source : a ∈ s.facts.map SemanticFactRow.id) (target : b ∈ s.facts.map SemanticFactRow.id) :
    Sound { s with edges := s.edges ++ [⟨ids.edge, a, b, r⟩] }
      { ids with edge := ids.edge + 1 } where
  schema := by
    refine ⟨sound.schema.facts, ?_, ?_, ?_⟩
    · rw [List.map_append]
      refine List.nodup_append.mpr ⟨sound.schema.edges, List.nodup_singleton _, ?_⟩
      intro id old id' new
      obtain ⟨e, inside, rfl⟩ := List.mem_map.mp old
      rw [List.mem_singleton.mp new]
      exact (sound.edges e inside).ne
    · rw [List.map_append]
      refine List.nodup_append.mpr ⟨sound.schema.once, List.nodup_singleton _, ?_⟩
      intro key old key' new same
      rw [same, List.mem_singleton.mp new] at old
      exact unknown old
    · intro e inside
      rcases List.mem_append.mp inside with old | new
      · exact sound.schema.attached e old
      · rw [List.mem_singleton.mp new]
        exact ⟨source, target⟩
  keys := sound.keys
  facts := sound.facts
  edges := by
    intro e inside
    rcases List.mem_append.mp inside with old | new
    · exact (sound.edges e old).trans (Nat.lt_succ_self _)
    · rw [List.mem_singleton.mp new]
      exact Nat.lt_succ_self _
  confident := sound.confident

end writes

/-! ### Turns -/

section turns
variable [Field K] [LinearOrder K]

/-- What happens to the graph, one transaction after the other. -/
inductive Turn (g : SemanticGraph K ω) where
  | upsertFact (subject predicate obj : String) (confidence : K) (sourceEpisodeIds : List ℕ)
  | link (fromFact toFact : ℕ) (relation : String)
  | neighbours (factId : ℕ) (relation : Option String)
  | fade (now : K)
  /-- Anything else, which leaves its tables alone. -/
  | elsewhere (happens : ω → ω) (apart : ∀ w, g.db.get (happens w) = g.db.get w)

def turn (g : SemanticGraph K ω) : g.Turn → ω → ω
  | .upsertFact subject predicate obj confidence sourceEpisodeIds, w =>
    (g.upsertFact subject predicate obj confidence sourceEpisodeIds w).2
  | .link fromFact toFact relation, w => (g.link fromFact toFact relation w).2
  | .neighbours factId relation, w => (g.neighbours factId relation w).2
  | .fade now, w => (g.fade now w).2
  | .elsewhere happens _, w => happens w

def factIds (g : SemanticGraph K ω) (w : ω) : List ℕ :=
  (g.db.get w).tables.facts.map SemanticFactRow.id

/-- The link a turn commits: one between facts that are there. -/
def linked (g : SemanticGraph K ω) : g.Turn → ω → List (ℕ × ℕ × String)
  | .link fromFact toFact relation, w =>
    if (g.db.get w).ending.takesEffect ∧ fromFact ∈ g.factIds w ∧ toFact ∈ g.factIds w then
      [(fromFact, toFact, relation)]
    else []
  | _, _ => []

/-- Where a turn sends a fact: a merge that is committed, to the survivor of its group. -/
def sends (g : SemanticGraph K ω) : g.Turn → ω → ℕ → ℕ
  | .fade _, w =>
    if (g.db.get w).ending.takesEffect then
      MemoryDecay.survivorId (passGroups g.decay (g.db.get w).tables)
    else id
  | _, _ => id

/-- The links committed in a run. -/
def linkedIn (g : SemanticGraph K ω) : List g.Turn → ω → List (ℕ × ℕ × String)
  | [], _ => []
  | t :: ts, w => g.linked t w ++ g.linkedIn ts (g.turn t w)

/-- Where a run sends a fact, merge after merge. -/
def sendsIn (g : SemanticGraph K ω) : List g.Turn → ω → ℕ → ℕ
  | [], _ => id
  | t :: ts, w => g.sendsIn ts (g.turn t w) ∘ g.sends t w

/-- Nobody else writes the tables while a text is embedded. -/
structure Alone (g : SemanticGraph K ω) : Prop where
  embedder : ∀ text w, g.db.get (g.embedOne text w).2 = g.db.get w

def SoundAt (g : SemanticGraph K ω) (w : ω) : Prop :=
  Sound (g.db.get w).tables (g.db.get w).sequences

def stageAt (g : SemanticGraph K ω) (w : ω) : Collapse.Stage ℕ String :=
  stage (g.db.get w).tables (g.db.get w).sequences

/-- What leads from a sound state to the next. -/
structure Leads (g : SemanticGraph K ω) (send : ℕ → ℕ) (new : List (ℕ × ℕ × String)) (w v : ω) :
    Prop where
  sound : g.SoundAt v
  follows : Collapse.Follows send (fun a b r => (a, b, r) ∈ new) (g.stageAt w) (g.stageAt v)

variable {g : SemanticGraph K ω} {w v : ω}

theorem noLink_eq : (fun a b r => (a, b, r) ∈ ([] : List (ℕ × ℕ × String))) =
    fun _ _ _ => False := by
  funext a b r
  exact eq_false List.not_mem_nil

theorem Leads.of_same (sound : g.SoundAt w) (same : g.db.get v = g.db.get w) :
    g.Leads id [] w v where
  sound := by
    unfold SoundAt
    rwa [same]
  follows := by
    unfold stageAt
    rw [same, noLink_eq]
    exact .refl _

theorem Leads.after {send : ℕ → ℕ} {new : List (ℕ × ℕ × String)} {u : ω}
    (leads : g.Leads send new v u) (same : g.db.get v = g.db.get w) : g.Leads send new w u where
  sound := leads.sound
  follows := by
    have here : g.stageAt w = g.stageAt v := by rw [stageAt, stageAt, same]
    rw [here]
    exact leads.follows

/-- A transaction leads on as its body does where that stands, and nowhere else. -/
theorem leads_scope {α : Type} {body : GraphSession K α} {send : ℕ → ℕ}
    {new : List (ℕ × ℕ × String)} (sound : g.SoundAt w)
    (drawn : (g.db.get w).sequences.fact ≤
        (body ((g.db.get w).tables, (g.db.get w).sequences)).2.2.fact ∧
      (g.db.get w).sequences.edge ≤
        (body ((g.db.get w).tables, (g.db.get w).sequences)).2.2.edge)
    (idle : (∃ e, (body ((g.db.get w).tables, (g.db.get w).sequences)).1 = .error e) ∨
      (g.db.get w).ending.takesEffect = false → send = id ∧ new = [])
    (done : (g.db.get w).ending.takesEffect = true → ∀ a t,
      body ((g.db.get w).tables, (g.db.get w).sequences) = (.ok a, t) → Sound t.1 t.2 ∧
        Collapse.Follows send (fun a b r => (a, b, r) ∈ new) (g.stageAt w) (stage t.1 t.2)) :
    g.Leads send new w (g.scope body w).2 := by
  have left := Database.transact_left body (g.db.get w)
  have db : g.db.get (g.scope body w).2 = (Database.transact body (g.db.get w)).2 :=
    Sessions.scope_db g.toSessions body w
  rcases left with ⟨a, returned, effect, tables, sequences⟩ | ⟨failed, tables, sequences⟩
  · obtain ⟨kept, follows⟩ := done effect a _ (Prod.ext returned rfl)
    constructor
    · rw [SoundAt, db, tables, sequences]
      exact kept
    · rw [stageAt.eq_1 g (g.scope body w).2, db, tables, sequences]
      exact follows
  · obtain ⟨rfl, rfl⟩ := idle failed
    have grown : (g.db.get w).sequences.fact ≤
          (Database.transact body (g.db.get w)).2.sequences.fact ∧
        (g.db.get w).sequences.edge ≤
          (Database.transact body (g.db.get w)).2.sequences.edge := by
      rcases sequences with same | same
      · rw [same]
        exact ⟨le_rfl, le_rfl⟩
      · rw [same]
        exact drawn
    constructor
    · rw [SoundAt, db, tables]
      exact sound.drawn grown.1 grown.2
    · rw [stageAt.eq_1 g (g.scope body w).2, db, tables, noLink_eq]
      exact stage_drawn grown.1

theorem upsertFact_leads [IsStrictOrderedRing K] (alone : g.Alone)
    (subject predicate obj : String) (confidence : K) (sources : List ℕ) (sound : g.SoundAt w) :
    g.Leads id [] w (g.upsertFact subject predicate obj confidence sources w).2 := by
  have still := alone.embedder (factText subject predicate obj) w
  unfold upsertFact
  rw [Prog.bind_apply]
  rcases embedded : g.embedOne (factText subject predicate obj) w with ⟨e | embedding, v⟩
  · rw [embedded] at still
    exact .of_same sound still
  rw [embedded] at still
  have here : g.SoundAt v := by
    unfold SoundAt
    rwa [still]
  refine Leads.after (leads_scope here ?_ (fun _ => ⟨rfl, rfl⟩) ?_) still
  · exact ⟨Nat.le_succ _, le_rfl⟩
  · rintro - _ _ ⟨⟩
    rw [noLink_eq]
    exact assert_leads here _ ⟨clamp01_nonneg _, clamp01_le_one _⟩

theorem link_leads (a b : ℕ) (r : String) (sound : g.SoundAt w) :
    g.Leads id (g.linked (.link a b r) w) w (g.link a b r w).2 := by
  have ended := connect_spec a b r ((g.db.get w).tables, (g.db.get w).sequences)
  refine leads_scope sound ?_ ?_ ?_
  · generalize connect a b r _ = result at ended ⊢
    cases ended <;> exact ⟨le_rfl, Nat.le_succ _⟩
  · intro idle
    refine ⟨rfl, if_neg ?_⟩
    rintro ⟨effect, source, target⟩
    rcases idle with ⟨e, raised⟩ | none
    · generalize connect a b r _ = result at ended raised
      cases ended with
      | known inside same => cases raised
      | fresh unknown source target => cases raised
      | dangling unknown gone => exact gone ⟨source, target⟩
    · exact Bool.false_ne_true (none.symm.trans effect)
  · intro effect edge t ran
    rw [ran] at ended
    -- the ends are there, so this is what the turn links
    have committed (source : a ∈ g.factIds w) (target : b ∈ g.factIds w) (x y : ℕ) (t : String) :
        (x, y, t) ∈ g.linked (.link a b r) w ↔ (x, y, t) = (a, b, r) := by
      rw [linked, if_pos ⟨effect, source, target⟩, List.mem_singleton]
    cases ended with
    | known inside same =>
        obtain ⟨source, target⟩ := sound.schema.attached _ inside
        cases same
        refine ⟨sound.drawn le_rfl (Nat.le_succ _), ?_⟩
        apply Collapse.Follows.grow
        · exact fun _ here => here
        · exact fun _ here => here
        · intro x y t
          refine (or_iff_left_of_imp fun new => ?_).symm
          cases (committed source target x y t).mp new
          exact List.mem_map_of_mem inside
        · intro x y t new
          cases (committed source target x y t).mp new
          exact ⟨.inl source, .inl target⟩
    | fresh unknown source target =>
        refine ⟨Sound.connect sound unknown source target, ?_⟩
        apply Collapse.Follows.grow
        · exact fun _ here => here
        · exact fun _ here => here
        · intro x y t
          change _ ∈ ((g.db.get w).tables.edges ++ [_]).map _ ↔ _
          rw [List.map_append, List.mem_append, List.map_singleton, List.mem_singleton,
            committed source target]
          rfl
        · intro x y t new
          cases (committed source target x y t).mp new
          exact ⟨.inl source, .inl target⟩

theorem fade_leads (now : K) (sound : g.SoundAt w) :
    g.Leads (g.sends (.fade now) w) [] w (g.fade now w).2 := by
  refine leads_scope sound ⟨le_rfl, le_rfl⟩ ?_ ?_
  · rintro (⟨e, raised⟩ | none)
    · cases raised
    · exact ⟨if_neg (by rw [none]; exact Bool.false_ne_true), rfl⟩
  · rintro effect _ _ ⟨⟩
    have faded : Sound (g.decay.decayEpisodes (g.db.get w).tables now).1
        (g.db.get w).sequences :=
      ⟨⟨sound.schema.facts, sound.schema.edges, sound.schema.once, sound.schema.attached⟩,
        sound.keys, sound.facts, sound.edges, sound.confident⟩
    rw [sends, if_pos effect, noLink_eq]
    exact ⟨faded.mergeFacts g.decay, mergeFacts_follows faded g.decay⟩

theorem neighbours_leads (factId : ℕ) (relation : Option String) (sound : g.SoundAt w) :
    g.Leads id [] w (g.neighbours factId relation w).2 := by
  refine leads_scope sound ⟨le_rfl, le_rfl⟩ (fun _ => ⟨rfl, rfl⟩) ?_
  rintro - _ _ ⟨⟩
  rw [noLink_eq]
  exact ⟨sound, .refl _⟩

theorem turn_leads [IsStrictOrderedRing K] (alone : g.Alone) (t : g.Turn) (sound : g.SoundAt w) :
    g.Leads (g.sends t w) (g.linked t w) w (g.turn t w) := by
  cases t with
  | upsertFact subject predicate obj confidence sources =>
      exact upsertFact_leads alone subject predicate obj confidence sources sound
  | link a b r => exact link_leads a b r sound
  | neighbours factId relation => exact neighbours_leads factId relation sound
  | fade now => exact fade_leads now sound
  | elsewhere happens apart => exact .of_same sound (apart w)

theorem run_leads [IsStrictOrderedRing K] (alone : g.Alone) (turns : List g.Turn)
    (sound : g.SoundAt w) :
    g.Leads (g.sendsIn turns w) (g.linkedIn turns w) w (runSteps g.turn turns w) := by
  induction turns generalizing w with
  | nil => exact .of_same sound rfl
  | cons t turns ih =>
      have first := turn_leads alone t sound
      have rest := ih first.sound
      refine ⟨rest.sound, ?_⟩
      have both : (fun a b r => (a, b, r) ∈ g.linkedIn (t :: turns) w) = fun a b r =>
          (a, b, r) ∈ g.linked t w ∨ (a, b, r) ∈ g.linkedIn turns (g.turn t w) := by
        funext a b r
        exact propext List.mem_append
      rw [both]
      exact first.follows.trans rest.follows

def edgeKeys (g : SemanticGraph K ω) (w : ω) : List (ℕ × ℕ × String) :=
  (g.db.get w).tables.edges.map MemoryDecay.edgeKey

/-- The neighbours told are complete: no edge of a sound graph leads nowhere. -/
theorem neighbours_found (sound : g.SoundAt w) {a b : ℕ} {r : String}
    (edge : (a, b, r) ∈ g.edgeKeys w) {told : List (KnownFact K)}
    (ran : g.neighbours a (some r) w = (.ok told, v)) : ∃ fact ∈ told, fact.id = b := by
  obtain ⟨t, answered, -⟩ := Sessions.scope_ok ran
  obtain ⟨same, -⟩ := Prod.mk.inj answered
  obtain rfl := Except.ok.inj same
  obtain ⟨e, inside, key⟩ := List.mem_map.mp edge
  cases key
  obtain ⟨row, stored, here⟩ := List.mem_map.mp (sound.schema.attached e inside).2
  have some_row : ((g.db.get w).tables.facts.find? fun f => f.id == e.toFact).isSome := by
    rw [List.find?_isSome]
    exact ⟨row, stored, beq_iff_eq.mpr here⟩
  obtain ⟨found, first⟩ := Option.isSome_iff_exists.mp some_row
  refine ⟨found.toKnown, List.mem_map_of_mem (List.mem_filterMap.mpr ⟨e, ?_, first⟩), ?_⟩
  · refine List.mem_filter.mpr ⟨inside, ?_⟩
    simp
  · have hit := List.find?_some first
    exact beq_iff_eq.mp hit

/-- In every run the tables stay sound, no fact is lost but to the survivor it is sent to, the
edges are the images of all that was ever linked, loops apart, and what was linked is found from
the survivor. -/
theorem run_graph [IsStrictOrderedRing K] (alone : g.Alone) (turns : List g.Turn) {w : ω}
    (start : g.SoundAt w) :
    let v := runSteps g.turn turns w
    let send := g.sendsIn turns w
    let ever := g.edgeKeys w ++ g.linkedIn turns w
    g.SoundAt v ∧
      (∀ id ∈ g.factIds w, send id ∈ g.factIds v) ∧
      (∀ a b r, (a, b, r) ∈ g.edgeKeys v → ∃ x y, (x, y, r) ∈ ever ∧ send x = a ∧ send y = b) ∧
      ∀ x y r, (x, y, r) ∈ ever → send x ≠ send y →
        (send x, send y, r) ∈ g.edgeKeys v ∧
          ∀ told v', g.neighbours (send x) (some r) v = (.ok told, v') →
            ∃ fact ∈ told, fact.id = send y := by
  intro v send ever
  obtain ⟨sound, follows⟩ := run_leads alone turns start
  refine ⟨sound, fun _ => follows.lands, ?_, ?_⟩
  · intro a b r here
    obtain ⟨x, y, linked, sent⟩ := follows.origin here
    exact ⟨x, y, List.mem_append.mpr linked, sent⟩
  · intro x y r linked apart
    have edge := follows.kept (List.mem_append.mp linked) apart
    exact ⟨edge, fun told v' ran => neighbours_found sound edge ran⟩

end turns

/-! ### Two restatements that are linked, and a night -/

namespace KettleGraph

noncomputable def graph : SemanticGraph ℝ (Database Failure (MemoryStore ℝ) GraphIds) where
  db := .whole
  meanwhile := id
  apart _ := rfl
  embedOne _ := pure [1, 0]
  decay := OneMemory.decay

def facts : List (SemanticFactRow ℝ) :=
  [KettleFacts.boils, { KettleFacts.boils with id := 2, predicate := "heats" }]

def start : Database Failure (MemoryStore ℝ) GraphIds := ⟨{ facts := facts }, ⟨3, 1⟩, [], []⟩

theorem start_sound : graph.SoundAt start where
  schema := ⟨by decide, by decide, by decide, by decide⟩
  keys := by decide
  facts := by decide
  edges := by decide
  confident := by
    intro f inside
    have sure : f.confidence = 1 := by
      rcases List.mem_cons.mp inside with rfl | rest
      · rfl
      · rw [List.mem_singleton.mp rest]
        rfl
    rw [sure]
    exact ⟨zero_le_one, le_rfl⟩

end KettleGraph

open KettleGraph in
/-- A third fact, a link to it and a night. -/
theorem kettle_graph_run :
    let turns : List graph.Turn :=
      [.upsertFact "kettle" "is" "blue" 1 [], .link 1 3 "colours", .fade 0]
    graph.linkedIn turns start = [(1, 3, "colours")] ∧
      graph.SoundAt (runSteps graph.turn turns start) :=
  ⟨rfl, (run_graph ⟨fun _ _ => rfl⟩ _ start_sound).1⟩

end SemanticGraph
end Johnny
