import Johnny.Memory.Merging

/-!
# The knowledge graph after a merge

Each group re-aims the edges of its duplicates at its survivor. Group after group this gives
the image of the graph under the map that sends every fact to the survivor of its group.
-/
namespace Johnny
namespace MemoryDecay

/-! ### One group -/

/-- What the unique constraint is about. -/
def edgeKey (e : SemanticEdgeRow) : ℕ × ℕ × String := (e.fromFact, e.toFact, e.relation)

section repoint
variable {dupIds : List ℕ} {survivor : ℕ} {edges : List SemanticEdgeRow}

def aim (dupIds : List ℕ) (survivor id : ℕ) : ℕ := if id ∈ dupIds then survivor else id

def aimed (dupIds : List ℕ) (survivor : ℕ) (e : SemanticEdgeRow) : SemanticEdgeRow :=
  { e with fromFact := aim dupIds survivor e.fromFact, toFact := aim dupIds survivor e.toFact }

def Affected (dupIds : List ℕ) (e : SemanticEdgeRow) : Prop :=
  e.fromFact ∈ dupIds ∨ e.toFact ∈ dupIds

instance (dupIds : List ℕ) (e : SemanticEdgeRow) : Decidable (Affected dupIds e) :=
  inferInstanceAs (Decidable (_ ∨ _))

theorem aim_not_mem (fresh : survivor ∉ dupIds) (id : ℕ) : aim dupIds survivor id ∉ dupIds := by
  unfold aim
  split
  · exact fresh
  · assumption

theorem aim_of_not_mem {id : ℕ} (other : id ∉ dupIds) : aim dupIds survivor id = id :=
  if_neg other

theorem aimed_of_unaffected {e : SemanticEdgeRow} (unaffected : ¬ Affected dupIds e) :
    aimed dupIds survivor e = e := by
  obtain ⟨source, target⟩ := not_or.mp unaffected
  unfold aimed
  rw [aim_of_not_mem source, aim_of_not_mem target]

/-- One affected edge: dropped, or re-aimed. -/
def repointEdge (dupIds : List ℕ) (survivor : ℕ) (kept : List SemanticEdgeRow)
    (e : SemanticEdgeRow) : List SemanticEdgeRow :=
  let moved := aimed dupIds survivor e
  if moved.fromFact = moved.toFact ∨ edgeKey moved ∈ kept.map edgeKey then kept
  else kept ++ [moved]

theorem repointEdges_eq (edges : List SemanticEdgeRow) (dupIds : List ℕ) (survivor : ℕ) :
    repointEdges edges dupIds survivor =
      (edges.filter fun e => decide (Affected dupIds e)).foldl (repointEdge dupIds survivor)
        (edges.filter fun e => !decide (Affected dupIds e)) := by
  have step (kept : List SemanticEdgeRow) (e : SemanticEdgeRow) :
      repointEdge dupIds survivor kept e =
        if (aimed dupIds survivor e).fromFact = (aimed dupIds survivor e).toFact ∨
            kept.any (fun k => decide (k.fromFact = (aimed dupIds survivor e).fromFact ∧
              k.toFact = (aimed dupIds survivor e).toFact ∧
              k.relation = (aimed dupIds survivor e).relation)) then kept
        else kept ++ [aimed dupIds survivor e] := by
    refine if_congr (or_congr_right ?_) rfl rfl
    rw [List.any_eq_true, List.mem_map]
    refine exists_congr fun k => and_congr_right fun _ => ?_
    rw [decide_eq_true_eq, edgeKey, edgeKey, Prod.mk.injEq, Prod.mk.injEq]
  have same := funext fun kept => funext fun e => step kept e
  rw [same]
  rfl

/-- The edges after some of the affected ones are done. -/
structure Repointed (dupIds : List ℕ) (survivor : ℕ) (others done : List SemanticEdgeRow)
    (kept : List SemanticEdgeRow) : Prop where
  keys : ∀ key, key ∈ kept.map edgeKey ↔ key ∈ others.map edgeKey ∨
    ∃ e ∈ done, edgeKey (aimed dupIds survivor e) = key ∧
      (aimed dupIds survivor e).fromFact ≠ (aimed dupIds survivor e).toFact
  once : (kept.map edgeKey).Nodup
  rows : (kept.map SemanticEdgeRow.id).Sublist ((others ++ done).map SemanticEdgeRow.id)
  origin : ∀ k ∈ kept, k ∈ others ∨ ∃ e ∈ done, k = aimed dupIds survivor e
  untouched : ∀ e ∈ others, e ∈ kept

theorem Repointed.snoc {others done kept : List SemanticEdgeRow}
    (h : Repointed dupIds survivor others done kept) (e : SemanticEdgeRow) :
    Repointed dupIds survivor others (done ++ [e]) (repointEdge dupIds survivor kept e) := by
  have before {key : ℕ × ℕ × String} (member : key ∈ kept.map edgeKey) :
      key ∈ others.map edgeKey ∨ ∃ e' ∈ done ++ [e], edgeKey (aimed dupIds survivor e') = key ∧
        (aimed dupIds survivor e').fromFact ≠ (aimed dupIds survivor e').toFact :=
    ((h.keys key).mp member).imp_right fun ⟨e', inside, rest⟩ =>
      ⟨e', List.mem_append_left _ inside, rest⟩
  have origin {k : SemanticEdgeRow} (member : k ∈ kept) :
      k ∈ others ∨ ∃ e' ∈ done ++ [e], k = aimed dupIds survivor e' :=
    (h.origin k member).imp_right fun ⟨e', inside, same⟩ =>
      ⟨e', List.mem_append_left _ inside, same⟩
  have longer := h.rows.trans ((List.sublist_append_left (others ++ done) [e]).map _)
  rw [List.append_assoc] at longer
  unfold repointEdge
  dsimp only
  split
  next drop =>
    refine ⟨fun key => ⟨before, ?_⟩, h.once, longer, fun k => origin, h.untouched⟩
    rintro (other | ⟨e', inside, rfl, apart⟩)
    · exact (h.keys key).mpr (.inl other)
    · rcases List.mem_append.mp inside with inside | new
      · exact (h.keys _).mpr (.inr ⟨e', inside, rfl, apart⟩)
      · rw [List.mem_singleton.mp new] at apart ⊢
        exact drop.resolve_left apart
  next keep =>
    obtain ⟨apart, fresh⟩ := not_or.mp keep
    refine ⟨fun key => ?_, ?_, ?_, ?_, fun k member => List.mem_append_left _ (h.untouched k member)⟩
    · rw [List.map_append, List.mem_append]
      constructor
      · rintro (old | new)
        · exact before old
        · exact .inr ⟨e, List.mem_append_right _ List.mem_cons_self,
            (List.mem_singleton.mp new).symm, apart⟩
      · rintro (other | ⟨e', inside, rfl, apart⟩)
        · exact .inl ((h.keys key).mpr (.inl other))
        · rcases List.mem_append.mp inside with inside | new
          · exact .inl ((h.keys _).mpr (.inr ⟨e', inside, rfl, apart⟩))
          · rw [List.mem_singleton.mp new]
            exact .inr (List.mem_singleton.mpr rfl)
    · rw [List.map_append]
      refine List.nodup_append.mpr ⟨h.once, List.nodup_singleton _, fun key old other new same => ?_⟩
      rw [List.mem_singleton.mp new] at same
      exact fresh (same ▸ old)
    · rw [List.map_append, ← List.append_assoc, List.map_append]
      exact h.rows.append (List.Sublist.refl _)
    · intro k member
      rcases List.mem_append.mp member with old | new
      · exact origin old
      · exact .inr ⟨e, List.mem_append_right _ List.mem_cons_self, List.mem_singleton.mp new⟩

theorem repointEdges_repointed (once : (edges.map edgeKey).Nodup) (survivor : ℕ) :
    Repointed dupIds survivor (edges.filter fun e => !decide (Affected dupIds e))
      (edges.filter fun e => decide (Affected dupIds e)) (repointEdges edges dupIds survivor) := by
  rw [repointEdges_eq]
  generalize edges.filter (fun e => decide (Affected dupIds e)) = affected
  induction affected using List.reverseRecOn with
  | nil =>
      refine ⟨fun key => by simp, ?_, by simp, fun k member => .inl member, fun e member => member⟩
      exact (List.filter_sublist.map edgeKey).nodup once
  | append_singleton affected e ih =>
      rw [List.foldl_append]
      exact ih.snoc e

theorem mem_repointEdges_keys (once : (edges.map edgeKey).Nodup) (key : ℕ × ℕ × String) :
    key ∈ (repointEdges edges dupIds survivor).map edgeKey ↔
      ∃ e ∈ edges, edgeKey (aimed dupIds survivor e) = key ∧
        (¬ Affected dupIds e ∨
          (aimed dupIds survivor e).fromFact ≠ (aimed dupIds survivor e).toFact) := by
  rw [(repointEdges_repointed once survivor).keys]
  constructor
  · rintro (other | ⟨e, inside, same, apart⟩)
    · obtain ⟨e, inside, rfl⟩ := List.mem_map.mp other
      obtain ⟨member, unaffected⟩ := List.mem_filter.mp inside
      have clear : ¬ Affected dupIds e := by simpa using unaffected
      exact ⟨e, member, by rw [aimed_of_unaffected clear], .inl clear⟩
    · exact ⟨e, (List.mem_filter.mp inside).1, same, .inr apart⟩
  · rintro ⟨e, member, rfl, kept⟩
    by_cases hit : Affected dupIds e
    · exact .inr ⟨e, List.mem_filter.mpr ⟨member, decide_eq_true hit⟩, rfl,
        kept.resolve_left (not_not.mpr hit)⟩
    · rw [aimed_of_unaffected hit]
      exact .inl (List.mem_map_of_mem (List.mem_filter.mpr ⟨member, by simpa using hit⟩))

theorem repointEdges_origin (once : (edges.map edgeKey).Nodup) {k : SemanticEdgeRow}
    (member : k ∈ repointEdges edges dupIds survivor) :
    ∃ e ∈ edges, k = aimed dupIds survivor e := by
  rcases (repointEdges_repointed once survivor).origin k member with other | ⟨e, inside, same⟩
  · obtain ⟨inside, unaffected⟩ := List.mem_filter.mp other
    have clear : ¬ Affected dupIds k := by simpa using unaffected
    exact ⟨k, inside, (aimed_of_unaffected clear).symm⟩
  · exact ⟨e, (List.mem_filter.mp inside).1, same⟩

theorem repointEdges_ids (once : (edges.map edgeKey).Nodup)
    (ids : (edges.map SemanticEdgeRow.id).Nodup) (survivor : ℕ) :
    ((repointEdges edges dupIds survivor).map SemanticEdgeRow.id).Nodup := by
  refine (repointEdges_repointed once survivor).rows.nodup ?_
  have whole := List.filter_append_perm (fun e => decide (Affected dupIds e)) edges
  exact ((List.perm_append_comm.trans whole).map _).nodup_iff.mpr ids

/-- A row while a flush has written some of the rows. -/
def rowDuring (after : List SemanticEdgeRow) (written : ℕ → Bool) (e : SemanticEdgeRow) :
    SemanticEdgeRow :=
  if written e.id then (after.find? fun k => k.id == e.id).getD e else e

/-- The table then; the rows to delete are deleted after that. -/
def partway (before after : List SemanticEdgeRow) (written : ℕ → Bool) : List SemanticEdgeRow :=
  before.map (rowDuring after written)

theorem rowDuring_cases (after : List SemanticEdgeRow) (written : ℕ → Bool)
    (e : SemanticEdgeRow) : rowDuring after written e = e ∨
      (rowDuring after written e ∈ after ∧ (rowDuring after written e).id = e.id) := by
  unfold rowDuring
  split
  · rcases (after.find? fun k => k.id == e.id).eq_none_or_eq_some with found | ⟨k, found⟩
    · rw [found]
      exact .inl rfl
    · have same := List.find?_some found
      rw [found]
      exact .inr ⟨List.mem_of_find?_eq_some found, beq_iff_eq.mp same⟩
  · exact .inl rfl

/-- In the middle of a flush too, no two edges are the same. -/
theorem partway_once (once : (edges.map edgeKey).Nodup)
    (ids : (edges.map SemanticEdgeRow.id).Nodup) (fresh : survivor ∉ dupIds)
    (written : ℕ → Bool) :
    ((partway edges (repointEdges edges dupIds survivor) written).map edgeKey).Nodup := by
  have after : Repointed dupIds survivor _ _ (repointEdges edges dupIds survivor) :=
    repointEdges_repointed once survivor
  have sameRow {e e' : SemanticEdgeRow} (h : e ∈ edges) (h' : e' ∈ edges) (same : e.id = e'.id) :
      e = e' := List.inj_on_of_nodup_map ids h h' same
  -- an old row and a new row of another edge
  have mixed {e e' k : SemanticEdgeRow} (h : e ∈ edges) (h' : e' ∈ edges)
      (new : k ∈ repointEdges edges dupIds survivor) (id : k.id = e'.id)
      (same : edgeKey e = edgeKey k) : e = e' := by
    obtain ⟨origin, -, aimedAt⟩ := repointEdges_origin once new
    have clear : ¬ Affected dupIds e := by
      have source : e.fromFact = k.fromFact := congrArg Prod.fst same
      have target : e.toFact = k.toFact := congrArg (fun key => key.2.1) same
      rintro (hit | hit)
      · rw [source, aimedAt] at hit
        exact aim_not_mem fresh _ hit
      · rw [target, aimedAt] at hit
        exact aim_not_mem fresh _ hit
    have still := after.untouched e (List.mem_filter.mpr ⟨h, by simpa using clear⟩)
    have row := List.inj_on_of_nodup_map after.once still new same
    exact sameRow h h' (row ▸ id)
  unfold partway
  rw [List.map_map]
  refine List.Nodup.map_on ?_ (List.Nodup.of_map _ ids)
  intro e h e' h' same
  rw [Function.comp_apply, Function.comp_apply] at same
  rcases rowDuring_cases (repointEdges edges dupIds survivor) written e with old | ⟨new, id⟩ <;>
    rcases rowDuring_cases (repointEdges edges dupIds survivor) written e' with old' | ⟨new', id'⟩
  · rw [old, old'] at same
    exact List.inj_on_of_nodup_map once h h' same
  · rw [old] at same
    exact mixed h h' new' id' same
  · rw [old'] at same
    exact (mixed h' h new id same.symm).symm
  · have row := List.inj_on_of_nodup_map after.once new new' same
    exact sameRow h h' (by rw [← id, row, id'])

end repoint

/-! ### The schema -/

variable {K : Type}

/-- Primary keys, the unique constraint and the foreign keys. -/
structure Schema (s : MemoryStore K) : Prop where
  facts : (s.facts.map SemanticFactRow.id).Nodup
  edges : (s.edges.map SemanticEdgeRow.id).Nodup
  once : (s.edges.map edgeKey).Nodup
  attached : ∀ e ∈ s.edges,
    e.fromFact ∈ s.facts.map SemanticFactRow.id ∧ e.toFact ∈ s.facts.map SemanticFactRow.id

section mergeGroup
variable [LinearOrder K] {s : MemoryStore K} {survivor : SemanticFactRow K}
  {dups : List (SemanticFactRow K)}

theorem mergeGroup_edges (s : MemoryStore K) (survivor : SemanticFactRow K)
    (dups : List (SemanticFactRow K)) : (mergeGroup s (survivor :: dups)).edges =
      repointEdges s.edges (dups.map SemanticFactRow.id) survivor.id := by
  cases dups with
  | nil =>
      rw [repointEdges_eq]
      simp [mergeGroup, Affected]
  | cons dup dups => simp only [mergeGroup, if_neg (List.cons_ne_nil dup dups)]

omit [LinearOrder K] in
theorem filterMap_ids {f : SemanticFactRow K → Option (SemanticFactRow K)}
    (same : ∀ fact kept, f fact = some kept → kept.id = fact.id) (facts : List (SemanticFactRow K)) :
    ((facts.filterMap f).map SemanticFactRow.id).Sublist (facts.map SemanticFactRow.id) := by
  induction facts with
  | nil => exact List.Sublist.refl _
  | cons fact facts ih =>
      rcases kept : f fact with _ | k
      · rw [List.filterMap_cons_none kept]
        exact ih.cons _
      · rw [List.filterMap_cons_some kept, List.map_cons, List.map_cons, same fact k kept]
        exact ih.cons_cons _

/-- A fact that is no duplicate stays, under its id. -/
theorem mem_mergeGroup_ids {id : ℕ} (present : id ∈ s.facts.map SemanticFactRow.id)
    (kept : id ∉ dups.map SemanticFactRow.id) :
    id ∈ (mergeGroup s (survivor :: dups)).facts.map SemanticFactRow.id := by
  obtain ⟨fact, inside, rfl⟩ := List.mem_map.mp present
  rw [mergeGroup_facts]
  obtain ⟨row, settled⟩ : ∃ row, settle (survivor :: dups) fact = some row := by
    cases dups with
    | nil => exact ⟨fact, rfl⟩
    | cons dup dups =>
        simp only [settle, if_neg kept]
        split
        · exact ⟨_, rfl⟩
        · exact ⟨_, rfl⟩
  exact List.mem_map.mpr ⟨row, List.mem_filterMap.mpr ⟨fact, inside, settled⟩, settle_id settled⟩

theorem mergeGroup_schema (schema : Schema s)
    (distinct : ((survivor :: dups).map SemanticFactRow.id).Nodup)
    (present : survivor.id ∈ s.facts.map SemanticFactRow.id) :
    Schema (mergeGroup s (survivor :: dups)) := by
  have fresh := (List.nodup_cons.mp distinct).1
  refine ⟨?_, ?_, ?_, fun e member => ?_⟩
  · rw [mergeGroup_facts]
    exact (filterMap_ids (fun _ _ => settle_id) s.facts).nodup schema.facts
  · rw [mergeGroup_edges]
    exact repointEdges_ids schema.once schema.edges survivor.id
  · rw [mergeGroup_edges]
    exact (repointEdges_repointed schema.once survivor.id).once
  · rw [mergeGroup_edges] at member
    obtain ⟨origin, inside, rfl⟩ := repointEdges_origin schema.once member
    have ends {id : ℕ} (old : id ∈ s.facts.map SemanticFactRow.id) :
        aim (dups.map SemanticFactRow.id) survivor.id id ∈
          (mergeGroup s (survivor :: dups)).facts.map SemanticFactRow.id := by
      refine mem_mergeGroup_ids ?_ (aim_not_mem fresh id)
      unfold aim
      split
      · exact present
      · exact old
    exact (schema.attached origin inside).imp ends ends

/-! ### All groups -/

/-- Where a group sends a fact. -/
def aimOf : List (SemanticFactRow K) → ℕ → ℕ
  | [], id => id
  | survivor :: dups, id => aim (dups.map SemanticFactRow.id) survivor.id id

/-- Where the groups send it, one after the other. -/
def aimAll (groups : List (List (SemanticFactRow K))) (id : ℕ) : ℕ :=
  groups.foldl (fun id group => aimOf group id) id

/-- The survivor of the group of a fact. -/
def survivorId (groups : List (List (SemanticFactRow K))) (id : ℕ) : ℕ :=
  match groups.find? fun group => decide (id ∈ group.map SemanticFactRow.id) with
  | some (survivor :: _) => survivor.id
  | _ => id

omit [LinearOrder K] in
theorem aimOf_of_other {group : List (SemanticFactRow K)} {id : ℕ}
    (other : id ∉ group.map SemanticFactRow.id) : aimOf group id = id := by
  cases group with
  | nil => rfl
  | cons survivor dups => exact if_neg (List.not_mem_of_not_mem_cons other)

omit [LinearOrder K] in
theorem aimAll_of_other {groups : List (List (SemanticFactRow K))} {id : ℕ}
    (other : id ∉ groups.flatten.map SemanticFactRow.id) : aimAll groups id = id := by
  induction groups with
  | nil => rfl
  | cons group groups ih =>
      rw [List.flatten_cons, List.map_append, List.mem_append, not_or] at other
      unfold aimAll
      rw [List.foldl_cons, aimOf_of_other other.1]
      exact ih other.2

omit [LinearOrder K] in
/-- One after the other is as good as all at once. -/
theorem aimAll_eq_survivorId {groups : List (List (SemanticFactRow K))}
    (distinct : (groups.flatten.map SemanticFactRow.id).Nodup) (id : ℕ) :
    aimAll groups id = survivorId groups id := by
  induction groups with
  | nil => rfl
  | cons group groups ih =>
      rw [List.flatten_cons, List.map_append] at distinct
      obtain ⟨-, rest, apart⟩ := List.nodup_append.mp distinct
      by_cases here : id ∈ group.map SemanticFactRow.id
      · cases group with
        | nil => cases here
        | cons survivor dups =>
            have sent : aimOf (survivor :: dups) id = survivor.id := by
              by_cases dup : id ∈ dups.map SemanticFactRow.id
              · exact if_pos dup
              · exact (if_neg dup).trans ((List.mem_cons.mp here).resolve_right dup)
            have stays : aimAll groups survivor.id = survivor.id :=
              aimAll_of_other fun again => apart _ List.mem_cons_self _ again rfl
            have first : survivorId ((survivor :: dups) :: groups) id = survivor.id := by
              rw [survivorId, List.find?_cons, decide_eq_true here]
            rw [first]
            change aimAll groups (aimOf (survivor :: dups) id) = _
            rw [sent, stays]
      · have later : survivorId (group :: groups) id = survivorId groups id := by
          rw [survivorId, List.find?_cons, decide_eq_false here, survivorId]
        rw [later, ← ih rest]
        change aimAll groups (aimOf group id) = _
        rw [aimOf_of_other here]

/-- The edges of `t` are the images of those of `s`, apart from new loops. -/
def ImageUnder (send : ℕ → ℕ) (s t : MemoryStore K) : Prop :=
  ∀ source target relation, (source, target, relation) ∈ t.edges.map edgeKey ↔
    ∃ e ∈ s.edges, send e.fromFact = source ∧ send e.toFact = target ∧ e.relation = relation ∧
      (source ≠ target ∨ (e.fromFact = source ∧ e.toFact = target))

/-- The image under one more group, whose survivor the earlier ones left alone. -/
theorem ImageUnder.snoc {send : ℕ → ℕ} {t : MemoryStore K} (image : ImageUnder send s t)
    (once : (t.edges.map edgeKey).Nodup) (alone : send survivor.id = survivor.id)
    (fresh : survivor.id ∉ dups.map SemanticFactRow.id) :
    ImageUnder (fun id => aimOf (survivor :: dups) (send id)) s
      (mergeGroup t (survivor :: dups)) := by
  intro source target relation
  rw [mergeGroup_edges, mem_repointEdges_keys once]
  constructor
  · rintro ⟨k, member, same, kept⟩
    obtain ⟨e, inside, from_eq, to_eq, rel, old⟩ :=
      (image k.fromFact k.toFact k.relation).mp (List.mem_map_of_mem member)
    obtain ⟨rfl, rest⟩ := Prod.mk.inj same
    obtain ⟨rfl, rfl⟩ := Prod.mk.inj rest
    refine ⟨e, inside, congrArg (aimOf (survivor :: dups)) from_eq,
      congrArg (aimOf (survivor :: dups)) to_eq, rel, ?_⟩
    rcases kept with unaffected | apart
    · rw [aimed_of_unaffected unaffected]
      exact old
    · exact .inl apart
  · rintro ⟨e, inside, rfl, rfl, rfl, kept⟩
    dsimp only at kept ⊢
    -- an end that the group leaves where it was before all groups was there before this one
    have settled {id : ℕ} (same : id = aimOf (survivor :: dups) (send id)) :
        send id ∉ dups.map SemanticFactRow.id ∧ id = send id := by
      by_cases dup : send id ∈ dups.map SemanticFactRow.id
      · have sent : aimOf (survivor :: dups) (send id) = survivor.id := if_pos dup
        rw [sent] at same
        rw [same, alone] at dup
        exact absurd dup fresh
      · exact ⟨dup, same.trans (if_neg dup)⟩
    have before : (send e.fromFact, send e.toFact, e.relation) ∈ t.edges.map edgeKey := by
      refine (image _ _ _).mpr ⟨e, inside, rfl, rfl, rfl, ?_⟩
      rcases kept with apart | ⟨source, target⟩
      · exact .inl fun same => apart (congrArg (aimOf (survivor :: dups)) same)
      · exact .inr ⟨(settled source).2, (settled target).2⟩
    obtain ⟨k, member, same⟩ := List.mem_map.mp before
    obtain ⟨source, target, relation⟩ : k.fromFact = send e.fromFact ∧ k.toFact = send e.toFact ∧
        k.relation = e.relation := by
      simpa only [edgeKey, Prod.mk.injEq] using same
    refine ⟨k, member, ?_, ?_⟩
    · rw [← relation, ← source, ← target]
      rfl
    · rcases kept with apart | ⟨still, still'⟩
      · refine .inr ?_
        rw [← source, ← target] at apart
        exact apart
      · refine .inl (not_or.mpr ⟨?_, ?_⟩)
        · rw [source]
          exact (settled still).1
        · rw [target]
          exact (settled still').1

/-- Groups of facts of the store, no fact in two of them. -/
structure Groups (s : MemoryStore K) (groups : List (List (SemanticFactRow K))) : Prop where
  distinct : (groups.flatten.map SemanticFactRow.id).Nodup
  filled : ∀ group ∈ groups, group ≠ []
  present : ∀ fact ∈ groups.flatten, fact.id ∈ s.facts.map SemanticFactRow.id

omit [LinearOrder K] in
theorem Groups.initial {before after : List (List (SemanticFactRow K))}
    (h : Groups s (before ++ after)) : Groups s before where
  distinct := by
    have all := h.distinct
    rw [List.flatten_append, List.map_append] at all
    exact (List.nodup_append.mp all).1
  filled group inside := h.filled group (List.mem_append_left _ inside)
  present fact inside := h.present fact (by
    rw [List.flatten_append]
    exact List.mem_append_left _ inside)

/-- The first fact of the next group is still there, and no earlier group has sent it away. -/
theorem Groups.next {before : List (List (SemanticFactRow K))}
    (h : Groups s (before ++ [survivor :: dups])) :
    survivor.id ∈ (before.foldl mergeGroup s).facts.map SemanticFactRow.id ∧
      aimAll before survivor.id = survivor.id ∧
      ((survivor :: dups).map SemanticFactRow.id).Nodup := by
  have all := h.distinct
  rw [List.flatten_append, List.flatten_singleton, List.map_append] at all
  obtain ⟨-, own, apart⟩ := List.nodup_append.mp all
  have other : survivor.id ∉ before.flatten.map SemanticFactRow.id := fun again =>
    apart _ again _ List.mem_cons_self rfl
  refine ⟨?_, aimAll_of_other other, own⟩
  have here : survivor ∈ (before ++ [survivor :: dups]).flatten := by simp
  obtain ⟨fact, inside, same⟩ := List.mem_map.mp (h.present survivor here)
  rw [foldl_mergeGroup_facts]
  refine List.mem_map.mpr ⟨fact, List.mem_filterMap.mpr ⟨fact, inside, ?_⟩, same⟩
  exact settleAll_of_other (same ▸ other)

/-- The schema and the image are kept, group after group. -/
theorem foldl_mergeGroup_kept (schema : Schema s) {groups : List (List (SemanticFactRow K))}
    (h : Groups s groups) :
    Schema (groups.foldl mergeGroup s) ∧
      ImageUnder (aimAll groups) s (groups.foldl mergeGroup s) := by
  induction groups using List.reverseRecOn with
  | nil =>
      refine ⟨schema, fun source target relation => ?_⟩
      constructor
      · intro member
        obtain ⟨e, inside, same⟩ := List.mem_map.mp member
        cases same
        exact ⟨e, inside, rfl, rfl, rfl, .inr ⟨rfl, rfl⟩⟩
      · rintro ⟨e, inside, rfl, rfl, rfl, -⟩
        exact List.mem_map.mpr ⟨e, inside, rfl⟩
  | append_singleton before group ih =>
      obtain ⟨kept, image⟩ := ih h.initial
      cases group with
      | nil => exact absurd rfl (h.filled [] (List.mem_append_right _ List.mem_cons_self))
      | cons survivor dups =>
          obtain ⟨present, alone, own⟩ := h.next
          have later := image.snoc kept.once alone (List.nodup_cons.mp own).1
          have sends : (fun id => aimOf (survivor :: dups) (aimAll before id)) =
              aimAll (before ++ [survivor :: dups]) := by
            funext id
            unfold aimAll
            rw [List.foldl_append]
            rfl
          rw [List.foldl_append, ← sends]
          exact ⟨mergeGroup_schema kept own present, later⟩

end mergeGroup

/-- The graph after a merge pass, and in the middle of it. -/
structure GraphKept (s t : MemoryStore K) [LinearOrder K]
    (groups : List (List (SemanticFactRow K))) : Prop where
  image : ImageUnder (survivorId groups) s t
  schema : Schema t
  between : ∀ before after, groups = before ++ after → Schema (before.foldl mergeGroup s)
  flushing : ∀ before group after written, groups = before ++ group :: after →
    ((partway (before.foldl mergeGroup s).edges ((before ++ [group]).foldl mergeGroup s).edges
      written).map edgeKey).Nodup

/-- A pass over any facts and edges that satisfy the schema leaves the image of the edges under
the map to the survivors, and violates the schema at no moment. -/
theorem mergeFacts_graphKept [Field K] [LinearOrder K] (d : MemoryDecay K) (s : MemoryStore K)
    (schema : Schema s) : GraphKept s (d.mergeFacts s).1
      (d.duplicateFactGroups (s.facts.insertionSort fun a b => a.id ≤ b.id)) := by
  have perm := List.perm_insertionSort (fun a b : SemanticFactRow K => a.id ≤ b.id) s.facts
  have partition := (duplicateFactGroups_grouped d
    (s.facts.insertionSort fun a b => a.id ≤ b.id)).partition
  have whole := partition.whole.trans perm
  have groups : Groups s (d.duplicateFactGroups (s.facts.insertionSort fun a b => a.id ≤ b.id)) :=
    ⟨(whole.map SemanticFactRow.id).nodup_iff.mpr schema.facts, partition.filled,
      fun fact inside => List.mem_map_of_mem (whole.mem_iff.mp inside)⟩
  obtain ⟨kept, image⟩ := foldl_mergeGroup_kept schema groups
  refine ⟨?_, kept, fun before after split => ?_, fun before group after written split => ?_⟩
  · rwa [funext (aimAll_eq_survivorId groups.distinct)] at image
  · rw [split] at groups
    exact (foldl_mergeGroup_kept schema groups.initial).1
  · rw [split, ← List.singleton_append, ← List.append_assoc] at groups
    have here := groups.initial
    have before_kept := (foldl_mergeGroup_kept schema here.initial).1
    cases group with
    | nil => exact absurd rfl (here.filled [] (List.mem_append_right _ List.mem_cons_self))
    | cons survivor dups =>
        obtain ⟨-, -, own⟩ := here.next
        rw [List.foldl_append, List.foldl_cons, List.foldl_nil, mergeGroup_edges]
        exact partway_once before_kept.once before_kept.edges (List.nodup_cons.mp own).1 written

end MemoryDecay

/-! ### Edges between two restatements and another fact -/

namespace KettleFacts

def linked : MemoryStore ℝ :=
  { store with edges := [⟨1, 2, 3, "colours"⟩, ⟨2, 1, 3, "colours"⟩, ⟨3, 1, 2, "restates"⟩] }

theorem linked_schema : MemoryDecay.Schema linked :=
  ⟨by decide, by decide, by decide, by decide⟩

end KettleFacts

open KettleFacts in
theorem linked_facts_kept : MemoryDecay.Schema linked ∧
    MemoryDecay.GraphKept linked (OneMemory.decay.mergeFacts linked).1
      (OneMemory.decay.duplicateFactGroups (linked.facts.insertionSort fun a b => a.id ≤ b.id)) :=
  ⟨linked_schema, MemoryDecay.mergeFacts_graphKept OneMemory.decay linked linked_schema⟩

end Johnny
