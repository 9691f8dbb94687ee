import Johnny.Lib.Ranking
import Johnny.Memory.Working

/-!
# The hash and the index hold the same items

Every operation of working memory updates two keys by separate commands. What they hold
together is one list of items with distinct ids, and each operation acts on that list.
-/
namespace Johnny
variable {K : Type}

namespace WorkingSet

/-- The two keys, holding these items. -/
def ofItems (items : List (WorkingMemoryItem K)) : WorkingSet K where
  items := items.map fun item => (item.id, item)
  salience := items.map fun item => (item.id, item.salience)

def upsert (item : WorkingMemoryItem K) (items : List (WorkingMemoryItem K)) :
    List (WorkingMemoryItem K) :=
  if items.any fun old => old.id == item.id then
    items.map fun old => if old.id == item.id then item else old
  else items ++ [item]

def without (id : String) (items : List (WorkingMemoryItem K)) : List (WorkingMemoryItem K) :=
  items.filter fun item => item.id != id

/-- No two items have one id, as no two fields of a hash have one name. -/
def DistinctIds (items : List (WorkingMemoryItem K)) : Prop :=
  (items.map WorkingMemoryItem.id).Nodup

variable {items : List (WorkingMemoryItem K)} {item : WorkingMemoryItem K}

theorem hvals_ofItems (items : List (WorkingMemoryItem K)) : (ofItems items).hvals = items := by
  unfold ofItems hvals
  rw [List.map_map]
  exact List.map_id items

theorem dictSet_map {α : Type} (f : WorkingMemoryItem K → α) (item : WorkingMemoryItem K)
    (items : List (WorkingMemoryItem K)) :
    dictSet (items.map fun i => (i.id, f i)) item.id (f item) =
      (upsert item items).map fun i => (i.id, f i) := by
  have known : (items.map fun i => (i.id, f i)).any (fun e => e.1 == item.id) =
      items.any fun old => old.id == item.id := List.any_map
  unfold dictSet upsert
  rw [known]
  split
  · rw [List.map_map, List.map_map]
    refine List.map_congr_left fun old _ => ?_
    simp only [Function.comp_apply]
    split
    · rfl
    · rfl
  · rw [List.map_append]
    rfl

theorem filter_map_ids {α : Type} (f : WorkingMemoryItem K → α) (id : String)
    (items : List (WorkingMemoryItem K)) :
    (items.map fun i => (i.id, f i)).filter (fun e => e.1 != id) =
      (without id items).map fun i => (i.id, f i) := List.filter_map

/-- Storing an item writes both keys. -/
theorem zadd_hset_ofItems (item : WorkingMemoryItem K) (items : List (WorkingMemoryItem K)) :
    zadd item.id item.salience (hset item (ofItems items)) = ofItems (upsert item items) := by
  unfold zadd hset ofItems
  dsimp only
  rw [dictSet_map (fun i => i), dictSet_map WorkingMemoryItem.salience]

theorem zrem_hdel_ofItems (id : String) (items : List (WorkingMemoryItem K)) :
    zrem id (hdel id (ofItems items)) = ofItems (without id items) := by
  unfold zrem hdel ofItems
  dsimp only
  rw [filter_map_ids (fun i => i), filter_map_ids WorkingMemoryItem.salience]

theorem DistinctIds.sublist {some : List (WorkingMemoryItem K)} (distinct : DistinctIds items)
    (sub : some.Sublist items) : DistinctIds some := (sub.map _).nodup distinct

theorem upsert_ids (item : WorkingMemoryItem K) (items : List (WorkingMemoryItem K)) :
    (upsert item items).map WorkingMemoryItem.id =
      if items.any fun old => old.id == item.id then items.map WorkingMemoryItem.id
      else items.map WorkingMemoryItem.id ++ [item.id] := by
  unfold upsert
  split
  · rw [List.map_map]
    refine List.map_congr_left fun old _ => ?_
    rw [Function.comp_apply]
    split
    next same => exact (beq_iff_eq.mp same).symm
    · rfl
  · rw [List.map_append]
    rfl

theorem DistinctIds.upsert (distinct : DistinctIds items) (item : WorkingMemoryItem K) :
    DistinctIds (upsert item items) := by
  unfold DistinctIds
  rw [upsert_ids]
  split
  · exact distinct
  next fresh =>
    refine List.nodup_append.mpr ⟨distinct, List.nodup_singleton _, fun id old other new same => ?_⟩
    obtain ⟨held, inside, rfl⟩ := List.mem_map.mp old
    rw [List.mem_singleton.mp new] at same
    exact fresh (List.any_eq_true.mpr ⟨held, inside, beq_iff_eq.mpr same⟩)

theorem mem_upsert {other : WorkingMemoryItem K} :
    other ∈ upsert item items ↔ other = item ∨ (other ∈ items ∧ other.id ≠ item.id) := by
  unfold upsert
  split
  next known =>
    obtain ⟨old, inside, same⟩ := List.any_eq_true.mp known
    rw [List.mem_map]
    constructor
    · rintro ⟨held, member, rfl⟩
      split
      · exact .inl rfl
      next differs => exact .inr ⟨member, fun same => differs (beq_iff_eq.mpr same)⟩
    · rintro (rfl | ⟨member, differs⟩)
      · exact ⟨old, inside, if_pos same⟩
      · exact ⟨other, member, if_neg fun same => differs (beq_iff_eq.mp same)⟩
  next fresh =>
    rw [List.mem_append, List.mem_singleton, or_comm]
    refine or_congr_right ⟨fun member => ⟨member, fun same => fresh ?_⟩, fun h => h.1⟩
    exact List.any_eq_true.mpr ⟨other, member, beq_iff_eq.mpr same⟩

section eviction
variable [LinearOrder K]

/-- The order of eviction: the less salient first, ties by the id. -/
def evictsBefore (a b : WorkingMemoryItem K) : Prop :=
  a.salience < b.salience ∨ (a.salience = b.salience ∧ a.id ≤ b.id)

instance : DecidableRel (evictsBefore (K := K)) := fun a b =>
  inferInstanceAs (Decidable (a.salience < b.salience ∨ (a.salience = b.salience ∧ a.id ≤ b.id)))

instance : Std.Total (evictsBefore (K := K)) := by
  refine ⟨fun a b => ?_⟩
  rcases lt_trichotomy a.salience b.salience with less | same | more
  · exact .inl (.inl less)
  · exact (String.le_total a.id b.id).imp (fun le => .inr ⟨same, le⟩) fun le => .inr ⟨same.symm, le⟩
  · exact .inr (.inl more)

instance : IsTrans (WorkingMemoryItem K) evictsBefore := by
  refine ⟨fun a b c first second => ?_⟩
  rcases first with less | ⟨same, le⟩ <;> rcases second with less' | ⟨same', le'⟩
  · exact .inl (less.trans less')
  · exact .inl (same' ▸ less)
  · exact .inl (same ▸ less')
  · exact .inr ⟨same.trans same', String.le_trans le le'⟩

/-- The items that a trim by `n` evicts. -/
def lowest (n : ℕ) (items : List (WorkingMemoryItem K)) : List (WorkingMemoryItem K) :=
  (items.insertionSort evictsBefore).take n

theorem zrange_ofItems (n : ℕ) (items : List (WorkingMemoryItem K)) :
    zrange n (ofItems items) = (lowest n items).map WorkingMemoryItem.id := by
  unfold zrange lowest ofItems
  dsimp only
  rw [← List.map_insertionSort (r := evictsBefore) (s := fun a b => a.2 < b.2 ∨ a.2 = b.2 ∧ a.1 ≤ b.1)
    (fun item => (item.id, item.salience)) items fun _ _ _ _ => Iff.rfl, ← List.map_take, List.map_map]
  rfl

/-- Items left after a trim: as many fewer, and none less salient than an evicted one. -/
theorem trim_spec (distinct : DistinctIds items) (n : ℕ) :
    (items.filter fun item => decide (item.id ∉ (lowest n items).map WorkingMemoryItem.id)).length =
        items.length - n ∧
      ∀ gone ∈ items, gone.id ∈ (lowest n items).map WorkingMemoryItem.id → ∀ kept ∈ items,
        kept.id ∉ (lowest n items).map WorkingMemoryItem.id → gone.salience ≤ kept.salience := by
  have perm := List.perm_insertionSort evictsBefore items
  have sorted := List.pairwise_insertionSort evictsBefore items
  unfold lowest
  generalize items.insertionSort evictsBefore = order at perm sorted ⊢
  have ids : (order.map WorkingMemoryItem.id).Nodup := (perm.map _).nodup_iff.mpr distinct
  rw [← List.take_append_drop n order] at perm sorted ids
  rw [List.map_append] at ids
  obtain ⟨-, -, apart⟩ := List.nodup_append.mp ids
  have later : ∀ item ∈ order.drop n, item.id ∉ (order.take n).map WorkingMemoryItem.id :=
    fun item member again => apart _ again _ (List.mem_map_of_mem member) rfl
  constructor
  · rw [← ((perm.filter _).length_eq), List.filter_append,
      List.filter_eq_nil_iff.mpr fun item member => by
        simpa only [decide_eq_true_eq, not_not] using List.mem_map_of_mem member,
      List.filter_eq_self.mpr fun item member => decide_eq_true (later item member),
      List.nil_append, List.length_drop]
    rw [← perm.length_eq, List.take_append_drop]
  · intro gone goneIn low kept keptIn high
    have goneLow : gone ∈ order.take n := by
      rcases List.mem_append.mp (perm.mem_iff.mpr goneIn) with here | there
      · exact here
      · exact absurd low (later gone there)
    have keptHigh : kept ∈ order.drop n := by
      rcases List.mem_append.mp (perm.mem_iff.mpr keptIn) with here | there
      · exact absurd (List.mem_map_of_mem here) high
      · exact there
    rcases (List.pairwise_append.mp sorted).2.2 gone goneLow kept keptHigh with less | ⟨same, -⟩
    · exact less.le
    · exact same.le

end eviction

end WorkingSet

/-! ### The operations -/

namespace WorkingMemory
variable {ω : Type} [Field K] [LinearOrder K]

/-- An item as `put` stores it. -/
def stamped (m : WorkingMemory K ω) (item : WorkingMemoryItem K) (ttl : Option K) (now : K) :
    WorkingMemoryItem K :=
  let effectiveTtl := ttl.getD m.defaultTtl
  { item with
    salience := clamp01 item.salience
    createdAt := now
    expiresAt := if 0 < effectiveTtl then some (now + effectiveTtl) else none }

/-- `put`, of any item and with a time to live of its own. -/
def putItem (m : WorkingMemory K ω) (item : WorkingMemoryItem K) (ttl : Option K) :
    Prog Failure ω (WorkingMemoryItem K) := do
  let now ← Prog.reads m.clock
  let stored := m.stamped item ttl now
  let _ ← m.pruneExpired now
  m.persist stored
  m.trimToCapacity
  pure stored

/-- `contents`, also at a given time. -/
def contentsAt (m : WorkingMemory K ω) (now : Option K) :
    Prog Failure ω (List (WorkingMemoryItem K)) := do
  let reference ← Prog.reads fun w => now.getD (m.clock w)
  let _ ← m.pruneExpired reference
  let items ← m.readAll
  pure (items.insertionSort fun a b =>
    b.salience < a.salience ∨ (b.salience = a.salience ∧ b.createdAt ≤ a.createdAt))

/-- `decay`, also at a given time. -/
def decayAt (m : WorkingMemory K ω) (now : Option K) :
    Prog Failure ω (List (WorkingMemoryItem K)) := do
  let reference ← Prog.reads fun w => now.getD (m.clock w)
  let expired ← m.pruneExpired reference
  let items ← m.readAll
  let faded (item : WorkingMemoryItem K) := item.salience * m.decayFactor
  Prog.forEach items fun item =>
    if faded item < m.floor then m.evict item.id
    else m.persist { item with salience := faded item }
  pure (expired ++ items.filter fun item => decide (faded item < m.floor))

/-- The cycle puts a new item, for the default time. -/
theorem put_eq_putItem (m : WorkingMemory K ω) (content kind : String) (salience : K) (w : ω) :
    m.put content kind salience w = m.putItem
      { id := m.freshId w, content := content, kind := kind, salience := salience, createdAt := 0 }
      none w := rfl

omit [Field K] in
theorem contents_eq_contentsAt (m : WorkingMemory K ω) : m.contents = m.contentsAt none := rfl

theorem decay_eq_decayAt (m : WorkingMemory K ω) : m.decay = m.decayAt none := rfl

/-- A call of one of the operations that touch the keys. -/
inductive Call (K : Type) where
  | put (item : WorkingMemoryItem K) (ttl : Option K)
  | decay (now : Option K)
  | contents (now : Option K)
  | exportItems
  | clear
  | importItems (items : List (WorkingMemoryItem K))

/-- The call, with the items it returns. -/
def call (m : WorkingMemory K ω) : Call K → Prog Failure ω (List (WorkingMemoryItem K))
  | .put item ttl => do
    let stored ← m.putItem item ttl
    pure [stored]
  | .decay now => m.decayAt now
  | .contents now => m.contentsAt now
  | .exportItems => m.exportItems
  | .clear => do
    m.clear
    pure []
  | .importItems items => do
    m.importItems items
    pure []

/-! ### What each command does to the items -/

open WorkingSet

section moves
omit [Field K] [LinearOrder K]

/-- Redis answers every command, and holds this. -/
structure Has (m : WorkingMemory K ω) (s : WorkingSet K) (w : ω) : Prop where
  calm : (m.redis.db.get w).endings = []
  held : m.held w = s

/-- Started where `s` is held, a program returns, and leaves `s'`. -/
def Moves {α : Type} (m : WorkingMemory K ω) (s : WorkingSet K) (p : Prog Failure ω α) (a : α)
    (s' : WorkingSet K) : Prop :=
  ∀ w, m.Has s w → (p w).1 = .ok a ∧ m.Has s' (p w).2

variable {m : WorkingMemory K ω} {s s' s'' : WorkingSet K}
  {items : List (WorkingMemoryItem K)} {α β : Type}

theorem Moves.pure (a : α) : m.Moves s (pure a) a s := fun _ has => ⟨rfl, has⟩

theorem Moves.bind {p : Prog Failure ω α} {f : α → Prog Failure ω β} {a : α} {b : β}
    (first : m.Moves s p a s') (next : m.Moves s' (f a) b s'') : m.Moves s (p >>= f) b s'' := by
  intro w has
  obtain ⟨returned, after⟩ := first w has
  rcases ran : p w with ⟨r, w'⟩
  rw [ran] at returned after
  dsimp only at returned after
  rw [Prog.bind_of_ok (by rw [ran, returned])]
  exact next w' after

/-- A transaction on calm Redis is committed. -/
theorem scope_moves (body : Prog Failure (WorkingSet K × Unit) α) {a : α} {t : WorkingSet K × Unit}
    (ran : body (s, ()) = (.ok a, t)) : m.Moves s (m.redis.scope body) a t.1 := by
  intro w has
  have start : (m.redis.db.get w).tables = s := has.held
  have ended := Sessions.scope_calm (s := m.redis) has.calm
    (by rw [start]; exact ran)
  refine ⟨ended.1, ?_, ?_⟩
  · rw [ended.2]
    unfold Database.commit
    rw [has.calm]
    rfl
  · unfold held
    rw [ended.2]
    rfl

theorem command_moves (change : WorkingSet K → WorkingSet K) :
    m.Moves s (m.command change) () (change s) :=
  scope_moves (Prog.modify fun s => (change s.1, s.2)) rfl

theorem ask_moves (query : WorkingSet K → α) : m.Moves s (m.ask query) (query s) s :=
  scope_moves (Prog.reads fun s => query s.1) rfl

theorem persist_moves (item : WorkingMemoryItem K) :
    m.Moves (ofItems items) (m.persist item) () (ofItems (upsert item items)) := by
  rw [← zadd_hset_ofItems]
  exact (command_moves (hset item)).bind (command_moves (zadd item.id item.salience))

theorem evict_moves (id : String) :
    m.Moves (ofItems items) (m.evict id) () (ofItems (without id items)) := by
  rw [← zrem_hdel_ofItems]
  exact (command_moves (hdel id)).bind (command_moves (zrem id))

theorem readAll_moves : m.Moves (ofItems items) m.readAll items (ofItems items) := by
  have read := ask_moves (m := m) (s := ofItems items) hvals
  rwa [hvals_ofItems] at read

theorem clear_moves : m.Moves s m.clear () (ofItems []) := command_moves _

theorem importItems_moves (new : List (WorkingMemoryItem K)) :
    m.Moves (ofItems items) (m.importItems new) ()
      (ofItems (new.foldl (fun items item => upsert item items) items)) := by
  induction new generalizing items with
  | nil => exact .pure ()
  | cons item new ih => exact (persist_moves item).bind ih

theorem filter_without (key : β → String) (b : β) (bs : List β) (items : List (WorkingMemoryItem K)) :
    (without (key b) items).filter (fun item => decide (item.id ∉ bs.map key)) =
      items.filter fun item => decide (item.id ∉ (b :: bs).map key) := by
  unfold without
  rw [List.filter_filter]
  refine List.filter_congr fun item _ => ?_
  by_cases here : item.id = key b
  · simp [here]
  · simp [here, bne]

/-- Evicting one id after the other leaves the items with other ids. -/
theorem evictAll_moves (key : β → String) (bs : List β) :
    m.Moves (ofItems items) (Prog.forEach bs fun b => m.evict (key b)) ()
      (ofItems (items.filter fun item => decide (item.id ∉ bs.map key))) := by
  induction bs generalizing items with
  | nil =>
      have all : items.filter (fun item => decide (item.id ∉ [].map key)) = items :=
        List.filter_eq_self.mpr fun _ _ => by simp
      rw [all]
      exact .pure ()
  | cons b bs ih =>
      rw [← filter_without]
      exact (evict_moves (key b)).bind ih

end moves

section ordered
omit [Field K]
variable {m : WorkingMemory K ω} {items : List (WorkingMemoryItem K)}

def live (now : K) (items : List (WorkingMemoryItem K)) : List (WorkingMemoryItem K) :=
  items.filter fun item => !item.expired now

/-- What is not expired is what is left without the ids of the expired. -/
theorem live_eq_filter (distinct : DistinctIds items) (now : K) :
    live now items = items.filter fun item =>
      decide (item.id ∉ (items.filter (WorkingMemoryItem.expired now)).map WorkingMemoryItem.id) := by
  refine List.filter_congr fun item member => ?_
  by_cases over_now : item.expired now = true
  · have gone := List.mem_map_of_mem (f := WorkingMemoryItem.id)
      (List.mem_filter.mpr ⟨member, over_now⟩)
    rw [over_now, decide_eq_false (not_not.mpr gone)]
    rfl
  · have stays : item.id ∉
        (items.filter (WorkingMemoryItem.expired now)).map WorkingMemoryItem.id := by
      intro again
      obtain ⟨other, inside, same⟩ := List.mem_map.mp again
      obtain ⟨otherIn, expired⟩ := List.mem_filter.mp inside
      rw [List.inj_on_of_nodup_map distinct otherIn member same] at expired
      exact over_now expired
    rw [decide_eq_true stays, Bool.eq_false_iff.mpr over_now]
    rfl

theorem pruneExpired_moves (distinct : DistinctIds items) (now : K) :
    m.Moves (ofItems items) (m.pruneExpired now) (items.filter (WorkingMemoryItem.expired now))
      (ofItems (live now items)) := by
  refine readAll_moves.bind (Moves.bind (a := ()) ?_ (.pure _))
  rw [live_eq_filter distinct]
  exact evictAll_moves WorkingMemoryItem.id _

theorem live_distinct (distinct : DistinctIds items) (now : K) : DistinctIds (live now items) :=
  distinct.sublist List.filter_sublist

/-- What a trim leaves. -/
def trimmed (capacity : ℤ) (items : List (WorkingMemoryItem K)) : List (WorkingMemoryItem K) :=
  items.filter fun item => decide (item.id ∉
    (lowest (items.length - capacity).toNat items).map WorkingMemoryItem.id)

theorem trimToCapacity_moves :
    m.Moves (ofItems items) m.trimToCapacity () (ofItems (trimmed m.capacity items)) := by
  have count : (ofItems items).salience.length = items.length := List.length_map _
  refine (ask_moves _).bind ?_
  rw [count]
  unfold Prog.onlyIf
  dsimp only
  split
  next full =>
    have asked := ask_moves (m := m) (s := ofItems items)
      (zrange ((items.length : ℤ) - m.capacity).toNat)
    rw [zrange_ofItems] at asked
    refine asked.bind ?_
    have loop : m.Moves (ofItems items) (Prog.forEach ((lowest ((items.length : ℤ) -
        m.capacity).toNat items).map WorkingMemoryItem.id) m.evict) () _ :=
      evictAll_moves (fun id => id) _
    rw [List.map_id'] at loop
    exact loop
  next room =>
    have none : ((items.length : ℤ) - m.capacity).toNat = 0 := Int.toNat_eq_zero.mpr (by omega)
    have all : trimmed m.capacity items = items := by
      unfold trimmed lowest
      rw [none]
      exact List.filter_eq_self.mpr fun _ _ => by simp
    rw [all]
    exact .pure ()

end ordered
/-! ### What each operation does to the items -/

section operations
variable {m : WorkingMemory K ω} {items : List (WorkingMemoryItem K)}

/-- The item with its salience aged once. -/
def fade (m : WorkingMemory K ω) (item : WorkingMemoryItem K) : WorkingMemoryItem K :=
  { item with salience := item.salience * m.decayFactor }

/-- The item after a sweep, if it stays. -/
def aged (m : WorkingMemory K ω) (item : WorkingMemoryItem K) : Option (WorkingMemoryItem K) :=
  if item.salience * m.decayFactor < m.floor then none else some (m.fade item)

theorem putItem_moves (distinct : DistinctIds items) (item : WorkingMemoryItem K) (ttl : Option K)
    {w : ω} (has : m.Has (ofItems items) w) :
    (m.putItem item ttl w).1 = .ok (m.stamped item ttl (m.clock w)) ∧
      m.Has (ofItems (trimmed m.capacity
        (upsert (m.stamped item ttl (m.clock w)) (live (m.clock w) items))))
        (m.putItem item ttl w).2 := by
  have body : m.Moves (ofItems items) (do
      let _ ← m.pruneExpired (m.clock w)
      m.persist (m.stamped item ttl (m.clock w))
      m.trimToCapacity
      pure (m.stamped item ttl (m.clock w))) (m.stamped item ttl (m.clock w)) _ :=
    (pruneExpired_moves distinct _).bind
      ((persist_moves _).bind (trimToCapacity_moves.bind (.pure _)))
  exact body w has

omit [Field K] in
theorem contentsAt_moves (distinct : DistinctIds items) (now : Option K) {w : ω}
    (has : m.Has (ofItems items) w) :
    (m.contentsAt now w).1 = .ok ((live (now.getD (m.clock w)) items).insertionSort fun a b =>
        b.salience < a.salience ∨ (b.salience = a.salience ∧ b.createdAt ≤ a.createdAt)) ∧
      m.Has (ofItems (live (now.getD (m.clock w)) items)) (m.contentsAt now w).2 := by
  have body : m.Moves (ofItems items) (do
      let _ ← m.pruneExpired (now.getD (m.clock w))
      let items ← m.readAll
      pure (items.insertionSort fun a b =>
        b.salience < a.salience ∨ (b.salience = a.salience ∧ b.createdAt ≤ a.createdAt))) _ _ :=
    (pruneExpired_moves distinct _).bind (readAll_moves.bind (.pure _))
  exact body w has

omit [Field K] in
theorem exportItems_moves (distinct : DistinctIds items) {w : ω} (has : m.Has (ofItems items) w) :
    (m.exportItems w).1 = .ok (live (m.clock w) items) ∧
      m.Has (ofItems (live (m.clock w) items)) (m.exportItems w).2 :=
  (pruneExpired_moves distinct (m.clock w)).bind readAll_moves w has

/-- The sweep, with the items before it aged already. -/
theorem sweep_moves (done todo : List (WorkingMemoryItem K)) (distinct : DistinctIds (done ++ todo)) :
    m.Moves (ofItems (done ++ todo)) (Prog.forEach todo fun item =>
      if item.salience * m.decayFactor < m.floor then m.evict item.id else m.persist (m.fade item))
      () (ofItems (done ++ todo.filterMap m.aged)) := by
  induction todo generalizing done with
  | nil => exact .pure ()
  | cons item todo ih =>
      have ids := distinct
      unfold DistinctIds at ids
      rw [List.map_append, List.map_cons] at ids
      obtain ⟨-, rest, apart⟩ := List.nodup_append.mp ids
      have before : ∀ other ∈ done, other.id ≠ item.id := fun other inside =>
        apart _ (List.mem_map_of_mem inside) _ List.mem_cons_self
      have behind : ∀ other ∈ todo, other.id ≠ item.id := fun other inside same =>
        (List.nodup_cons.mp rest).1 (same ▸ List.mem_map_of_mem inside)
      by_cases low : item.salience * m.decayFactor < m.floor
      · have gone : without item.id (done ++ item :: todo) = done ++ todo := by
          unfold without
          rw [List.filter_append, List.filter_cons_of_neg (by simp),
            List.filter_eq_self.mpr fun other inside => bne_iff_ne.mpr (before other inside),
            List.filter_eq_self.mpr fun other inside => bne_iff_ne.mpr (behind other inside)]
        have smaller : DistinctIds (done ++ todo) := by
          rw [← gone]
          exact distinct.sublist List.filter_sublist
        have first : m.Moves (ofItems (done ++ item :: todo)) (m.evict item.id) ()
            (ofItems (done ++ todo)) := gone ▸ evict_moves item.id
        have dropped : m.aged item = none := if_pos low
        rw [List.filterMap_cons_none dropped]
        refine Moves.bind (a := ()) ?_ (ih done smaller)
        dsimp only
        rw [if_pos low]
        exact first
      · have written : upsert (m.fade item) (done ++ item :: todo) = (done ++ [m.fade item]) ++ todo := by
          have known : (done ++ item :: todo).any (fun old => old.id == (m.fade item).id) = true :=
            List.any_eq_true.mpr ⟨item, List.mem_append_right _ List.mem_cons_self,
              beq_iff_eq.mpr rfl⟩
          have same (others : List (WorkingMemoryItem K)) (h : ∀ other ∈ others, other.id ≠ item.id) :
              (others.map fun old => if old.id == (m.fade item).id then m.fade item else old) =
                others := by
            refine (List.map_congr_left fun old inside => ?_).trans (List.map_id others)
            exact if_neg fun eq => h old inside (beq_iff_eq.mp eq)
          have here : (if item.id == (m.fade item).id then m.fade item else item) = m.fade item :=
            if_pos (beq_iff_eq.mpr rfl)
          unfold upsert
          rw [if_pos known, List.map_append, List.map_cons, same done before, same todo behind, here,
            List.append_assoc]
          rfl
        have still : DistinctIds ((done ++ [m.fade item]) ++ todo) := by
          rw [← written]
          exact distinct.upsert _
        have first : m.Moves (ofItems (done ++ item :: todo)) (m.persist (m.fade item)) ()
            (ofItems ((done ++ [m.fade item]) ++ todo)) := written ▸ persist_moves (m.fade item)
        have next := ih (done ++ [m.fade item]) still
        rw [List.append_assoc done [m.fade item] (todo.filterMap m.aged)] at next
        have stays : m.aged item = some (m.fade item) := if_neg low
        rw [List.filterMap_cons_some stays]
        refine Moves.bind (a := ()) ?_ next
        dsimp only
        rw [if_neg low]
        exact first

theorem decayAt_moves (distinct : DistinctIds items) (now : Option K) {w : ω}
    (has : m.Has (ofItems items) w) :
    (∃ evicted, (m.decayAt now w).1 = .ok evicted) ∧
      m.Has (ofItems ((live (now.getD (m.clock w)) items).filterMap m.aged))
        (m.decayAt now w).2 := by
  have kept := live_distinct distinct (now.getD (m.clock w))
  have body : m.Moves (ofItems items) (do
      let expired ← m.pruneExpired (now.getD (m.clock w))
      let items ← m.readAll
      Prog.forEach items fun item =>
        if item.salience * m.decayFactor < m.floor then m.evict item.id else m.persist (m.fade item)
      pure (expired ++ items.filter fun item =>
        decide (item.salience * m.decayFactor < m.floor))) _ _ :=
    (pruneExpired_moves distinct _).bind (readAll_moves.bind
      ((sweep_moves [] _ kept).bind (.pure _)))
  exact ⟨⟨_, (body w has).1⟩, (body w has).2⟩

end operations

/-! ### Any sequence of calls -/

section runs
variable {m : WorkingMemory K ω} {items : List (WorkingMemoryItem K)}

/-- Both keys hold the same ids, each once, with equal saliences. -/
structure Consistent (s : WorkingSet K) : Prop where
  index : s.salience = s.items.map fun entry => (entry.1, entry.2.salience)
  keyed : ∀ entry ∈ s.items, entry.1 = entry.2.id
  once : (s.items.map Prod.fst).Nodup

omit [Field K] [LinearOrder K] in
theorem consistent_ofItems (distinct : DistinctIds items) : Consistent (ofItems items) where
  index := by
    unfold ofItems
    rw [List.map_map]
    rfl
  keyed entry inside := by
    obtain ⟨item, -, rfl⟩ := List.mem_map.mp inside
    rfl
  once := by
    unfold ofItems
    rw [List.map_map]
    exact distinct

/-- The worlds that some sequence of calls leads to; time passes between them. -/
inductive Reached (m : WorkingMemory K ω) : ω → Prop
  | start {w : ω} : m.Has {} w → Reached m w
  | called {w : ω} (c : Call K) : Reached m w → Reached m (m.call c w).2
  | later {w w' : ω} : Reached m w → m.Has (m.held w) w' → Reached m w'

/-- What is held after a call. -/
def heldAfter (m : WorkingMemory K ω) (c : Call K) (w : ω) : List (WorkingMemoryItem K) :=
  (m.held (m.call c w).2).hvals

/-- A put returns the stored item and holds no more than the capacity; before its time it evicts an
item only where the room is used up, and one that is no more salient than what it retained. -/
structure PutSpec (m : WorkingMemory K ω) (item : WorkingMemoryItem K) (ttl : Option K) (w : ω) :
    Prop where
  answer : (m.call (.put item ttl) w).1 = .ok [m.stamped item ttl (m.clock w)]
  bounded : ((m.heldAfter (.put item ttl) w).length : ℤ) ≤ max 0 m.capacity
  full : ∀ gone, gone = m.stamped item ttl (m.clock w) ∨
      (gone ∈ (m.held w).hvals ∧ gone.id ≠ item.id) → gone.expired (m.clock w) = false →
    gone ∉ m.heldAfter (.put item ttl) w →
      ((m.heldAfter (.put item ttl) w).length : ℤ) = max 0 m.capacity
  lowest : ∀ gone, gone = m.stamped item ttl (m.clock w) ∨
      (gone ∈ (m.held w).hvals ∧ gone.id ≠ item.id) → gone.expired (m.clock w) = false →
    gone ∉ m.heldAfter (.put item ttl) w → ∀ kept ∈ m.heldAfter (.put item ttl) w,
      gone.salience ≤ kept.salience

/-- What is returned is what is held and not expired, the most salient first. -/
structure ContentsSpec (m : WorkingMemory K ω) (now : Option K) (w : ω)
    (items : List (WorkingMemoryItem K)) : Prop where
  answer : (m.call (.contents now) w).1 = .ok items
  whole : items.Perm (live (now.getD (m.clock w)) (m.held w).hvals)
  unexpired : ∀ item ∈ items, item.expired (now.getD (m.clock w)) = false
  ordered : items.Pairwise fun a b => b.salience ≤ a.salience

/-- A decay keeps, aged, what is neither expired nor below the floor then. -/
structure DecaySpec (m : WorkingMemory K ω) (now : Option K) (w : ω) : Prop where
  answer : ∃ evicted, (m.call (.decay now) w).1 = .ok evicted
  left : m.heldAfter (.decay now) w = ((m.held w).hvals.filter fun item =>
    !item.expired (now.getD (m.clock w)) && !decide (item.salience * m.decayFactor < m.floor)).map
      m.fade

omit [Field K] [LinearOrder K] in
theorem Has.hvals {w : ω} (has : m.Has (ofItems items) w) : (m.held w).hvals = items := by
  rw [has.held, hvals_ofItems]

theorem call_put (m : WorkingMemory K ω) (item : WorkingMemoryItem K) (ttl : Option K) (w : ω) :
    m.call (.put item ttl) w = ((m.putItem item ttl w).1.map ([·]), (m.putItem item ttl w).2) :=
  Prog.bind_pure_apply _ _ w

theorem putSpec (distinct : DistinctIds items) (item : WorkingMemoryItem K) (ttl : Option K) {w : ω}
    (has : m.Has (ofItems items) w) : m.PutSpec item ttl w := by
  obtain ⟨answer, after⟩ := putItem_moves distinct item ttl has
  have pool := (live_distinct distinct (m.clock w)).upsert (m.stamped item ttl (m.clock w))
  have held : m.heldAfter (.put item ttl) w = trimmed m.capacity
      (upsert (m.stamped item ttl (m.clock w)) (live (m.clock w) items)) := by
    unfold heldAfter
    rw [call_put, after.hvals]
  obtain ⟨length, lowest⟩ := trim_spec pool
    ((upsert (m.stamped item ttl (m.clock w)) (live (m.clock w) items)).length - m.capacity).toNat
  have inPool {gone : WorkingMemoryItem K} (origin : gone = m.stamped item ttl (m.clock w) ∨
      (gone ∈ (m.held w).hvals ∧ gone.id ≠ item.id))
      (unexpired : gone.expired (m.clock w) = false) :
      gone ∈ upsert (m.stamped item ttl (m.clock w)) (live (m.clock w) items) := by
    refine mem_upsert.mpr (origin.imp_right fun ⟨inside, differs⟩ => ⟨?_, differs⟩)
    rw [has.hvals] at inside
    exact List.mem_filter.mpr ⟨inside, by rw [unexpired]; rfl⟩
  refine ⟨?_, ?_, ?_, ?_⟩
  · rw [call_put, answer]
    rfl
  · rw [held]
    unfold trimmed
    rw [length]
    omega
  · intro gone origin unexpired out
    rw [held] at out ⊢
    by_contra roomy
    unfold trimmed at out roomy
    rw [length] at roomy
    -- where there is room left, nothing was trimmed
    have none : ((upsert (m.stamped item ttl (m.clock w)) (live (m.clock w) items)).length -
        m.capacity).toNat = 0 := by omega
    rw [none] at out
    exact out (List.mem_filter.mpr ⟨inPool origin unexpired, by simp [WorkingSet.lowest]⟩)
  · intro gone origin unexpired out kept member
    rw [held] at out member
    obtain ⟨keptIn, high⟩ := List.mem_filter.mp member
    refine lowest gone (inPool origin unexpired) ?_ kept keptIn (of_decide_eq_true high)
    by_contra stays
    exact out (List.mem_filter.mpr ⟨inPool origin unexpired, decide_eq_true stays⟩)

/-- The order of `contents`. -/
instance : Std.Total fun a b : WorkingMemoryItem K =>
    b.salience < a.salience ∨ (b.salience = a.salience ∧ b.createdAt ≤ a.createdAt) := by
  refine ⟨fun a b => ?_⟩
  rcases lt_trichotomy b.salience a.salience with less | same | more
  · exact .inl (.inl less)
  · exact (le_total b.createdAt a.createdAt).imp (fun le => .inr ⟨same, le⟩)
      fun le => .inr ⟨same.symm, le⟩
  · exact .inr (.inl more)

instance : IsTrans (WorkingMemoryItem K) fun a b =>
    b.salience < a.salience ∨ (b.salience = a.salience ∧ b.createdAt ≤ a.createdAt) := by
  refine ⟨fun a b c first second => ?_⟩
  rcases first with less | ⟨same, le⟩ <;> rcases second with less' | ⟨same', le'⟩
  · exact .inl (less'.trans less)
  · exact .inl (same' ▸ less)
  · exact .inl (same ▸ less')
  · exact .inr ⟨same'.trans same, le'.trans le⟩

theorem contentsSpec (distinct : DistinctIds items) (now : Option K) {w : ω}
    (has : m.Has (ofItems items) w) : ∃ items, m.ContentsSpec now w items := by
  obtain ⟨answer, -⟩ := contentsAt_moves distinct now has
  have perm := List.perm_insertionSort (fun a b : WorkingMemoryItem K =>
    b.salience < a.salience ∨ (b.salience = a.salience ∧ b.createdAt ≤ a.createdAt))
    (live (now.getD (m.clock w)) items)
  refine ⟨_, answer, ?_, fun item inside => ?_, ?_⟩
  · rw [has.hvals]
    exact perm
  · have stays := (List.mem_filter.mp (perm.mem_iff.mp inside)).2
    exact (Bool.not_eq_true' _).mp stays
  · refine (List.pairwise_insertionSort _ _).imp fun ordered => ?_
    rcases ordered with less | ⟨same, -⟩
    · exact less.le
    · exact same.le

theorem filterMap_aged (now : K) (items : List (WorkingMemoryItem K)) :
    (live now items).filterMap m.aged = (items.filter fun item =>
      !item.expired now && !decide (item.salience * m.decayFactor < m.floor)).map m.fade := by
  unfold live
  rw [← List.filterMap_eq_map, List.filterMap_filter, List.filterMap_filter]
  refine List.filterMap_congr fun item _ => ?_
  cases item.expired now with
  | true => rfl
  | false =>
      by_cases low : item.salience * m.decayFactor < m.floor
      · simp [aged, low]
      · simp [aged, low]

theorem decaySpec (distinct : DistinctIds items) (now : Option K) {w : ω}
    (has : m.Has (ofItems items) w) : m.DecaySpec now w := by
  obtain ⟨answer, after⟩ := decayAt_moves distinct now has
  refine ⟨answer, ?_⟩
  rw [has.hvals, ← filterMap_aged]
  exact after.hvals

theorem filterMap_aged_distinct (distinct : DistinctIds items) (now : K) :
    DistinctIds ((live now items).filterMap m.aged) := by
  rw [filterMap_aged]
  unfold DistinctIds
  rw [List.map_map]
  exact (distinct.sublist List.filter_sublist : DistinctIds _)

omit [Field K] [LinearOrder K] in
theorem foldl_upsert_distinct (distinct : DistinctIds items) (new : List (WorkingMemoryItem K)) :
    DistinctIds (new.foldl (fun items item => upsert item items) items) := by
  induction new generalizing items with
  | nil => exact distinct
  | cons item new ih => exact ih (distinct.upsert item)

/-- Every call leaves items with distinct ids. -/
theorem call_has (distinct : DistinctIds items) (c : Call K) {w : ω} (has : m.Has (ofItems items) w) :
    ∃ items', DistinctIds items' ∧ m.Has (ofItems items') (m.call c w).2 := by
  cases c with
  | put item ttl =>
      rw [call_put]
      have pool := (live_distinct distinct (m.clock w)).upsert (m.stamped item ttl (m.clock w))
      exact ⟨_, pool.sublist List.filter_sublist, (putItem_moves distinct item ttl has).2⟩
  | decay now =>
      exact ⟨_, filterMap_aged_distinct distinct _, (decayAt_moves distinct now has).2⟩
  | contents now =>
      exact ⟨_, live_distinct distinct _, (contentsAt_moves distinct now has).2⟩
  | exportItems => exact ⟨_, live_distinct distinct _, (exportItems_moves distinct has).2⟩
  | clear => exact ⟨[], List.nodup_nil, ((clear_moves.bind (.pure [])) w has).2⟩
  | importItems new =>
      exact ⟨_, foldl_upsert_distinct distinct new,
        (((importItems_moves new).bind (.pure [])) w has).2⟩

/-- After any sequence of calls the keys are consistent, and each next call does what it should. -/
structure Upkept (m : WorkingMemory K ω) (w : ω) : Prop where
  consistent : Consistent (m.held w)
  put : ∀ item ttl, m.PutSpec item ttl w
  contents : ∀ now, ∃ items, m.ContentsSpec now w items
  decay : ∀ now, m.DecaySpec now w

theorem reached_has {w : ω} (reached : m.Reached w) :
    ∃ items, DistinctIds items ∧ m.Has (ofItems items) w := by
  induction reached with
  | start empty => exact ⟨[], List.nodup_nil, empty⟩
  | called c _ ih =>
      obtain ⟨items, distinct, has⟩ := ih
      exact call_has distinct c has
  | later _ same ih =>
      obtain ⟨items, distinct, has⟩ := ih
      exact ⟨items, distinct, same.calm, same.held.trans has.held⟩

theorem reached_upkept {w : ω} (reached : m.Reached w) : m.Upkept w := by
  obtain ⟨items, distinct, has⟩ := reached_has reached
  refine ⟨?_, fun item ttl => putSpec distinct item ttl has, fun now => contentsSpec distinct now has,
    fun now => decaySpec distinct now has⟩
  rw [has.held]
  exact consistent_ofItems distinct

end runs
end WorkingMemory

/-! ### A note in a small working memory -/

namespace SmallMemory

abbrev World := Database Failure (WorkingSet ℚ) Unit

def memory : WorkingMemory ℚ World where
  redis := { db := .whole, meanwhile := id, apart := fun _ => rfl }
  capacity := 1
  decayFactor := frac 9 10
  floor := frac 5 100
  defaultTtl := 900
  clock _ := 0
  freshId _ := "n"

def empty : World := { tables := {}, sequences := () }

def note : WorkingMemoryItem ℚ :=
  { id := "a", content := "The kettle is on.", salience := frac 1 2, createdAt := 0 }

/-- Two notes put into room for one. -/
def full : World :=
  (memory.call (.put { note with id := "b", salience := 1 } none)
    (memory.call (.put note none) empty).2).2

theorem full_reached : memory.Reached full := .called _ (.called _ (.start ⟨rfl, rfl⟩))

end SmallMemory

open SmallMemory in
theorem full_memory_upkept : memory.Reached full ∧ memory.Upkept full :=
  ⟨full_reached, WorkingMemory.reached_upkept full_reached⟩

end Johnny
