import Johnny.Brain.Cycle
import Johnny.Lib.Hoare
import Johnny.Lib.Transaction

/-!
# Working memory

The working set is a hash of items and a sorted set of their saliences in Redis, where
each command is a transaction of its own. A put prunes, stores and evicts down to the
capacity; a decay ages every item and drops what falls below the floor.
-/
namespace Johnny

/-- The kind of a label. -/
def ItemKind.ofLabel (label : String) : ItemKind :=
  if label = "input" then .input
  else if label = "ambient" then .ambient
  else if label = "memory" then .memory
  else if label = "fact" then .fact
  else if label = "note" then .note
  else .other label

theorem ItemKind.ofLabel_eq_input {label : String} :
    ItemKind.ofLabel label = .input ↔ label = "input" := by
  unfold ItemKind.ofLabel
  constructor
  · intro same
    by_contra other
    rw [if_neg other] at same
    split_ifs at same
  · rintro rfl
    rfl

structure WorkingMemoryItem (K : Type) where
  id : String
  content : String
  kind : String := "note"
  salience : K
  createdAt : K
  /-- When the item is considered expired, if ever. -/
  expiresAt : Option K := none
  deriving DecidableEq

def WorkingMemoryItem.expired {K : Type} [LinearOrder K] (now : K) (item : WorkingMemoryItem K) :
    Bool := item.expiresAt.any fun expiry => decide (expiry ≤ now)

/-- The two keys of the namespace: the hash of the items, each under its id, and the
sorted set of the ids. -/
structure WorkingSet (K : Type) where
  items : List (String × WorkingMemoryItem K) := []
  salience : List (String × K) := []
  deriving DecidableEq

namespace WorkingSet
variable {K : Type}

def hset (item : WorkingMemoryItem K) (s : WorkingSet K) : WorkingSet K :=
  { s with items := dictSet s.items item.id item }

def hdel (id : String) (s : WorkingSet K) : WorkingSet K :=
  { s with items := s.items.filter fun entry => entry.1 != id }

def zadd (id : String) (salience : K) (s : WorkingSet K) : WorkingSet K :=
  { s with salience := dictSet s.salience id salience }

def zrem (id : String) (s : WorkingSet K) : WorkingSet K :=
  { s with salience := s.salience.filter fun entry => entry.1 != id }

/-- `hgetall`, its values. -/
def hvals (s : WorkingSet K) : List (WorkingMemoryItem K) := s.items.map Prod.snd

section ordered
variable [LinearOrder K]

/-- `zrange(key, 0, n - 1)`: the lowest scores, ties by the member. -/
def zrange (n : ℕ) (s : WorkingSet K) : List String :=
  ((s.salience.insertionSort fun a b => a.2 < b.2 ∨ (a.2 = b.2 ∧ a.1 ≤ b.1)).take n).map Prod.fst

end ordered
end WorkingSet

structure WorkingMemory (K ω : Type) where
  redis : Sessions Failure (WorkingSet K) Unit ω
  capacity : ℤ
  decayFactor : K
  floor : K
  defaultTtl : K
  clock : ω → K
  /-- `uuid.uuid4().hex`. -/
  freshId : ω → String

namespace WorkingMemory
variable {K ω : Type}

/-- The working set in the world. -/
def held (m : WorkingMemory K ω) (w : ω) : WorkingSet K := (m.redis.db.get w).tables

def command (m : WorkingMemory K ω) (change : WorkingSet K → WorkingSet K) : Prog Failure ω Unit :=
  m.redis.scope (Prog.modify fun s => (change s.1, s.2))

def ask {α : Type} (m : WorkingMemory K ω) (query : WorkingSet K → α) : Prog Failure ω α :=
  m.redis.scope (Prog.reads fun s => query s.1)

def persist (m : WorkingMemory K ω) (item : WorkingMemoryItem K) : Prog Failure ω Unit := do
  m.command (WorkingSet.hset item)
  m.command (WorkingSet.zadd item.id item.salience)

def evict (m : WorkingMemory K ω) (id : String) : Prog Failure ω Unit := do
  m.command (WorkingSet.hdel id)
  m.command (WorkingSet.zrem id)

def readAll (m : WorkingMemory K ω) : Prog Failure ω (List (WorkingMemoryItem K)) :=
  m.ask WorkingSet.hvals

def clear (m : WorkingMemory K ω) : Prog Failure ω Unit :=
  m.command fun _ => { items := [], salience := [] }

/-- `import_items`: the items verbatim, one after the other. -/
def importItems (m : WorkingMemory K ω) (items : List (WorkingMemoryItem K)) :
    Prog Failure ω Unit := Prog.forEach items m.persist

section ordered
variable [LinearOrder K]

/-- `_prune_expired`: evicts what is expired, and returns it. -/
def pruneExpired (m : WorkingMemory K ω) (now : K) :
    Prog Failure ω (List (WorkingMemoryItem K)) := do
  let items ← m.readAll
  let expired := items.filter (WorkingMemoryItem.expired now)
  Prog.forEach expired fun item => m.evict item.id
  pure expired

def trimToCapacity (m : WorkingMemory K ω) : Prog Failure ω Unit := do
  let count ← m.ask fun s => s.salience.length
  let overflow := (count : ℤ) - m.capacity
  Prog.onlyIf (0 < overflow) do
    let lowest ← m.ask (WorkingSet.zrange overflow.toNat)
    Prog.forEach lowest m.evict

/-- Live items, with what they were stored with. -/
def exportItems (m : WorkingMemory K ω) : Prog Failure ω (List (WorkingMemoryItem K)) := do
  let now ← Prog.reads m.clock
  let _ ← m.pruneExpired now
  m.readAll

/-- Live items, most salient first, the more recent of equals before. -/
def contents (m : WorkingMemory K ω) : Prog Failure ω (List (WorkingMemoryItem K)) := do
  let now ← Prog.reads m.clock
  let _ ← m.pruneExpired now
  let items ← m.readAll
  pure (items.insertionSort fun a b =>
    b.salience < a.salience ∨ (b.salience = a.salience ∧ b.createdAt ≤ a.createdAt))

section numbers
variable [Field K]

/-- `put` without a time to live of its own. -/
def put (m : WorkingMemory K ω) (content kind : String) (salience : K) :
    Prog Failure ω (WorkingMemoryItem K) := do
  let w ← Prog.reads fun w => w
  let now := m.clock w
  let stored : WorkingMemoryItem K :=
    { id := m.freshId w, content := content, kind := kind, salience := clamp01 salience
      createdAt := now, expiresAt := if 0 < m.defaultTtl then some (now + m.defaultTtl) else none }
  let _ ← m.pruneExpired now
  m.persist stored
  m.trimToCapacity
  pure stored

/-- Ages every item; the evicted ones are returned. -/
def decay (m : WorkingMemory K ω) : Prog Failure ω (List (WorkingMemoryItem K)) := do
  let now ← Prog.reads m.clock
  let expired ← m.pruneExpired now
  let items ← m.readAll
  let faded (item : WorkingMemoryItem K) := item.salience * m.decayFactor
  Prog.forEach items fun item =>
    if faded item < m.floor then m.evict item.id
    else m.persist { item with salience := faded item }
  pure (expired ++ items.filter fun item => decide (faded item < m.floor))

/-- What the cycle uses of it. -/
def stage (m : WorkingMemory K ω) : WorkingMemoryStage K ω where
  put content kind salience := do
    let _ ← m.put content kind.label salience
    pure ()
  decay := do
    let _ ← m.decay
    pure ()
  contents := do
    let items ← m.contents
    pure (items.map fun item =>
      { kind := .ofLabel item.kind, content := item.content, salience := item.salience })

end numbers
end ordered

/-! ### What is held -/

/-- Whatever is held was put with such a label and such a text. -/
def Holds (m : WorkingMemory K ω) (P : String → String → Prop) (w : ω) : Prop :=
  ∀ item ∈ (m.held w).hvals, P item.kind item.content

section held
variable {m : WorkingMemory K ω} {P : String → String → Prop} {w : ω}

/-- What a query returns is read off what is held, and nothing changes. -/
theorem ask_held {α : Type} (m : WorkingMemory K ω) (query : WorkingSet K → α) (w : ω) :
    m.held (m.ask query w).2 = m.held w ∧
      ∀ a, (m.ask query w).1 = .ok a → a = query (m.held w) := by
  refine Sessions.scope_rule m.redis (Prog.reads fun s => query s.1) w
    (A := fun d => d.tables = m.held w) (B := fun a _ => a = query (m.held w)) ?_ fun _ => rfl
  rintro _ _ ⟨⟩
  exact ⟨rfl, rfl⟩

open Prog (Maintains)

theorem ask_maintains {α : Type} {query : WorkingSet K → α} {Q : α → Prop}
    (told : ∀ s : WorkingSet K, (∀ item ∈ s.hvals, P item.kind item.content) → Q (query s)) :
    Maintains (m.Holds P) (m.ask query) Q := by
  intro w holds
  obtain ⟨same, answer⟩ := ask_held m query w
  refine ⟨?_, fun a returned => ?_⟩
  · unfold Holds
    rw [same]
    exact holds
  · rw [answer a returned]
    exact told _ holds

theorem command_maintains {change : WorkingSet K → WorkingSet K}
    (keeps : ∀ s : WorkingSet K, (∀ item ∈ s.hvals, P item.kind item.content) →
      ∀ item ∈ (change s).hvals, P item.kind item.content) :
    Maintains (m.Holds P) (m.command change) fun _ => True := by
  intro w holds
  refine ⟨?_, fun _ _ => trivial⟩
  refine (Sessions.scope_rule m.redis (Prog.modify fun s => (change s.1, s.2)) w
    (A := fun d => ∀ item ∈ d.tables.hvals, P item.kind item.content) (B := fun _ _ => True)
    ?_ fun _ => holds).1
  rintro _ _ ⟨⟩
  exact ⟨keeps _ holds, trivial⟩

theorem persist_maintains {item : WorkingMemoryItem K} (fits : P item.kind item.content) :
    Maintains (m.Holds P) (m.persist item) fun _ => True := by
  apply Maintains.bind
  · apply command_maintains
    intro s holds other member
    obtain ⟨entry, inside, rfl⟩ := List.mem_map.mp member
    rcases mem_dictSet inside with old | new
    · exact holds _ (List.mem_map_of_mem old)
    · rw [new]
      exact fits
  · intro _ _
    exact command_maintains fun _ holds => holds

theorem evict_maintains (id : String) : Maintains (m.Holds P) (m.evict id) fun _ => True := by
  apply Maintains.bind
  · apply command_maintains
    intro s holds item member
    obtain ⟨entry, inside, rfl⟩ := List.mem_map.mp member
    exact holds _ (List.mem_map_of_mem (List.mem_of_mem_filter inside))
  · intro _ _
    exact command_maintains fun _ holds => holds

theorem readAll_maintains :
    Maintains (m.Holds P) m.readAll fun items => ∀ item ∈ items, P item.kind item.content :=
  ask_maintains fun _ holds => holds

section ordered
variable [LinearOrder K]

theorem pruneExpired_maintains (now : K) :
    Maintains (m.Holds P) (m.pruneExpired now) fun _ => True := by
  apply readAll_maintains.bind
  intro items _
  refine .bind (Q := fun _ => True) ?_ fun _ _ => .pure trivial
  exact .forEach _ fun item _ => evict_maintains item.id

theorem contents_maintains :
    Maintains (m.Holds P) m.contents fun items => ∀ item ∈ items, P item.kind item.content := by
  apply Maintains.bind (.reads (Q := fun _ => True) fun _ _ => trivial)
  intro now _
  apply (pruneExpired_maintains now).bind
  intro _ _
  apply readAll_maintains.bind
  intro items fits
  refine .pure fun item member => ?_
  exact fits item ((List.perm_insertionSort _ _).mem_iff.mp member)

section numbers
variable [Field K]

theorem put_maintains {content kind : String} {salience : K} (fits : P kind content) :
    Maintains (m.Holds P) (m.put content kind salience) fun _ => True := by
  apply Maintains.bind (.reads (Q := fun _ => True) fun _ _ => trivial)
  intro w _
  apply (pruneExpired_maintains _).bind
  intro _ _
  apply Maintains.bind (persist_maintains fits)
  intro _ _
  apply Maintains.bind (Q := fun _ => True)
  · apply Maintains.bind (ask_maintains (Q := fun _ => True) fun _ _ => trivial)
    intro count _
    apply Maintains.onlyIf
    intro _
    apply Maintains.bind (ask_maintains (Q := fun _ => True) fun _ _ => trivial)
    intro lowest _
    exact .forEach lowest fun id _ => evict_maintains id
  · intro _ _
    exact .pure trivial

theorem decay_maintains : Maintains (m.Holds P) m.decay fun _ => True := by
  apply Maintains.bind (.reads (Q := fun _ => True) fun _ _ => trivial)
  intro now _
  apply (pruneExpired_maintains now).bind
  intro _ _
  apply readAll_maintains.bind
  intro items fits
  apply Maintains.bind (Q := fun _ => True)
  · -- each item is written back under its own label and text
    apply Maintains.forEach
    intro item member
    split
    · exact evict_maintains item.id
    · exact persist_maintains (fits item member)
  · intro _ _
    exact .pure trivial

end numbers
end ordered
end held
end WorkingMemory
end Johnny
