import Johnny.Brain.State
import Johnny.Lib.CappedFeed
import Johnny.Lib.Runs

/-!
# The stream of consciousness

A connection reads the recent thoughts, sends them, and only then subscribes to the bus.
A broadcast stores its event and publishes it later. What is published before the
subscription reaches no one, so a thought that is stored and published between the reading
and the subscription is lost to the client.
-/
namespace Johnny

def thoughtEvent : String := "thought"

/-- How many recent thoughts a new client gets: `_BACKFILL`. -/
def backfill : ℕ := 10

structure Thought (K : Type) where
  id : Option ℕ
  ts : Option K
  text : Json K

/-- `_thought_message`, as `adaptThoughtFrame` reads it. -/
def thoughtMessage {K : Type} (event : WorkspaceEvent K) : Thought K where
  id := event.id
  ts := event.ts
  text := (dictGet event.payload "text").getD (.str "")

def maxThoughts : ℕ := 1000

def addThought {K : Type} : List (Thought K) → Thought K → List (Thought K) :=
  CappedFeed.add Thought.id maxThoughts

inductive StreamPlace (K : Type) where
  | opened
  /-- The backfill was read; this is left to send. -/
  | backfilling (left : List (WorkspaceEvent K))
  /-- Subscribed; this was published since and is not received yet. -/
  | live (channel : List (WorkspaceEvent K))

def StreamPlace.isOpened {K : Type} : StreamPlace K → Bool
  | .opened => true
  | _ => false

structure LiveStream (K : Type) where
  log : List (WorkspaceEvent K) := []
  pending : List (WorkspaceEvent K) := []
  place : StreamPlace K := .opened
  sent : List (WorkspaceEvent K) := []
  /-- What was stored since the backfill was read. -/
  late : List (WorkspaceEvent K) := []

inductive StreamMove (K : Type) where
  /-- A broadcast stores its event under the id it gets. -/
  | store (event : WorkspaceEvent K) (id : ℕ)
  | publish (k : ℕ)
  | read
  | send
  | subscribe
  | receive

namespace LiveStream
variable {K : Type} [LE K] [DecidableLE K]

/-- Not older: the order of `ts` descending. -/
def notOlder (a b : WorkspaceEvent K) : Bool :=
  match a.ts, b.ts with
  | some x, some y => decide (y ≤ x)
  | _, _ => true

/-- `recent_events`: the newest events of a type, newest first. -/
def recentEvents (limit : ℕ) (type : String) (log : List (WorkspaceEvent K)) :
    List (WorkspaceEvent K) :=
  ((log.filter fun e => e.type = type).mergeSort notOlder).take limit

def move : StreamMove K → LiveStream K → LiveStream K
  | .store event id, s =>
    -- An id is given once.
    if some id ∈ s.log.map WorkspaceEvent.id then s
    else
      let row := { event with id := some id }
      { s with
        log := s.log ++ [row]
        pending := s.pending ++ [row]
        late := if s.place.isOpened then s.late else s.late ++ [row] }
  | .publish k, s =>
    match s.pending[k]? with
    | none => s
    | some event =>
      { s with
        pending := s.pending.eraseIdx k
        place := match s.place with
          | .live channel => .live (channel ++ [event])
          | place => place }
  | .read, s =>
    match s.place with
    | .opened =>
      { s with place := .backfilling (recentEvents backfill thoughtEvent s.log).reverse }
    | _ => s
  | .send, s =>
    match s.place with
    | .backfilling (event :: left) =>
      { s with sent := s.sent ++ [event], place := .backfilling left }
    | _ => s
  | .subscribe, s =>
    match s.place with
    | .backfilling [] => { s with place := .live [] }
    | _ => s
  | .receive, s =>
    match s.place with
    | .live (event :: channel) =>
      { s with
        -- `stream` passes on the wanted types only.
        sent := if event.type = thoughtEvent then s.sent ++ [event] else s.sent
        place := .live channel }
    | _ => s

/-- Any order of the steps of broadcasts and of one connection, until the client disconnects. -/
def run (moves : List (StreamMove K)) : LiveStream K := runSteps move moves {}

end LiveStream

namespace LiveStream
variable {K : Type}

def thoughts (s : LiveStream K) : List (Thought K) := (s.sent.map thoughtMessage).foldl addThought []

def Settled (s : LiveStream K) : Prop := s.pending = [] ∧ s.place = .live []

/-- Every thought stored since the backfill was read was sent, and the client holds it once, or
1000 thoughts that it got later. -/
structure Complete (s : LiveStream K) : Prop where
  sent : ∀ e ∈ s.late, e.type = thoughtEvent → e ∈ s.sent
  once : (s.thoughts.map Thought.id).Nodup
  held : ∀ e ∈ s.late, e.type = thoughtEvent → ∃ before first after,
    s.sent.map thoughtMessage = before ++ first :: after ∧ first.id = e.id ∧
      CappedFeed.Follows maxThoughts s.thoughts first after

/-- What is published now reaches the client, or is no thought stored since the backfill. -/
def Heard (k : ℕ) (s : LiveStream K) : Prop :=
  ∀ e, s.pending[k]? = some e → e ∈ s.late → e.type = thoughtEvent → ∃ channel, s.place = .live channel

/-! ### What a move does -/

/-- What was published since the subscription and is not received. -/
def channel (s : LiveStream K) : List (WorkspaceEvent K) :=
  match s.place with
  | .live channel => channel
  | _ => []

/-- What is sent of the backfill or is left to send, before the subscription. -/
def early (s : LiveStream K) : List (WorkspaceEvent K) :=
  match s.place with
  | .backfilling left => s.sent ++ left
  | _ => []

/-- No thought stored since the backfill was read is out of the client's reach. -/
def NothingLost (s : LiveStream K) : Prop :=
  ∀ e ∈ s.late, e.type = thoughtEvent → e ∈ s.pending ∨ e ∈ s.channel ∨ e ∈ s.sent

structure Tracks (s : LiveStream K) : Prop where
  once : s.pending.Nodup
  pending : ∀ e ∈ s.pending, e ∈ s.log
  late : ∀ e ∈ s.late, e ∈ s.log
  early : ∀ e ∈ s.early, e ∈ s.log ∧ e ∉ s.late
  opened : s.place.isOpened → s.late = [] ∧ s.sent = []

variable {s : LiveStream K}

theorem stored_new (event : WorkspaceEvent K) {id : ℕ}
    (new : some id ∉ s.log.map WorkspaceEvent.id) : { event with id := some id } ∉ s.log :=
  fun inside => new (List.mem_map.mpr ⟨_, inside, rfl⟩)

variable [LE K] [DecidableLE K]

theorem store_spec (tracks : s.Tracks) (event : WorkspaceEvent K) (id : ℕ) :
    (move (.store event id) s).Tracks ∧
      ((move (.store event id) s).NothingLost ↔ s.NothingLost) := by
  unfold move
  dsimp only
  split
  · exact ⟨tracks, Iff.rfl⟩
  · next new =>
      have fresh := stored_new event new
      generalize { event with id := some id } = row at fresh
      obtain ⟨extra, added, same⟩ : ∃ extra : List (WorkspaceEvent K), extra ⊆ [row] ∧
          (if s.place.isOpened then s.late else s.late ++ [row]) = s.late ++ extra := by
        cases s.place.isOpened with
        | true => exact ⟨[], List.nil_subset _, (List.append_nil _).symm⟩
        | false => exact ⟨[row], List.Subset.refl _, rfl⟩
      have apart : ∀ e ∈ s.log, e ∉ extra := fun e known inside =>
        fresh (List.mem_singleton.mp (added inside) ▸ known)
      refine ⟨⟨?_, ?_, ?_, ?_, fun opened => ?_⟩, ?_⟩
      · refine List.nodup_append.mpr ⟨tracks.once, List.nodup_singleton _, ?_⟩
        rintro e inside _ single rfl
        exact fresh (List.mem_singleton.mp single ▸ tracks.pending e inside)
      · intro e inside
        rcases List.mem_append.mp inside with before | last
        · exact List.mem_append_left _ (tracks.pending e before)
        · exact List.mem_append_right _ last
      · intro e inside
        dsimp only at inside
        rw [same] at inside
        rcases List.mem_append.mp inside with before | last
        · exact List.mem_append_left _ (tracks.late e before)
        · exact List.mem_append_right _ (added last)
      · intro e inside
        obtain ⟨known, notLate⟩ := tracks.early e inside
        refine ⟨List.mem_append_left _ known, fun late => ?_⟩
        dsimp only at late
        rw [same] at late
        rcases List.mem_append.mp late with before | last
        · exact notLate before
        · exact apart e known last
      · dsimp only at opened ⊢
        rw [if_pos opened]
        exact tracks.opened opened
      · unfold NothingLost
        dsimp only
        rw [same]
        refine ⟨fun all e late thought => ?_, fun all e late thought => ?_⟩
        · rcases all e (List.mem_append_left _ late) thought with waits | reached
          · rcases List.mem_append.mp waits with before | last
            · exact .inl before
            · exact absurd (tracks.late e late) (List.mem_singleton.mp last ▸ fresh)
          · exact .inr reached
        · rcases List.mem_append.mp late with before | last
          · exact (all e before thought).imp_left (List.mem_append_left _)
          · exact .inl (List.mem_append_right _ (added last))

theorem publish_spec (tracks : s.Tracks) (k : ℕ) :
    (move (.publish k) s).Tracks ∧
      ((move (.publish k) s).NothingLost ↔ s.NothingLost ∧ s.Heard k) := by
  unfold Heard
  cases taken : s.pending[k]? with
  | none =>
      simp only [move, taken]
      exact ⟨tracks, (and_iff_left nofun).symm⟩
  | some event =>
      simp only [move, taken]
      obtain ⟨inside, rfl⟩ := List.getElem?_eq_some_iff.mp taken
      have perm := (List.getElem_cons_eraseIdx_perm inside).symm
      generalize s.pending[k] = event at perm
      have mem : ∀ e, e ∈ s.pending ↔ e = event ∨ e ∈ s.pending.eraseIdx k := by
        intro e
        rw [perm.mem_iff, List.mem_cons]
      obtain ⟨gone, once⟩ := List.nodup_cons.mp (perm.nodup_iff.mp tracks.once)
      have waiting : ∀ e ∈ s.pending.eraseIdx k, e ∈ s.log :=
        fun e waits => tracks.pending e ((mem e).mpr (.inr waits))
      obtain ⟨log, pending, place, sent, late⟩ := s
      cases place with
      | live channel =>
          refine ⟨⟨once, waiting, tracks.late, nofun, nofun⟩, ?_⟩
          simp only [NothingLost, LiveStream.channel, mem, List.mem_append, List.mem_singleton]
          constructor
          · intro all
            refine ⟨fun e late thought => ?_, fun _ _ _ _ => ⟨channel, rfl⟩⟩
            have waits := all e late thought
            simpa only [or_assoc, or_comm, or_left_comm] using waits
          · rintro ⟨all, -⟩ e late thought
            have waits := all e late thought
            simpa only [or_assoc, or_comm, or_left_comm] using waits
      | opened =>
          obtain ⟨none, nothing⟩ := tracks.opened rfl
          refine ⟨⟨once, waiting, tracks.late, nofun, fun _ => ⟨none, nothing⟩⟩, ?_⟩
          dsimp only at none
          subst none
          simp [NothingLost]
      | backfilling left =>
          refine ⟨⟨once, waiting, tracks.late, tracks.early, nofun⟩, ?_⟩
          have unsent : ∀ e ∈ late, e ∉ sent := fun e isLate isSent =>
            (tracks.early e (List.mem_append_left _ isSent)).2 isLate
          simp only [NothingLost, LiveStream.channel, List.not_mem_nil, false_or]
          constructor
          · intro all
            refine ⟨fun e isLate thought => ?_, ?_⟩
            · exact (all e isLate thought).imp_left fun waits => (mem e).mpr (.inr waits)
            · rintro _ ⟨⟩ isLate thought
              exact ((all event isLate thought).elim gone (unsent event isLate)).elim
          · rintro ⟨all, heard⟩ e isLate thought
            rcases all e isLate thought with waits | isSent
            · rcases (mem e).mp waits with rfl | rest
              · obtain ⟨channel, live⟩ := heard e rfl isLate thought
                cases live
              · exact .inl rest
            · exact .inr isSent

theorem mem_recentEvents {limit : ℕ} {type : String} {log : List (WorkspaceEvent K)}
    {e : WorkspaceEvent K} (inside : e ∈ recentEvents limit type log) : e ∈ log :=
  (List.mem_filter.mp (List.mem_mergeSort.mp (List.mem_of_mem_take inside))).1

theorem connection_spec (tracks : s.Tracks) {m : StreamMove K}
    (own : m = .read ∨ m = .send ∨ m = .subscribe ∨ m = .receive) :
    (move m s).Tracks ∧ ((move m s).NothingLost ↔ s.NothingLost) := by
  obtain ⟨log, pending, place, sent, late⟩ := s
  obtain ⟨once, stored, kept, early, opened⟩ := tracks
  rcases own with rfl | rfl | rfl | rfl
  · cases place with
    | opened =>
        obtain ⟨none, nothing⟩ := opened rfl
        dsimp only at none nothing
        subst none nothing
        refine ⟨⟨once, stored, kept, fun e inside => ?_, nofun⟩, ?_⟩
        · refine ⟨mem_recentEvents (List.mem_reverse.mp inside), List.not_mem_nil⟩
        · simp [move, NothingLost]
    | _ => exact ⟨⟨once, stored, kept, early, opened⟩, Iff.rfl⟩
  · cases place with
    | backfilling left =>
        cases left with
        | nil => exact ⟨⟨once, stored, kept, early, opened⟩, Iff.rfl⟩
        | cons event left =>
            have notLate : event ∉ late := (early event (by simp [LiveStream.early])).2
            refine ⟨⟨once, stored, kept, fun e inside => early e ?_, nofun⟩, ?_⟩
            · simpa [move, LiveStream.early, or_assoc] using inside
            · simp only [move, NothingLost, LiveStream.channel, List.mem_append,
                List.mem_singleton]
              refine forall_congr' fun e => forall_congr' fun isLate => ?_
              have other : e ≠ event := fun same => notLate (same ▸ isLate)
              simp [other]
    | _ => exact ⟨⟨once, stored, kept, early, opened⟩, Iff.rfl⟩
  · cases place with
    | backfilling left =>
        cases left with
        | nil => exact ⟨⟨once, stored, kept, nofun, nofun⟩, Iff.rfl⟩
        | cons event left => exact ⟨⟨once, stored, kept, early, opened⟩, Iff.rfl⟩
    | _ => exact ⟨⟨once, stored, kept, early, opened⟩, Iff.rfl⟩
  · cases place with
    | live channel =>
        cases channel with
        | nil => exact ⟨⟨once, stored, kept, early, opened⟩, Iff.rfl⟩
        | cons event channel =>
            refine ⟨⟨once, stored, kept, nofun, nofun⟩, ?_⟩
            simp only [move, NothingLost, LiveStream.channel, List.mem_cons]
            refine forall_congr' fun e => forall_congr' fun isLate => forall_congr' fun thought => ?_
            by_cases wanted : event.type = thoughtEvent
            · rw [if_pos wanted, List.mem_append, List.mem_singleton]
              simp only [or_assoc, or_comm, or_left_comm]
            · have other : e ≠ event := fun same => wanted (same ▸ thought)
              simp [wanted, other]
    | _ => exact ⟨⟨once, stored, kept, early, opened⟩, Iff.rfl⟩

theorem move_spec (m : StreamMove K) (tracks : s.Tracks) :
    (move m s).Tracks ∧ ((move m s).NothingLost ↔
      s.NothingLost ∧ ∀ k, m = .publish k → s.Heard k) := by
  cases m with
  | store event id =>
      have spec := store_spec tracks event id
      exact ⟨spec.1, spec.2.trans (and_iff_left nofun).symm⟩
  | publish k =>
      have spec := publish_spec tracks k
      exact ⟨spec.1, spec.2.trans (and_congr_right fun _ => by simp)⟩
  | _ =>
      refine ⟨(connection_spec tracks ?_).1,
        (connection_spec tracks ?_).2.trans (and_iff_left nofun).symm⟩ <;> simp

omit [LE K] [DecidableLE K] in
theorem begin_tracks : ({} : LiveStream K).Tracks :=
  ⟨List.nodup_nil, nofun, nofun, nofun, fun _ => ⟨rfl, rfl⟩⟩

/-! ### Whole runs -/

omit [LE K] [DecidableLE K] in
/-- Once no step is left, nothing is lost exactly if everything was sent; and what was sent is
held. -/
theorem complete_iff (settled : s.Settled) : s.Complete ↔ s.NothingLost := by
  obtain ⟨published, received⟩ := settled
  have lost : s.NothingLost ↔ ∀ e ∈ s.late, e.type = thoughtEvent → e ∈ s.sent := by
    simp [NothingLost, channel, published, received]
  rw [lost]
  constructor
  · exact fun complete => complete.sent
  · intro sent
    refine ⟨sent, CappedFeed.ofArrivals_nodup _, fun e late thought => ?_⟩
    exact CappedFeed.arrived Thought.id (List.mem_map_of_mem (sent e late thought))

/-- When all steps are taken, every thought stored since the backfill was read was sent and is held
once, exactly if none of them was published before the subscription. -/
theorem run_complete_iff (moves : List (StreamMove K)) (settled : (run moves).Settled) :
    (run moves).Complete ↔
      ∀ before k after, moves = before ++ .publish k :: after → (run before).Heard k := by
  rw [complete_iff settled]
  unfold run
  rw [runSteps_iff (P := NothingLost) (C := fun m t => ∀ k, m = .publish k → t.Heard k)
    (I := Tracks) (fun m _ _ tracks => (move_spec m tracks).1)
    (fun m _ _ tracks => (move_spec m tracks).2) begin_tracks]
  constructor
  · rintro ⟨-, all⟩ before k after split
    exact all before (.publish k) after split k rfl
  · intro all
    refine ⟨nofun, fun before m after split k same => ?_⟩
    rw [same] at split
    exact all before k after split

def stepsLeft (s : LiveStream K) : ℕ :=
  2 * s.pending.length + match s.place with
    | .opened => backfill + 2
    | .backfilling left => left.length + 1
    | .live channel => channel.length

/-- A step that stores nothing and brings the end nearer. -/
def Advances (m : StreamMove K) (s : LiveStream K) : Prop :=
  (∀ event id, m ≠ .store event id) ∧ (move m s).stepsLeft + 1 ≤ s.stepsLeft

theorem exists_advances (s : LiveStream K) (unsettled : ¬ s.Settled) : ∃ m, Advances m s := by
  obtain ⟨log, pending, place, sent, late⟩ := s
  cases pending with
  | cons event pending =>
      refine ⟨.publish 0, by rintro _ _ ⟨⟩, ?_⟩
      cases place with
      | opened =>
          change 2 * pending.length + (backfill + 2) + 1 ≤ 2 * (pending.length + 1) + (backfill + 2)
          omega
      | backfilling left =>
          change 2 * pending.length + (left.length + 1) + 1 ≤
            2 * (pending.length + 1) + (left.length + 1)
          omega
      | live channel =>
          -- what leaves the pending ones enters the channel
          change 2 * pending.length + (channel ++ [event]).length + 1 ≤
            2 * (pending.length + 1) + channel.length
          rw [List.length_append, List.length_singleton]
          omega
  | nil =>
      cases place with
      | opened =>
          refine ⟨.read, by rintro _ _ ⟨⟩, ?_⟩
          have few : (recentEvents backfill thoughtEvent log).length ≤ backfill :=
            List.length_take_le _ _
          change 2 * 0 + ((recentEvents backfill thoughtEvent log).reverse.length + 1) + 1 ≤
            2 * 0 + (backfill + 2)
          rw [List.length_reverse]
          omega
      | backfilling left =>
          cases left with
          | nil => exact ⟨.subscribe, by rintro _ _ ⟨⟩, Nat.le_refl _⟩
          | cons event left => exact ⟨.send, by rintro _ _ ⟨⟩, Nat.le_refl _⟩
      | live channel =>
          cases channel with
          | nil => exact absurd ⟨rfl, rfl⟩ unsettled
          | cons event channel =>
              exact ⟨.receive, by rintro _ _ ⟨⟩, Nat.le_refl _⟩

/-- From wherever a run stands, the pending steps can all be taken. -/
theorem settles (moves : List (StreamMove K)) : ∃ more : List (StreamMove K),
    (∀ event id, .store event id ∉ more) ∧ (run (moves ++ more)).Settled := by
  obtain ⟨more, each, settled⟩ := runSteps_exhausts (I := fun _ => True) (C := Advances)
    (D := Settled) stepsLeft (fun _ _ _ => trivial) (fun _ _ _ advances => advances.2)
    (fun s _ => exists_advances s) (s := run moves) trivial
  refine ⟨more, fun event id stores => ?_, ?_⟩
  · obtain ⟨before, after, split⟩ := List.append_of_mem stores
    exact (each before _ after split).1 event id rfl
  · unfold run
    rwa [runSteps_append]

/-! ### A thought in between -/

def aThought : WorkspaceEvent ℕ := { module := "narrator", type := "thought" }

theorem read_empty : move (K := ℕ) .read {} = { place := .backfilling [] } := by
  simp [move, recentEvents]

/-- It is stored and published after the reading and before the subscription, and nothing is left
to come. -/
theorem thought_in_between_is_lost :
    (run [.read, .store aThought 1, .publish 0, .subscribe]).Settled ∧
      ¬ (run [.read, .store aThought 1, .publish 0, .subscribe]).Complete := by
  unfold run
  rw [runSteps_cons, read_empty]
  refine ⟨⟨rfl, rfl⟩, fun complete => ?_⟩
  cases complete.sent { aThought with id := some 1 } List.mem_cons_self rfl

/-- One that is published after the subscription is not. -/
theorem thought_after_is_held :
    (run [.read, .store aThought 1, .subscribe, .publish 0, .receive]).Complete := by
  refine (run_complete_iff _ ?_).mpr ?_
  · unfold run
    rw [runSteps_cons, read_empty]
    exact ⟨rfl, rfl⟩
  · intro before k after split
    rcases before with _ | ⟨m₁, _ | ⟨m₂, _ | ⟨m₃, _ | ⟨m₄, _ | ⟨m₅, before⟩⟩⟩⟩⟩ <;>
      simp at split
    obtain ⟨rfl, rfl, rfl, rfl, rfl⟩ := split
    unfold run
    rw [runSteps_cons, read_empty]
    exact fun _ _ _ _ => ⟨[], rfl⟩

end LiveStream
end Johnny
