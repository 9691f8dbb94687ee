import Johnny.Brain.Bus
import Johnny.Lib.Generations
import Johnny.Lib.Runs

/-!
# Chains of reflexes

Messages in flight are delivered in any order; a delivery dispatches one, and what it
publishes is in flight in turn. The hop count rises with each generation, so an event
sets off finitely many deliveries.
-/
namespace Johnny

/-- The bus and the messages that are in flight on it. -/
structure Flight (K ω δ : Type) where
  bus : BusState K ω
  inFlight : List δ

namespace Bus
variable {K ω δ : Type} (b : Bus K ω δ)

/-- The messages of what was published. -/
def messages (news : List (BusEntry K ω)) : List δ := (publishedIn news).map b.dump

/-- Delivers one of the messages in flight. -/
def deliver (k : ℕ) (s : Flight K ω δ) : Flight K ω δ :=
  match s.inFlight[k]? with
  | none => s
  | some data =>
    let after := (b.receive data s.bus).2
    { bus := after
      inFlight := s.inFlight.eraseIdx k ++
        b.messages (after.journal.drop s.bus.journal.length) }

/-- An event is broadcast, and nothing else is in flight. -/
def begin (event : WorkspaceEvent K) (d : Durable K ω) : Flight K ω δ :=
  let after := (b.broadcast event { durable := d }).2
  { bus := after, inFlight := b.messages after.journal }

def deliverAll (ks : List ℕ) (s : Flight K ω δ) : Flight K ω δ := runSteps b.deliver ks s

/-- Every delivery is of a message in flight. -/
def InFlightAt (ks : List ℕ) (s : Flight K ω δ) : Prop :=
  ∀ before k after, ks = before ++ k :: after → k < (b.deliverAll before s).inFlight.length

/-- What the handlers of one delivery emit together. -/
def EmitsAtMost (m : ℕ) : Prop :=
  ∀ event s, (emissionsIn ((b.dispatch event s).2.journal.drop s.journal.length)).length ≤ m

/-- What is published was persisted before, with the payload that is the redaction of what was
to be broadcast. -/
def PersistedFirst (journal : List (BusEntry K ω)) : Prop :=
  ∀ before e after, journal = before ++ .published e :: after →
    .persisted e ∈ before ∧ ∃ event, .offered event ∈ before ∧ b.SafeOf event e

variable {b} {event : WorkspaceEvent K} {news : List (BusEntry K ω)}

/-! ### One dispatch -/

/-- What a dispatch publishes is of the next generation and no more than was emitted. -/
structure Next (b : Bus K ω δ) (event : WorkspaceEvent K) (news : List (BusEntry K ω)) : Prop where
  few : (publishedIn news).length ≤ (emissionsIn news).length
  next : ∀ e ∈ publishedIn news, event.hops < b.maxHops ∧ e.hops = event.hops + 1

theorem sent_published (sent : b.Sent event news) :
    (publishedIn news).length ≤ 1 ∧ ∀ e ∈ publishedIn news, e.hops = event.hops := by
  cases sent with
  | refused => exact ⟨Nat.zero_le _, nofun⟩
  | unsent safe => exact ⟨Nat.zero_le _, nofun⟩
  | sent safe =>
      refine ⟨le_rfl, fun e member => ?_⟩
      rw [List.mem_singleton.mp member]
      exact safe.hops

theorem resent_published {done : List (WorkspaceEvent K)} (resent : b.Resent event done news) :
    (publishedIn news).length ≤ done.length ∧
      ∀ e ∈ publishedIn news, e.hops = event.hops + 1 := by
  induction resent with
  | nil => exact ⟨le_rfl, nofun⟩
  | cons sent _ ih =>
      obtain ⟨one, own⟩ := sent_published sent
      rw [publishedIn_append, List.length_append, List.length_cons]
      refine ⟨by omega, fun e member => ?_⟩
      rcases List.mem_append.mp member with first | later
      · exact own e first
      · exact ih.2 e later

theorem reacted_next {handler : EventHandler K ω} (reacted : b.Reacted event handler news) :
    b.Next event news := by
  cases reacted with
  | raised => exact ⟨le_rfl, nofun⟩
  | limited ran limit => exact ⟨Nat.zero_le _, nofun⟩
  | @resent emitted done news ran below first resent =>
      obtain ⟨few, next⟩ := resent_published resent
      refine ⟨?_, fun e member => ⟨below, next e member⟩⟩
      change (publishedIn news).length ≤ (emitted ++ emissionsIn news).length
      have shorter := first.length_le
      rw [List.length_append]
      omega

theorem Next.each {done : List (EventHandler K ω)} (each : Prog.Each (b.Reacted event) done news) :
    b.Next event news := by
  induction each with
  | nil => exact ⟨le_rfl, nofun⟩
  | cons reacted _ ih =>
      obtain ⟨few, next⟩ := reacted_next reacted
      refine ⟨?_, fun e member => ?_⟩
      · rw [publishedIn_append, emissionsIn_append, List.length_append, List.length_append]
        have := ih.few
        omega
      · rw [publishedIn_append] at member
        rcases List.mem_append.mp member with first | later
        · exact next e first
        · exact ih.next e later

/-! ### Persisted before published -/

theorem PersistedFirst.append {j k : List (BusEntry K ω)} (first : b.PersistedFirst j)
    (second : b.PersistedFirst k) : b.PersistedFirst (j ++ k) := by
  intro before e after split
  rcases List.append_eq_append_iff.mp split with ⟨middle, rfl, rest⟩ | ⟨middle, rfl, rest⟩
  · obtain ⟨stored, event, offered, safe⟩ := second middle e after rest
    exact ⟨List.mem_append_right _ stored, event, List.mem_append_right _ offered, safe⟩
  · cases middle with
    | nil =>
        obtain ⟨stored, event, offered, safe⟩ := second [] e after rest.symm
        exact absurd stored List.not_mem_nil
    | cons entry middle =>
        obtain ⟨rfl, -⟩ := List.cons.inj rest
        exact first before e middle rfl

theorem PersistedFirst.of_none (none : publishedIn news = []) : b.PersistedFirst news := by
  intro before e after split
  rw [split, publishedIn_append] at none
  exact absurd (List.append_eq_nil_iff.mp none).2 nofun

theorem sent_persistedFirst (sent : b.Sent event news) : b.PersistedFirst news := by
  cases sent with
  | refused => exact .of_none rfl
  | unsent safe => exact .of_none rfl
  | @sent e safe =>
      intro before e' after split
      rcases before with _ | ⟨first, _ | ⟨second, _ | ⟨third, before⟩⟩⟩ <;> simp at split
      obtain ⟨rfl, rfl, rfl, rfl⟩ := split
      exact ⟨by simp, event, by simp, safe⟩

theorem each_persistedFirst {done : List (EventHandler K ω)}
    (each : Prog.Each (b.Reacted event) done news) : b.PersistedFirst news := by
  induction each with
  | nil => exact .of_none rfl
  | cons reacted _ ih =>
      refine PersistedFirst.append ?_ ih
      cases reacted with
      | raised => exact .of_none rfl
      | limited ran limit => exact .of_none rfl
      | @resent emitted done news ran below first resent =>
          have own : b.PersistedFirst news := by
            clear ran first
            induction resent with
            | nil => exact .of_none rfl
            | cons sent _ ih => exact (sent_persistedFirst sent).append ih
          exact PersistedFirst.append (.of_none rfl : b.PersistedFirst [.called _ (some emitted)]) own

/-! ### The deliveries -/

/-- What holds of the journal and of the messages in flight, in any order of deliveries. -/
structure Airborne (b : Bus K ω δ) (s : Flight K ω δ) : Prop where
  hops : ∀ e ∈ publishedIn s.bus.journal, e.hops ≤ b.maxHops
  persisted : b.PersistedFirst s.bus.journal
  inFlight : ∀ data ∈ s.inFlight, ∀ e, b.parse data = some e → e.hops ≤ b.maxHops

/-- The generations that a message has to go, its own included. -/
def left (b : Bus K ω δ) (data : δ) : ℕ :=
  match b.parse data with
  | none => 1
  | some e => b.maxHops + 1 - e.hops

theorem receive_spec (data : δ) (s : BusState K ω) :
    ∃ news, (b.receive data s).2.journal = s.journal ++ news ∧ b.PersistedFirst news ∧
      (b.parse data = none → news = []) ∧
      ∀ event, b.parse data = some event → b.Next event news ∧
        (∀ m, b.EmitsAtMost m → (emissionsIn news).length ≤ m) := by
  unfold receive
  cases parsed : b.parse data with
  | none => exact ⟨[], (List.append_nil _).symm, .of_none rfl, fun _ => rfl, nofun⟩
  | some event =>
      obtain ⟨news, grown, ⟨done, -, each⟩, -⟩ := dispatch_writes (b := b) event s
      refine ⟨news, grown, each_persistedFirst each, nofun, ?_⟩
      rintro _ ⟨⟩
      refine ⟨.each each, fun m atMost => ?_⟩
      have emitted := atMost event s
      rwa [grown, List.drop_left] at emitted

theorem deliver_airborne (k : ℕ) (s : Flight K ω δ) (airborne : b.Airborne s) :
    b.Airborne (b.deliver k s) := by
  unfold deliver
  cases taken : s.inFlight[k]? with
  | none => exact airborne
  | some data =>
      obtain ⟨news, grown, ordered, malformed, parsed⟩ := receive_spec (b := b) data s.bus
      have next : ∀ e ∈ publishedIn news, e.hops ≤ b.maxHops := by
        intro e member
        cases read : b.parse data with
        | none =>
            rw [malformed read] at member
            cases member
        | some event =>
            obtain ⟨below, hops⟩ := (parsed event read).1.next e member
            omega
      dsimp only
      rw [grown, List.drop_left]
      refine ⟨fun e member => ?_, ?_, fun data' member e read => ?_⟩
      · rw [grown, publishedIn_append] at member
        rcases List.mem_append.mp member with before | new
        · exact airborne.hops e before
        · exact next e new
      · rw [grown]
        exact airborne.persisted.append ordered
      · rcases List.mem_append.mp member with before | new
        · exact airborne.inFlight data' (List.mem_of_mem_eraseIdx before) e read
        · obtain ⟨sent, inside, rfl⟩ := List.mem_map.mp new
          rw [b.parse_hops sent e read]
          exact next sent inside

/-- Every message delivered lowers what the messages in flight can still become. -/
theorem deliver_lowers {m : ℕ} (atMost : b.EmitsAtMost m) (k : ℕ) (s : Flight K ω δ)
    (airborne : b.Airborne s) (inside : k < s.inFlight.length) :
    Generations.potential m b.left (b.deliver k s).inFlight + 1 ≤
      Generations.potential m b.left s.inFlight := by
  have taken := List.getElem?_eq_getElem inside
  generalize s.inFlight[k] = data at taken
  obtain ⟨news, grown, -, malformed, parsed⟩ := receive_spec (b := b) data s.bus
  simp only [deliver, taken]
  rw [grown, List.drop_left]
  cases read : b.parse data with
  | none =>
      have nothing : b.messages news = [] := by rw [malformed read]; rfl
      rw [nothing]
      refine Generations.potential_take (n := 0) taken ?_ (Nat.zero_le _) nofun
      simp [left, read]
  | some event =>
      obtain ⟨⟨few, next⟩, emitted⟩ := parsed event read
      have low := airborne.inFlight data (List.mem_of_getElem? taken) event read
      refine Generations.potential_take (n := b.maxHops - event.hops) taken ?_ ?_ ?_
      · simp only [left, read]
        omega
      · rw [messages, List.length_map]
        exact few.trans (emitted m atMost)
      · intro data' member
        obtain ⟨sent, inside, rfl⟩ := List.mem_map.mp member
        obtain ⟨below, hops⟩ := next sent inside
        unfold left
        cases again : b.parse (b.dump sent) with
        | none =>
            dsimp only
            omega
        | some e =>
            have same := b.parse_hops sent e again
            dsimp only
            omega

theorem begin_spec (event : WorkspaceEvent K) (d : Durable K ω) (first : event.hops = 0) (m : ℕ) :
    b.Airborne (b.begin event d) ∧
      Generations.potential m b.left (b.begin event d).inFlight ≤
        ∑ i ∈ Finset.range (b.maxHops + 1), m ^ i := by
  obtain ⟨news, grown, sent⟩ := broadcast_writes (b := b) event { durable := d }
  rw [List.nil_append] at grown
  obtain ⟨one, own⟩ := sent_published sent
  have none : ∀ e ∈ publishedIn news, e.hops = 0 := fun e member => (own e member).trans first
  unfold begin
  dsimp only
  rw [grown]
  refine ⟨⟨fun e member => ?_, ?_, fun data member e read => ?_⟩, ?_⟩
  · rw [grown] at member
    rw [none e member]
    exact Nat.zero_le _
  · rw [grown]
    exact sent_persistedFirst sent
  · obtain ⟨sent, inside, rfl⟩ := List.mem_map.mp member
    rw [b.parse_hops sent e read, none sent inside]
    exact Nat.zero_le _
  · refine (Generations.potential_le (n := b.maxHops + 1) fun data member => ?_).trans ?_
    · unfold left
      split <;> omega
    · rw [messages, List.length_map]
      exact (Nat.mul_le_mul_right _ one).trans (Nat.one_mul _).le

/-- The emissions of a delivery are bounded: a bus has finitely many handlers. -/
theorem exists_emitsAtMost (n : ℕ) (few : ∀ type, ∀ handler ∈ b.handlersFor type,
    ∀ event w emitted w', handler event w = (.ok emitted, w') → emitted.length ≤ n) :
    ∃ m, b.EmitsAtMost m := by
  have registered : ∀ type, (b.registered type).length ≤
      (b.subscribers.map fun entry => entry.2.length).sum := by
    intro type
    unfold Bus.registered
    induction b.subscribers with
    | nil => exact le_rfl
    | cons entry rest ih =>
        rw [List.lookup_cons, List.map_cons, List.sum_cons]
        split
        · exact Nat.le_add_right _ _
        · exact ih.trans (Nat.le_add_left _ _)
  refine ⟨(b.subscribers.map fun entry => entry.2.length).sum * 2 * n, fun event s => ?_⟩
  obtain ⟨news, grown, ⟨done, first, each⟩, -⟩ := dispatch_writes (b := b) event s
  rw [grown, List.drop_left]
  have emitted : (emissionsIn news).length ≤ done.length * n := by
    have inside : ∀ handler ∈ done, handler ∈ b.handlersFor event.type :=
      fun handler member => first.subset member
    clear first grown
    induction each with
    | nil => exact Nat.zero_le _
    | @cons handler done news more reacted _ ih =>
        have own : (emissionsIn news).length ≤ n := by
          cases reacted with
          | raised => exact Nat.zero_le _
          | @limited emitted ran limit =>
              obtain ⟨w, w', ran⟩ := ran
              have bound := few _ handler (inside handler List.mem_cons_self) event w emitted w' ran
              simpa [emissionsIn, BusEntry.emitted] using bound
          | @resent emitted _ news ran below _ resent =>
              obtain ⟨w, w', ran⟩ := ran
              have bound := few _ handler (inside handler List.mem_cons_self) event w emitted w' ran
              change (emitted ++ emissionsIn news).length ≤ n
              rwa [(resent_journal resent).2.1, List.append_nil]
        have rest := ih fun handler member => inside handler (List.mem_cons_of_mem _ member)
        rw [emissionsIn_append, List.length_append, List.length_cons, Nat.succ_mul]
        omega
  have count : done.length ≤ (b.subscribers.map fun entry => entry.2.length).sum * 2 := by
    have own := registered event.type
    have every := registered "*"
    have all := first.length_le
    rw [handlersFor, List.length_append] at all
    omega
  exact emitted.trans (Nat.mul_le_mul_right n count)

/-- Handlers that each emit finitely much set off finitely many deliveries: in any order they end
with none in flight, none published is above the hop limit, and each was persisted before. -/
theorem chains_finite (b : Bus K ω δ) (n : ℕ) (few : ∀ type, ∀ handler ∈ b.handlersFor type,
    ∀ event w emitted w', handler event w = (.ok emitted, w') → emitted.length ≤ n) :
    (∃ m, b.EmitsAtMost m) ∧
      ∀ event d ks, event.hops = 0 →
        (∀ m, b.EmitsAtMost m → b.InFlightAt ks (b.begin event d) →
          ks.length ≤ ∑ i ∈ Finset.range (b.maxHops + 1), m ^ i) ∧
        (∃ more, b.InFlightAt more (b.deliverAll ks (b.begin event d)) ∧
          (b.deliverAll more (b.deliverAll ks (b.begin event d))).inFlight = []) ∧
        (∀ e ∈ publishedIn (b.deliverAll ks (b.begin event d)).bus.journal, e.hops ≤ b.maxHops) ∧
        b.PersistedFirst (b.deliverAll ks (b.begin event d)).bus.journal := by
  obtain ⟨m, most⟩ := exists_emitsAtMost n few
  refine ⟨⟨m, most⟩, fun event d ks first => ?_⟩
  have airborne := runSteps_invariant deliver_airborne ks (begin_spec (b := b) event d first 0).1
  refine ⟨fun m atMost inFlight => ?_, ?_, airborne.hops, airborne.persisted⟩
  · obtain ⟨begun, start⟩ := begin_spec (b := b) event d first m
    have shorter := runSteps_length_le (C := fun k (t : Flight K ω δ) => k < t.inFlight.length)
      (fun t => Generations.potential m b.left t.inFlight) deliver_airborne
      (deliver_lowers atMost) ks begun inFlight
    exact shorter.trans start
  · refine runSteps_exhausts (C := fun k (t : Flight K ω δ) => k < t.inFlight.length)
      (D := fun t => t.inFlight = []) (fun t => Generations.potential m b.left t.inFlight)
      deliver_airborne (deliver_lowers most) (fun t _ some => ⟨0, ?_⟩) airborne
    exact List.length_pos_iff.mpr some

/-! ### A handler that answers itself -/

def answering : EventHandler ℕ Unit := fun _ => pure [{ module := "reflex", type := "echo" }]

/-- A bus on which it may answer twice. -/
def echoBus : Bus ℕ Unit (WorkspaceEvent ℕ) where
  settings := {}
  clock _ := 0
  insert _ := pure 1
  publish _ := pure ()
  subscribers := [("echo", [answering])]
  maxHops := 2
  dump event := event
  parse event := some event
  parse_hops _ _ same := congrArg WorkspaceEvent.hops (Option.some.inj same).symm

def firstEcho : WorkspaceEvent ℕ := { module := "reflex", type := "echo" }

theorem answering_few (type : String) (handler : EventHandler ℕ Unit)
    (inside : handler ∈ echoBus.handlersFor type) : handler = answering := by
  unfold handlersFor registered echoBus at inside
  simp only [List.lookup_cons, List.lookup_nil, List.mem_append] at inside
  split at inside
  · simpa using inside
  · simp at inside

theorem self_answer_finite : (∃ m, echoBus.EmitsAtMost m ∧
      [0].length ≤ ∑ i ∈ Finset.range 3, m ^ i) ∧
    ∀ e ∈ publishedIn (echoBus.deliverAll [0, 0, 0]
      (echoBus.begin firstEcho { world := () })).bus.journal, e.hops ≤ 2 := by
  have few : ∀ type, ∀ handler ∈ echoBus.handlersFor type, ∀ event w emitted w',
      handler event w = (.ok emitted, w') → emitted.length ≤ 1 := by
    intro type handler inside event w emitted w' ran
    rw [answering_few type handler inside] at ran
    cases ran
    exact le_rfl
  obtain ⟨⟨m, most⟩, runs⟩ := chains_finite echoBus 1 few
  refine ⟨⟨m, most, (runs firstEcho { world := () } [0] rfl).1 m most ?_⟩,
    (runs firstEcho { world := () } [0, 0, 0] rfl).2.2.1⟩
  intro before k after split
  rcases before with _ | ⟨first, before⟩
  · cases split
    decide
  · simp at split

end Bus
end Johnny
