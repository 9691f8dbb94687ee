import Johnny.Brain.Workspace
import Johnny.Lib.Journal

/-!
# The bus and its handlers

A dispatch calls the handlers of an event, one after another, and broadcasts again what
each emits. What a handler raises is skipped. What such a broadcast raises is not: it ends
the dispatch, and the listener with it.
-/
namespace Johnny

/-- What a handler emits on an event, or raises. -/
abbrev EventHandler (K ω : Type) :=
  WorkspaceEvent K → Prog Failure ω (List (WorkspaceEvent K))

/-- What happens on the bus. -/
inductive BusEntry (K ω : Type) where
  /-- A handler was called: what it emitted, or nothing where it raised. -/
  | called (handler : EventHandler K ω) (emitted : Option (List (WorkspaceEvent K)))
  /-- A broadcast began. -/
  | offered (event : WorkspaceEvent K)
  | persisted (event : WorkspaceEvent K)
  | published (event : WorkspaceEvent K)

/-- The logs, and everything that happened on the bus in its order. -/
structure BusState (K ω : Type) where
  durable : Durable K ω
  journal : List (BusEntry K ω) := []

namespace BusState
variable {K ω α : Type}

def note (entry : BusEntry K ω) : Prog Failure (BusState K ω) Unit :=
  Prog.modify fun s => { s with journal := s.journal ++ [entry] }

/-- On the logs. -/
def inside (p : Prog Failure (Durable K ω) α) : Prog Failure (BusState K ω) α :=
  Prog.zoom durable (fun d s => { s with durable := d }) p

end BusState

/-- The workspace with its subscribers. Messages travel as `δ`. -/
structure Bus (K ω δ : Type) extends Workspace K ω where
  subscribers : List (String × List (EventHandler K ω)) := []
  maxHops : ℕ := 8
  /-- `model_dump_json`. -/
  dump : WorkspaceEvent K → δ
  /-- `_parse`: nothing where the validation fails. -/
  parse : δ → Option (WorkspaceEvent K)
  /-- The hop count survives the way through the text. -/
  parse_hops (e e' : WorkspaceEvent K) : parse (dump e) = some e' → e'.hops = e.hops

namespace Bus
variable {K ω δ : Type} (b : Bus K ω δ)
open BusState

/-- `broadcast`, noting what happens. -/
def broadcast (event : WorkspaceEvent K) : Prog Failure (BusState K ω) (WorkspaceEvent K) := do
  note (.offered event)
  let now ← Prog.reads fun s => b.clock s.durable.world
  let persisted ← inside (b.persist (b.safe event now))
  note (.persisted persisted)
  inside (Durable.outside (b.publish persisted))
  inside (Prog.modify fun d => { d with published := d.published ++ [persisted] })
  note (.published persisted)
  pure persisted

/-- `self._subscribers.get(event_type, [])`. -/
def registered (type : String) : List (EventHandler K ω) := (b.subscribers.lookup type).getD []

def handlersFor (type : String) : List (EventHandler K ω) := b.registered type ++ b.registered "*"

/-- `out.model_copy(update={"hops": event.hops + 1})`. -/
def again (event out : WorkspaceEvent K) : WorkspaceEvent K := { out with hops := event.hops + 1 }

/-- Broadcasts again what a handler emitted. -/
def rebroadcast (event : WorkspaceEvent K) (emitted : List (WorkspaceEvent K)) :
    Prog Failure (BusState K ω) Unit :=
  Prog.forEach emitted fun out => do
    let _ ← b.broadcast (again event out)

/-- Calls a handler, noting what it emits. -/
def call (event : WorkspaceEvent K) (handler : EventHandler K ω) :
    Prog Failure (BusState K ω) (Except Failure (List (WorkspaceEvent K))) := do
  let answer ← Prog.outcome (inside (Durable.outside (handler event)))
  note (.called handler answer.toOption)
  pure answer

/-- One handler of a dispatch. -/
def react (event : WorkspaceEvent K) (handler : EventHandler K ω) :
    Prog Failure (BusState K ω) Unit := do
  match ← call event handler with
  | .error failure => if failure.isException then pure () else Prog.raise failure
  -- Nothing emitted is nothing broadcast; at the hop limit what is emitted is dropped.
  | .ok emitted => if b.maxHops ≤ event.hops then pure () else b.rebroadcast event emitted

def dispatch (event : WorkspaceEvent K) : Prog Failure (BusState K ω) Unit :=
  Prog.forEach (b.handlersFor event.type) (b.react event)

/-- One round of `run`, on the data of a message. -/
def receive (data : δ) : Prog Failure (BusState K ω) Unit := Prog.onSome (b.parse data) b.dispatch

/-- `run`, over what the polls bring. It ends with what a round raises. -/
def listen (polls : List (Option δ)) : Prog Failure (BusState K ω) Unit :=
  Prog.forEach polls fun polled => Prog.onSome polled b.receive

/-- The journal apart, a broadcast of the bus is one of the workspace. -/
theorem broadcast_durable (event : WorkspaceEvent K) (s : BusState K ω) :
    ((b.broadcast event s).1, (b.broadcast event s).2.durable) =
      b.toWorkspace.broadcast event s.durable := by
  unfold broadcast Workspace.broadcast inside note
  simp only [Prog.bind_apply, Prog.modify_apply, Prog.reads_apply, Prog.zoom]
  rcases b.persist (b.safe event (b.clock s.durable.world)) s.durable with ⟨_ | persisted, d⟩
  · rfl
  · simp only
    rcases Durable.outside (b.publish persisted) d with ⟨_ | _, d'⟩ <;> rfl

end Bus

/-! ### Reading a journal -/

namespace BusEntry
variable {K ω : Type} (entry : BusEntry K ω)

def call? : Option (EventHandler K ω) :=
  match entry with
  | .called handler _ => some handler
  | _ => none

def emitted : List (WorkspaceEvent K) :=
  match entry with
  | .called _ emitted => emitted.getD []
  | _ => []

def offer? : Option (WorkspaceEvent K) :=
  match entry with
  | .offered event => some event
  | _ => none

def published? : Option (WorkspaceEvent K) :=
  match entry with
  | .published event => some event
  | _ => none

end BusEntry

section journal
variable {K ω : Type}

def callsIn (journal : List (BusEntry K ω)) : List (EventHandler K ω) :=
  journal.filterMap BusEntry.call?

def emissionsIn (journal : List (BusEntry K ω)) : List (WorkspaceEvent K) :=
  journal.flatMap BusEntry.emitted

def offersIn (journal : List (BusEntry K ω)) : List (WorkspaceEvent K) :=
  journal.filterMap BusEntry.offer?

def publishedIn (journal : List (BusEntry K ω)) : List (WorkspaceEvent K) :=
  journal.filterMap BusEntry.published?

variable (j k : List (BusEntry K ω))

@[simp] theorem callsIn_append : callsIn (j ++ k) = callsIn j ++ callsIn k := by simp [callsIn]

@[simp] theorem emissionsIn_append : emissionsIn (j ++ k) = emissionsIn j ++ emissionsIn k := by
  simp [emissionsIn]

@[simp] theorem offersIn_append : offersIn (j ++ k) = offersIn j ++ offersIn k := by
  simp [offersIn]

@[simp] theorem publishedIn_append : publishedIn (j ++ k) = publishedIn j ++ publishedIn k := by
  simp [publishedIn]

end journal

/-! ### What happens in a dispatch -/

namespace Bus
variable {K ω δ : Type} {b : Bus K ω δ} {event : WorkspaceEvent K}
open BusState

/-- What is stored and published of an event: its payload is redacted, its hops stay. -/
structure SafeOf (b : Bus K ω δ) (event e : WorkspaceEvent K) : Prop where
  payload : e.payload = Redaction.redactPayload b.settings event.payload
  hops : e.hops = event.hops

/-- What a broadcast notes, wherever it ends. -/
inductive Sent (b : Bus K ω δ) (event : WorkspaceEvent K) : List (BusEntry K ω) → Prop
  | refused : Sent b event [.offered event]
  | unsent {e} : b.SafeOf event e → Sent b event [.offered event, .persisted e]
  | sent {e} : b.SafeOf event e → Sent b event [.offered event, .persisted e, .published e]

/-- What is broadcast again of an emission: some first part, or all that is emitted. -/
def Resent (b : Bus K ω δ) (event : WorkspaceEvent K) :
    List (WorkspaceEvent K) → List (BusEntry K ω) → Prop :=
  Prog.Each fun out news => b.Sent (again event out) news

/-- What a handler does, and what becomes of it. -/
inductive Reacted (b : Bus K ω δ) (event : WorkspaceEvent K) (handler : EventHandler K ω) :
    List (BusEntry K ω) → Prop
  | raised : Reacted b event handler [.called handler none]
  | limited {emitted : List (WorkspaceEvent K)} (ran : ∃ w w', handler event w = (.ok emitted, w')) :
      b.maxHops ≤ event.hops → Reacted b event handler [.called handler (some emitted)]
  | resent {emitted done : List (WorkspaceEvent K)} {news : List (BusEntry K ω)}
      (ran : ∃ w w', handler event w = (.ok emitted, w')) : event.hops < b.maxHops →
      done <+: emitted → b.Resent event done news →
      Reacted b event handler (.called handler (some emitted) :: news)

/-- What a handler does that raises nothing further. -/
inductive Carried (b : Bus K ω δ) (event : WorkspaceEvent K) (handler : EventHandler K ω) :
    List (BusEntry K ω) → Prop
  | raised : Carried b event handler [.called handler none]
  | limited {emitted : List (WorkspaceEvent K)} :
      b.maxHops ≤ event.hops → Carried b event handler [.called handler (some emitted)]
  | resent {emitted : List (WorkspaceEvent K)} {news : List (BusEntry K ω)} :
      event.hops < b.maxHops → b.Resent event emitted news →
      Carried b event handler (.called handler (some emitted) :: news)

theorem safeOf_safe (now : K) (id : Option ℕ) : b.SafeOf event { b.safe event now with id := id } := by
  refine ⟨b.safe_payload event now, ?_⟩
  unfold Workspace.safe Workspace.stamped
  split <;> rfl

theorem sent_journal {news : List (BusEntry K ω)} (sent : b.Sent event news) :
    callsIn news = [] ∧ emissionsIn news = [] ∧ offersIn news = [event] := by
  cases sent <;> exact ⟨rfl, rfl, rfl⟩

theorem resent_journal {emitted : List (WorkspaceEvent K)} {news : List (BusEntry K ω)}
    (resent : b.Resent event emitted news) :
    callsIn news = [] ∧ emissionsIn news = [] ∧ offersIn news = emitted.map (again event) := by
  induction resent with
  | nil => exact ⟨rfl, rfl, rfl⟩
  | cons sent _ ih =>
      obtain ⟨calls, emissions, offers⟩ := ih
      obtain ⟨noCalls, noEmissions, offered⟩ := sent_journal sent
      simp [calls, emissions, offers, noCalls, noEmissions, offered]

theorem broadcast_writes (event : WorkspaceEvent K) :
    Prog.Writes BusState.journal (b.broadcast event) fun _ news => b.Sent event news := by
  intro s
  unfold broadcast Workspace.persist note inside Durable.outside
  simp only [Prog.bind_apply, Prog.modify_apply, Prog.reads_apply, Prog.zoom]
  rcases b.insert (b.safe event (b.clock s.durable.world)) s.durable.world with ⟨_ | id, w⟩
  · exact ⟨_, rfl, .refused⟩
  · simp only [Prog.pure_apply]
    rcases b.publish { b.safe event (b.clock s.durable.world) with id := some id } w with ⟨_ | _, w'⟩
    · exact ⟨_, List.append_assoc _ _ _, .unsent (safeOf_safe _ _)⟩
    · refine ⟨_, ?_, .sent (safeOf_safe (b.clock s.durable.world) (some id))⟩
      simp

theorem rebroadcast_writes (event : WorkspaceEvent K) (emitted : List (WorkspaceEvent K)) :
    Prog.Writes BusState.journal (b.rebroadcast event emitted) fun r news =>
      (∃ done, done <+: emitted ∧ b.Resent event done news) ∧
        (r = .ok () → b.Resent event emitted news) := by
  have each : ∀ out, Prog.Writes BusState.journal
      (do let _ ← b.broadcast (again event out)) fun _ news => b.Sent (again event out) news := by
    intro out s
    obtain ⟨news, grown, sent⟩ := broadcast_writes (again event out) s
    refine ⟨news, ?_, sent⟩
    rw [Prog.bind_apply]
    rcases ran : b.broadcast (again event out) s with ⟨_ | _, t⟩ <;> rwa [ran] at grown
  intro s
  obtain ⟨news, grown, ⟨done, first, some⟩, all⟩ := Prog.Writes.forEach each emitted s
  exact ⟨news, grown, ⟨done, first, some.mono fun _ _ ⟨_, sent⟩ => sent⟩, all⟩

/-- The state once a handler has ended, before anything is broadcast. -/
def afterCall (event : WorkspaceEvent K) (handler : EventHandler K ω) (s : BusState K ω) :
    BusState K ω :=
  let ended := handler event s.durable.world
  { durable := { s.durable with world := ended.2 }
    journal := s.journal ++ [.called handler ended.1.toOption] }

theorem react_apply (event : WorkspaceEvent K) (handler : EventHandler K ω) (s : BusState K ω) :
    b.react event handler s = (match (handler event s.durable.world).1 with
      | .error failure => if failure.isException then pure () else Prog.raise failure
      | .ok emitted => if b.maxHops ≤ event.hops then pure () else b.rebroadcast event emitted)
        (afterCall event handler s) := rfl

theorem react_writes (event : WorkspaceEvent K) (handler : EventHandler K ω) :
    Prog.Writes BusState.journal (b.react event handler) fun r news =>
      b.Reacted event handler news ∧ (r = .ok () → b.Carried event handler news) := by
  intro s
  rw [react_apply]
  have noted : (afterCall event handler s).journal =
      s.journal ++ [.called handler (handler event s.durable.world).1.toOption] := rfl
  rcases ran : handler event s.durable.world with ⟨failure | emitted, w⟩
  · rw [ran] at noted
    refine ⟨_, ?_, .raised, fun _ => .raised⟩
    dsimp only
    split <;> exact noted
  · rw [ran] at noted
    dsimp only
    split
    · next limit => exact ⟨_, noted, .limited ⟨_, _, ran⟩ limit, fun _ => .limited limit⟩
    · next below =>
        have below := Nat.lt_of_not_le below
        obtain ⟨news, grown, ⟨done, first, some⟩, all⟩ := rebroadcast_writes event emitted
          (afterCall event handler s)
        refine ⟨.called handler (.some emitted) :: news, ?_, .resent ⟨_, _, ran⟩ below first some,
          fun returned => .resent below (all returned)⟩
        rw [grown, noted, List.append_assoc]
        rfl

theorem dispatch_writes (event : WorkspaceEvent K) :
    Prog.Writes BusState.journal (b.dispatch event) fun r news =>
      (∃ done, done <+: b.handlersFor event.type ∧ Prog.Each (b.Reacted event) done news) ∧
        (r = .ok () → Prog.Each (b.Carried event) (b.handlersFor event.type) news) := by
  intro s
  obtain ⟨news, grown, ⟨done, first, some⟩, all⟩ :=
    Prog.Writes.forEach (react_writes event) (b.handlersFor event.type) s
  exact ⟨news, grown, ⟨done, first, some.mono fun _ _ ⟨_, reacted⟩ => reacted.1⟩,
    fun returned => (all returned).mono fun _ _ carried => carried.2 rfl⟩

end Bus
end Johnny
