import Johnny.Brain.Bus

/-!
# Broken handlers and broken broadcasts

A dispatch calls every subscribed handler and broadcasts all that they emit, exactly where
no broadcast of it fails.
-/
namespace Johnny
namespace Bus
variable {K ω δ : Type} (b : Bus K ω δ)

/-! ### What it should do -/

/-- The handlers that a type concerns, each once. -/
def subscribed (type : String) : List (EventHandler K ω) :=
  b.registered type ++ if type = "*" then [] else b.registered "*"

def heard (event : WorkspaceEvent K) (s : BusState K ω) : List (BusEntry K ω) :=
  (b.dispatch event s).2.journal.drop s.journal.length

/-- The dispatch returns, has called every handler subscribed to the event once, and has
broadcast every emission of those that returned, or none at the hop limit. -/
structure Isolated (event : WorkspaceEvent K) (s : BusState K ω) : Prop where
  returns : (b.dispatch event s).1 = .ok ()
  calls : (callsIn (b.heard event s)).Perm (b.subscribed event.type)
  offers : offersIn (b.heard event s) =
    if event.hops < b.maxHops then (emissionsIn (b.heard event s)).map (again event) else []

/-- The listener goes on over all polls, and every dispatch is isolated. -/
structure ListensOn (polls : List (Option δ)) (s : BusState K ω) : Prop where
  returns : (b.listen polls s).1 = .ok ()
  isolated : ∀ before data event after, polls = before ++ some data :: after →
    b.parse data = some event → b.Isolated event (b.listen before s).2

/-! ### Where it does -/

/-- The log takes the row of the event, and the bus its message. -/
def Takes (event : WorkspaceEvent K) (s : BusState K ω) : Prop :=
  let safe := b.safe event (b.clock s.durable.world)
  ∃ id w, b.insert safe s.durable.world = (.ok id, w) ∧
    (b.publish { safe with id := some id } w).1 = .ok ()

/-- A handler that raises an `Exception`, is at the hop limit, or emits what can be broadcast. -/
def Spares (event : WorkspaceEvent K) (handler : EventHandler K ω) (s : BusState K ω) : Prop :=
  match (handler event s.durable.world).1 with
  | .error failure => failure.isException = true
  | .ok emitted => event.hops < b.maxHops → ∀ before out after, emitted = before ++ out :: after →
    b.Takes (again event out) (b.rebroadcast event before (afterCall event handler s)).2

/-- No handler of the event has an emission that cannot be broadcast, each handler in the state
that those before it leave. -/
def Unbroken (event : WorkspaceEvent K) (s : BusState K ω) : Prop :=
  ∀ before handler after, b.handlersFor event.type = before ++ handler :: after →
    b.Spares event handler (Prog.forEach before (b.react event) s).2

/-- Nothing is subscribed to all events, where that is the event's own type. -/
def NotDoubled (event : WorkspaceEvent K) : Prop := event.type = "*" → b.registered "*" = []

variable {b} {event : WorkspaceEvent K} {s : BusState K ω}

theorem broadcast_ok_iff (event : WorkspaceEvent K) (s : BusState K ω) :
    ((do let _ ← b.broadcast event) s).1 = .ok () ↔ b.Takes event s := by
  unfold broadcast Workspace.persist BusState.note BusState.inside Durable.outside Takes
  simp only [Prog.bind_apply, Prog.modify_apply, Prog.reads_apply, Prog.zoom]
  rcases b.insert (b.safe event (b.clock s.durable.world)) s.durable.world with ⟨_ | id, w⟩
  · simp
  · simp only [Prog.pure_apply]
    rcases accepted : b.publish { b.safe event (b.clock s.durable.world) with id := some id } w
      with ⟨_ | _, w'⟩ <;> simp [accepted]

theorem react_ok_iff (handler : EventHandler K ω) (s : BusState K ω) :
    (b.react event handler s).1 = .ok () ↔ b.Spares event handler s := by
  rw [react_apply]
  unfold Spares
  rcases (handler event s.durable.world).1 with failure | emitted
  · dsimp only
    split <;> simp_all
  · dsimp only
    split
    · next limit => exact iff_of_true rfl fun below => absurd limit (Nat.not_le_of_lt below)
    · next below =>
        rw [forall_prop_of_true (Nat.lt_of_not_le below), rebroadcast, Prog.forEach_ok_iff]
        simp only [broadcast_ok_iff]
        rfl

theorem dispatch_ok_iff : (b.dispatch event s).1 = .ok () ↔ b.Unbroken event s := by
  unfold dispatch Unbroken
  rw [Prog.forEach_ok_iff]
  simp only [react_ok_iff]

/-- The handlers are called in order, and all that they emit is offered below the limit. -/
theorem carried_journal {handlers : List (EventHandler K ω)} {news : List (BusEntry K ω)}
    (each : Prog.Each (b.Carried event) handlers news) : callsIn news = handlers ∧
      offersIn news =
        if event.hops < b.maxHops then (emissionsIn news).map (again event) else [] := by
  induction each with
  | nil => simp [callsIn, offersIn, emissionsIn]
  | @cons handler _ news _ carried _ ih =>
      have own : callsIn news = [handler] ∧ offersIn news =
          if event.hops < b.maxHops then (emissionsIn news).map (again event) else [] := by
        cases carried with
        | raised =>
            refine ⟨rfl, ?_⟩
            split <;> rfl
        | limited limit => exact ⟨rfl, (if_neg (Nat.not_lt.mpr limit)).symm⟩
        | @resent emitted news below resent =>
            obtain ⟨calls, emissions, offers⟩ := resent_journal resent
            rw [if_pos below]
            change handler :: callsIn news = [handler] ∧
              offersIn news = (emitted ++ emissionsIn news).map (again event)
            rw [calls, emissions, offers, List.append_nil]
            exact ⟨rfl, rfl⟩
      rw [callsIn_append, offersIn_append, emissionsIn_append, own.1, own.2, ih.1, ih.2]
      refine ⟨rfl, ?_⟩
      split
      · rw [List.map_append]
      · rfl

theorem isolated_iff (event : WorkspaceEvent K) (s : BusState K ω) :
    b.Isolated event s ↔ b.NotDoubled event ∧ b.Unbroken event s := by
  obtain ⟨news, grown, -, all⟩ := dispatch_writes (b := b) event s
  have heard : b.heard event s = news := by rw [Bus.heard, grown, List.drop_left]
  rw [← dispatch_ok_iff]
  constructor
  · intro ⟨returns, calls, _⟩
    refine ⟨fun every => ?_, returns⟩
    rw [heard, (carried_journal (all returns)).1] at calls
    have count := calls.length_eq
    rw [handlersFor, subscribed, every] at count
    simpa using count
  · intro ⟨single, returns⟩
    obtain ⟨calls, offers⟩ := carried_journal (all returns)
    refine ⟨returns, ?_, by rw [heard]; exact offers⟩
    rw [heard, calls, handlersFor, subscribed]
    by_cases every : event.type = "*"
    · rw [if_pos every, single every]
    · rw [if_neg every]

/-- Every dispatch is isolated exactly where what its handlers emit can be broadcast, and the
listener goes on exactly as long as every dispatch is. -/
theorem dispatch_and_listen_iff (b : Bus K ω δ) (s : BusState K ω) :
    (∀ event, b.Isolated event s ↔ b.NotDoubled event ∧ b.Unbroken event s) ∧
      ∀ polls, b.ListensOn polls s ↔ ∀ before data event after,
        polls = before ++ some data :: after → b.parse data = some event →
          b.NotDoubled event ∧ b.Unbroken event (b.listen before s).2 := by
  refine ⟨fun event => isolated_iff event s, fun polls => ⟨fun on => ?_, fun each => ⟨?_, ?_⟩⟩⟩
  · intro before data event after split parsed
    exact (isolated_iff event _).mp (on.isolated before data event after split parsed)
  · unfold listen
    rw [Prog.forEach_ok_iff]
    intro before polled after split
    cases polled with
    | none => rfl
    | some data =>
        rw [Prog.onSome_some, receive]
        cases parsed : b.parse data with
        | none => rfl
        | some event => exact dispatch_ok_iff.mpr (each before data event after split parsed).2
  · intro before data event after split parsed
    exact (isolated_iff event _).mpr (each before data event after split parsed)

/-! ### An emission that cannot be published -/

def echoing : EventHandler ℚ Unit := fun _ => pure [{ module := "reflex", type := "echo" }]

def silent : EventHandler ℚ Unit := fun _ => pure []

def downBus : Bus ℚ Unit (WorkspaceEvent ℚ) where
  settings := {}
  clock _ := 0
  insert _ := pure 1
  publish _ := Prog.raise (.exception (.other "ConnectionError") "Connection refused")
  subscribers := [("thought", [echoing, silent])]
  dump event := event
  parse event := some event
  parse_hops _ _ same := congrArg WorkspaceEvent.hops (Option.some.inj same).symm

def heardThought : WorkspaceEvent ℚ := { module := "narrator", type := "thought" }

/-- The emission of the first handler ends the dispatch; the second handler is not called. -/
theorem failed_emission_ends_dispatch :
    ¬ downBus.Isolated heardThought { durable := { world := () } } := by
  intro isolated
  have called := isolated.calls.length_eq
  revert called
  decide

end Bus
end Johnny
