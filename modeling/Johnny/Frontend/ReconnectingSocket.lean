import Johnny.Lib.Runs
import Mathlib.Data.List.Basic

/-!
# The reconnecting socket

One object makes sockets, one after the other, and a timer for the next attempt. The
handlers of all its sockets write the same fields, whichever socket is the current one; so
the close of an old socket is taken for the close of the current one.
-/
namespace Johnny

inductive ReadyState where
  | connecting
  | open'
  | closing
  | closed
  deriving DecidableEq

def ReadyState.isLive : ReadyState → Bool
  | .connecting | .open' => true
  | _ => false

inductive ConnectionStatus where
  | connecting
  | open'
  | reconnecting
  | closed
  deriving DecidableEq

/-- What an attempt to connect meets: the token store, then the factory. -/
inductive Attempt where
  | noToken
  | throws
  | created
  deriving DecidableEq

/-- A frame handed to `onFrame`, with the socket that was current then. -/
structure Delivered (φ : Type) where
  socket : ℕ
  current : Option ℕ
  frame : φ

structure SocketOptions where
  initialBackoffMs : ℕ := 500
  maxBackoffMs : ℕ := 8000

structure ReconnectingSocket (φ : Type) where
  socket : Option ℕ := none
  stopped : Bool := false
  backoffMs : ℕ
  reconnectTimer : Option ℕ := none
  /-- The sockets made, by number. -/
  sockets : List ReadyState := []
  /-- The pending timers, with their delays. -/
  timers : List (ℕ × ℕ) := []
  nextTimer : ℕ := 0
  statuses : List ConnectionStatus := []
  frames : List (Delivered φ) := []
  authRejects : ℕ := 0
  /-- `start` was called, and neither `stop` nor a rejected token came since. -/
  started : Bool := false
  /-- `stop` was called, and no `start` since. -/
  ended : Bool := false

inductive SocketMove (φ : Type) where
  | start (attempt : Attempt)
  | stop
  | opened (i : ℕ)
  /-- A message, and what `JSON.parse` makes of its data, if it is a text at all. -/
  | message (i : ℕ) (frame : Option φ)
  | error (i : ℕ)
  | close (i : ℕ) (code : ℕ)
  /-- A pending timer fires. -/
  | fire (timer : ℕ) (attempt : Attempt)

def policyViolation : ℕ := 1008

namespace ReconnectingSocket
variable {φ : Type} (options : SocketOptions)

def onStatus (status : ConnectionStatus) (s : ReconnectingSocket φ) : ReconnectingSocket φ :=
  { s with statuses := s.statuses ++ [status] }

def scheduleReconnect (s : ReconnectingSocket φ) : ReconnectingSocket φ :=
  let s := s.onStatus .reconnecting
  { s with
    timers := s.timers ++ [(s.nextTimer, s.backoffMs)]
    reconnectTimer := some s.nextTimer
    nextTimer := s.nextTimer + 1
    backoffMs := min (s.backoffMs * 2) options.maxBackoffMs }

def connect (attempt : Attempt) (s : ReconnectingSocket φ) : ReconnectingSocket φ :=
  let attempting := s.onStatus
    (if s.backoffMs = options.initialBackoffMs then .connecting else .reconnecting)
  match attempt with
  | .noToken => s.onStatus .closed
  | .throws => attempting.scheduleReconnect options
  | .created =>
    { attempting with
      sockets := attempting.sockets ++ [.connecting]
      socket := some attempting.sockets.length }

def start (attempt : Attempt) (s : ReconnectingSocket φ) : ReconnectingSocket φ :=
  let s := { s with stopped := false, started := true, ended := false }
  if s.socket.isSome then s else s.connect options attempt

/-- `socket.close()`. -/
def closing (i : ℕ) (sockets : List ReadyState) : List ReadyState :=
  sockets.modify i fun state => if state.isLive then .closing else state

def stop (s : ReconnectingSocket φ) : ReconnectingSocket φ :=
  let s := { s with stopped := true, started := false, ended := true }
  let s := match s.reconnectTimer with
    | none => s
    | some timer =>
      { s with timers := s.timers.filter fun t => t.1 ≠ timer, reconnectTimer := none }
  let s := match s.socket with
    | none => s
    | some i => { s with socket := none, sockets := closing i s.sockets }
  s.onStatus .closed

def onOpen (s : ReconnectingSocket φ) : ReconnectingSocket φ :=
  { s with backoffMs := options.initialBackoffMs }.onStatus .open'

def onMessage (i : ℕ) (frame : Option φ) (s : ReconnectingSocket φ) : ReconnectingSocket φ :=
  match frame with
  | none => s
  | some frame => { s with frames := s.frames ++ [⟨i, s.socket, frame⟩] }

def onClose (code : ℕ) (s : ReconnectingSocket φ) : ReconnectingSocket φ :=
  let s := { s with socket := none }
  if s.stopped then s
  else if code = policyViolation then
    { s with stopped := true, started := false, authRejects := s.authRejects + 1 }.onStatus .closed
  else s.scheduleReconnect options

def onTimer (attempt : Attempt) (s : ReconnectingSocket φ) : ReconnectingSocket φ :=
  let s := { s with reconnectTimer := none }
  if s.stopped then s else s.connect options attempt

/-- One call or event. A socket opens once, and closes once. -/
def move : SocketMove φ → ReconnectingSocket φ → ReconnectingSocket φ
  | .start attempt, s => s.start options attempt
  | .stop, s => s.stop
  | .opened i, s =>
    if s.sockets[i]? = some .connecting then
      { s with sockets := s.sockets.set i .open' }.onOpen options
    else s
  | .message i frame, s => if i < s.sockets.length then s.onMessage i frame else s
  | .error _, s => s
  | .close i code, s =>
    if i < s.sockets.length ∧ s.sockets[i]? ≠ some .closed then
      { s with sockets := s.sockets.set i .closed }.onClose options code
    else s
  | .fire timer attempt, s =>
    if timer ∈ s.timers.map Prod.fst then
      { s with timers := s.timers.filter fun t => t.1 ≠ timer }.onTimer options attempt
    else s

/-- A new object, and its calls and events in any order. -/
def begin : ReconnectingSocket φ := { backoffMs := options.initialBackoffMs }

def run (moves : List (SocketMove φ)) : ReconnectingSocket φ :=
  runSteps (move options) moves (begin options)

/-- Connecting or open. -/
def Live (s : ReconnectingSocket φ) (i : ℕ) : Prop :=
  ∃ state, s.sockets[i]? = some state ∧ state.isLive

/-- At most one socket is live; after `stop` none is, and no timer is pending; and frames came from
the current socket only. -/
structure Safe (s : ReconnectingSocket φ) : Prop where
  one : ∀ i j, s.Live i → s.Live j → i = j
  ended : s.ended = true → (∀ i, ¬ s.Live i) ∧ s.timers = []
  frames : ∀ f ∈ s.frames, f.current = some f.socket

/-- What a call or event meets: `start` is not called again between two sockets; a message comes
from the current socket, or is no frame; and a close is that of the current socket, unless the
object is stopped, or has neither a socket nor a timer. -/
def Orderly : SocketMove φ → ReconnectingSocket φ → Prop
  | .start _, s => s.started = true → s.socket.isSome
  | .message i frame, s => frame.isSome → s.socket = some i
  | .close i _, s =>
    s.socket = some i ∨ s.stopped = true ∨ s.socket = none ∧ s.reconnectTimer = none
  | _, _ => True

/-! ### The sockets made -/

variable {options} {s : ReconnectingSocket φ}

theorem live_append {sockets : List ReadyState} {i : ℕ} {state : ReadyState}
    (found : (sockets ++ [.connecting])[i]? = some state) :
    sockets[i]? = some state ∨ i = sockets.length := by
  by_cases inside : i < sockets.length
  · exact .inl (by rwa [List.getElem?_append_left inside] at found)
  · have short : i < (sockets ++ [ReadyState.connecting]).length :=
      (List.getElem?_eq_some_iff.mp found).1
    rw [List.length_append, List.length_singleton] at short
    exact .inr (by omega)

theorem live_closed {sockets : List ReadyState} {i j : ℕ} {state : ReadyState}
    (found : (sockets.set i .closed)[j]? = some state) (live : state.isLive) :
    j ≠ i ∧ sockets[j]? = some state := by
  rw [List.getElem?_set] at found
  by_cases same : i = j
  · subst same
    simp only [if_true] at found
    split at found
    · cases found
      cases live
    · cases found
  · rw [if_neg same] at found
    exact ⟨Ne.symm same, found⟩

theorem live_closing {sockets : List ReadyState} {i j : ℕ} {state : ReadyState}
    (found : (closing i sockets)[j]? = some state) (live : state.isLive) :
    j ≠ i ∧ sockets[j]? = some state := by
  unfold closing at found
  rw [List.getElem?_modify] at found
  by_cases same : i = j
  · subst same
    obtain ⟨before, old, rfl⟩ := Option.map_eq_some_iff.mp found
    rw [if_pos rfl] at live
    cases before <;> cases live
  · exact ⟨Ne.symm same, by simpa [same] using found⟩

/-! ### Orderly runs -/

structure Steady (s : ReconnectingSocket φ) : Prop where
  live : ∀ i, s.Live i → s.socket = some i
  timers : s.timers.map Prod.fst = s.reconnectTimer.toList
  apart : s.socket.isSome → s.reconnectTimer = none
  resting : s.started = false →
    s.socket = none ∧ s.reconnectTimer = none ∧ (s.stopped = true ∨ s.sockets = [])
  running : s.started = true → s.stopped = false ∧ s.ended = false
  frames : ∀ f ∈ s.frames, f.current = some f.socket

/-- Started, with neither a socket nor a timer. -/
structure Idle (s : ReconnectingSocket φ) : Prop where
  socket : s.socket = none
  timer : s.reconnectTimer = none
  started : s.started = true

theorem Steady.safe (steady : s.Steady) : s.Safe := by
  refine ⟨fun i j first second => ?_, fun ended => ?_, steady.frames⟩
  · have same := steady.live i first
    rw [steady.live j second] at same
    exact (Option.some.inj same).symm
  · have rests : s.started = false := by
      cases started : s.started with
      | false => rfl
      | true =>
          have running := (steady.running started).2
          rw [ended] at running
          cases running
    obtain ⟨socket, timer, -⟩ := steady.resting rests
    refine ⟨fun i live => ?_, ?_⟩
    · have current := steady.live i live
      rw [socket] at current
      cases current
    · have timers := steady.timers
      rw [timer] at timers
      exact List.map_eq_nil_iff.mp timers

theorem Idle.noneLive (idle : s.Idle) (steady : s.Steady) (i : ℕ) : ¬ s.Live i := by
  intro live
  have current := steady.live i live
  rw [idle.socket] at current
  cases current

theorem Idle.scheduled (idle : s.Idle) (steady : s.Steady) :
    (s.scheduleReconnect options).Steady := by
  have none : s.timers = [] := by
    have timers := steady.timers
    rw [idle.timer] at timers
    exact List.map_eq_nil_iff.mp timers
  have started := idle.started
  refine ⟨steady.live, ?_, fun some => ?_, fun rests => ?_, steady.running, steady.frames⟩
  · simp [scheduleReconnect, onStatus, none]
  · simp [scheduleReconnect, onStatus, idle.socket] at some
  · exact absurd (rests.symm.trans started) nofun

theorem Idle.connected (idle : s.Idle) (steady : s.Steady) (attempt : Attempt) :
    (s.connect options attempt).Steady := by
  cases attempt with
  | noToken => exact ⟨steady.live, steady.timers, steady.apart, steady.resting, steady.running,
      steady.frames⟩
  | throws =>
      exact Idle.scheduled ⟨idle.socket, idle.timer, idle.started⟩ ⟨steady.live, steady.timers,
        steady.apart, steady.resting, steady.running, steady.frames⟩
  | created =>
      refine ⟨fun i live => ?_, steady.timers, fun _ => idle.timer, fun rests => ?_,
        steady.running, steady.frames⟩
      · obtain ⟨state, found, alive⟩ := live
        rcases live_append found with old | rfl
        · exact absurd ⟨state, old, alive⟩ (idle.noneLive steady i)
        · rfl
      · exact absurd (rests.symm.trans idle.started) nofun

theorem start_steady (steady : s.Steady) (attempt : Attempt)
    (orderly : s.started = true → s.socket.isSome) :
    (s.start options attempt).Steady ∧ (s.started = true → s.start options attempt = s) := by
  obtain ⟨socket, stopped, backoffMs, reconnectTimer, sockets, timers, nextTimer, statuses, frames,
    authRejects, started, ended⟩ := s
  cases started with
  | true =>
      obtain ⟨i, current⟩ := Option.isSome_iff_exists.mp (orderly rfl)
      obtain ⟨running, still⟩ := steady.running rfl
      dsimp only at current running still
      subst current running still
      exact ⟨steady, fun _ => rfl⟩
  | false =>
      obtain ⟨none, timer, -⟩ := steady.resting rfl
      dsimp only at none timer
      subst none timer
      have begun : Steady (φ := φ) ⟨none, false, backoffMs, none, sockets, timers, nextTimer,
          statuses, frames, authRejects, true, false⟩ :=
        ⟨steady.live, steady.timers, nofun, nofun, fun _ => ⟨rfl, rfl⟩, steady.frames⟩
      exact ⟨Idle.connected ⟨rfl, rfl, rfl⟩ begun attempt, nofun⟩

theorem cleared {timers : List (ℕ × ℕ)} {timer : ℕ} (all : timers.map Prod.fst = [timer]) :
    timers.filter (fun t => t.1 ≠ timer) = [] := by
  rw [List.filter_eq_nil_iff]
  intro t member
  have same : t.1 ∈ timers.map Prod.fst := List.mem_map_of_mem member
  rw [all, List.mem_singleton] at same
  simp [same]

theorem stop_steady (steady : s.Steady) : s.stop.Steady := by
  obtain ⟨socket, stopped, backoffMs, reconnectTimer, sockets, timers, nextTimer, statuses, frames,
    authRejects, started, ended⟩ := s
  have others : ∀ i state, sockets[i]? = some state → state.isLive → socket = some i :=
    fun i state found live => steady.live i ⟨state, found, live⟩
  cases reconnectTimer with
  | none =>
      have none : timers.map Prod.fst = [] := steady.timers
      cases socket with
      | none =>
          exact ⟨fun i live => steady.live i live, none, nofun, fun _ => ⟨rfl, rfl, .inl rfl⟩, nofun,
            steady.frames⟩
      | some i =>
          refine ⟨fun j ⟨state, found, live⟩ => ?_, none, nofun, fun _ => ⟨rfl, rfl, .inl rfl⟩, nofun,
            steady.frames⟩
          obtain ⟨other, old⟩ := live_closing found live
          exact absurd (Option.some.inj (others j state old live)).symm other
  | some timer =>
      have none := cleared steady.timers
      cases socket with
      | none =>
          refine ⟨fun i live => steady.live i live, ?_, nofun, fun _ => ⟨rfl, rfl, .inl rfl⟩, nofun,
            steady.frames⟩
          change (timers.filter fun t => t.1 ≠ timer).map Prod.fst = []
          rw [none, List.map_nil]
      | some i => cases steady.apart rfl

theorem opened_steady (steady : s.Steady) {i : ℕ} (connecting : s.sockets[i]? = some .connecting) :
    ({ s with sockets := s.sockets.set i .open' }.onOpen options).Steady := by
  refine ⟨fun j ⟨state, found, live⟩ => ?_, steady.timers, steady.apart, fun rests => ?_,
    steady.running, steady.frames⟩
  · by_cases same : i = j
    · subst same
      exact steady.live i ⟨_, connecting, rfl⟩
    · refine steady.live j ⟨state, ?_, live⟩
      simpa [onOpen, onStatus, List.getElem?_set, same] using found
  · obtain ⟨socket, timer, -⟩ := steady.resting rests
    have current := steady.live i ⟨_, connecting, rfl⟩
    rw [socket] at current
    cases current

theorem message_steady (steady : s.Steady) (i : ℕ) (frame : Option φ)
    (orderly : frame.isSome → s.socket = some i) : (s.onMessage i frame).Steady := by
  cases frame with
  | none => exact steady
  | some frame =>
      refine ⟨steady.live, steady.timers, steady.apart, steady.resting, steady.running, ?_⟩
      intro f member
      rcases List.mem_append.mp member with before | new
      · exact steady.frames f before
      · rw [List.mem_singleton.mp new]
        exact orderly rfl

theorem Steady.rests (steady : s.Steady) (stopped : s.stopped = true) : s.started = false := by
  cases started : s.started with
  | false => rfl
  | true =>
      have running := (steady.running started).1
      rw [stopped] at running
      cases running

theorem close_steady (steady : s.Steady) {i : ℕ} (known : i < s.sockets.length) (code : ℕ)
    (orderly : s.socket = some i ∨ s.stopped = true ∨ s.socket = none ∧ s.reconnectTimer = none) :
    ({ s with sockets := s.sockets.set i .closed }.onClose options code).Steady := by
  have noneLive : ∀ (j : ℕ) (state : ReadyState), (s.sockets.set i .closed)[j]? = some state →
      state.isLive → False := by
    intro j state found live
    obtain ⟨other, old⟩ := live_closed found live
    have current := steady.live j ⟨state, old, live⟩
    rcases orderly with own | stopped | ⟨none, -⟩
    · rw [own] at current
      exact other (Option.some.inj current).symm
    · rw [(steady.resting (steady.rests stopped)).1] at current
      cases current
    · rw [none] at current
      cases current
  have timer : s.reconnectTimer = none := by
    rcases orderly with own | stopped | ⟨-, none⟩
    · exact steady.apart (by rw [own]; rfl)
    · exact (steady.resting (steady.rests stopped)).2.1
    · exact none
  have alive : s.stopped = false → s.started = true := by
    intro running
    by_contra notStarted
    obtain ⟨-, -, stopped | empty⟩ := steady.resting (Bool.eq_false_iff.mpr notStarted)
    · rw [running] at stopped
      cases stopped
    · rw [empty] at known
      cases known
  obtain ⟨socket, stopped, backoffMs, reconnectTimer, sockets, timers, nextTimer, statuses, frames,
    authRejects, started, ended⟩ := s
  dsimp only at timer
  subst timer
  cases stopped with
  | true =>
      exact ⟨fun j ⟨state, found, live⟩ => (noneLive j state found live).elim, steady.timers, nofun,
        fun _ => ⟨rfl, rfl, .inl rfl⟩, steady.running, steady.frames⟩
  | false =>
      have begun := alive rfl
      dsimp only at begun
      subst begun
      simp only [onClose, Bool.false_eq_true, if_false]
      split
      · exact ⟨fun j ⟨state, found, live⟩ => (noneLive j state found live).elim, steady.timers,
          nofun, fun _ => ⟨rfl, rfl, .inl rfl⟩, nofun, steady.frames⟩
      · refine Idle.scheduled ⟨rfl, rfl, rfl⟩ ⟨fun j ⟨state, found, live⟩ => ?_, steady.timers, nofun,
          nofun, steady.running, steady.frames⟩
        exact (noneLive j state found live).elim

theorem fire_steady (steady : s.Steady) {timer : ℕ} (pending : timer ∈ s.timers.map Prod.fst)
    (attempt : Attempt) :
    ({ s with timers := s.timers.filter fun t => t.1 ≠ timer }.onTimer options attempt).Steady := by
  have timers := steady.timers
  cases waiting : s.reconnectTimer with
  | none =>
      rw [timers, waiting] at pending
      cases pending
  | some id =>
      rw [waiting] at timers
      have same : timer = id := by
        rw [timers] at pending
        exact List.mem_singleton.mp pending
      subst same
      have socket : s.socket = none := by
        cases current : s.socket with
        | none => rfl
        | some i =>
            have none := steady.apart (by rw [current]; rfl)
            rw [waiting] at none
            cases none
      have started : s.started = true := by
        by_contra notStarted
        obtain ⟨-, none, -⟩ := steady.resting (Bool.eq_false_iff.mpr notStarted)
        rw [waiting] at none
        cases none
      obtain ⟨running, still⟩ := steady.running started
      have gone := cleared timers
      obtain ⟨_, stopped, backoffMs, _, sockets, pendings, nextTimer, statuses, frames, authRejects,
        _, ended⟩ := s
      dsimp only at socket started running waiting gone
      subst socket started running waiting
      have fired : Steady (φ := φ) ⟨none, false, backoffMs, none, sockets,
          pendings.filter fun t => t.1 ≠ timer, nextTimer, statuses, frames, authRejects, true,
          ended⟩ := by
        refine ⟨steady.live, ?_, nofun, nofun, steady.running, steady.frames⟩
        dsimp only
        rw [gone]
        rfl
      exact Idle.connected ⟨rfl, rfl, rfl⟩ fired attempt

theorem move_steady (m : SocketMove φ) (s : ReconnectingSocket φ) (orderly : Orderly m s)
    (steady : s.Steady) : (move options m s).Steady := by
  cases m with
  | start attempt => exact (start_steady steady attempt orderly).1
  | stop => exact stop_steady steady
  | opened i =>
      simp only [move]
      split
      · next connecting => exact opened_steady steady connecting
      · exact steady
  | message i frame =>
      simp only [move]
      split
      · exact message_steady steady i frame orderly
      · exact steady
  | error i => exact steady
  | close i code =>
      simp only [move]
      split
      · next known => exact close_steady steady known.1 code orderly
      · exact steady
  | fire timer attempt =>
      simp only [move]
      split
      · next pending => exact fire_steady steady pending attempt
      · exact steady

theorem begin_steady : (begin (φ := φ) options).Steady :=
  ⟨fun _ ⟨_, found, _⟩ => (nomatch found), rfl, nofun, fun _ => ⟨rfl, rfl, .inr rfl⟩, nofun, nofun⟩

/-- In an orderly run at most one socket is live, nothing is left after `stop`, frames come from the
current socket, and a `start` while started changes nothing. -/
theorem run_safe (options : SocketOptions) (moves : List (SocketMove φ))
    (orderly : ∀ before m after, moves = before ++ m :: after → Orderly m (run options before)) :
    (∀ before after, moves = before ++ after → (run options before).Safe) ∧
      ∀ before attempt after, moves = before ++ .start attempt :: after →
        (run options before).started = true →
          (run options before).start options attempt = run options before := by
  refine ⟨fun before after split => ?_, fun before attempt after split started => ?_⟩
  · refine Steady.safe (runSteps_invariant_of (C := Orderly) move_steady before ?_ begin_steady)
    intro earlier m later inner
    refine orderly earlier m (later ++ after) ?_
    rw [split, inner, List.append_assoc, List.cons_append]
  · have steady := runSteps_invariant_at (C := Orderly) move_steady orderly begin_steady split
    exact (start_steady steady attempt (orderly before _ after split)).2 started

/-! ### Disorderly runs -/

/-- The close of a stopped socket comes after the next `start`. -/
def lateClose : List (SocketMove Unit) :=
  [.start .created, .stop, .start .created, .close 0 1005, .fire 0 .created]

/-- `start` is called again while the timer is pending. -/
def startedTwice : List (SocketMove Unit) :=
  [.start .created, .close 0 1006, .start .created, .fire 0 .created]

/-- A message of a stopped socket. -/
def lateMessage : List (SocketMove Unit) :=
  [.start .created, .opened 0, .stop, .message 0 (some ())]

theorem disorderly_runs_unsafe : ¬ (run {} lateClose).Safe ∧ ¬ (run {} startedTwice).Safe ∧
    ¬ (run {} lateMessage).Safe := by
  refine ⟨fun safe => ?_, fun safe => ?_, fun safe => ?_⟩
  · have same := safe.one 1 2 ⟨.connecting, rfl, rfl⟩ ⟨.connecting, rfl, rfl⟩
    cases same
  · have same := safe.one 1 2 ⟨.connecting, rfl, rfl⟩ ⟨.connecting, rfl, rfl⟩
    cases same
  · have late : (run {} lateMessage).frames = [⟨0, none, ()⟩] := rfl
    have current := safe.frames ⟨0, none, ()⟩ (by rw [late]; exact List.mem_singleton_self _)
    cases current

/-- A connection that breaks and is made again. -/
theorem reconnected_run_safe : (run (φ := Unit) {} [.start .created, .opened 0, .message 0 (some ()),
    .close 0 1006, .fire 0 .created, .start .created, .stop]).Safe := by
  refine (run_safe {} _ ?_).1 _ [] (List.append_nil _).symm
  unfold run
  repeat rw [each_cons]
  exact ⟨nofun, trivial, fun _ => rfl, .inl rfl, trivial, fun _ => rfl, trivial, each_nil⟩

end ReconnectingSocket
end Johnny
