import Johnny.Agents.Sensorium
import Johnny.Lib.Parties

/-!
# Sending a message

A request looks at the depth of the input queue, pushes its message and looks again, one command
after the other, while other requests, other interfaces and the drains of the ticks come in
between. Redis answers every command, fails it, or takes it and loses the answer.
-/
namespace Johnny

def inputSource : String := "web"

/-- An entry of the queue. The sender is not in the source: it tells two equal messages apart. -/
structure Queued where
  text : String
  sender : Option ℕ := none

/-- The queue, and what the drains have taken from its head, in order, which nothing reads. -/
structure Ingress where
  waiting : List Queued := []
  drained : List Queued := []

namespace Ingress

/-- `rpush`. -/
def push (s : Ingress) (entry : Queued) : Ingress := { s with waiting := s.waiting ++ [entry] }

/-- `lpop`, of at most so many entries. -/
def drain (s : Ingress) (maxItems : ℕ) : Ingress where
  waiting := s.waiting.drop maxItems
  drained := s.drained ++ s.waiting.take maxItems

/-- All that was ever on the queue, in the order of the pushes. -/
def history (s : Ingress) : List Queued := s.drained ++ s.waiting

theorem push_history (s : Ingress) (entry : Queued) :
    (s.push entry).history = s.history ++ [entry] := (List.append_assoc _ _ _).symm

theorem drain_history (s : Ingress) (maxItems : ℕ) : (s.drain maxItems).history = s.history := by
  unfold history drain
  rw [List.append_assoc, List.take_append_drop]

/-- How many messages of requests wait. -/
def web (s : Ingress) : ℕ := s.waiting.countP fun entry => entry.sender.isSome

theorem push_web (s : Ingress) (entry : Queued) :
    (s.push entry).web = s.web + if entry.sender.isSome then 1 else 0 := by
  unfold web push
  rw [List.countP_append, List.countP_singleton]

theorem drain_web (s : Ingress) (maxItems : ℕ) : (s.drain maxItems).web ≤ s.web :=
  (List.drop_sublist maxItems s.waiting).countP_le

end Ingress

structure InputResponse where
  status : ℕ
  detail : String := ""
  queueDepth : Option ℕ := none

/-- Where a request of a client stands: before which command. -/
inductive Posting where
  | idle
  | checking (text : String)
  | pushing (text : String)
  | counting (text : String)

/-- A client that sends one request after the other, with the answers so far. -/
structure InputClient where
  posting : Posting := .idle
  answers : List (String × InputResponse) := []

def InputClient.answer (c : InputClient) (text : String) (response : InputResponse) :
    InputClient where
  posting := .idle
  answers := c.answers ++ [(text, response)]

inductive InputEvent where
  | post (text : String)
  /-- Redis serves the command that is pending. -/
  | served
  /-- The command fails. -/
  | broken
  /-- The command is taken, but its answer is lost. -/
  | lost
  /-- A tick drains the queue. -/
  | drain (maxItems : ℕ)
  /-- Another interface pushes. -/
  | typed (raw : RawInput)

structure InputGate where
  webInputMaxChars : ℤ
  webInputMaxQueueDepth : ℤ
  /-- `item.model_dump_json()`. -/
  dumpJson : RawInput → String

namespace InputGate

def entry (g : InputGate) (text : String) : String := g.dumpJson { raw := text, source := inputSource }

def blankText : InputResponse := ⟨422, "Value error, text must not be blank", none⟩

def tooLong (g : InputGate) : InputResponse :=
  ⟨413, "text exceeds " ++ toString g.webInputMaxChars ++ " characters", none⟩

def queueFull : InputResponse :=
  ⟨429, "input queue is full — Johnny hasn't caught up yet, retry shortly", none⟩

def accepted (depth : ℕ) : InputResponse := ⟨202, "", some depth⟩

def serverError : InputResponse := ⟨500, "Internal Server Error", none⟩

/-- A request comes in: its text is looked at before any command. -/
def post (g : InputGate) (text : String) (c : InputClient) : InputClient :=
  if strip text = "" then c.answer text blankText
  else if g.webInputMaxChars < text.length then c.answer text g.tooLong
  else { c with posting := .checking text }

/-- The pending command is served. -/
def serve (g : InputGate) (i : ℕ) (s : Ingress) (c : InputClient) : Ingress × InputClient :=
  match c.posting with
  | .idle => (s, c)
  | .checking text =>
    if g.webInputMaxQueueDepth ≤ s.waiting.length then (s, c.answer text queueFull)
    else (s, { c with posting := .pushing text })
  | .pushing text => (s.push ⟨g.entry text, some i⟩, { c with posting := .counting text })
  | .counting text => (s, c.answer text (accepted s.waiting.length))

/-- The pending command fails, or takes effect all the same. -/
def fail (g : InputGate) (i : ℕ) (taken : Bool) (s : Ingress) (c : InputClient) :
    Ingress × InputClient :=
  match c.posting with
  | .idle => (s, c)
  | .checking text => (s, c.answer text serverError)
  | .pushing text =>
    (if taken then s.push ⟨g.entry text, some i⟩ else s, c.answer text serverError)
  | .counting text => (s, c.answer text serverError)

def move (g : InputGate) (i : ℕ) : InputEvent → Ingress × InputClient → Ingress × InputClient
  | .post text, (s, c) =>
    match c.posting with
    | .idle => (s, g.post text c)
    | _ => (s, c)
  | .served, (s, c) => g.serve i s c
  | .broken, (s, c) => g.fail i false s c
  | .lost, (s, c) => g.fail i true s c
  | .drain maxItems, (s, c) => (s.drain maxItems, c)
  | .typed raw, (s, c) => (s.push ⟨g.dumpJson raw, none⟩, c)

/-- Clients before their first request, over what other interfaces have left on the queue. -/
def begin (texts : List String) : Parties Ingress InputClient where
  shared := { waiting := texts.map fun text => ⟨text, none⟩ }
  party _ := {}

def run (g : InputGate) (moves : List (ℕ × InputEvent)) (s : Parties Ingress InputClient) :
    Parties Ingress InputClient := runSteps (Parties.step g.move) moves s

/-- What a move is to put on the queue: the message of a request whose push is taken, or what
another interface pushes. -/
def pushes (g : InputGate) (i : ℕ) : InputEvent → InputClient → List Queued
  | .served, c | .lost, c =>
    match c.posting with
    | .pushing text => [⟨g.entry text, some i⟩]
    | _ => []
  | .typed raw, _ => [⟨g.dumpJson raw, none⟩]
  | .post _, _ | .broken, _ | .drain _, _ => []

/-- All that the moves of a run are to put there, in their order. -/
def pushed (g : InputGate) :
    List (ℕ × InputEvent) → Parties Ingress InputClient → List Queued
  | [], _ => []
  | (i, e) :: moves, s => g.pushes i e (s.party i) ++ g.pushed moves (Parties.step g.move (i, e) s)

/-! ### What a move can do -/

/-- The text of a request that passed the looks at it. -/
structure Fits (g : InputGate) (text : String) : Prop where
  solid : strip text ≠ ""
  short : (text.length : ℤ) ≤ g.webInputMaxChars

inductive Moved (g : InputGate) (i : ℕ) (s : Ingress) (c : InputClient) :
    Ingress × InputClient → Prop
  | stayed : Moved g i s c (s, c)
  | blank {text} (idle : c.posting = .idle) (blank : strip text = "") :
      Moved g i s c (s, c.answer text blankText)
  | long {text} (idle : c.posting = .idle) (solid : strip text ≠ "")
      (long : g.webInputMaxChars < text.length) : Moved g i s c (s, c.answer text g.tooLong)
  | came {text} (idle : c.posting = .idle) (fits : g.Fits text) :
      Moved g i s c (s, { c with posting := .checking text })
  | full {text} (checking : c.posting = .checking text)
      (full : g.webInputMaxQueueDepth ≤ s.waiting.length) :
      Moved g i s c (s, c.answer text queueFull)
  | admitted {text} (checking : c.posting = .checking text)
      (room : s.waiting.length < g.webInputMaxQueueDepth) :
      Moved g i s c (s, { c with posting := .pushing text })
  | pushed {text} (pushing : c.posting = .pushing text) :
      Moved g i s c (s.push ⟨g.entry text, some i⟩, { c with posting := .counting text })
  | counted {text} (counting : c.posting = .counting text) :
      Moved g i s c (s, c.answer text (accepted s.waiting.length))
  | failed {text} (unpushed : c.posting = .checking text ∨ c.posting = .pushing text) :
      Moved g i s c (s, c.answer text serverError)
  | uncounted {text} (counting : c.posting = .counting text) :
      Moved g i s c (s, c.answer text serverError)
  | lost {text} (pushing : c.posting = .pushing text) :
      Moved g i s c (s.push ⟨g.entry text, some i⟩, c.answer text serverError)
  | drained (maxItems : ℕ) : Moved g i s c (s.drain maxItems, c)
  | typed (raw : RawInput) : Moved g i s c (s.push ⟨g.dumpJson raw, none⟩, c)

theorem move_spec (g : InputGate) (i : ℕ) (e : InputEvent) (s : Ingress) (c : InputClient) :
    Moved g i s c (g.move i e (s, c)) := by
  cases e with
  | post text =>
      cases at_ : c.posting with
      | idle =>
          simp only [move, at_, post]
          split
          next blank => exact .blank at_ blank
          next solid =>
            split
            next long => exact .long at_ solid long
            next short => exact .came at_ ⟨solid, not_lt.mp short⟩
      | checking text' => simp only [move, at_]; exact .stayed
      | pushing text' => simp only [move, at_]; exact .stayed
      | counting text' => simp only [move, at_]; exact .stayed
  | served =>
      cases at_ : c.posting with
      | idle => simp only [move, serve, at_]; exact .stayed
      | checking text =>
          simp only [move, serve, at_]
          split
          next full => exact .full at_ full
          next room => exact .admitted at_ (not_le.mp room)
      | pushing text => simp only [move, serve, at_]; exact .pushed at_
      | counting text => simp only [move, serve, at_]; exact .counted at_
  | broken =>
      cases at_ : c.posting with
      | idle => simp only [move, fail, at_]; exact .stayed
      | checking text => simp only [move, fail, at_]; exact .failed (.inl at_)
      | pushing text => simp only [move, fail, at_]; exact .failed (.inr at_)
      | counting text => simp only [move, fail, at_]; exact .uncounted at_
  | lost =>
      cases at_ : c.posting with
      | idle => simp only [move, fail, at_]; exact .stayed
      | checking text => simp only [move, fail, at_]; exact .failed (.inl at_)
      | pushing text => simp only [move, fail, at_]; exact .lost at_
      | counting text => simp only [move, fail, at_]; exact .uncounted at_
  | drain maxItems => exact .drained maxItems
  | typed raw => exact .typed raw

/-! ### How full the queue can get -/

/-- A request that was let in and has not pushed yet. -/
def letIn (c : InputClient) : ℕ :=
  match c.posting with
  | .pushing _ => 1
  | _ => 0

theorem letIn_le (c : InputClient) : letIn c ≤ 1 := by
  unfold letIn
  split
  · exact le_rfl
  · exact Nat.zero_le 1

theorem move_letIn (g : InputGate) (i : ℕ) (e : InputEvent) (s : Ingress) (c : InputClient) :
    (g.move i e (s, c)).1.web + letIn (g.move i e (s, c)).2 ≤ s.web + letIn c ∨
      (s.web < g.webInputMaxQueueDepth.toNat ∧ (g.move i e (s, c)).1.web ≤ s.web) := by
  have moved := g.move_spec i e s c
  have pushes (text : String) : (s.push ⟨g.entry text, some i⟩).web = s.web + 1 :=
    s.push_web _
  generalize g.move i e (s, c) = after at moved ⊢
  cases moved with
  | stayed => exact .inl le_rfl
  | blank idle _ => exact .inl (by simp [letIn, idle, InputClient.answer])
  | long idle _ _ => exact .inl (by simp [letIn, idle, InputClient.answer])
  | came idle _ => exact .inl (by simp [letIn, idle])
  | full checking _ => exact .inl (by simp [letIn, checking, InputClient.answer])
  | admitted checking room =>
      right
      have few : s.web ≤ s.waiting.length := List.countP_le_length
      exact ⟨by omega, le_rfl⟩
  | pushed pushing => exact .inl (by simp [letIn, pushing, pushes])
  | counted counting => exact .inl (by simp [letIn, counting, InputClient.answer])
  | failed unpushed => exact .inl (by simp [letIn, InputClient.answer])
  | uncounted counting => exact .inl (by simp [letIn, InputClient.answer])
  | lost pushing => exact .inl (by simp [letIn, pushing, pushes, InputClient.answer])
  | drained maxItems => exact .inl (Nat.add_le_add_right (s.drain_web maxItems) _)
  | typed raw =>
      left
      rw [Ingress.push_web]
      exact le_rfl

/-! ### What becomes of a message -/

/-- What a client has on the queue, or had, in order. -/
def sent (i : ℕ) (s : Ingress) : List String :=
  (s.history.filter fun entry => entry.sender == some i).map Queued.text

/-- The texts of the answers of some statuses, in order. -/
def textsOf (statuses : List ℕ) (c : InputClient) : List String :=
  (c.answers.filter fun answer => decide (answer.2.status ∈ statuses)).map Prod.fst

/-- The message that is pushed and not answered yet. -/
def unanswered (c : InputClient) : List String :=
  match c.posting with
  | .counting text => [text]
  | _ => []

/-- An answer is about its text where that alone decides. -/
structure Right (g : InputGate) (text : String) (status : ℕ) : Prop where
  blank : status = 422 ↔ strip text = ""
  long : status = 413 ↔ strip text ≠ "" ∧ g.webInputMaxChars < text.length

/-- What a client knows of its messages: the accepted ones are on the queue, each once and in
order, and beside them at most some whose request failed. -/
structure Own (g : InputGate) (i : ℕ) (s : Ingress) (c : InputClient) : Prop where
  delivered : ∃ done, sent i s = done.map g.entry ++ (unanswered c).map g.entry ∧
    (textsOf [202] c).Sublist done ∧ done.Sublist (textsOf [202, 500] c)
  right : ∀ answer ∈ c.answers, g.Right answer.1 answer.2.status
  fits : ∀ text, c.posting = .checking text ∨ c.posting = .pushing text ∨
    c.posting = .counting text → g.Fits text

theorem sent_push (i j : ℕ) (text : String) (s : Ingress) :
    sent i (s.push ⟨text, some j⟩) = sent i s ++ if j = i then [text] else [] := by
  unfold sent
  rw [Ingress.push_history, List.filter_append, List.map_append]
  by_cases same : j = i
  · simp [same]
  · simp [same]

theorem sent_typed (i : ℕ) (text : String) (s : Ingress) :
    sent i (s.push ⟨text, none⟩) = sent i s := by
  unfold sent
  rw [Ingress.push_history, List.filter_append, List.map_append]
  simp

theorem sent_drain (i : ℕ) (maxItems : ℕ) (s : Ingress) : sent i (s.drain maxItems) = sent i s := by
  unfold sent
  rw [Ingress.drain_history]

theorem textsOf_answer (statuses : List ℕ) (c : InputClient) (text : String)
    (response : InputResponse) : textsOf statuses (c.answer text response) =
      textsOf statuses c ++ if response.status ∈ statuses then [text] else [] := by
  unfold textsOf InputClient.answer
  rw [List.filter_append, List.map_append]
  by_cases listed : response.status ∈ statuses
  · simp [listed]
  · simp [listed]

section own
variable {g : InputGate} {i : ℕ} {s s' : Ingress} {c : InputClient} {text : String}
  {response : InputResponse}

/-- An answer closes a request, with its message on the queue or not. -/
theorem Own.answer (own : g.Own i s c) (right : g.Right text response.status)
    (message : List String) (onQueue : sent i s' = sent i s ++ message.map g.entry)
    (told : unanswered c ++ message = [] ∧ response.status ≠ 202 ∨
      unanswered c ++ message = [text] ∧ (response.status = 202 ∨ response.status = 500)) :
    g.Own i s' (c.answer text response) where
  delivered := by
    obtain ⟨done, now, least, most⟩ := own.delivered
    refine ⟨done ++ (unanswered c ++ message), ?_, ?_, ?_⟩
    · rw [onQueue, now, List.map_append, List.map_append]
      simp [unanswered, InputClient.answer]
    · rw [textsOf_answer]
      refine least.append ?_
      rcases told with ⟨nothing, other⟩ | ⟨one, -⟩
      · rw [if_neg (by simpa using other)]
        exact List.nil_sublist _
      · rw [one]
        split
        · exact List.Sublist.refl _
        · exact List.nil_sublist _
    · rw [textsOf_answer]
      refine most.append ?_
      rcases told with ⟨nothing, -⟩ | ⟨one, listed⟩
      · rw [nothing]
        exact List.nil_sublist _
      · rw [one, if_pos (by simpa using listed)]
  right := by
    intro answer inside
    rcases List.mem_append.mp inside with old | new
    · exact own.right answer old
    · rw [List.mem_singleton.mp new]
      exact right
  fits := by
    intro t at_
    simp [InputClient.answer] at at_

/-- Where the client's own messages and its request stay. -/
theorem Own.stay (own : g.Own i s c) (same : sent i s' = sent i s) : g.Own i s' c where
  delivered := by
    obtain ⟨done, now, bounds⟩ := own.delivered
    exact ⟨done, same.trans now, bounds⟩
  right := own.right
  fits := own.fits

/-- A status that no look at the text gives, of a text that passed them. -/
theorem Fits.right (fits : g.Fits text) {status : ℕ} (blank : status ≠ 422) (long : status ≠ 413) :
    g.Right text status where
  blank := iff_of_false blank fits.solid
  long := iff_of_false long fun ⟨_, tooLong⟩ => tooLong.not_ge fits.short

theorem Own.moved (own : g.Own i s c) {after : Ingress × InputClient}
    (moved : g.Moved i s c after) : g.Own i after.1 after.2 := by
  cases moved with
  | stayed => exact own
  | @blank text idle blank =>
      refine own.answer ⟨iff_of_true rfl blank, ?_⟩ [] (List.append_nil _).symm (.inl ⟨?_, ?_⟩)
      · exact iff_of_false (by decide) fun ⟨solid, _⟩ => solid blank
      · rw [unanswered, idle]
        rfl
      · decide
  | @long text idle solid long =>
      refine own.answer ⟨iff_of_false (Nat.succ_ne_succ_iff.mpr (by decide)) solid, ?_⟩ [] (List.append_nil _).symm
        (.inl ⟨?_, ?_⟩)
      · exact iff_of_true rfl ⟨solid, long⟩
      · rw [unanswered, idle]
        rfl
      · exact Nat.succ_ne_succ_iff.mpr (by decide)
  | @came text idle fits =>
      obtain ⟨done, now, bounds⟩ := own.delivered
      refine ⟨⟨done, ?_, bounds⟩, own.right, ?_⟩
      · rw [now, unanswered, idle]
        rfl
      · intro t at_
        obtain rfl : text = t := by simpa using at_
        exact fits
  | @full text checking full =>
      refine own.answer ((own.fits text (.inl checking)).right (by decide) (by decide))
        [] (List.append_nil _).symm (.inl ⟨?_, by decide⟩)
      rw [unanswered, checking]
      rfl
  | @admitted text checking room =>
      obtain ⟨done, now, bounds⟩ := own.delivered
      refine ⟨⟨done, ?_, bounds⟩, own.right, ?_⟩
      · rw [now, unanswered, checking]
        rfl
      · intro t at_
        obtain rfl : text = t := by simpa using at_
        exact own.fits text (.inl checking)
  | @pushed text pushing =>
      obtain ⟨done, now, bounds⟩ := own.delivered
      refine ⟨⟨done, ?_, bounds⟩, own.right, ?_⟩
      · rw [sent_push, if_pos rfl, now, unanswered, pushing]
        simp [unanswered]
      · intro t at_
        obtain rfl : text = t := by simpa using at_
        exact own.fits text (.inr (.inl pushing))
  | @counted text counting =>
      refine own.answer ((own.fits text (.inr (.inr counting))).right (by simp [accepted])
        (by simp [accepted])) [] (List.append_nil _).symm (.inr ⟨?_, .inl rfl⟩)
      rw [unanswered, counting]
      rfl
  | @failed text unpushed =>
      refine own.answer ((own.fits text (unpushed.imp_right .inl)).right (by decide) (by decide))
        [] (List.append_nil _).symm (.inl ⟨?_, by decide⟩)
      rcases unpushed with checking | pushing
      · rw [unanswered, checking]
        rfl
      · rw [unanswered, pushing]
        rfl
  | @uncounted text counting =>
      refine own.answer ((own.fits text (.inr (.inr counting))).right (by decide) (by decide))
        [] (List.append_nil _).symm (.inr ⟨?_, .inr rfl⟩)
      rw [unanswered, counting]
      rfl
  | @lost text pushing =>
      refine own.answer ((own.fits text (.inr (.inl pushing))).right (by decide) (by decide)) [text]
        ?_ (.inr ⟨?_, .inr rfl⟩)
      · rw [sent_push, if_pos rfl]
        rfl
      · rw [unanswered, pushing]
        rfl
  | drained maxItems => exact own.stay (sent_drain i maxItems s)
  | typed raw => exact own.stay (sent_typed i _ s)

/-- No client touches what another one has sent. -/
theorem Moved.others {after : Ingress × InputClient} (moved : g.Moved i s c after) {j : ℕ}
    (other : i ≠ j) : sent j after.1 = sent j s := by
  cases moved with
  | pushed pushing => rw [sent_push, if_neg other, List.append_nil]
  | lost pushing => rw [sent_push, if_neg other, List.append_nil]
  | drained maxItems => exact sent_drain j maxItems s
  | typed raw => exact sent_typed j _ s
  | stayed | blank | long | came | full | admitted | counted | failed | uncounted => rfl

theorem move_keeps (g : InputGate) :
    Parties.Keeps g.move (fun _ => True) (fun i s c => g.Own i s c) fun _ _ => True where
  shared _ _ _ _ _ _ := trivial
  own i e s c _ own := own.moved (g.move_spec i e s c)
  others i e s c _ _ apart _ _ _ theirs := theirs.stay ((g.move_spec i e s c).others apart)
  apart _ _ _ _ _ _ _ _ _ _ := trivial
  symm _ _ _ := trivial

end own

/-- A push goes behind all that was pushed before, and nothing else touches the history. -/
theorem move_history (g : InputGate) (i : ℕ) (e : InputEvent) (s : Ingress) (c : InputClient) :
    (g.move i e (s, c)).1.history = s.history ++ g.pushes i e c := by
  cases e with
  | post text =>
      simp only [move, pushes, List.append_nil]
      split <;> rfl
  | served =>
      cases at_ : c.posting with
      | pushing text => simp only [move, serve, pushes, at_, Ingress.push_history]
      | checking text =>
          simp only [move, serve, pushes, at_, List.append_nil]
          split <;> rfl
      | idle => simp only [move, serve, pushes, at_, List.append_nil]
      | counting text => simp only [move, serve, pushes, at_, List.append_nil]
  | broken =>
      cases at_ : c.posting <;> simp [move, fail, pushes, at_]
  | lost =>
      cases at_ : c.posting with
      | pushing text => simp only [move, fail, pushes, at_, if_true, Ingress.push_history]
      | idle => simp only [move, fail, pushes, at_, List.append_nil]
      | checking text => simp only [move, fail, pushes, at_, List.append_nil]
      | counting text => simp only [move, fail, pushes, at_, List.append_nil]
  | drain maxItems => simp only [move, pushes, Ingress.drain_history, List.append_nil]
  | typed raw => exact s.push_history _

/-- The history of a run: what was there, and then each push in its turn. -/
theorem run_history (g : InputGate) (moves : List (ℕ × InputEvent))
    (s : Parties Ingress InputClient) :
    (g.run moves s).shared.history = s.shared.history ++ g.pushed moves s := by
  induction moves generalizing s with
  | nil => exact (List.append_nil _).symm
  | cons m moves ih =>
      have first : (Parties.step g.move m s).shared.history =
          s.shared.history ++ g.pushes m.1 m.2 (s.party m.1) :=
        g.move_history m.1 m.2 s.shared (s.party m.1)
      calc (g.run (m :: moves) s).shared.history
          = (Parties.step g.move m s).shared.history ++
              g.pushed moves (Parties.step g.move m s) := ih _
        _ = s.shared.history ++ g.pushed (m :: moves) s := by
              rw [first, List.append_assoc]
              rfl

theorem begin_held (g : InputGate) (texts : List String) : (begin texts).Held (fun _ => True)
    (fun i s c => g.Own i s c) fun _ _ => True where
  shared := trivial
  own i := by
    refine ⟨⟨[], ?_, List.Sublist.refl _, List.Sublist.refl _⟩, List.forall_mem_nil _, ?_⟩
    · unfold sent begin Ingress.history
      rw [List.nil_append, List.filter_eq_nil_iff.mpr]
      · rfl
      · intro entry inside
        obtain ⟨text, -, rfl⟩ := List.mem_map.mp inside
        exact Bool.false_ne_true
    · intro text at_
      simp [begin] at at_
  apart _ _ _ := trivial

/-! ### The overshoot is real -/

section burst
variable {g : InputGate} {text : String} {n k : ℕ} {s : Parties Ingress InputClient}

/-- No request is under way, and so many messages wait. -/
structure Quiet (k : ℕ) (s : Parties Ingress InputClient) : Prop where
  waiting : s.shared.waiting.length = k
  web : s.shared.web = k
  idle : ∀ i, (s.party i).posting = .idle

/-- One client after the other fills the queue. -/
def fill (text : String) : ℕ → List (ℕ × InputEvent)
  | 0 => []
  | k + 1 => fill text k ++ [(0, .post text), (0, .served), (0, .served), (0, .served)]

/-- All look before any of them pushes. -/
def lookAll (text : String) : ℕ → List (ℕ × InputEvent)
  | 0 => []
  | m + 1 => lookAll text m ++ [(m, .post text), (m, .served)]

def pushAll : ℕ → List (ℕ × InputEvent)
  | 0 => []
  | m + 1 => pushAll m ++ [(m, .served)]

theorem step_post (fits : g.Fits text) {i : ℕ} (idle : (s.party i).posting = .idle) :
    Parties.step g.move (i, .post text) s =
      ⟨s.shared, Function.update s.party i { s.party i with posting := .checking text }⟩ := by
  unfold Parties.step
  simp only [move, idle, post, if_neg fits.solid, if_neg (not_lt.mpr fits.short)]

theorem step_look {i : ℕ} (checking : (s.party i).posting = .checking text)
    (room : (s.shared.waiting.length : ℤ) < g.webInputMaxQueueDepth) :
    Parties.step g.move (i, .served) s =
      ⟨s.shared, Function.update s.party i { s.party i with posting := .pushing text }⟩ := by
  unfold Parties.step
  simp only [move, serve, checking, if_neg (not_le.mpr room)]

theorem step_push {i : ℕ} (pushing : (s.party i).posting = .pushing text) :
    Parties.step g.move (i, .served) s =
      ⟨s.shared.push ⟨g.entry text, some i⟩,
        Function.update s.party i { s.party i with posting := .counting text }⟩ := by
  unfold Parties.step
  simp only [move, serve, pushing]

theorem step_count {i : ℕ} (counting : (s.party i).posting = .counting text) :
    Parties.step g.move (i, .served) s = ⟨s.shared, Function.update s.party i
      ((s.party i).answer text (accepted s.shared.waiting.length))⟩ := by
  unfold Parties.step
  simp only [move, serve, counting]

/-- A client that finds room is let in. -/
theorem run_look (fits : g.Fits text) {i : ℕ} (idle : (s.party i).posting = .idle)
    (room : (s.shared.waiting.length : ℤ) < g.webInputMaxQueueDepth) :
    g.run [(i, .post text), (i, .served)] s =
      ⟨s.shared, Function.update s.party i { s.party i with posting := .pushing text }⟩ := by
  change Parties.step g.move (i, .served) (Parties.step g.move (i, .post text) s) = _
  rw [step_post fits idle]
  have checking : (Function.update s.party i { s.party i with posting := .checking text } i).posting =
      .checking text := by rw [Function.update_self]
  rw [step_look (s := ⟨s.shared, _⟩) checking room]
  simp

/-- A client that was let in pushes and is answered. -/
theorem run_push {i : ℕ} (pushing : (s.party i).posting = .pushing text) :
    g.run [(i, .served), (i, .served)] s = ⟨s.shared.push ⟨g.entry text, some i⟩,
      Function.update s.party i
        ((s.party i).answer text (accepted (s.shared.waiting.length + 1)))⟩ := by
  change Parties.step g.move (i, .served) (Parties.step g.move (i, .served) s) = _
  rw [step_push pushing]
  have counting : (Function.update s.party i { s.party i with posting := .counting text } i).posting =
      .counting text := by rw [Function.update_self]
  rw [step_count (s := ⟨s.shared.push ⟨g.entry text, some i⟩, _⟩) counting]
  simp [InputClient.answer, Ingress.push]

theorem fill_quiet (fits : g.Fits text) (quiet : Quiet 0 s)
    (room : (k : ℤ) ≤ g.webInputMaxQueueDepth) : Quiet k (g.run (fill text k) s) := by
  induction k with
  | zero => exact quiet
  | succ k ih =>
      have before := ih (by omega)
      have split : g.run (fill text (k + 1)) s = g.run [(0, .served), (0, .served)]
          (g.run [(0, .post text), (0, .served)] (g.run (fill text k) s)) := runSteps_append _ _ _ _
      rw [split]
      generalize g.run (fill text k) s = t at before ⊢
      have room : (t.shared.waiting.length : ℤ) < g.webInputMaxQueueDepth := by
        rw [before.waiting]
        omega
      rw [run_look fits (before.idle 0) room]
      have pushing : (Function.update t.party 0 { t.party 0 with posting := .pushing text } 0).posting =
          .pushing text := by rw [Function.update_self]
      rw [run_push (s := ⟨t.shared, _⟩) pushing]
      refine ⟨?_, ?_, fun i => ?_⟩
      · simp [Ingress.push, before.waiting]
      · rw [Ingress.push_web, before.web]
        rfl
      · by_cases first : i = 0
        · subst first
          simp [InputClient.answer]
        · simp [first, before.idle i]

/-- The first `m` clients have looked, and the others are idle. -/
structure Looked (text : String) (k m : ℕ) (s : Parties Ingress InputClient) : Prop where
  waiting : s.shared.waiting.length = k
  web : s.shared.web = k
  in' : ∀ i < m, (s.party i).posting = .pushing text
  idle : ∀ i, m ≤ i → (s.party i).posting = .idle

theorem lookAll_looked (fits : g.Fits text) (quiet : Quiet k s)
    (room : (k : ℤ) < g.webInputMaxQueueDepth) (m : ℕ) :
    Looked text k m (g.run (lookAll text m) s) := by
  induction m with
  | zero => exact ⟨quiet.waiting, quiet.web, by simp, fun i _ => quiet.idle i⟩
  | succ m ih =>
      have split : g.run (lookAll text (m + 1)) s =
          g.run [(m, .post text), (m, .served)] (g.run (lookAll text m) s) :=
        runSteps_append _ _ _ _
      rw [split]
      generalize g.run (lookAll text m) s = t at ih ⊢
      rw [run_look fits (ih.idle m le_rfl) (by rw [ih.waiting]; exact room)]
      refine ⟨ih.waiting, ih.web, fun i below => ?_, fun i above => ?_⟩
      · by_cases last : i = m
        · simp [last]
        · simp [last, ih.in' i (by omega)]
      · have other : i ≠ m := by omega
        simp [other, ih.idle i (by omega)]

theorem pushAll_web (looked : Looked text k n s) {m : ℕ} (few : m ≤ n) :
    (g.run (pushAll m) s).shared.web = k + m ∧
      ∀ i, m ≤ i → i < n → ((g.run (pushAll m) s).party i).posting = .pushing text := by
  induction m with
  | zero => exact ⟨looked.web, fun i _ below => looked.in' i below⟩
  | succ m ih =>
      obtain ⟨web, rest⟩ := ih (by omega)
      have split : g.run (pushAll (m + 1)) s = g.run [(m, .served)] (g.run (pushAll m) s) :=
        runSteps_append _ _ _ _
      rw [split]
      generalize g.run (pushAll m) s = t at web rest ⊢
      change (Parties.step g.move (m, .served) t).shared.web = _ ∧ ∀ i, _ → _ →
        ((Parties.step g.move (m, .served) t).party i).posting = _
      rw [step_push (rest m le_rfl (by omega))]
      refine ⟨?_, fun i above below => ?_⟩
      · rw [Ingress.push_web, web]
        rfl
      · have other : i ≠ m := by omega
        simp [other, rest i (by omega) below]

theorem fill_among (positive : 0 < n) (text : String) (k : ℕ) : ∀ i ∈ fill text k, i.1 < n := by
  induction k with
  | zero => exact List.forall_mem_nil _
  | succ k ih =>
      refine List.forall_mem_append.mpr ⟨ih, ?_⟩
      simp [positive]

theorem lookAll_among (text : String) {m : ℕ} (few : m ≤ n) : ∀ i ∈ lookAll text m, i.1 < n := by
  induction m with
  | zero => exact List.forall_mem_nil _
  | succ m ih =>
      refine List.forall_mem_append.mpr ⟨ih (by omega), ?_⟩
      exact List.forall_mem_cons.mpr ⟨few, List.forall_mem_singleton.mpr few⟩

theorem pushAll_among {m : ℕ} (few : m ≤ n) : ∀ i ∈ pushAll m, i.1 < n := by
  induction m with
  | zero => exact List.forall_mem_nil _
  | succ m ih =>
      exact List.forall_mem_append.mpr ⟨ih (by omega), List.forall_mem_singleton.mpr few⟩

/-- With `n` clients at once the queue gets as much fuller as that. -/
theorem overshoot (fits : g.Fits text) (open' : 0 < g.webInputMaxQueueDepth) (positive : 0 < n) :
    ∃ moves, (∀ i ∈ moves, i.1 < n) ∧
      (g.run moves (begin [])).shared.web = g.webInputMaxQueueDepth.toNat - 1 + n := by
  have quiet : Quiet 0 (begin []) := ⟨rfl, rfl, fun _ => rfl⟩
  have full := fill_quiet (k := g.webInputMaxQueueDepth.toNat - 1) fits quiet (by omega)
  have looked := lookAll_looked fits full (by omega) n
  refine ⟨fill text (g.webInputMaxQueueDepth.toNat - 1) ++ (lookAll text n ++ pushAll n), ?_, ?_⟩
  · refine List.forall_mem_append.mpr ⟨fill_among positive text _, ?_⟩
    exact List.forall_mem_append.mpr ⟨lookAll_among text le_rfl, pushAll_among le_rfl⟩
  · have split : g.run (fill text (g.webInputMaxQueueDepth.toNat - 1) ++
        (lookAll text n ++ pushAll n)) (begin []) = g.run (pushAll n) (g.run (lookAll text n)
          (g.run (fill text (g.webInputMaxQueueDepth.toNat - 1)) (begin []))) := by
      unfold run
      rw [runSteps_append, runSteps_append]
    rw [split]
    exact (pushAll_web looked le_rfl).1

end burst

/-! ### Whole runs -/

/-- However the requests of `n` clients, the ticks and the other interfaces interleave, and whatever
Redis fails, the messages of requests that wait are at most one less than the limit and one for
each client, and no bound is better; what the drains took and what still waits is, from the first,
all that anyone pushed, in the order of the pushes; and each client's messages on the queue are
those accepted, in order, with at most some that failed. -/
theorem run_input (g : InputGate) (n : ℕ) :
    (∀ texts moves, (∀ i ∈ moves, i.1 < n) →
      let v := g.run moves (begin texts)
      v.shared.web ≤ g.webInputMaxQueueDepth.toNat - 1 + n ∧
        v.shared.drained ++ v.shared.waiting =
          (begin texts).shared.waiting ++ g.pushed moves (begin texts) ∧
        ∀ i, g.Own i v.shared (v.party i)) ∧
      ∀ text, g.Fits text → 0 < g.webInputMaxQueueDepth → 0 < n →
        ∃ moves, (∀ i ∈ moves, i.1 < n) ∧
          (g.run moves (begin [])).shared.web = g.webInputMaxQueueDepth.toNat - 1 + n := by
  refine ⟨fun texts moves among => ⟨?_, ?_, ?_⟩, fun text => overshoot⟩
  · have bound := Parties.admitted_run n letIn_le g.move_letIn among (begin texts)
    have empty : (begin texts).shared.web = 0 := by
      refine List.countP_eq_zero.mpr fun entry inside => ?_
      obtain ⟨text, -, rfl⟩ := List.mem_map.mp inside
      exact Bool.false_ne_true
    have none : (begin texts).total letIn n = 0 := Finset.sum_const_zero
    rw [empty, none, Nat.add_zero, Nat.zero_max] at bound
    exact (Nat.le_add_right _ _).trans bound
  · exact g.run_history moves (begin texts)
  · exact ((begin_held g texts).run g.move_keeps moves).own

/-! ### Three at a gate for one -/

namespace Crowd

def gate : InputGate where
  webInputMaxChars := 4000
  webInputMaxQueueDepth := 1
  dumpJson raw := raw.raw

theorem hello_fits : gate.Fits "hello" := ⟨by decide +kernel, by decide⟩

end Crowd

open Crowd in
theorem crowd_overshoots : ∃ moves, (∀ i ∈ moves, i.1 < 3) ∧
    (gate.run moves (begin [])).shared.web = 3 :=
  (run_input gate 3).2 "hello" hello_fits (by decide) (by decide)

end InputGate
end Johnny
