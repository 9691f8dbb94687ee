import Johnny.Brain.CycleGate
import Johnny.Foundation.Tokens

/-!
# Control of the heartbeat from outside

A message of the control channel is decoded, checked for the token and applied to the gate
of the cycle. Nothing catches what the comparison of the tokens raises, so such a message
ends the listener.
-/
namespace Johnny

/-- A decoded message. Numbers stand for their text. -/
inductive Decoded where
  | null
  | bool (b : Bool)
  | number (text : PyText)
  | str (text : PyText)
  | arr (items : List Decoded)
  | obj (fields : List (PyText × Decoded))

inductive ControlData where
  | text (t : PyText)
  | bytes (b : List UInt8)
  /-- Neither: a count, for one. -/
  | other

inductive Loaded where
  | message (m : Decoded)
  /-- `ValueError` or `TypeError`. -/
  | malformed
  /-- Anything else, as a `RecursionError` at deep nesting. -/
  | raised (failure : Failure)

inductive Polled where
  | nothing
  | data (d : ControlData)
  /-- The client could not decode what it received. -/
  | raised (failure : Failure)

/-- `json.loads`, and `str` of a decoded value. -/
structure ControlDecoder where
  loads : ControlData → Loaded
  str : Decoded → Except Failure PyText
  str_text (t : PyText) : str (.str t) = .ok t

def GateCommand.label : GateCommand → String
  | .pause => "pause"
  | .resume => "resume"
  | .step => "step"

def Decoded.lookup (fields : List (PyText × Decoded)) (key : String) : Option Decoded :=
  (fields.find? fun e => e.1 == points key).map Prod.snd

def commandOf : Option Decoded → Option GateCommand
  | some (.str t) =>
    if t = points "pause" then some .pause
    else if t = points "resume" then some .resume
    else if t = points "step" then some .step
    else none
  | _ => none

namespace ControlDecoder
variable (c : ControlDecoder) (token : PyText)

/-- `str(message.get("token", ""))`. -/
def presented (fields : List (PyText × Decoded)) : Except Failure PyText :=
  c.str ((Decoded.lookup fields "token").getD (.str []))

def authorise (fields : List (PyText × Decoded)) : Except Failure Bool :=
  if token = [] then .ok true
  else do
    let presented ← c.presented fields
    compareDigest presented token

def apply (data : ControlData) (gate : CycleGate) : Except Failure CycleGate :=
  match data with
  | .other => .ok gate
  | data =>
    match c.loads data with
    | .malformed => .ok gate
    | .raised failure => .error failure
    | .message (.obj fields) => do
      if ← c.authorise token fields then
        match commandOf (Decoded.lookup fields "command") with
        | some command => pure (command.apply gate)
        | none => pure gate
      else pure gate
    | .message _ => .ok gate

def listen (polled : Polled) (gate : CycleGate) : Except Failure CycleGate :=
  match polled with
  | .nothing => .ok gate
  | .data d => c.apply token d gate
  | .raised failure => .error failure

/-- The listener, over what the polls bring: it ends with what a round raises. -/
def listenAll : List Polled → CycleGate → Except Failure CycleGate
  | [], gate => .ok gate
  | polled :: rest, gate => do
    let gate ← c.listen token polled gate
    listenAll rest gate

/-! ### What it should do -/

/-- Whether the gate is blank, or the presented token the configured one. -/
def authorised (fields : List (PyText × Decoded)) : Bool :=
  token == [] || match c.presented fields with
    | .ok presented => presented == token
    | .error _ => false

def commandIn : Loaded → Option GateCommand
  | .message (.obj fields) =>
    if c.authorised token fields then commandOf (Decoded.lookup fields "command") else none
  | _ => none

def commanded : Polled → Option GateCommand
  | .data .other | .nothing | .raised _ => none
  | .data d => c.commandIn token (c.loads d)

def obey (polled : Polled) (gate : CycleGate) : CycleGate :=
  (c.commanded token polled).elim gate fun command => command.apply gate

/-- A token that can be compared: the gate is blank, or both are ASCII texts. -/
def Comparable (fields : List (PyText × Decoded)) : Prop :=
  token = [] ∨ ∃ presented, c.presented fields = .ok presented ∧
    presented.isAscii ∧ token.isAscii

def Fits : Loaded → Prop
  | .malformed => True
  | .raised _ => False
  | .message (.obj fields) => c.Comparable token fields
  | .message _ => True

/-- What is received can be decoded or is refused as malformed, and its token compared. -/
def Readable : Polled → Prop
  | .nothing | .data .other => True
  | .raised _ => False
  | .data d => c.Fits token (c.loads d)

/-! ### Where it does -/

variable {c token} {fields : List (PyText × Decoded)} {gate gate' : CycleGate}

theorem authorise_ok_iff {answer : Bool} : c.authorise token fields = .ok answer ↔
    c.Comparable token fields ∧ answer = c.authorised token fields := by
  unfold authorise Comparable authorised
  by_cases blank : token = []
  · subst blank
    simp only [if_true, Except.ok.injEq, true_or, true_and, beq_self_eq_true, Bool.true_or]
    exact eq_comm
  · have filled : (token == []) = false := by simpa using blank
    rw [if_neg blank, filled, Bool.false_or]
    cases told : c.presented fields with
    | error failure => simp [blank, bind, Except.bind]
    | ok presented =>
        have answers : (do
            let presented ← (.ok presented : Except Failure PyText)
            compareDigest presented token) = compareDigest presented token := rfl
        rw [answers, compareDigest_ok_iff]
        simp [blank, and_assoc]

/-- `_apply` returns exactly where what it received can be read, and has then obeyed it. -/
theorem apply_ok_iff {d : ControlData} (known : d ≠ .other) : c.apply token d gate = .ok gate' ↔
    c.Fits token (c.loads d) ∧
      gate' = (c.commandIn token (c.loads d)).elim gate fun command => command.apply gate := by
  have unfolded : c.apply token d gate = match c.loads d with
      | .malformed => .ok gate
      | .raised failure => .error failure
      | .message (.obj fields) => do
        if ← c.authorise token fields then
          match commandOf (Decoded.lookup fields "command") with
          | some command => pure (command.apply gate)
          | none => pure gate
        else pure gate
      | .message _ => .ok gate := by
    cases d with
    | other => exact absurd rfl known
    | text t => rfl
    | bytes b => rfl
  rw [unfolded]
  generalize c.loads d = loaded
  cases loaded with
  | malformed => simp [Fits, commandIn, eq_comm]
  | raised failure => simp [Fits]
  | message m =>
      cases m with
      | obj fields =>
          simp only [Fits, commandIn]
          cases asked : c.authorise token fields with
          | error failure =>
              have unfit : ¬ c.Comparable token fields := by
                intro comparable
                have answered := authorise_ok_iff.mpr ⟨comparable, rfl⟩
                rw [asked] at answered
                cases answered
              simp [unfit, bind, Except.bind]
          | ok answer =>
              obtain ⟨comparable, rfl⟩ := authorise_ok_iff.mp asked
              rw [and_iff_right comparable]
              cases c.authorised token fields with
              | false => simp [bind, Except.bind, pure, Except.pure, eq_comm]
              | true =>
                  cases commandOf (Decoded.lookup fields "command") <;>
                    simp [bind, Except.bind, pure, Except.pure, eq_comm]
      | _ => simp [Fits, commandIn, eq_comm]

theorem listen_ok_iff {polled : Polled} : c.listen token polled gate = .ok gate' ↔
    c.Readable token polled ∧ gate' = c.obey token polled gate := by
  cases polled with
  | nothing => simp [listen, Readable, obey, commanded, eq_comm]
  | raised failure => simp [listen, Readable]
  | data d =>
      cases d with
      | other => simp [listen, apply, Readable, obey, commanded, eq_comm]
      | text t => exact apply_ok_iff (d := .text t) nofun
      | bytes b => exact apply_ok_iff (d := .bytes b) nofun

/-- The listener obeys every authorised command, and goes on, exactly as long as everything it
receives can be read. -/
theorem listenAll_ok_iff (polls : List Polled) (gate : CycleGate) :
    c.listenAll token polls gate =
        .ok (polls.foldl (fun gate polled => c.obey token polled gate) gate) ↔
      ∀ polled ∈ polls, c.Readable token polled := by
  induction polls generalizing gate with
  | nil => simp [listenAll]
  | cons polled polls ih =>
      rw [List.foldl_cons, List.forall_mem_cons]
      cases heard : c.listen token polled gate with
      | error failure =>
          have unread : ¬ c.Readable token polled := by
            intro readable
            have answered : c.listen token polled gate = .ok (c.obey token polled gate) :=
              listen_ok_iff.mpr ⟨readable, rfl⟩
            rw [heard] at answered
            cases answered
          simp [listenAll, heard, unread, bind, Except.bind]
      | ok next =>
          obtain ⟨readable, rfl⟩ := listen_ok_iff.mp heard
          rw [and_iff_right readable, ← ih (c.obey token polled gate)]
          simp [listenAll, heard, bind, Except.bind]

end ControlDecoder
end Johnny
