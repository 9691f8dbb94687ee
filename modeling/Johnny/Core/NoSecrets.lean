import Johnny.Brain.Workspace
import Johnny.Lib.Runs
import Mathlib.Data.Rat.Floor

/-!
# Secrets in the durable logs and on the bus

Over any run of broadcasts and audit records, the logs stay without a secret exactly
where every accepted write is clear of it. Keys and the plain columns of the action log
are written as they are, so there a secret goes through.
-/
namespace Johnny
open Redaction

variable {K ω : Type}

/-- Every string of an action log row: three plain columns, the arguments and the result. -/
def ActionRecord.strings (r : ActionRecord K) : List String :=
  r.tool :: r.conscienceVerdict ::
    (r.vetoReason.toList ++ (fieldStrings r.args ++ (r.result.map fieldStrings).getD []))

/-- Every string of the event payloads, stored or published, and of the action log. -/
def Durable.strings (d : Durable K ω) : List String :=
  d.events.flatMap (fun e => fieldStrings e.payload) ++
    (d.published.flatMap (fun e => fieldStrings e.payload) ++
      d.actions.flatMap ActionRecord.strings)

inductive Write (K : Type) where
  | broadcast (event : WorkspaceEvent K)
  | record (r : ActionRecord K)

structure Writers (K ω : Type) where
  workspace : Workspace K ω
  audit : AuditWriter K ω
  same : audit.settings = workspace.settings

namespace Writers

def secrets (w : Writers K ω) : List String := knownSecretValues w.workspace.settings

/-- The logs after one call, whether it returned or raised. -/
def step (w : Writers K ω) : Write K → Durable K ω → Durable K ω
  | .broadcast event, d => (w.workspace.broadcast event d).2
  | .record r, d => (w.audit.record r d).2

def run (w : Writers K ω) (writes : List (Write K)) (d : Durable K ω) : Durable K ω :=
  runSteps w.step writes d

/-- The database takes the row of this call. -/
def Accepts (w : Writers K ω) (d : Durable K ω) : Write K → Prop
  | .broadcast event => ∃ id, (w.workspace.insert
      (w.workspace.safe event (w.workspace.clock d.world)) d.world).1 = .ok id
  | .record r => (w.audit.insert (w.audit.safe r) d.world).1 = .ok ()

/-- The write is clear of the secret: its payload, or the arguments, the result and the
three plain columns. -/
def Clear (w : Writers K ω) (secret : String) : Write K → Prop
  | .broadcast event => FieldsClear w.secrets secret event.payload
  | .record r => contains secret r.tool = false ∧ contains secret r.conscienceVerdict = false ∧
      (∀ reason ∈ r.vetoReason, contains secret reason = false) ∧
      FieldsClear w.secrets secret r.args ∧
      ∀ result ∈ r.result, FieldsClear w.secrets secret result

variable {w : Writers K ω} {secret : String} {d : Durable K ω}

/-! ### One write -/

theorem payload_iff (known : secret ∈ w.secrets) (payload : Dict K) :
    Without secret (fieldStrings (redactPayload w.workspace.settings payload)) ↔
      FieldsClear w.secrets secret payload :=
  fieldsClear_iff (known_nonempty _) known payload

theorem record_iff (known : secret ∈ w.secrets) (r : ActionRecord K) :
    Without secret (w.audit.safe r).strings ↔ w.Clear secret (.record r) := by
  unfold ActionRecord.strings AuditWriter.safe Clear
  rw [w.same]
  simp only [without_cons, without_append, payload_iff known]
  refine and_congr_right fun _ => and_congr_right fun _ => and_congr ?_ (and_congr_right fun _ => ?_)
  · unfold Without
    simp only [Option.mem_toList]
    exact Iff.rfl
  · cases r.result with
    | none => exact iff_of_true without_nil (by simp)
    | some result => simpa using payload_iff known result

theorem without_strings {secret : String} {d : Durable K ω} : Without secret d.strings ↔
    Without secret (d.events.flatMap fun e => fieldStrings e.payload) ∧
      Without secret (d.published.flatMap fun e => fieldStrings e.payload) ∧
        Without secret (d.actions.flatMap ActionRecord.strings) := by
  unfold Durable.strings
  rw [without_append, without_append]

/-- The logs of a broadcast: nothing, the stored event, or the stored and published event. -/
theorem broadcast_logs (w : Writers K ω) (event : WorkspaceEvent K) (d : Durable K ω) :
    (¬ w.Accepts d (.broadcast event) ∧ ∃ world, w.step (.broadcast event) d =
        { d with world := world }) ∨
      w.Accepts d (.broadcast event) ∧ ∃ e world, e.payload =
          redactPayload w.workspace.settings event.payload ∧
        (w.step (.broadcast event) d =
            { d with events := d.events ++ [e], world := world } ∨
          w.step (.broadcast event) d =
            { d with events := d.events ++ [e], published := d.published ++ [e],
                     world := world }) := by
  have payload := w.workspace.safe_payload event (w.workspace.clock d.world)
  unfold step Accepts Workspace.broadcast Workspace.persist Durable.outside
  simp only [Prog.bind_apply, Prog.reads_apply, Prog.zoom]
  generalize w.workspace.safe event (w.workspace.clock d.world) = e at payload ⊢
  rcases w.workspace.insert e d.world with ⟨r, world⟩
  cases r with
  | error err => exact .inl ⟨nofun, world, rfl⟩
  | ok id =>
      refine .inr ⟨⟨id, rfl⟩, { e with id := some id }, ?_⟩
      dsimp only [Prog.modify_apply, Prog.pure_apply]
      rcases w.workspace.publish { e with id := some id } world with ⟨r, world'⟩
      cases r with
      | error err => exact ⟨world', payload, .inl rfl⟩
      | ok _ => exact ⟨world', payload, .inr rfl⟩

theorem record_logs (w : Writers K ω) (r : ActionRecord K) (d : Durable K ω) :
    (¬ w.Accepts d (.record r) ∧ ∃ world, w.step (.record r) d = { d with world := world }) ∨
      w.Accepts d (.record r) ∧ ∃ world, w.step (.record r) d =
        { d with actions := d.actions ++ [w.audit.safe r], world := world } := by
  unfold step Accepts AuditWriter.record Durable.outside
  simp only [Prog.bind_apply, Prog.zoom]
  rcases w.audit.insert (w.audit.safe r) d.world with ⟨result, world⟩
  cases result with
  | error err => exact .inl ⟨nofun, world, rfl⟩
  | ok _ => exact .inr ⟨rfl, world, rfl⟩

/-- A write adds a secret to the logs exactly where it is accepted and not clear of it. -/
theorem step_iff (known : secret ∈ w.secrets) (write : Write K) (d : Durable K ω) :
    Without secret (w.step write d).strings ↔
      Without secret d.strings ∧ (w.Accepts d write → w.Clear secret write) := by
  cases write with
  | broadcast event =>
      rcases w.broadcast_logs event d with ⟨refused, world, same⟩ | ⟨accepted, e, world, payload, logs⟩
      · rw [same]
        exact (and_iff_left fun accepted => absurd accepted refused).symm
      · have clear : Without secret (fieldStrings e.payload) ↔ w.Clear secret (.broadcast event) := by
          rw [payload]
          exact payload_iff known event.payload
        rw [forall_prop_of_true accepted, ← clear]
        rcases logs with same | same <;> rw [same] <;>
          simp only [without_strings, List.flatMap_append, without_append, List.flatMap_singleton]
        · tauto
        · tauto
  | record r =>
      rcases w.record_logs r d with ⟨refused, world, same⟩ | ⟨accepted, world, same⟩
      · rw [same]
        exact (and_iff_left fun accepted => absurd accepted refused).symm
      · rw [forall_prop_of_true accepted, ← record_iff known, same]
        simp only [without_strings, List.flatMap_append, without_append, List.flatMap_singleton]
        tauto

/-! ### Runs -/

theorem run_iff (known : secret ∈ w.secrets) (writes : List (Write K)) (d : Durable K ω) :
    Without secret (w.run writes d).strings ↔ Without secret d.strings ∧
      ∀ before write after, writes = before ++ write :: after →
        w.Accepts (w.run before d) write → w.Clear secret write := by
  induction writes generalizing d with
  | nil =>
      refine (and_iff_left fun before write after split => ?_).symm
      simp at split
  | cons first writes ih =>
      have onwards := ih (w.step first d)
      rw [step_iff known, and_assoc] at onwards
      refine onwards.trans (and_congr_right fun _ => ?_)
      constructor
      · rintro ⟨now, later⟩ before write after split
        cases before with
        | nil =>
            injection split with same _
            subst same
            exact now
        | cons x before =>
            injection split with same rest
            subst same
            exact later before write after rest
      · intro all
        refine ⟨all [] first writes rfl, ?_⟩
        intro before write after split
        exact all (first :: before) write after (by rw [split]; rfl)

/-- From empty logs, over every run of writes: no string stored or published contains a
known secret exactly where every accepted write is clear of it. -/
theorem no_secret_iff (w : Writers K ω) (known : secret ∈ w.secrets) (writes : List (Write K))
    (world : ω) :
    Without secret (w.run writes { world := world }).strings ↔
      ∀ before write after, writes = before ++ write :: after →
        w.Accepts (w.run before { world := world }) write → w.Clear secret write :=
  (run_iff known writes { world := world }).trans (and_iff_right without_nil)

end Writers

/-! ### A key and a reason -/

namespace LeakedToken

def settings : SecretSettings := { wsToken := "ws-4711-kettle" }

def writers : Writers ℚ Unit where
  workspace := ⟨settings, fun _ => 0, fun _ => pure 1, fun _ => pure ()⟩
  audit := ⟨settings, fun _ => pure ()⟩
  same := rfl

/-- A fetched document whose field is named by the token. -/
def fetched : Write ℚ :=
  .broadcast { module := "effectors", type := "action.dispatched",
               payload := [("result", .obj [("ws-4711-kettle", .str "ok")])] }

/-- A veto whose reason quotes the token. -/
def vetoed : Write ℚ :=
  .record { tool := "post_message", args := [("text", .str "ws-4711-kettle")], result := none,
            conscienceVerdict := "veto",
            vetoReason := some "I won't post ws-4711-kettle anywhere.", goalId := none,
            success := false }

def mentioned : Write ℚ :=
  .broadcast { module := "narrator", type := "thought",
               payload := [("text", .str "The token is ws-4711-kettle, I think.")] }

end LeakedToken

open LeakedToken in
/-- The key and the reason are stored as they are. -/
theorem key_and_reason_leak :
    "ws-4711-kettle" ∈ writers.secrets ∧
      ¬ Without "ws-4711-kettle" (writers.run [fetched] { world := () }).strings ∧
      ¬ Without "ws-4711-kettle" (writers.run [vetoed] { world := () }).strings := by
  refine ⟨by decide +kernel, ?_, ?_⟩
  · unfold Without
    decide +kernel
  · unfold Without
    decide +kernel

open LeakedToken in
theorem mentioned_token_is_scrubbed :
    Without "ws-4711-kettle" (writers.run [mentioned] { world := () }).strings ↔
      ∀ before write after, [mentioned] = before ++ write :: after →
        writers.Accepts (writers.run before { world := () }) write →
          writers.Clear "ws-4711-kettle" write :=
  Writers.no_secret_iff writers (by decide +kernel) [mentioned] ()

end Johnny
