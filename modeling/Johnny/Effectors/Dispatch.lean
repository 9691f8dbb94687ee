import Johnny.Brain.Mind

/-!
# The one path from a proposal to a tool

`vet` resolves the tool, validates the arguments and asks the Conscience;
`commit` runs an allowed action, then audits and emits it. The model router, the
audit sink and the bus are calls to the world outside.
-/
namespace Johnny

structure Message where
  role : String
  content : String
  deriving DecidableEq, Repr

def conscienceRole : String := "conscience"

def unavailableReason : String :=
  "I couldn't consult my conscience just now, so I'm holding off on this."

/-- `dumps` and `parseVerdict` are the JSON library's and the validation library's. -/
structure Conscience (K ω : Type) where
  prompt : String
  dumps : Dict K → String
  parseVerdict : String → Except Failure Verdict
  complete : String → List Message → Prog Failure ω Completion

namespace Conscience
variable {K ω : Type}

def render (c : Conscience K ω) (action : ProposedAction K)
    (contents : List (WorkspaceItem K)) : String :=
  let asked := ["Johnny is about to take this action:",
    "- tool: " ++ action.tool ++ " (hazard class: " ++ action.danger ++ ")",
    "- arguments: " ++ c.dumps action.args]
  let goal :=
    if action.goalDescription = "" then []
    else ["- in service of the goal: " ++ action.goalDescription]
  let awareness :=
    if contents.isEmpty then []
    else ["What is in his awareness right now:", "\n".intercalate (contents.map fun item =>
      "  - [" ++ item.kind.label ++ "] " ++ item.content)]
  "\n".intercalate (asked ++ goal ++ awareness ++ ["", "Should he, given his values?",
    "Respond with ONLY JSON: \x7b\"verdict\": \"allow\"|\"veto\", " ++
      "\"reason\": \"<short first-person line>\"\x7d."])

/-- Fails closed where the model is unavailable; any other failure propagates. -/
def vet (c : Conscience K ω) (action : ProposedAction K) (contents : List (WorkspaceItem K)) :
    Stage K ω Verdict := do
  let reply ← (Mind.outside (c.complete conscienceRole
    [⟨"system", c.prompt⟩, ⟨"user", c.render action contents⟩])).outcome
  Mind.note (.consulted action reply)
  match reply with
  | .ok completion => Prog.reraise (c.parseVerdict completion.content)
  | .error e => if e.isUnavailable then pure ⟨.veto, unavailableReason⟩ else Prog.raise e

end Conscience

def dispatchModule : String := "effectors"
def actionDispatched : String := "action.dispatched"
def actionVetoed : String := "action.vetoed"

structure EffectorDispatch (K ω : Type) where
  registry : ω → ToolRegistry K ω
  conscience : Conscience K ω
  audit : ActionRecord K → Prog Failure ω Unit
  broadcast : WorkspaceEvent K → Prog Failure ω Unit

namespace EffectorDispatch
variable {K ω : Type}

def vet (d : EffectorDispatch K ω) (action : ProposedAction K)
    (contents : List (WorkspaceItem K)) : Stage K ω (VettedAction K ω) :=
  Mind.noting (do
    let found ← Prog.reads fun s => (d.registry s.world).get action.tool
    Mind.note (.lookedUp action.tool found)
    match found with
    | none => Prog.raise (.exception .dispatchError
        ("no tool named " ++ pyRepr action.tool ++ " is on the belt"))
    | some tool => do
      -- the hazard class is the tool's own, whatever the proposal said
      let action := { action with danger := tool.danger.label }
      Mind.note (.argsChecked action.args (tool.validateArgs action.args))
      let validated ← Prog.reraise (tool.validateArgs action.args)
      let verdict ← d.conscience.vet action contents
      pure ⟨action, tool, validated, verdict⟩) .vetEnded

def emit (d : EffectorDispatch K ω) (eventType : String) (action : ProposedAction K)
    (verdict : Verdict) (result : Option (ToolResult K)) (success : Bool) : Stage K ω Unit :=
  Mind.outside (d.broadcast {
    module := dispatchModule, type := eventType,
    payload := [("tool", .str action.tool), ("danger", .str action.danger),
      ("args", .obj action.args), ("verdict", .str verdict.verdict.label),
      ("reason", .str verdict.reason), ("goal_id", jsonId action.goalId),
      ("success", .bool success),
      ("result", match result with
        | some r => .obj r.modelDump
        | none => .null)] })

def record (d : EffectorDispatch K ω) (r : ActionRecord K) : Stage K ω Unit := do
  Mind.outside (d.audit r)
  Mind.note (.recorded r)

def vetoRecord (v : VettedAction K ω) : ActionRecord K where
  tool := v.action.tool
  args := v.action.args
  result := none
  conscienceVerdict := v.verdict.verdict.label
  vetoReason := if v.verdict.reason = "" then none else some v.verdict.reason
  goalId := v.action.goalId
  success := false

def runRecord (v : VettedAction K ω) (result : ToolResult K) : ActionRecord K where
  tool := v.action.tool
  args := v.action.args
  result := some result.modelDump
  conscienceVerdict := v.verdict.verdict.label
  vetoReason := none
  goalId := v.action.goalId
  success := result.success

def commit (d : EffectorDispatch K ω) (v : VettedAction K ω) : Stage K ω (DispatchOutcome K) :=
  Mind.noting (
    if !v.verdict.allowed then do
      d.record (vetoRecord v)
      d.emit actionVetoed v.action v.verdict none false
      pure { ran := false, verdict := v.verdict,
             summary := stripBy (": ".toList.contains ·) ("vetoed: " ++ v.verdict.reason) }
    else do
      Mind.note (.ran v.tool v.validated)
      let result ← Mind.outside (v.tool.run v.validated)
      d.record (runRecord v result)
      d.emit actionDispatched v.action v.verdict (some result) result.success
      pure { ran := true, verdict := v.verdict, result := some result,
             summary := result.summary }) .commitEnded

/-- The single-shot path. -/
def propose (d : EffectorDispatch K ω) (action : ProposedAction K)
    (contents : List (WorkspaceItem K)) : Stage K ω (DispatchOutcome K) := do
  let v ← d.vet action contents
  d.commit v

end EffectorDispatch
end Johnny
