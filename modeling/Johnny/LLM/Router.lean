import Johnny.LLM.CallLog
import Johnny.LLM.CircuitBreaker
import Johnny.LLM.Pricing
import Johnny.LLM.Providers
import Mathlib.Logic.Function.Basic

/-!
# The single doorway to inference

`complete` goes down the role's chain: past open circuits, past paid steps where the
budget is spent, past providers that fail or keep missing the schema. The trace is not a
field of the source: it records what the results are about, newest first, and no modelled
function reads it.
-/
namespace Johnny.LLM

structure ModelStep where
  provider : String
  model : String
  deriving DecidableEq, Repr

structure RoutingConfig where
  roles : List (String × List ModelStep)

/-- The chain of the role, or else of `default`. -/
def RoutingConfig.chainFor (routing : RoutingConfig) (role : String) :
    Except Error (List ModelStep) :=
  match dictGet routing.roles role with
  | some chain => .ok chain
  | none =>
    match dictGet routing.roles "default" with
    | some chain => .ok chain
    | none => .error (.foreign "KeyError"
        ("no route for role " ++ pyRepr role ++ " and no 'default' configured"))

/-- A schema, with `model_validate_json` as the text of the validation error, if any. -/
structure Schema where
  name : String
  invalid : String → Option String

/-- The arguments of one `complete`. -/
structure Request (K : Type) where
  role : String
  messages : List Message
  schema : Option Schema := none
  temperature : K
  maxTokens : Option ℤ := none

inductive Event (K ω : Type) where
  /-- The circuit of the step was open. -/
  | refused (step : ModelStep)
  /-- The budget gate was asked about the step in this world. -/
  | asked (step : ModelStep) (w : ω)
  | budgetSkipped (step : ModelStep)
  | invoked (step : ModelStep)
  /-- The provider was called in this world, with so many retries left. -/
  | called (step : ModelStep) (left : ℕ) (request : Request K) (w : ω)
  | logged (record : CallLogRecord)
  /-- A call was over and logged in this world. -/
  | ended (step : ModelStep) (w : ω)
  /-- The breaker of the provider recorded a success or a failure. -/
  | outcome (provider : String) (healthy : Bool)

/-- The state of the router, and the world outside. -/
structure Routed (K ω : Type) where
  world : ω
  breakers : String → CircuitBreaker K
  trace : List (Event K ω) := []

namespace Routed
variable {K ω α : Type}

def outside (p : Prog Error ω α) : Prog Error (Routed K ω) α :=
  Prog.zoom Routed.world (fun w s => { s with world := w }) p

def note (event : ω → Event K ω) : Prog Error (Routed K ω) Unit :=
  Prog.modify fun s => { s with trace := event s.world :: s.trace }

def setBreaker (provider : String) (breaker : CircuitBreaker K) :
    Prog Error (Routed K ω) Unit :=
  Prog.modify fun s => { s with breakers := Function.update s.breakers provider breaker }

end Routed

structure LLMRouter (K ω : Type) where
  providers : List (String × Adapter K ω)
  routing : RoutingConfig
  callLogger : CallLog ω
  /-- `is_exhausted` of the gate. -/
  budgetGate : Option (Prog Error ω Bool)
  prices : Prices
  failureThreshold : ℕ
  resetTimeout : K
  schemaRetries : ℕ
  timeFn : ω → K
  perfCounter : ω → K
  /-- `_validate_routing_providers`. -/
  validated : ∀ entry ∈ routing.roles, ∀ step ∈ entry.2, (dictGet providers step.provider).isSome

namespace LLMRouter
variable {K ω : Type} [Field K] [LinearOrder K]
open Routed

/-- The state of a router that was just built. -/
def fresh (r : LLMRouter K ω) (world : ω) : Routed K ω where
  world := world
  breakers _ := { failureThreshold := r.failureThreshold, resetTimeout := r.resetTimeout }

def jsonResponseFormat : Dict K := [("type", .str "json_object")]

def budgetSkipStatus : String := "budget_skip"

def invalidOperation : Error := .foreign "InvalidOperation" "[<class 'decimal.InvalidOperation'>]"

/-- `int((perf_counter() - start) * 1000)`, nothing where the call never started. -/
def latency [FloorRing K] (now : K) : Option K → ℤ
  | none => 0
  | some start =>
    let elapsed := (now - start) * frac 1000 1
    if 0 ≤ elapsed then ⌊elapsed⌋ else ⌈elapsed⌉

def log [FloorRing K] (r : LLMRouter K ω) (role provider model : String)
    (completion : Option Completion) (status : String) (start : Option K) :
    Prog Error (Routed K ω) Unit := do
  let latencyMs ← Prog.reads fun s => latency (r.perfCounter s.world) start
  let promptTokens := (completion.map Completion.promptTokens).getD 0
  let completionTokens := (completion.map Completion.completionTokens).getD 0
  match estimateCost r.prices provider model promptTokens completionTokens with
  | none => Prog.raise invalidOperation
  | some cost => do
    let record : CallLogRecord :=
      { role := role, provider := provider, model := model, promptTokens := promptTokens
        completionTokens := completionTokens, latencyMs := latencyMs, status := status
        costUsd := cost }
    outside (r.callLogger.record record)
    note fun _ => .logged record

/-- `_budget_blocks`: a paid step where the budget is exhausted. -/
def budgetBlocks (r : LLMRouter K ω) (step : ModelStep) : Prog Error (Routed K ω) Bool :=
  match r.budgetGate with
  | none => pure false
  | some isExhausted =>
    match estimateCost r.prices step.provider step.model 1 1 with
    | none => Prog.raise invalidOperation
    | some cost =>
      if cost ≤ 0 then pure false
      else do
        note (.asked step)
        outside isExhausted

variable [FloorRing K]

/-- A call is logged, and its end noted. -/
def settle (r : LLMRouter K ω) (step : ModelStep) (role provider : String)
    (completion : Option Completion) (status : String) (start : K) :
    Prog Error (Routed K ω) Unit := do
  r.log role provider step.model completion status (some start)
  note (.ended step)

def schemaMessage (schema : Schema) (text : String) : String :=
  "response did not match " ++ schema.name ++ ": " ++ text

/-- The reply of the provider to a request. -/
def reply (provider : Adapter K ω) (model : String) (request : Request K) :
    Prog Error ω Completion :=
  provider.complete request.messages model request.temperature request.maxTokens
    (if request.schema.isSome then some jsonResponseFormat else none) []

/-- Why the schema, if any, refuses the reply. -/
def refusal (request : Request K) (completion : Completion) : Option (Schema × String) :=
  request.schema.bind fun schema =>
    (schema.invalid completion.content).map fun text => (schema, text)

def attempt (r : LLMRouter K ω) (provider : Adapter K ω) (step : ModelStep) (left : ℕ)
    (request : Request K) : Prog Error (Routed K ω) Completion := do
  let start ← Prog.reads fun s => r.perfCounter s.world
  note (.called step left request)
  let answered ← (outside (reply provider step.model request)).outcome
  match answered with
  | .error (.timeout message name) => do
    r.settle step request.role provider.name none "timeout" start
    Prog.raise (.timeout message name)
  | .error (.provider message name status) => do
    r.settle step request.role provider.name none "error" start
    Prog.raise (.provider message name status)
  | .error e => Prog.raise e
  | .ok completion =>
    match refusal request completion with
    | some (schema, text) => do
      r.settle step request.role provider.name (some completion) "schema_error" start
      Prog.raise (.schemaValidation (schemaMessage schema text) completion.content)
    | none => do
      r.settle step request.role provider.name (some completion) "ok" start
      pure completion

/-- The bad output quoted back, and valid JSON asked for. -/
def feedback (e : Error) : List Message :=
  let content := match e with
    | .schemaValidation _ content => content
    | _ => ""
  [⟨"assistant", content⟩,
    ⟨"user", "Your previous response was invalid: " ++ e.text ++ ". " ++
      "Respond with ONLY valid JSON matching the required schema."⟩]

/-- `_invoke_with_feedback` with so many retries left. -/
def invokeWithFeedback (r : LLMRouter K ω) (provider : Adapter K ω) (step : ModelStep) :
    ℕ → Request K → Prog Error (Routed K ω) Completion
  | 0, request => r.attempt provider step 0 request
  | left + 1, request =>
    Prog.rescue Error.isSchemaValidation (r.attempt provider step (left + 1) request) fun e =>
      invokeWithFeedback r provider step left
        { request with messages := request.messages ++ feedback e }

/-- `self._breakers[step.provider].allow()`. -/
def allow (r : LLMRouter K ω) (provider : String) : Prog Error (Routed K ω) Bool := do
  let s ← Prog.reads fun s => s
  let asked := (s.breakers provider).allow (r.timeFn s.world)
  setBreaker provider asked.2
  pure asked.1

def recordSuccess (provider : String) : Prog Error (Routed K ω) Unit := do
  let breaker ← Prog.reads fun s => s.breakers provider
  setBreaker provider breaker.recordSuccess
  note fun _ => .outcome provider true

def recordFailure (r : LLMRouter K ω) (provider : String) : Prog Error (Routed K ω) Unit := do
  let s ← Prog.reads fun s => s
  setBreaker provider ((s.breakers provider).recordFailure (r.timeFn s.world))
  note fun _ => .outcome provider false

/-- A step that is admitted: it returns, or leaves the error to fall back with. -/
def invoke (r : LLMRouter K ω) (provider : Adapter K ω) (step : ModelStep)
    (request : Request K) : Prog Error (Routed K ω) (Except Error Completion) := do
  note fun _ => .invoked step
  let result ← (r.invokeWithFeedback provider step r.schemaRetries request).outcome
  match result with
  | .ok completion => do
    recordSuccess step.provider
    pure (.ok completion)
  | .error e =>
    if e.isProvider then do
      r.recordFailure step.provider
      pure (.error e)
    else if e.isSchemaValidation then do
      -- the provider is healthy, it just produced unusable output
      recordSuccess step.provider
      pure (.error e)
    else Prog.raise e

/-- One step of the chain: a completion, or the last error so far. -/
def tryStep (r : LLMRouter K ω) (step : ModelStep) (request : Request K)
    (lastError : Option Error) : Prog Error (Routed K ω) (Except (Option Error) Completion) := do
  let allowed ← r.allow step.provider
  if allowed = false then do
    note fun _ => .refused step
    pure (.error lastError)
  else do
    let blocked ← r.budgetBlocks step
    if blocked = true then do
      r.log request.role step.provider step.model none budgetSkipStatus none
      note fun _ => .budgetSkipped step
      pure (.error (some (.unavailable request.role (some (.budgetExhausted step.provider)))))
    else
      match dictGet r.providers step.provider with
      | none => Prog.raise (.foreign "KeyError" (pyRepr step.provider))
      | some provider => do
        let result ← r.invoke provider step request
        pure (result.mapError some)

/-- The loop of `complete` over the rest of the chain. -/
def completeFrom (r : LLMRouter K ω) (request : Request K) :
    List ModelStep → Option Error → Prog Error (Routed K ω) Completion
  | [], lastError => Prog.raise (.unavailable request.role lastError)
  | step :: rest, lastError => do
    let result ← r.tryStep step request lastError
    match result with
    | .ok completion => pure completion
    | .error lastError => completeFrom r request rest lastError

def complete (r : LLMRouter K ω) (request : Request K) :
    Prog Error (Routed K ω) Completion := do
  let chain ← Prog.reraise (r.routing.chainFor request.role)
  r.completeFrom request chain none

end LLMRouter
end Johnny.LLM
