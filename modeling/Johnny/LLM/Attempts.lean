import Johnny.LLM.Router

/-!
# What one provider call can do

A call is answered; then it is logged and over, or a foreign exception takes it out of
the router's hands: one that the body raised, or an invalid decimal operation.
-/
namespace Johnny.LLM
variable {K ω : Type}

theorem Error.not_schemaValidation {e : Error} (provider : e.isProvider = true) :
    e.isSchemaValidation = false := by
  cases e <;> first | rfl | cases provider

/-- `except ProviderTimeoutError`, or the broader class. -/
def Error.status : Error → String
  | .timeout _ _ => "timeout"
  | _ => "error"

namespace LLMRouter
variable [Field K] [LinearOrder K] {r : LLMRouter K ω}
open Routed

def entry [FloorRing K] (r : LLMRouter K ω) (role provider model : String)
    (completion : Option Completion) (status : String) (start : Option K) (cost : ℚ) (w : ω) :
    CallLogRecord where
  role := role
  provider := provider
  model := model
  promptTokens := (completion.map Completion.promptTokens).getD 0
  completionTokens := (completion.map Completion.completionTokens).getD 0
  latencyMs := latency (r.perfCounter w) start
  status := status
  costUsd := cost

def afterLog (r : LLMRouter K ω) (record : CallLogRecord) (s : Routed K ω) : Routed K ω :=
  { s with
    world := (r.callLogger.record record s.world).2
    trace := .logged record :: s.trace }

def afterCall (r : LLMRouter K ω) (step : ModelStep) (record : CallLogRecord)
    (s : Routed K ω) : Routed K ω :=
  { r.afterLog record s with
    trace := .ended step (r.callLogger.record record s.world).2 :: .logged record :: s.trace }

variable [FloorRing K]

theorem log_apply (r : LLMRouter K ω) (role provider model : String)
    (completion : Option Completion) (status : String) (start : Option K) (s : Routed K ω) :
    r.log role provider model completion status start s =
      match estimateCost r.prices provider model
          ((completion.map Completion.promptTokens).getD 0)
          ((completion.map Completion.completionTokens).getD 0) with
      | none => (.error invalidOperation, s)
      | some cost => (.ok (), r.afterLog
          (r.entry role provider model completion status start cost s.world) s) := by
  unfold log
  rw [Prog.reads_bind]
  dsimp only
  cases estimateCost r.prices provider model
      ((completion.map Completion.promptTokens).getD 0)
      ((completion.map Completion.completionTokens).getD 0) with
  | none => rfl
  | some cost =>
      dsimp only
      rw [Prog.bind_apply]
      unfold Routed.outside Prog.zoom afterLog
      simp only [CallLog.record_apply]
      rfl

/-- A call that returned nothing is free to log. -/
theorem log_empty (r : LLMRouter K ω) (role provider model status : String) (start : Option K)
    (s : Routed K ω) :
    r.log role provider model none status start s =
      (.ok (), r.afterLog (r.entry role provider model none status start 0 s.world) s) := by
  rw [log_apply]
  simp only [Option.map_none, Option.getD_none, estimateCost_zero]

theorem settle_apply (r : LLMRouter K ω) (step : ModelStep) (role provider : String)
    (completion : Option Completion) (status : String) (start : K) (s : Routed K ω) :
    r.settle step role provider completion status start s =
      match estimateCost r.prices provider step.model
          ((completion.map Completion.promptTokens).getD 0)
          ((completion.map Completion.completionTokens).getD 0) with
      | none => (.error invalidOperation, s)
      | some cost => (.ok (), r.afterCall step
          (r.entry role provider step.model completion status (some start) cost s.world) s) := by
  unfold settle
  rw [Prog.bind_apply, log_apply]
  cases estimateCost r.prices provider step.model
      ((completion.map Completion.promptTokens).getD 0)
      ((completion.map Completion.completionTokens).getD 0) <;> rfl

/-- The state once the provider answered, with the world the answer left. -/
def afterReply (step : ModelStep) (left : ℕ) (request : Request K) (s : Routed K ω) (w : ω) :
    Routed K ω :=
  { s with world := w, trace := .called step left request s.world :: s.trace }

/-- The cost of a reply, where the decimal operation is valid. -/
def replyCost (r : LLMRouter K ω) (provider : Adapter K ω) (model : String)
    (completion : Completion) : Option ℚ :=
  estimateCost r.prices provider.name model completion.promptTokens completion.completionTokens

/-- How a provider call can end from `s`. -/
inductive Attempted (r : LLMRouter K ω) (provider : Adapter K ω) (step : ModelStep) (left : ℕ)
    (request : Request K) (s : Routed K ω) : Except Error Completion × Routed K ω → Prop
  | failed {e w} (replied : reply provider step.model request s.world = (.error e, w))
      (known : e.isProvider = true) :
      Attempted r provider step left request s (.error e, r.afterCall step
        (r.entry request.role provider.name step.model none e.status
          (some (r.perfCounter s.world)) 0 w) (afterReply step left request s w))
  | raised {e w} (replied : reply provider step.model request s.world = (.error e, w))
      (foreign : e.isProvider = false) :
      Attempted r provider step left request s (.error e, afterReply step left request s w)
  | uncounted {completion w}
      (replied : reply provider step.model request s.world = (.ok completion, w))
      (invalid : r.replyCost provider step.model completion = none) :
      Attempted r provider step left request s
        (.error invalidOperation, afterReply step left request s w)
  | rejected {completion w cost schema text}
      (replied : reply provider step.model request s.world = (.ok completion, w))
      (costs : r.replyCost provider step.model completion = some cost)
      (refused : refusal request completion = some (schema, text)) :
      Attempted r provider step left request s
        (.error (.schemaValidation (schemaMessage schema text) completion.content),
          r.afterCall step (r.entry request.role provider.name step.model (some completion)
            "schema_error" (some (r.perfCounter s.world)) cost w)
            (afterReply step left request s w))
  | returned {completion w cost}
      (replied : reply provider step.model request s.world = (.ok completion, w))
      (costs : r.replyCost provider step.model completion = some cost)
      (valid : refusal request completion = none) :
      Attempted r provider step left request s (.ok completion,
        r.afterCall step (r.entry request.role provider.name step.model (some completion) "ok"
          (some (r.perfCounter s.world)) cost w) (afterReply step left request s w))

theorem attempt_spec (r : LLMRouter K ω) (provider : Adapter K ω) (step : ModelStep) (left : ℕ)
    (request : Request K) (s : Routed K ω) :
    Attempted r provider step left request s (r.attempt provider step left request s) := by
  unfold attempt
  rw [Prog.reads_bind]
  unfold Routed.note
  rw [Prog.modify_bind, Prog.outcome_bind]
  unfold Routed.outside Prog.zoom
  dsimp only
  rcases replied : reply provider step.model request s.world with ⟨answer, w⟩
  dsimp only
  have ends (e : Error) (known : e.isProvider = true)
      (failed : reply provider step.model request s.world = (.error e, w)) :
      Attempted r provider step left request s
        ((r.settle step request.role provider.name none e.status (r.perfCounter s.world) >>=
          fun _ => (Prog.raise e : Prog Error (Routed K ω) Completion))
          (afterReply step left request s w)) := by
    have settled := settle_apply r step request.role provider.name none e.status
      (r.perfCounter s.world) (afterReply step left request s w)
    simp only [Option.map_none, Option.getD_none, estimateCost_zero] at settled
    rw [Prog.bind_of_ok settled]
    exact .failed failed known
  cases answer with
  | error e =>
      cases e with
      | timeout message name =>
          exact ends (.timeout message name) rfl replied
      | provider message name status =>
          exact ends (.provider message name status) rfl replied
      | schemaValidation message content => exact .raised replied rfl
      | unavailable role cause => exact .raised replied rfl
      | budgetExhausted name => exact .raised replied rfl
      | foreign cls text => exact .raised replied rfl
  | ok completion =>
      have settled (status : String) := settle_apply r step request.role provider.name
        (some completion) status (r.perfCounter s.world) (afterReply step left request s w)
      simp only [Option.map_some, Option.getD_some] at settled
      have judged (status : String) (rest : Prog Error (Routed K ω) Completion)
          (fits : ∀ cost, r.replyCost provider step.model completion = some cost →
            Attempted r provider step left request s (rest (r.afterCall step
              (r.entry request.role provider.name step.model (some completion) status
                (some (r.perfCounter s.world)) cost w) (afterReply step left request s w)))) :
          Attempted r provider step left request s
            ((r.settle step request.role provider.name (some completion) status
              (r.perfCounter s.world) >>= fun _ => rest) (afterReply step left request s w)) := by
        rw [Prog.bind_apply, settled]
        cases costs : r.replyCost provider step.model completion with
        | none =>
            unfold replyCost at costs
            rw [costs]
            exact .uncounted replied costs
        | some cost =>
            have fit := fits cost costs
            unfold replyCost at costs
            rw [costs]
            exact fit
      cases refused : refusal request completion with
      | none =>
          dsimp only
          rw [refused]
          exact judged "ok" (pure completion) fun cost costs => .returned replied costs refused
      | some why =>
          dsimp only
          rw [refused]
          exact judged "schema_error" _ fun cost costs => .rejected replied costs refused

/-! ### A step of the chain -/

/-- What the breaker's record of a step leaves. -/
def afterOutcome (provider : String) (breaker : CircuitBreaker K) (healthy : Bool)
    (s : Routed K ω) : Routed K ω :=
  { s with
    breakers := Function.update s.breakers provider breaker
    trace := .outcome provider healthy :: s.trace }

/-- The state in which an admitted step's provider is called. -/
def admitted (step : ModelStep) (s : Routed K ω) : Routed K ω :=
  { s with trace := .invoked step :: s.trace }

/-- How an admitted step can end. -/
inductive Invoked (r : LLMRouter K ω) (provider : Adapter K ω) (step : ModelStep)
    (request : Request K) (s : Routed K ω) :
    Except Error (Except Error Completion) × Routed K ω → Prop
  | succeeded {completion t} (ran : r.invokeWithFeedback provider step r.schemaRetries request
      (admitted step s) = (.ok completion, t)) :
      Invoked r provider step request s
        (.ok (.ok completion), afterOutcome step.provider (t.breakers step.provider).recordSuccess true t)
  | failed {e t} (ran : r.invokeWithFeedback provider step r.schemaRetries request
      (admitted step s) = (.error e, t)) (known : e.isProvider = true) :
      Invoked r provider step request s (.ok (.error e), afterOutcome step.provider
        ((t.breakers step.provider).recordFailure (r.timeFn t.world)) false t)
  | unusable {e t} (ran : r.invokeWithFeedback provider step r.schemaRetries request
      (admitted step s) = (.error e, t)) (schema : e.isSchemaValidation = true) :
      Invoked r provider step request s
        (.ok (.error e), afterOutcome step.provider (t.breakers step.provider).recordSuccess true t)
  | raised {e t} (ran : r.invokeWithFeedback provider step r.schemaRetries request
      (admitted step s) = (.error e, t)) (known : e.isProvider = false)
      (schema : e.isSchemaValidation = false) :
      Invoked r provider step request s (.error e, t)

theorem invoke_spec (r : LLMRouter K ω) (provider : Adapter K ω) (step : ModelStep)
    (request : Request K) (s : Routed K ω) :
    Invoked r provider step request s (r.invoke provider step request s) := by
  rcases ran : r.invokeWithFeedback provider step r.schemaRetries request (admitted step s) with
    ⟨q, t⟩
  have handed : (r.invokeWithFeedback provider step r.schemaRetries request).outcome
      (admitted step s) = (.ok q, t) := by
    rw [Prog.outcome_apply, ran]
  have noted : (Routed.note fun _ => .invoked step) s = (.ok (), admitted step s) := rfl
  unfold invoke
  rw [Prog.bind_of_ok noted, Prog.bind_of_ok handed]
  cases q with
  | ok completion => exact .succeeded ran
  | error e =>
      dsimp only
      cases known : e.isProvider with
      | true => exact .failed ran known
      | false =>
          cases schema : e.isSchemaValidation with
          | true => exact .unusable ran schema
          | false => exact .raised ran known schema

def settledBreaker (r : LLMRouter K ω) (step : ModelStep) (s : Routed K ω) : Routed K ω :=
  { s with
    breakers := Function.update s.breakers step.provider
      ((s.breakers step.provider).allow (r.timeFn s.world)).2 }

/-- How a step of the chain can end. -/
inductive Tried (r : LLMRouter K ω) (step : ModelStep) (request : Request K)
    (lastError : Option Error) (s : Routed K ω) :
    Except Error (Except (Option Error) Completion) × Routed K ω → Prop
  | refused (closed : ((s.breakers step.provider).allow (r.timeFn s.world)).1 = false) :
      Tried r step request lastError s (.ok (.error lastError),
        { r.settledBreaker step s with trace := .refused step :: s.trace })
  | ungated {e t} (asked : r.budgetBlocks step (r.settledBreaker step s) = (.error e, t)) :
      Tried r step request lastError s (.error e, t)
  | blocked {t} (asked : r.budgetBlocks step (r.settledBreaker step s) = (.ok true, t)) :
      Tried r step request lastError s
        (.ok (.error (some (.unavailable request.role (some (.budgetExhausted step.provider))))),
          { r.afterLog (r.entry request.role step.provider step.model none budgetSkipStatus none 0
              t.world) t with
            trace := .budgetSkipped step :: .logged (r.entry request.role step.provider step.model
              none budgetSkipStatus none 0 t.world) :: t.trace })
  | unrouted {t} (asked : r.budgetBlocks step (r.settledBreaker step s) = (.ok false, t))
      (missing : dictGet r.providers step.provider = none) :
      Tried r step request lastError s (.error (.foreign "KeyError" (pyRepr step.provider)), t)
  | invoked {t provider q u} (asked : r.budgetBlocks step (r.settledBreaker step s) = (.ok false, t))
      (routed : dictGet r.providers step.provider = some provider)
      (ended : Invoked r provider step request t (.ok q, u)) :
      Tried r step request lastError s (.ok (q.mapError some), u)
  | raised {t provider e u} (asked : r.budgetBlocks step (r.settledBreaker step s) = (.ok false, t))
      (routed : dictGet r.providers step.provider = some provider)
      (ended : Invoked r provider step request t (.error e, u)) :
      Tried r step request lastError s (.error e, u)

theorem tryStep_spec (r : LLMRouter K ω) (step : ModelStep) (request : Request K)
    (lastError : Option Error) (s : Routed K ω) :
    Tried r step request lastError s (r.tryStep step request lastError s) := by
  have allowed : r.allow step.provider s =
      (.ok ((s.breakers step.provider).allow (r.timeFn s.world)).1, r.settledBreaker step s) := rfl
  unfold tryStep
  rw [Prog.bind_of_ok allowed]
  cases closed : ((s.breakers step.provider).allow (r.timeFn s.world)).1 with
  | false => exact .refused closed
  | true =>
      rw [if_neg (by decide)]
      rcases asked : r.budgetBlocks step (r.settledBreaker step s) with ⟨q, t⟩
      cases q with
      | error e =>
          rw [Prog.bind_of_error asked]
          exact .ungated asked
      | ok blocked =>
          rw [Prog.bind_of_ok asked]
          cases blocked with
          | true =>
              rw [if_pos rfl, Prog.bind_of_ok (log_empty r request.role step.provider step.model
                budgetSkipStatus none t)]
              exact .blocked asked
          | false =>
              rw [if_neg (by decide)]
              cases routed : dictGet r.providers step.provider with
              | none => exact .unrouted asked routed
              | some provider =>
                  dsimp only
                  have ended := r.invoke_spec provider step request t
                  rcases ran : r.invoke provider step request t with ⟨q, u⟩
                  rw [ran] at ended
                  cases q with
                  | error e =>
                      rw [Prog.bind_of_error ran]
                      exact .raised asked routed ended
                  | ok result =>
                      rw [Prog.bind_of_ok ran]
                      exact .invoked asked routed ended

end LLMRouter
end Johnny.LLM
