import Johnny.LLM.Budget
import Johnny.LLM.Shapes

/-!
# What comes out of the chain

Timeouts, transport errors and error statuses take the router down its chain. A success
status with a body that the projection does not take, or cannot be priced, ends in a
foreign exception instead: unlogged, and without an outcome for the breaker. Past such
answers the router is total.
-/
namespace Johnny.LLM
variable {K ω : Type}

/-! ### What is served to a call -/

/-- An answer that the adapter makes a completion of, or its own error. -/
inductive HttpAnswer.Fit (shaped : Body → Prop) : HttpAnswer → Prop
  | timeout : Fit shaped .timeout
  | transport {text} : Fit shaped (.transport text)
  | refused {status text json} (failed : 400 ≤ status) : Fit shaped (.response status text json)
  | taken {status text data} (takes : shaped data) : Fit shaped (.response status text (some data))

theorem readAnswer_known {counted : ℤ → ℤ → Prop} {name path : String}
    {parse : Body → Except Error Completion} (answer : HttpAnswer) :
    Known counted (readAnswer name path parse answer) ↔
      answer.Fit fun data => Known counted (parse data) := by
  cases answer with
  | timeout => exact iff_of_true rfl .timeout
  | transport text => exact iff_of_true rfl .transport
  | response status text json =>
      unfold readAnswer
      dsimp only
      by_cases failed : 400 ≤ status
      · rw [if_pos failed]
        exact iff_of_true rfl (.refused failed)
      · rw [if_neg failed]
        cases json with
        | none =>
            constructor
            · intro known
              cases known
            · rintro (_ | _ | reached)
              exact absurd reached failed
        | some data =>
            constructor
            · intro known
              exact .taken known
            · rintro (_ | _ | reached | takes)
              · exact absurd reached failed
              · exact takes

theorem readAnswer_raises {name path : String} {parse : Body → Except Error Completion}
    (parsed : ∀ data, Raises Error.isAnswer (parse data)) (answer : HttpAnswer) :
    Raises Error.isAnswer (readAnswer name path parse answer) := by
  cases answer with
  | timeout => exact .error rfl
  | transport text => exact .error rfl
  | response status text json =>
      unfold readAnswer
      dsimp only
      split
      · exact .error rfl
      · cases json with
        | none => exact .error rfl
        | some data => exact parsed data

namespace Adapter

def intOfText : Adapter K ω → String → Option ℤ
  | .openai p => p.intOfText
  | .ollama p => p.intOfText

/-- A schema call of the reasoning model goes to the native endpoint. -/
def native (a : Adapter K ω) (model : String) (request : Request K) : Bool :=
  match a with
  | .openai _ => false
  | .ollama p => model == p.reasoningModel && request.schema.isSome

/-- What is posted for a request. -/
def asked (a : Adapter K ω) (model : String) (request : Request K) : Post K :=
  let format := if request.schema.isSome then some LLMRouter.jsonResponseFormat else none
  let payload := OpenAICompatibleProvider.payload request.messages model request.temperature
    request.maxTokens format []
  match a with
  | .openai _ => { url := "chat/completions", json := payload }
  | .ollama p =>
    if model == p.reasoningModel && request.schema.isSome then
      { url := p.nativeChatUrl
        json := OllamaProvider.nativePayload request.messages model request.temperature
          request.maxTokens
        timeout := p.requestTimeout model }
    else { url := "chat/completions", json := payload, timeout := p.requestTimeout model }

/-- What the provider answers the request with. -/
def answer (a : Adapter K ω) (model : String) (request : Request K) (w : ω) : HttpAnswer :=
  (a.post (a.asked model request) w).1

/-- A body of the shape that the endpoint is read for. -/
def Shaped (a : Adapter K ω) (counted : ℤ → ℤ → Prop) (model : String) (request : Request K)
    (data : Body) : Prop :=
  ∃ fields, data = .obj fields ∧
    if a.native model request then
      ∃ message promptTokens completionTokens,
        NativeShaped a.intOfText counted fields message promptTokens completionTokens
    else (Body.field fields "choices").truthy = true →
      ∃ choice message usage promptTokens completionTokens,
        ChatShaped a.intOfText counted fields choice message usage promptTokens completionTokens

end Adapter

section replies
open LLMRouter (reply)
variable {counted : ℤ → ℤ → Prop} (a : Adapter K ω) (model : String) (request : Request K) (w : ω)

theorem reply_known : Known counted (reply a model request w).1 ↔
    (a.answer model request w).Fit (a.Shaped counted model request) := by
  cases a with
  | openai p =>
      refine (readAnswer_known _).trans ?_
      simp only [parseChatCompletion_known]
      rfl
  | ollama p =>
      have paths : model = p.reasoningModel ∧ request.schema.isSome = true ↔
          (Adapter.ollama p).native model request = true := by
        simp [Adapter.native]
      have same : (if request.schema.isSome then some LLMRouter.jsonResponseFormat
          else none : Option (Dict K)).isSome = request.schema.isSome := by
        cases request.schema <;> rfl
      unfold LLMRouter.reply Adapter.complete OllamaProvider.complete Adapter.Shaped Adapter.answer
        Adapter.asked
      rw [same]
      by_cases path : (Adapter.ollama p).native model request = true
      · have here : (model == p.reasoningModel && request.schema.isSome) = true := path
        simp only [if_pos (paths.mpr path), if_pos path, if_pos here]
        refine (readAnswer_known _).trans ?_
        simp only [parseNativeChat_known]
        rfl
      · have here : ¬ (model == p.reasoningModel && request.schema.isSome) = true := path
        simp only [if_neg (mt paths.mp path), if_neg path, if_neg here]
        refine (readAnswer_known _).trans ?_
        simp only [parseChatCompletion_known]
        rfl

theorem reply_raises : Raises Error.isAnswer (reply a model request w).1 := by
  cases a with
  | openai p => exact readAnswer_raises (fun data => parseChatCompletion_raises data _ _) _
  | ollama p =>
      unfold LLMRouter.reply Adapter.complete OllamaProvider.complete
      generalize (if request.schema.isSome then some LLMRouter.jsonResponseFormat
        else none : Option (Dict K)) = format
      dsimp only
      split
      · exact readAnswer_raises (fun data => parseNativeChat_raises data _) _
      · exact readAnswer_raises (fun data => parseChatCompletion_raises data _ _) _

end replies

/-! ### The trace of a completion -/

namespace Event

/-- The step of the chain that was refused, skipped or invoked. -/
def triedStep : Event K ω → Option ModelStep
  | .refused step | .budgetSkipped step | .invoked step => some step
  | _ => none

def invokedProvider : Event K ω → Option String
  | .invoked step => some step.provider
  | _ => none

/-- The provider whose breaker recorded an outcome. -/
def recordedProvider : Event K ω → Option String
  | .outcome provider _ => some provider
  | _ => none

def loggedCall : Event K ω → Option (String × String × String)
  | .logged record =>
    if record.status = LLMRouter.budgetSkipStatus then none
    else some (record.role, record.provider, record.model)
  | _ => none

end Event

theorem Error.status_called (e : Error) : e.status ≠ LLMRouter.budgetSkipStatus := by
  cases e with
  | timeout message name => exact show "timeout" ≠ "budget_skip" by decide
  | _ => exact show "error" ≠ "budget_skip" by decide

namespace LLMRouter
open Event

def attempted (r : LLMRouter K ω) : Event K ω → Option (String × String × String)
  | .called step _ request _ =>
    (dictGet r.providers step.provider).map fun provider => (request.role, provider.name, step.model)
  | _ => none

/-- The steps that were tried, in order. -/
def tried (events : List (Event K ω)) : List ModelStep := (events.filterMap triedStep).reverse

theorem tried_append (later earlier : List (Event K ω)) :
    tried (later ++ earlier) = tried earlier ++ tried later := by
  unfold tried
  rw [List.filterMap_append, List.reverse_append]

/-- What a completion may promise of its result and of the events it left: a completion
that is valid, or the error of a chain of which every step was tried; each call logged
once; and an outcome for each step that was invoked. -/
structure Total (r : LLMRouter K ω) (chain : List ModelStep) (request : Request K)
    (result : Except Error Completion) (events : List (Event K ω)) : Prop where
  returns : ∀ completion schema, result = .ok completion → request.schema = some schema →
    schema.invalid completion.content = none
  raises : ∀ e, result = .error e →
    (∃ cause, e = .unavailable request.role cause) ∧ tried events = chain
  logged : events.filterMap r.attempted = events.filterMap loggedCall
  recorded : events.filterMap invokedProvider = events.filterMap recordedProvider

/-- The cost of the counts is one that the decimals hold. -/
def Counted (r : LLMRouter K ω) (provider : Adapter K ω) (model : String)
    (promptTokens completionTokens : ℤ) : Prop :=
  ∃ cost, estimateCost r.prices provider.name model promptTokens completionTokens = some cost

/-- What a call is served fits, and the budget tells whether it is spent. -/
def Served (r : LLMRouter K ω) : Event K ω → Prop
  | .called step _ request w => ∀ provider, dictGet r.providers step.provider = some provider →
    (provider.answer step.model request w).Fit
      (provider.Shaped (r.Counted provider step.model) step.model request)
  | .asked _ w => ∀ isExhausted, r.budgetGate = some isExhausted →
    ∃ blocked, (isExhausted w).1 = .ok blocked
  | _ => True

/-- Everything that was asked for during the events was served. -/
def Fit (r : LLMRouter K ω) (events : List (Event K ω)) : Prop := ∀ e ∈ events, r.Served e

variable {r : LLMRouter K ω} {later earlier events : List (Event K ω)}

theorem fit_append : r.Fit (later ++ earlier) ↔ r.Fit later ∧ r.Fit earlier :=
  List.forall_mem_append

theorem fit_nil : r.Fit [] := List.forall_mem_nil _

/-- An event of a call, of the log or of the gate: no step and no outcome. -/
def Inner (events : List (Event K ω)) : Prop :=
  events.filterMap triedStep = [] ∧ events.filterMap invokedProvider = [] ∧
    events.filterMap recordedProvider = []

theorem Inner.append (late : Inner later) (early : Inner earlier) : Inner (later ++ earlier) := by
  obtain ⟨tried, invoked, recorded⟩ := late
  obtain ⟨tried', invoked', recorded'⟩ := early
  unfold Inner
  simp only [List.filterMap_append, tried, invoked, recorded, tried', invoked', recorded',
    List.append_nil, and_self]

/-- Everything was served, each call was logged and each invoked step has its outcome. -/
structure Accounted (r : LLMRouter K ω) (events : List (Event K ω)) : Prop where
  fit : r.Fit events
  logged : events.filterMap r.attempted = events.filterMap loggedCall
  recorded : events.filterMap invokedProvider = events.filterMap recordedProvider

theorem Accounted.append (late : r.Accounted later) (early : r.Accounted earlier) :
    r.Accounted (later ++ earlier) := by
  constructor
  · exact fit_append.mpr ⟨late.fit, early.fit⟩
  · rw [List.filterMap_append, List.filterMap_append, late.logged, early.logged]
  · rw [List.filterMap_append, List.filterMap_append, late.recorded, early.recorded]

/-- One token each way has a cost, whatever the model. -/
theorem estimateCost_one (provider model : String) :
    ∃ cost, estimateCost pricing provider model 1 1 = some cost := by
  cases listed : pricing.get provider model with
  | none =>
      unfold estimateCost
      rw [listed]
      exact ⟨0, rfl⟩
  | some price =>
      obtain ⟨rfl, rfl⟩ := pricing_key listed
      exact ⟨1 / 1000000, estimateCost_listed⟩

section calls
variable [Field K] [LinearOrder K] [FloorRing K]

/-- The reply is valid, or an error that the router falls back on. -/
def Settles (request : Request K) : Except Error Completion → Prop
  | .ok completion => refusal request completion = none
  | .error e => e.isProvider = true ∨ e.isSchemaValidation = true

/-- How the calls of a step can end. -/
inductive Called (r : LLMRouter K ω) (request : Request K) (events : List (Event K ω)) :
    Except Error Completion → Prop
  | settled {result} (accounted : r.Accounted events) (settles : Settles request result) :
      Called r request events result
  | raised {e} (unfit : ¬ r.Fit events) (foreign : e.isForeign = true) :
      Called r request events (.error e)

section call
variable {provider : Adapter K ω} {step : ModelStep} {left : ℕ} {request : Request K} {w : ω}

omit [Field K] [LinearOrder K] [FloorRing K] in
theorem attempted_called (routed : dictGet r.providers step.provider = some provider) :
    r.attempted (.called step left request w) =
      some (request.role, provider.name, step.model) := by
  unfold attempted
  dsimp only
  rw [routed]
  rfl

omit [Field K] [LinearOrder K] [FloorRing K] in
theorem loggedCall_logged {record : CallLogRecord} (status : record.status ≠ budgetSkipStatus) :
    loggedCall (.logged record : Event K ω) =
      some (record.role, record.provider, record.model) := by
  unfold loggedCall
  dsimp only
  rw [if_neg status]

omit [Field K] [LinearOrder K] [FloorRing K] in
/-- What a call was served decides what is known of its reply. -/
theorem served_called (routed : dictGet r.providers step.provider = some provider) :
    r.Served (.called step left request w) ↔
      Known (r.Counted provider step.model) (reply provider step.model request w).1 := by
  refine Iff.trans ?_ (reply_known _ _ _ _).symm
  constructor
  · intro all
    exact all provider routed
  · rintro fit other here
    obtain rfl := Option.some.inj (routed.symm.trans here)
    exact fit

omit [Field K] [LinearOrder K] [FloorRing K] in
/-- A call whose reply is known, and its entry in the log. -/
theorem Accounted.call (routed : dictGet r.providers step.provider = some provider)
    (known : Known (r.Counted provider step.model) (reply provider step.model request w).1)
    {record : CallLogRecord} (status : record.status ≠ budgetSkipStatus)
    (logs : (record.role, record.provider, record.model) =
      (request.role, provider.name, step.model)) (after : ω) :
    r.Accounted [.ended step after, .logged record, .called step left request w] := by
  refine ⟨?_, ?_, rfl⟩
  · intro e member
    simp only [List.mem_cons, List.not_mem_nil, or_false] at member
    obtain rfl | rfl | rfl := member
    · trivial
    · trivial
    · exact (served_called routed).mpr known
  · rw [List.filterMap_cons_none rfl, List.filterMap_cons_none rfl,
      List.filterMap_cons_some (attempted_called routed), List.filterMap_cons_none rfl,
      List.filterMap_cons_some (loggedCall_logged status), List.filterMap_cons_none rfl, logs]
    rfl

end call

theorem attempt_called {provider : Adapter K ω} {step : ModelStep}
    (routed : dictGet r.providers step.provider = some provider) (left : ℕ) (request : Request K)
    (s : Routed K ω) : ∃ events,
      (r.attempt provider step left request s).2.trace = events ++ s.trace ∧ Inner events ∧
        Called r request events (r.attempt provider step left request s).1 := by
  have unserved (unknown : ¬ Known (r.Counted provider step.model)
      (reply provider step.model request s.world).1) :
      ¬ r.Fit [.called step left request s.world] :=
    fun fit => unknown ((served_called routed).mp (fit _ (List.mem_singleton_self _)))
  have ended := r.attempt_spec provider step left request s
  generalize r.attempt provider step left request s = q at ended ⊢
  cases ended with
  | @failed e w replied provided =>
      have known : Known (r.Counted provider step.model)
          (reply provider step.model request s.world).1 := by
        rw [replied]
        exact provided
      exact ⟨[.ended step _, .logged _, .called step left request s.world], rfl, ⟨rfl, rfl, rfl⟩,
        .settled (.call routed known e.status_called rfl _) (.inl provided)⟩
  | @raised e w replied unprovided =>
      have answers := reply_raises provider step.model request s.world e (congrArg Prod.fst replied)
      unfold Error.isAnswer at answers
      rw [unprovided, Bool.false_or] at answers
      refine ⟨[.called step left request s.world], rfl, ⟨rfl, rfl, rfl⟩, .raised ?_ answers⟩
      apply unserved
      rw [replied]
      intro known
      rw [show e.isProvider = true from known] at unprovided
      cases unprovided
  | @uncounted completion w replied invalid =>
      refine ⟨[.called step left request s.world], rfl, ⟨rfl, rfl, rfl⟩, .raised ?_ rfl⟩
      apply unserved
      rw [replied]
      rintro ⟨cost, counts⟩
      unfold replyCost at invalid
      rw [counts] at invalid
      cases invalid
  | @rejected completion w cost schema text replied costs refused =>
      have known : Known (r.Counted provider step.model)
          (reply provider step.model request s.world).1 := by
        rw [replied]
        exact ⟨cost, costs⟩
      exact ⟨[.ended step _, .logged _, .called step left request s.world], rfl, ⟨rfl, rfl, rfl⟩,
        .settled (.call routed known (show "schema_error" ≠ "budget_skip" by decide) rfl _)
          (.inr rfl)⟩
  | @returned completion w cost replied costs valid =>
      have known : Known (r.Counted provider step.model)
          (reply provider step.model request s.world).1 := by
        rw [replied]
        exact ⟨cost, costs⟩
      exact ⟨[.ended step _, .logged _, .called step left request s.world], rfl, ⟨rfl, rfl, rfl⟩,
        .settled (.call routed known (show "ok" ≠ "budget_skip" by decide) rfl _) valid⟩

theorem invokeWithFeedback_called {provider : Adapter K ω} {step : ModelStep}
    (routed : dictGet r.providers step.provider = some provider) (left : ℕ) (request : Request K)
    (s : Routed K ω) : ∃ events,
      (r.invokeWithFeedback provider step left request s).2.trace = events ++ s.trace ∧
        Inner events ∧
        Called r request events (r.invokeWithFeedback provider step left request s).1 := by
  induction left generalizing request s with
  | zero => exact attempt_called routed 0 request s
  | succ left ih =>
      obtain ⟨events, grown, inner, called⟩ := attempt_called routed (left + 1) request s
      unfold invokeWithFeedback
      rcases ran : r.attempt provider step (left + 1) request s with ⟨result, t⟩
      rw [ran] at grown called
      cases result with
      | ok completion =>
          rw [Prog.rescue_of_ok ran]
          exact ⟨events, grown, inner, called⟩
      | error e =>
          cases schema : e.isSchemaValidation with
          | false =>
              rw [Prog.rescue_of_passed ran schema]
              exact ⟨events, grown, inner, called⟩
          | true =>
              rw [Prog.rescue_of_caught ran schema]
              cases called with
              | raised unfit foreign =>
                  rw [Error.isSchemaValidation_of_isForeign foreign] at schema
                  cases schema
              | settled accounted settles =>
                  obtain ⟨retried, grown', inner', called'⟩ := ih
                    { request with messages := request.messages ++ feedback e } t
                  refine ⟨retried ++ events, ?_, inner'.append inner, ?_⟩
                  · rw [grown', grown, List.append_assoc]
                  · generalize (r.invokeWithFeedback provider step left _ t).1 = result at called' ⊢
                    cases called' with
                    | settled accounted' settles' =>
                        refine .settled (accounted'.append accounted) ?_
                        cases result with
                        | ok completion => exact settles'
                        | error e => exact settles'
                    | raised unfit foreign =>
                        exact .raised (fun fit => unfit (fit_append.mp fit).1) foreign

omit [Field K] [LinearOrder K] [FloorRing K] in
/-- The gate, where it is asked. -/
theorem budgetBlocks_asked (prices : r.prices = pricing) (step : ModelStep) (s : Routed K ω) :
    ∃ events, (r.budgetBlocks step s).2.trace = events ++ s.trace ∧ Inner events ∧
      (∀ blocked, (r.budgetBlocks step s).1 = .ok blocked → r.Accounted events) ∧
      (∀ e, (r.budgetBlocks step s).1 = .error e → ¬ r.Fit events) := by
  have quiet (blocked : Bool) (passes : r.budgetBlocks step s = (.ok blocked, s)) :
      ∃ events, (r.budgetBlocks step s).2.trace = events ++ s.trace ∧ Inner events ∧
        (∀ blocked, (r.budgetBlocks step s).1 = .ok blocked → r.Accounted events) ∧
        (∀ e, (r.budgetBlocks step s).1 = .error e → ¬ r.Fit events) := by
    rw [passes]
    exact ⟨[], rfl, ⟨rfl, rfl, rfl⟩, fun _ _ => ⟨fit_nil, rfl, rfl⟩, fun _ none => by cases none⟩
  obtain ⟨cost, priced⟩ := estimateCost_one step.provider step.model
  rw [← prices] at priced
  cases gate : r.budgetGate with
  | none =>
      apply quiet false
      unfold budgetBlocks
      rw [gate]
      rfl
  | some isExhausted =>
      by_cases free : cost ≤ 0
      · apply quiet false
        unfold budgetBlocks
        rw [gate, priced]
        dsimp only
        rw [if_pos free]
        rfl
      · have asks : r.budgetBlocks step s = ((isExhausted s.world).1, { s with
            world := (isExhausted s.world).2, trace := .asked step s.world :: s.trace }) := by
          unfold budgetBlocks
          rw [gate, priced]
          dsimp only
          rw [if_neg free]
          rfl
        rw [asks]
        refine ⟨[.asked step s.world], rfl, ⟨rfl, rfl, rfl⟩, ?_, ?_⟩
        · intro blocked answered
          refine ⟨?_, rfl, rfl⟩
          intro e member
          rw [List.mem_singleton.mp member]
          intro other here
          obtain rfl := Option.some.inj (gate.symm.trans here)
          exact ⟨blocked, answered⟩
        · intro e raised fit
          obtain ⟨blocked, answered⟩ := fit _ (List.mem_singleton_self _) isExhausted gate
          rw [show (isExhausted s.world).1 = .error e from raised] at answered
          cases answered

/-- How a step of the chain can end. -/
inductive Stepped (r : LLMRouter K ω) (step : ModelStep) (request : Request K)
    (events : List (Event K ω)) : Except Error (Except (Option Error) Completion) → Prop
  | returned {completion} (accounted : r.Accounted events)
      (valid : refusal request completion = none) :
      Stepped r step request events (.ok (.ok completion))
  | passed {lastError} (accounted : r.Accounted events) (tries : tried events = [step]) :
      Stepped r step request events (.ok (.error lastError))
  | raised {e} (unfit : ¬ r.Fit events) (escapes : e.isForeign = true ∨ tried events = []) :
      Stepped r step request events (.error e)

omit [Field K] [LinearOrder K] [FloorRing K] in
theorem Inner.tried_nil (inner : Inner events) : tried events = [] := by
  unfold tried
  rw [inner.1]
  rfl

omit [Field K] [LinearOrder K] [FloorRing K] in
theorem Stepped.after {step : ModelStep} {request : Request K}
    {result : Except Error (Except (Option Error) Completion)}
    (stepped : r.Stepped step request later result) (accounted : r.Accounted earlier)
    (inner : Inner earlier) : r.Stepped step request (later ++ earlier) result := by
  have same : tried (later ++ earlier) = tried later := by
    rw [tried_append, inner.tried_nil, List.nil_append]
  cases stepped with
  | returned accounted' valid => exact .returned (accounted'.append accounted) valid
  | passed accounted' tries => exact .passed (accounted'.append accounted) (same.trans tries)
  | raised unfit escapes =>
      exact .raised (fun fit => unfit (fit_append.mp fit).1) (escapes.imp_right same.trans)

theorem invoke_stepped {provider : Adapter K ω} {step : ModelStep}
    (routed : dictGet r.providers step.provider = some provider) (request : Request K)
    {s : Routed K ω} {q : Except Error (Except Error Completion) × Routed K ω}
    (ended : Invoked r provider step request s q) :
    ∃ events, q.2.trace = events ++ s.trace ∧
      Stepped r step request events (q.1.map fun result => result.mapError some) := by
  obtain ⟨calls, grown, inner, called⟩ :=
    invokeWithFeedback_called routed r.schemaRetries request (admitted step s)
  have whole (healthy : Bool) (accounted : r.Accounted calls) :
      r.Accounted ([Event.outcome step.provider healthy] ++ calls ++ [Event.invoked step]) ∧
        tried ([Event.outcome step.provider healthy] ++ calls ++ [Event.invoked step]) = [step] := by
    obtain ⟨silent, invoked, recorded⟩ := inner
    refine ⟨⟨?_, ?_, ?_⟩, ?_⟩
    · refine fit_append.mpr ⟨fit_append.mpr ⟨?_, accounted.fit⟩, ?_⟩
      · exact List.forall_mem_singleton.mpr trivial
      · exact List.forall_mem_singleton.mpr trivial
    · simp only [List.filterMap_append, accounted.logged]
      rfl
    · simp only [List.filterMap_append, invoked, recorded]
      rfl
    · unfold tried
      simp only [List.filterMap_append, silent]
      rfl
  have finish {t : Routed K ω} (trace : t.trace = calls ++ (.invoked step :: s.trace))
      (healthy : Bool) : .outcome step.provider healthy :: t.trace =
        ([Event.outcome step.provider healthy] ++ calls ++ [Event.invoked step]) ++ s.trace := by
    rw [trace, List.append_assoc, List.append_assoc]
    rfl
  cases ended with
  | @succeeded completion t ran =>
      rw [ran] at grown called
      cases called with
      | settled accounted settles =>
          exact ⟨_, finish grown true, .returned (whole true accounted).1 settles⟩
  | @failed e t ran known =>
      rw [ran] at grown called
      cases called with
      | settled accounted settles =>
          exact ⟨_, finish grown false,
            .passed (whole false accounted).1 (whole false accounted).2⟩
      | raised unfit foreign =>
          rw [Error.isProvider_of_isForeign foreign] at known
          cases known
  | @unusable e t ran schema =>
      rw [ran] at grown called
      cases called with
      | settled accounted settles =>
          exact ⟨_, finish grown true, .passed (whole true accounted).1 (whole true accounted).2⟩
      | raised unfit foreign =>
          rw [Error.isSchemaValidation_of_isForeign foreign] at schema
          cases schema
  | @raised e t ran known schema =>
      rw [ran] at grown called
      cases called with
      | settled accounted settles =>
          rcases settles with told | told
          · rw [told] at known
            cases known
          · rw [told] at schema
            cases schema
      | raised unfit foreign =>
          refine ⟨calls ++ [.invoked step], ?_, .raised ?_ (.inl foreign)⟩
          · rw [List.append_assoc]
            exact grown
          · exact fun fit => unfit (fit_append.mp fit).1

theorem tryStep_stepped (prices : r.prices = pricing) {step : ModelStep}
    (routed : (dictGet r.providers step.provider).isSome = true) (request : Request K)
    (lastError : Option Error) (s : Routed K ω) :
    ∃ events, (r.tryStep step request lastError s).2.trace = events ++ s.trace ∧
      Stepped r step request events (r.tryStep step request lastError s).1 := by
  obtain ⟨gated, grown, inner, answered, unanswered⟩ :=
    budgetBlocks_asked prices step (r.settledBreaker step s)
  have single {e : Event K ω} (served : r.Served e) : r.Fit [e] :=
    List.forall_mem_singleton.mpr served
  have ended := r.tryStep_spec step request lastError s
  generalize r.tryStep step request lastError s = q at ended ⊢
  cases ended with
  | refused closed =>
      exact ⟨[.refused step], rfl, .passed ⟨single trivial, rfl, rfl⟩ rfl⟩
  | @ungated e t asked =>
      rw [asked] at grown unanswered
      exact ⟨gated, grown, .raised (unanswered e rfl) (.inr inner.tried_nil)⟩
  | @blocked t asked =>
      rw [asked] at grown answered
      refine ⟨[Event.budgetSkipped step, Event.logged (r.entry request.role step.provider step.model none
        budgetSkipStatus none 0 t.world)] ++ gated, ?_, .passed ?_ ?_⟩
      · exact congrArg (fun trace => _ :: _ :: trace) grown
      · refine Accounted.append ⟨?_, rfl, rfl⟩ (answered true rfl)
        intro e member
        simp only [List.mem_cons, List.not_mem_nil, or_false] at member
        obtain rfl | rfl := member
        · trivial
        · trivial
      · rw [tried_append, inner.tried_nil]
        rfl
  | unrouted asked missing =>
      rw [missing] at routed
      cases routed
  | @invoked t provider result u asked here ended =>
      rw [asked] at grown answered
      obtain ⟨events, grown', stepped⟩ := invoke_stepped here request ended
      refine ⟨events ++ gated, ?_, ?_⟩
      · rw [List.append_assoc, ← show t.trace = gated ++ s.trace from grown]
        exact grown'
      · exact stepped.after (answered false rfl) inner
  | @raised t provider e u asked here ended =>
      rw [asked] at grown answered
      obtain ⟨events, grown', stepped⟩ := invoke_stepped here request ended
      refine ⟨events ++ gated, ?_, ?_⟩
      · rw [List.append_assoc, ← show t.trace = gated ++ s.trace from grown]
        exact grown'
      · exact stepped.after (answered false rfl) inner

/-- How the rest of the chain can end. -/
inductive Descended (r : LLMRouter K ω) (chain : List ModelStep) (request : Request K)
    (events : List (Event K ω)) : Except Error Completion → Prop
  | returned {completion} (accounted : r.Accounted events)
      (valid : refusal request completion = none) :
      Descended r chain request events (.ok completion)
  | exhausted {cause} (accounted : r.Accounted events) (tries : tried events = chain) :
      Descended r chain request events (.error (.unavailable request.role cause))
  | raised {e} (unfit : ¬ r.Fit events) (escapes : e.isForeign = true ∨ tried events ≠ chain) :
      Descended r chain request events (.error e)

theorem completeFrom_descended (prices : r.prices = pricing) (request : Request K)
    (chain : List ModelStep)
    (routed : ∀ step ∈ chain, (dictGet r.providers step.provider).isSome = true)
    (lastError : Option Error) (s : Routed K ω) :
    ∃ events, (r.completeFrom request chain lastError s).2.trace = events ++ s.trace ∧
      Descended r chain request events (r.completeFrom request chain lastError s).1 := by
  induction chain generalizing lastError s with
  | nil => exact ⟨[], rfl, .exhausted ⟨fit_nil, rfl, rfl⟩ rfl⟩
  | cons step rest ih =>
      obtain ⟨events, grown, stepped⟩ :=
        tryStep_stepped prices (routed step List.mem_cons_self) request lastError s
      unfold completeFrom
      rcases ran : r.tryStep step request lastError s with ⟨result, t⟩
      rw [ran] at grown stepped
      cases stepped with
      | returned accounted valid =>
          rw [Prog.bind_of_ok ran]
          exact ⟨events, grown, .returned accounted valid⟩
      | @raised e unfit escapes =>
          rw [Prog.bind_of_error ran]
          refine ⟨events, grown, .raised unfit ?_⟩
          rcases escapes with foreign | none
          · exact .inl foreign
          · right
            rw [none]
            exact (List.cons_ne_nil step rest).symm
      | @passed lastError' accounted tries =>
          rw [Prog.bind_of_ok ran]
          dsimp only
          obtain ⟨more, grown', descended⟩ :=
            ih (fun step member => routed step (List.mem_cons_of_mem _ member)) lastError' t
          refine ⟨more ++ events, ?_, ?_⟩
          · rw [grown', show t.trace = events ++ s.trace from grown, List.append_assoc]
          · generalize (r.completeFrom request rest lastError' t).1 = result at descended ⊢
            have onward : tried (more ++ events) = step :: tried more := by
              rw [tried_append, tries]
              rfl
            cases descended with
            | returned accounted' valid =>
                exact .returned (accounted'.append accounted) valid
            | exhausted accounted' tries' =>
                refine .exhausted (accounted'.append accounted) ?_
                rw [onward, tries']
            | raised unfit escapes =>
                refine .raised (fun fit => unfit (fit_append.mp fit).1) ?_
                rcases escapes with foreign | short
                · exact .inl foreign
                · right
                  rw [onward]
                  exact fun same => short (List.cons.inj same).2

omit [Field K] [LinearOrder K] [FloorRing K] in
theorem Descended.total_iff {chain : List ModelStep} {request : Request K}
    {result : Except Error Completion} (descended : r.Descended chain request events result) :
    r.Total chain request result events ↔ r.Fit events := by
  cases descended with
  | @returned completion accounted valid =>
      refine iff_of_true ⟨?_, fun _ raised => (by cases raised), accounted.logged,
        accounted.recorded⟩ accounted.fit
      rintro _ schema ⟨⟩ given
      unfold refusal at valid
      rw [given] at valid
      exact Option.map_eq_none_iff.mp valid
  | @exhausted cause accounted tries =>
      refine iff_of_true ⟨fun _ _ returned => (by cases returned), ?_, accounted.logged,
        accounted.recorded⟩ accounted.fit
      rintro _ ⟨⟩
      exact ⟨⟨cause, rfl⟩, tries⟩
  | raised unfit escapes =>
      refine iff_of_false ?_ unfit
      intro total
      obtain ⟨⟨cause, rfl⟩, tries⟩ := total.raises _ rfl
      rcases escapes with foreign | short
      · cases foreign
      · exact short tries

omit [Field K] [LinearOrder K] [FloorRing K] in
/-- The steps of a configured chain name providers that are there. -/
theorem chainFor_routed {role : String} {chain : List ModelStep}
    (configured : r.routing.chainFor role = .ok chain) :
    ∀ step ∈ chain, (dictGet r.providers step.provider).isSome = true := by
  have held {name : String} (found : dictGet r.routing.roles name = some chain) :
      ∀ step ∈ chain, (dictGet r.providers step.provider).isSome = true := by
    obtain ⟨entry, member, rfl⟩ := Option.map_eq_some_iff.mp found
    exact r.validated entry (List.mem_of_find?_eq_some member)
  unfold RoutingConfig.chainFor at configured
  split at configured
  · rename_i chain' found
    obtain rfl := Except.ok.inj configured
    exact held found
  · split at configured
    · rename_i chain' found
      obtain rfl := Except.ok.inj configured
      exact held found
    · cases configured

/-- Over every chain, every state of the breakers and every behaviour of the transports and
of the gate, a completion is total exactly when everything it asked for was served: each
call a failure of the transport, an error status or a body of the shape it is read for, and
each question to the gate an answer. -/
theorem complete_total_iff (r : LLMRouter K ω) (prices : r.prices = pricing) (request : Request K)
    (chain : List ModelStep) (configured : r.routing.chainFor request.role = .ok chain)
    (s : Routed K ω) :
    ∃ events, (r.complete request s).2.trace = events ++ s.trace ∧
      (r.Total chain request (r.complete request s).1 events ↔ r.Fit events) := by
  obtain ⟨events, grown, descended⟩ :=
    completeFrom_descended prices request chain (chainFor_routed configured) none s
  have same : r.complete request s = r.completeFrom request chain none s := by
    unfold complete
    rw [configured]
    rfl
  rw [same]
  exact ⟨events, grown, descended.total_iff⟩

end calls
end LLMRouter

/-! ### A list for a body -/

namespace ForeignBody
open LLMRouter
open DailyCeiling (World callLog request)

def cloud : ModelStep := ⟨"groq", "llama-3.3-70b-versatile"⟩

def fallback : ModelStep := ⟨"ollama", "gemma4:e4b"⟩

def chain : List ModelStep := [cloud, fallback]

def groq (answer : HttpAnswer) : OpenAICompatibleProvider ℚ World where
  name := "groq"
  post _ w := (answer, w)
  intOfText _ := none

def ollama : OllamaProvider ℚ World where
  name := "ollama"
  post _ w := (DailyCeiling.answer "\x7b\x7d", w)
  intOfText _ := none
  reasoningModel := "qwen3.5-9b-128k"
  reasoningTimeout := 240
  nativeChatUrl := "/api/chat"

def router (answer : HttpAnswer) : LLMRouter ℚ World where
  providers := [("groq", .openai (groq answer)), ("ollama", .ollama ollama)]
  routing := ⟨[("deliberation", chain)]⟩
  callLogger := callLog
  budgetGate := none
  prices := pricing
  failureThreshold := 4
  resetTimeout := 60
  schemaRetries := 1
  timeFn _ := 0
  perfCounter _ := 0
  validated := by
    intro entry member step inside
    rw [List.mem_singleton.mp member] at inside
    rcases List.mem_cons.mp inside with rfl | inside
    · rfl
    · rw [List.mem_singleton.mp inside]
      rfl

/-- A success status with an empty list for a body. -/
def listed : HttpAnswer := .response 200 "[]" (some (.arr []))

def completed (answer : HttpAnswer) : Except Error Completion × Routed ℚ World :=
  (router answer).complete request ((router answer).fresh { tables := [], sequences := 1 })

theorem ollama_counted (model : String) (promptTokens completionTokens : ℤ) :
    (router .timeout).Counted (.ollama ollama) model promptTokens completionTokens :=
  ⟨0, rfl⟩

/-- Its answer has either shape: there is no message for the native endpoint. -/
theorem ollama_fit (model : String) (asked : Request ℚ) (w : World) :
    ((Adapter.ollama ollama).answer model asked w).Fit ((Adapter.ollama ollama).Shaped
      ((router .timeout).Counted (.ollama ollama) model) model asked) := by
  have unnamed : (Body.field (DailyCeiling.envelope "\x7b\x7d") "model").truthy = true →
      ∃ text, Body.field (DailyCeiling.envelope "\x7b\x7d") "model" = .str text := by
    intro named
    cases named
  refine .taken ⟨DailyCeiling.envelope "\x7b\x7d", rfl, ?_⟩
  split
  · exact ⟨[], 0, 0, rfl, ⟨"", rfl⟩, .inl rfl, unnamed, rfl, rfl, .inl rfl, ollama_counted model 0 0⟩
  · rintro -
    exact ⟨_, [("content", .str "\x7b\x7d")], _, 2000, 500, ⟨[], rfl⟩, rfl, ⟨"\x7b\x7d", rfl⟩,
      .inl rfl, rfl, unnamed, rfl, rfl, .inl rfl, ollama_counted model 2000 500⟩

theorem fit (events : List (Event ℚ World)) : (router .timeout).Fit events := by
  intro e _
  cases e with
  | asked step w => exact nofun
  | called step left asked w =>
      intro provider routed
      obtain ⟨entry, found, rfl⟩ := Option.map_eq_some_iff.mp routed
      rcases List.mem_cons.mp (List.mem_of_find?_eq_some found) with rfl | member
      · exact .timeout
      · rw [List.mem_singleton.mp member]
        exact ollama_fit step.model asked w
  | _ => trivial

end ForeignBody

open ForeignBody in
/-- A list for a body takes the completion out of the router: the fallback is not tried, the
call is not logged and its step has no outcome. -/
theorem list_body_escapes :
    (completed listed).1 = .error (.foreign "AttributeError" "'list' object has no attribute 'get'") ∧
      ¬ ∃ events, (completed listed).2.trace = events ++ [] ∧
        (router listed).Total chain DailyCeiling.request (completed listed).1 events := by
  have escapes : (completed listed).1 =
      .error (.foreign "AttributeError" "'list' object has no attribute 'get'") := by rfl
  refine ⟨escapes, ?_⟩
  rintro ⟨events, -, total⟩
  obtain ⟨⟨cause, same⟩, -⟩ := total.raises _ escapes
  cases same

open ForeignBody in
/-- A timeout is fallen back from. -/
theorem timeout_total :
    ∃ events, (completed .timeout).2.trace = events ++ [] ∧
      (router .timeout).Total chain DailyCeiling.request (completed .timeout).1 events := by
  obtain ⟨events, grown, total⟩ := (router .timeout).complete_total_iff rfl DailyCeiling.request
    chain rfl ((router .timeout).fresh { tables := [], sequences := 1 })
  exact ⟨events, grown, total.mpr (fit events)⟩

end Johnny.LLM
