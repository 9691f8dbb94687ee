import Johnny.LLM.Budget

/-!
# Which steps the budget gate takes for paid

The gate prices one token each way. The price of a million tokens each way is brought down
to one, added in the decimal context, and rounded to six places: half a dollar per million
is the least that the rounding leaves of it.
-/
namespace Johnny.LLM

/-! ### The cost of one token -/

theorem log_shift {x : ℚ} (positive : 0 < x) (k : ℤ) :
    Int.log 10 (x * 10 ^ k) = Int.log 10 x + k := by
  have ten : (0 : ℚ) < 10 ^ k := zpow_pos (by norm_num) k
  apply eq_of_forall_le_iff
  intro n
  rw [← sub_le_iff_le_add, ← Int.zpow_le_iff_le_log (by norm_num) (mul_pos positive ten),
    ← Int.zpow_le_iff_le_log (by norm_num) positive, Nat.cast_ofNat,
    zpow_sub₀ (by norm_num : (10 : ℚ) ≠ 0), div_le_iff₀ ten]

/-- A shift of the decimal point commutes with the rounding of the context. -/
theorem inContext_shift (x : ℚ) (k : ℤ) : inContext (x * 10 ^ k) = inContext x * 10 ^ k := by
  by_cases zero : x = 0
  · rw [zero, zero_mul, inContext_zero, zero_mul]
  · have ten : (0 : ℚ) < 10 ^ k := zpow_pos (by norm_num) k
    have magnitude : Int.log 10 |x * 10 ^ k| = Int.log 10 |x| + k := by
      rw [abs_mul, abs_of_pos ten, log_shift (abs_pos.mpr zero)]
    have unit : (10 : ℚ) ^ (Int.log 10 |x| + k - (contextPrecision - 1)) =
        10 ^ (Int.log 10 |x| - (contextPrecision - 1)) * 10 ^ k := by
      rw [← zpow_add₀ (by norm_num : (10 : ℚ) ≠ 0)]
      congr 1
      omega
    unfold inContext
    dsimp only
    rw [magnitude, unit, mul_div_mul_right _ _ ten.ne', mul_assoc]

/-- The price of a million tokens each way, as the context adds it. -/
def TokenPrice.total (price : TokenPrice) : ℚ :=
  inContext (inContext price.inputPerMillion + inContext price.outputPerMillion)

theorem TokenPrice.total_nonneg (price : TokenPrice) : 0 ≤ price.total := by
  apply inContext_nonneg
  exact add_nonneg (inContext_nonneg price.inputNonneg) (inContext_nonneg price.outputNonneg)

theorem estimateCost_token {prices : Prices} {provider model : String} {price : TokenPrice}
    (listed : prices.get provider model = some price) :
    estimateCost prices provider model 1 1 = quantize (price.total * 10 ^ (-6 : ℤ)) := by
  have token : inContext (((1 : ℤ) : ℚ) / million) = 10 ^ (-6 : ℤ) := by
    have shifted := inContext_shift 1 (-6)
    rw [inContext_one, one_mul] at shifted
    rw [← shifted]
    norm_num [million]
  unfold estimateCost
  rw [listed]
  dsimp only
  rw [token, mul_comm, inContext_shift, mul_comm _ price.outputPerMillion, inContext_shift,
    ← add_mul, inContext_shift]
  rfl

theorem one_le_roundHalfUp {x : ℚ} (nonneg : 0 ≤ x) : 1 ≤ roundHalfUp x ↔ 1 / 2 ≤ x := by
  unfold roundHalfUp
  rw [if_pos nonneg, Int.le_floor]
  push_cast
  constructor <;> intro bound <;> linarith

/-- What one token each way costs is not nothing from half a dollar per million on. -/
theorem token_costs_iff {prices : Prices} {provider model : String} {price : TokenPrice}
    (listed : prices.get provider model = some price) :
    (∀ cost, estimateCost prices provider model 1 1 = some cost → 0 < cost) ↔
      1 / 2 ≤ price.total := by
  have places : price.total * 10 ^ (-6 : ℤ) * 10 ^ centPrecision = price.total := by
    rw [mul_assoc]
    norm_num [centPrecision]
  rw [estimateCost_token listed, ← one_le_roundHalfUp price.total_nonneg]
  have nonneg := roundHalfUp_nonneg price.total_nonneg
  unfold quantize
  dsimp only
  rw [places]
  by_cases valid : (roundHalfUp price.total).natAbs < 10 ^ contextPrecision
  · rw [if_pos valid]
    have scaled : (0 : ℚ) < roundHalfUp price.total / 10 ^ centPrecision ↔
        0 < roundHalfUp price.total := by
      rw [div_pos_iff_of_pos_right (by positivity), Int.cast_pos]
    constructor
    · intro costs
      exact scaled.mp (costs _ rfl)
    · rintro least cost ⟨⟩
      exact scaled.mpr least
  · rw [if_neg valid]
    refine ⟨fun _ => ?_, nofun⟩
    have large : 1 ≤ 10 ^ contextPrecision := Nat.one_le_pow _ _ (by norm_num)
    omega

/-! ### The gate -/

namespace LLMRouter
variable {K ω : Type} {r : LLMRouter K ω} {step : ModelStep} {s t : Routed K ω}
open Routed

/-- The step's price reaches half a dollar per million tokens each way. -/
def Reaches (r : LLMRouter K ω) (step : ModelStep) : Prop :=
  ∃ price, r.prices.get step.provider step.model = some price ∧ 1 / 2 ≤ price.total

theorem reaches_iff (paid : r.PaidStep step) :
    r.Reaches step ↔
      ∀ cost, estimateCost r.prices step.provider step.model 1 1 = some cost → 0 < cost := by
  obtain ⟨price, listed, _⟩ := paid
  rw [token_costs_iff listed]
  constructor
  · rintro ⟨price', listed', bound⟩
    obtain rfl := Option.some.inj (listed.symm.trans listed')
    exact bound
  · intro bound
    exact ⟨price, listed, bound⟩

variable {isExhausted : Prog Error ω Bool}

/-- With the budget exhausted, the gate lets a step pass exactly if its token costs nothing. -/
theorem budgetBlocks_passes_iff (gate : r.budgetGate = some isExhausted)
    (exhausted : (isExhausted s.world).1 = .ok true) :
    (r.budgetBlocks step s).1 = .ok false ↔
      ∃ cost, estimateCost r.prices step.provider step.model 1 1 = some cost ∧ cost ≤ 0 := by
  unfold budgetBlocks
  rw [gate]
  dsimp only
  cases estimateCost r.prices step.provider step.model 1 1 with
  | none => exact ⟨nofun, nofun⟩
  | some cost =>
      dsimp only
      by_cases free : cost ≤ 0
      · rw [if_pos free]
        exact ⟨fun _ => ⟨cost, rfl, free⟩, fun _ => rfl⟩
      · rw [if_neg free]
        have asked : ((do note (.asked step); outside isExhausted : Prog Error (Routed K ω) Bool)
            s).1 = .ok true := exhausted
        rw [asked]
        refine ⟨nofun, ?_⟩
        rintro ⟨_, ⟨⟩, other⟩
        exact absurd other free

theorem budgetBlocks_grows (r : LLMRouter K ω) (step : ModelStep) (s : Routed K ω) :
    ∃ more, (r.budgetBlocks step s).2.trace = more ++ s.trace ∧
      ∀ left asked w, .called step left asked w ∉ more := by
  unfold budgetBlocks
  cases r.budgetGate with
  | none => exact ⟨[], rfl, fun _ _ _ => List.not_mem_nil⟩
  | some isExhausted =>
      dsimp only
      cases estimateCost r.prices step.provider step.model 1 1 with
      | none => exact ⟨[], rfl, fun _ _ _ => List.not_mem_nil⟩
      | some cost =>
          dsimp only
          by_cases free : cost ≤ 0
          · rw [if_pos free]
            exact ⟨[], rfl, fun _ _ _ => List.not_mem_nil⟩
          · rw [if_neg free]
            refine ⟨[.asked step s.world], rfl, fun left asked w member => ?_⟩
            cases List.mem_singleton.mp member

variable [Field K] [LinearOrder K] [FloorRing K]

/-- No call of the step is made. -/
def Spares (r : LLMRouter K ω) (step : ModelStep) (request : Request K)
    (lastError : Option Error) (s : Routed K ω) : Prop :=
  ∃ more, (r.tryStep step request lastError s).2.trace = more ++ s.trace ∧
    ∀ left asked w, .called step left asked w ∉ more

theorem attempt_calls (r : LLMRouter K ω) (provider : Adapter K ω) (step : ModelStep) (left : ℕ)
    (request : Request K) (s : Routed K ω) :
    ∃ more, (r.attempt provider step left request s).2.trace =
      more ++ .called step left request s.world :: s.trace := by
  have ended := r.attempt_spec provider step left request s
  generalize r.attempt provider step left request s = q at ended
  cases ended with
  | failed replied known => exact ⟨[_, _], rfl⟩
  | raised replied foreign => exact ⟨[], rfl⟩
  | uncounted replied invalid => exact ⟨[], rfl⟩
  | rejected replied costs refused => exact ⟨[_, _], rfl⟩
  | returned replied costs valid => exact ⟨[_, _], rfl⟩

/-- An admitted step is called, retried or not. -/
theorem invokeWithFeedback_calls (r : LLMRouter K ω) (provider : Adapter K ω) (step : ModelStep)
    (left : ℕ) (request : Request K) (s : Routed K ω) :
    ∃ more, (r.invokeWithFeedback provider step left request s).2.trace =
      more ++ .called step left request s.world :: s.trace := by
  induction left generalizing request s with
  | zero => exact r.attempt_calls provider step 0 request s
  | succ left ih =>
      obtain ⟨more, called⟩ := r.attempt_calls provider step (left + 1) request s
      unfold invokeWithFeedback
      rcases tried : r.attempt provider step (left + 1) request s with ⟨q, t⟩
      rw [tried] at called
      cases q with
      | ok completion =>
          rw [Prog.rescue_of_ok tried]
          exact ⟨more, called⟩
      | error e =>
          cases schema : e.isSchemaValidation with
          | false =>
              rw [Prog.rescue_of_passed tried schema]
              exact ⟨more, called⟩
          | true =>
              rw [Prog.rescue_of_caught tried schema]
              obtain ⟨again, recalled⟩ := ih
                { request with messages := request.messages ++ feedback e } t
              dsimp only at called
              rw [called, ← List.cons_append, ← List.append_assoc] at recalled
              exact ⟨_, recalled⟩

theorem Invoked.calls {provider : Adapter K ω} {request : Request K}
    {q : Except Error (Except Error Completion) × Routed K ω}
    (ended : Invoked r provider step request s q) :
    ∃ more left asked w, q.2.trace = more ++ s.trace ∧ .called step left asked w ∈ more := by
  obtain ⟨more, called⟩ :=
    r.invokeWithFeedback_calls provider step r.schemaRetries request (admitted step s)
  have through (last : List (Event K ω)) {result : Except Error Completion} {t u : Routed K ω}
      (ran : r.invokeWithFeedback provider step r.schemaRetries request (admitted step s) =
        (result, t)) (recorded : u.trace = last ++ t.trace) :
      ∃ more left asked w, u.trace = more ++ s.trace ∧ .called step left asked w ∈ more := by
    rw [ran] at called
    refine ⟨last ++ more ++ [Event.called step r.schemaRetries request s.world, Event.invoked step],
      r.schemaRetries, request, s.world, ?_, ?_⟩
    · rw [recorded, called, List.append_assoc, List.append_assoc]
      rfl
    · exact List.mem_append_right _ List.mem_cons_self
  cases ended with
  | succeeded ran => exact through [_] ran rfl
  | failed ran known => exact through [_] ran rfl
  | unusable ran schema => exact through [_] ran rfl
  | raised ran known schema => exact through [] ran rfl

/-- A step that its circuit admits is called exactly if the gate lets it pass. -/
theorem spares_iff (request : Request K) (lastError : Option Error)
    (admits : ((s.breakers step.provider).allow (r.timeFn s.world)).1 = true)
    (routed : (dictGet r.providers step.provider).isSome) :
    r.Spares step request lastError s ↔
      (r.budgetBlocks step (r.settledBreaker step s)).1 ≠ .ok false := by
  have ended := r.tryStep_spec step request lastError s
  obtain ⟨first, before, quiet⟩ := r.budgetBlocks_grows step (r.settledBreaker step s)
  have calls {t : Routed K ω} {provider : Adapter K ω}
      {q : Except Error (Except Error Completion) × Routed K ω}
      (asked : r.budgetBlocks step (r.settledBreaker step s) = (.ok false, t))
      (invoked : Invoked r provider step request t q)
      (same : (r.tryStep step request lastError s).2 = q.2) :
      ¬ r.Spares step request lastError s := by
    rintro ⟨more, grown, none⟩
    obtain ⟨called, left, asked', w, grown', inside⟩ := invoked.calls
    rw [asked] at before
    rw [same, grown', before, ← List.append_assoc] at grown
    have split : more = called ++ first := (List.append_cancel_right grown).symm
    exact none left asked' w (by rw [split]; exact List.mem_append_left _ inside)
  unfold Spares at calls ⊢
  generalize r.tryStep step request lastError s = q at ended calls ⊢
  cases ended with
  | refused closed =>
      rw [admits] at closed
      cases closed
  | ungated asked =>
      rw [asked] at before ⊢
      exact ⟨fun _ => nofun, fun _ => ⟨first, before, quiet⟩⟩
  | @blocked t asked =>
      rw [asked] at before ⊢
      refine ⟨fun _ => nofun, fun _ => ?_⟩
      refine ⟨.budgetSkipped step :: .logged (r.entry request.role step.provider step.model none
        budgetSkipStatus none 0 t.world) :: first, ?_, ?_⟩
      · exact congrArg (fun trace => _ :: _ :: trace) before
      · intro left asked' w member
        rcases List.mem_cons.mp member with skipped | member
        · cases skipped
        · rcases List.mem_cons.mp member with logged | member
          · cases logged
          · exact quiet left asked' w member
  | unrouted asked missing =>
      rw [missing] at routed
      cases routed
  | invoked asked known called =>
      refine iff_of_false (calls asked called rfl) ?_
      rw [asked]
      exact fun other => other rfl
  | raised asked known called =>
      refine iff_of_false (calls asked called rfl) ?_
      rw [asked]
      exact fun other => other rfl

/-- Once the budget is reported exhausted, the gate stops a step that costs something, and no
call of it is made, exactly if its price reaches half a dollar per million tokens each way. -/
theorem paid_step_gated_iff (request : Request K) (lastError : Option Error)
    (gate : r.budgetGate = some isExhausted) (exhausted : (isExhausted s.world).1 = .ok true)
    (admits : ((s.breakers step.provider).allow (r.timeFn s.world)).1 = true)
    (routed : (dictGet r.providers step.provider).isSome) :
    (r.PaidStep step →
        (r.budgetBlocks step s).1 ≠ .ok false ∧ r.Spares step request lastError s) ↔
      (r.PaidStep step → r.Reaches step) := by
  refine imp_congr_right fun paid => ?_
  rw [spares_iff request lastError admits routed, ne_eq, budgetBlocks_passes_iff gate exhausted,
    ne_eq, budgetBlocks_passes_iff (s := r.settledBreaker step s) gate exhausted, and_self,
    reaches_iff paid]
  constructor
  · intro gated cost estimated
    by_contra free
    exact gated ⟨cost, estimated, not_lt.mp free⟩
  · rintro positive ⟨cost, estimated, free⟩
    exact absurd (positive cost estimated) (not_lt.mpr free)

end LLMRouter

/-! ### A price below the rounding -/

namespace DailyCeiling
open LLMRouter

/-- A model of a few cents per million tokens. -/
def cheapStep : ModelStep := ⟨"groq", "llama-3.1-8b-instant"⟩

def cheapRouter : LLMRouter ℚ World where
  providers := [("groq", .openai (groq "\x7b\x7d"))]
  routing := ⟨[("deliberation", [cheapStep])]⟩
  callLogger := callLog
  budgetGate := some governor.isExhausted
  prices := [(("groq", "llama-3.1-8b-instant"), ⟨5 / 100, 8 / 100, by norm_num, by norm_num⟩)]
  failureThreshold := 4
  resetTimeout := 60
  schemaRetries := 1
  timeFn _ := 0
  perfCounter _ := 0
  validated := by
    intro entry member s inside
    rw [List.mem_singleton.mp member] at inside
    rw [List.mem_singleton.mp inside]
    rfl

/-- The log of a day that has spent its budget. -/
def exhausted : World where
  tables := [{ id := 1, ts := 0, role := "deliberation", provider := "groq"
               model := "llama-3.3-70b-versatile", promptTokens := 0, completionTokens := 0
               latencyMs := 0, status := "ok", costUsd := 5 }]
  sequences := 2

theorem exhausted_reported : (governor.isExhausted exhausted).1 = .ok true := by
  have reached : governor.budget ≤ governor.spentToday exhausted := by
    have today : governor.spentToday exhausted = 5 + 0 := rfl
    rw [today, add_zero]
    exact le_refl _
  exact congrArg Except.ok (decide_eq_true reached)

end DailyCeiling

open DailyCeiling LLMRouter in
/-- A model at 0.05 and 0.08 per million tokens passes the gate of an exhausted budget. -/
theorem cheap_step_passes :
    ¬ (cheapRouter.PaidStep cheapStep →
      (cheapRouter.budgetBlocks cheapStep (cheapRouter.fresh exhausted)).1 ≠ .ok false ∧
        cheapRouter.Spares cheapStep request none (cheapRouter.fresh exhausted)) := by
  intro gated
  have paid : cheapRouter.PaidStep cheapStep := ⟨_, rfl, by norm_num⟩
  apply (gated paid).1
  rw [budgetBlocks_passes_iff rfl exhausted_reported]
  exact ⟨0, by decide +kernel, le_refl _⟩

open DailyCeiling LLMRouter in
/-- The listed model does not. -/
theorem listed_step_blocked :
    ((router "\x7b\x7d").budgetBlocks step ((router "\x7b\x7d").fresh exhausted)).1 ≠ .ok false ∧
      (router "\x7b\x7d").Spares step request none ((router "\x7b\x7d").fresh exhausted) := by
  refine (paid_step_gated_iff request none rfl exhausted_reported rfl rfl).mpr ?_ (step_paid _)
  intro _
  exact ⟨_, rfl, by decide +kernel⟩

end Johnny.LLM
