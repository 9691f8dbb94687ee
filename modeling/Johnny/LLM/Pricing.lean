import Johnny.Foundation.Values
import Mathlib.Data.Int.Log
import Mathlib.Data.Rat.Floor

/-!
# What a call costs

Costs are decimals of the standard library: every operation rounds to the precision of
the context, and the cost is brought to six places, halves away from zero. A value that
does not fit the precision in six places is an invalid operation.
-/
namespace Johnny.LLM

/-! ### The decimals of the context -/

def contextPrecision : ℕ := 28

/-- A value rounded to the digits of the context, ties to even. -/
def inContext (x : ℚ) : ℚ :=
  let unit : ℚ := 10 ^ (Int.log 10 |x| - (contextPrecision - 1))
  (roundHalfEven (x / unit) : ℚ) * unit

def roundHalfUp (x : ℚ) : ℤ := if 0 ≤ x then ⌊x + 1 / 2⌋ else -⌊-x + 1 / 2⌋

def centPrecision : ℕ := 6

/-- `cost.quantize(_CENT_PRECISION, rounding=ROUND_HALF_UP)`, where it is a valid operation. -/
def quantize (x : ℚ) : Option ℚ :=
  let coefficient := roundHalfUp (x * 10 ^ centPrecision)
  if coefficient.natAbs < 10 ^ contextPrecision then
    some ((coefficient : ℚ) / 10 ^ centPrecision)
  else none

theorem roundHalfEven_nonneg {x : ℚ} (nonneg : 0 ≤ x) : 0 ≤ roundHalfEven x := by
  have floor : 0 ≤ ⌊x⌋ := Int.floor_nonneg.mpr nonneg
  unfold roundHalfEven
  dsimp only
  split_ifs <;> omega

theorem inContext_nonneg {x : ℚ} (nonneg : 0 ≤ x) : 0 ≤ inContext x := by
  have unit : (0 : ℚ) ≤ 10 ^ (Int.log 10 |x| - (contextPrecision - 1)) :=
    zpow_nonneg (by norm_num) _
  apply mul_nonneg _ unit
  apply Int.cast_nonneg
  apply roundHalfEven_nonneg
  exact div_nonneg nonneg unit

theorem inContext_zero : inContext 0 = 0 := by
  unfold inContext
  simp [roundHalfEven]

theorem inContext_one : inContext 1 = 1 := by
  unfold inContext
  rw [abs_one, Int.log_one_right]
  norm_num [contextPrecision, roundHalfEven]

theorem roundHalfUp_nonneg {x : ℚ} (nonneg : 0 ≤ x) : 0 ≤ roundHalfUp x := by
  unfold roundHalfUp
  rw [if_pos nonneg]
  apply Int.floor_nonneg.mpr
  linarith

theorem quantize_nonneg {x y : ℚ} (nonneg : 0 ≤ x) (ran : quantize x = some y) : 0 ≤ y := by
  unfold quantize at ran
  dsimp only at ran
  split at ran
  · obtain rfl := Option.some.inj ran
    apply div_nonneg _ (by positivity)
    apply Int.cast_nonneg
    apply roundHalfUp_nonneg
    exact mul_nonneg nonneg (by positivity)
  · cases ran

theorem quantize_zero : quantize 0 = some 0 := by
  have whole : roundHalfUp ((0 : ℚ) * 10 ^ centPrecision) = 0 := by
    rw [zero_mul]
    norm_num [roundHalfUp]
  unfold quantize
  rw [whole]
  simp [contextPrecision]

/-! ### Prices -/

/-- Price per 1M tokens, input and output, in USD. -/
structure TokenPrice where
  inputPerMillion : ℚ
  outputPerMillion : ℚ
  inputNonneg : 0 ≤ inputPerMillion
  outputNonneg : 0 ≤ outputPerMillion

/-- Keyed by provider and model. Anything not listed is free. -/
abbrev Prices := List ((String × String) × TokenPrice)

def pricing : Prices :=
  [(("groq", "llama-3.3-70b-versatile"), ⟨59 / 100, 79 / 100, by norm_num, by norm_num⟩)]

def Prices.get (prices : Prices) (provider model : String) : Option TokenPrice :=
  (prices.find? fun entry => entry.1 == (provider, model)).map Prod.snd

/-- Only one model is listed. -/
theorem pricing_key {provider model : String} {price : TokenPrice}
    (listed : pricing.get provider model = some price) :
    provider = "groq" ∧ model = "llama-3.3-70b-versatile" := by
  obtain ⟨entry, found, _⟩ := Option.map_eq_some_iff.mp listed
  have key : entry.1 = (provider, model) := by simpa using List.find?_some found
  rw [List.mem_singleton.mp (List.mem_of_find?_eq_some found)] at key
  obtain ⟨rfl, rfl⟩ := Prod.mk.inj key
  exact ⟨rfl, rfl⟩

def million : ℚ := 1000000

/-- Nothing where the decimal operation is invalid. -/
def estimateCost (prices : Prices) (provider model : String)
    (promptTokens completionTokens : ℤ) : Option ℚ :=
  match prices.get provider model with
  | none => some 0
  | some price =>
    quantize (inContext (
      inContext (inContext (promptTokens / million) * price.inputPerMillion) +
      inContext (inContext (completionTokens / million) * price.outputPerMillion)))

theorem estimateCost_nonneg {prices : Prices} {provider model : String}
    {promptTokens completionTokens : ℤ} {cost : ℚ} (prompt : 0 ≤ promptTokens)
    (completion : 0 ≤ completionTokens)
    (priced : estimateCost prices provider model promptTokens completionTokens = some cost) :
    0 ≤ cost := by
  have part (tokens : ℤ) (nonneg : 0 ≤ tokens) (price : ℚ) (asked : 0 ≤ price) :
      0 ≤ inContext (inContext (tokens / million) * price) := by
    apply inContext_nonneg
    apply mul_nonneg _ asked
    apply inContext_nonneg
    exact div_nonneg (Int.cast_nonneg nonneg) (by norm_num [million])
  unfold estimateCost at priced
  cases listed : prices.get provider model with
  | none =>
      rw [listed] at priced
      obtain rfl := Option.some.inj priced
      exact le_refl _
  | some price =>
      rw [listed] at priced
      apply quantize_nonneg _ priced
      apply inContext_nonneg
      exact add_nonneg (part _ prompt _ price.inputNonneg) (part _ completion _ price.outputNonneg)

/-- A call without tokens is free. -/
theorem estimateCost_zero (prices : Prices) (provider model : String) :
    estimateCost prices provider model 0 0 = some 0 := by
  unfold estimateCost
  cases prices.get provider model with
  | none => rfl
  | some price => simp [inContext_zero, quantize_zero]

/-- One token each way of the listed model. -/
theorem estimateCost_listed :
    estimateCost pricing "groq" "llama-3.3-70b-versatile" 1 1 = some (1 / 1000000) := by
  decide +kernel

/-- A step that costs something: what its tokens are priced at is not nothing. -/
def Paid (prices : Prices) (provider model : String) : Prop :=
  ∃ price, prices.get provider model = some price ∧
    0 < price.inputPerMillion + price.outputPerMillion

end Johnny.LLM
