import Johnny.Effectors.Dispatch
import Mathlib.Data.Rat.Defs

/-!
# The seam between the router and the providers

A completion is normalised whatever provider it comes from. The error hierarchy is the
layer's own; any other exception that a library or a body of an answer raises is
foreign to it.
-/
namespace Johnny.LLM

/-- A float as the JSON library reads it: `NaN` and the infinities are literals of it. -/
inductive Number where
  | finite (value : ℚ)
  | infinity (negative : Bool)
  | nan
  deriving DecidableEq

instance : Zero Number := ⟨.finite 0⟩

/-- A decoded body. -/
abbrev Body := Json Number

structure Completion where
  content : String
  reasoning : Option String := none
  provider : String
  model : String
  promptTokens : ℤ := 0
  completionTokens : ℤ := 0
  finishReason : Option String := none
  raw : Dict Number := []

inductive Error where
  | provider (message provider : String) (statusCode : Option ℕ)
  | timeout (message provider : String)
  | schemaValidation (message content : String)
  | unavailable (role : String) (cause : Option Error)
  | budgetExhausted (provider : String)
  | foreign (cls text : String)

namespace Error

/-- `str(exc)`. -/
def text : Error → String
  | .provider message _ _ => message
  | .timeout message _ => message
  | .schemaValidation message _ => message
  | .unavailable role cause =>
    "no provider available for role " ++ pyRepr role ++ ": " ++
      match cause with
      | none => "None"
      | some cause => cause.text
  | .budgetExhausted name =>
    "daily budget exhausted; skipped paid provider " ++ pyRepr name
  | .foreign _ text => text

/-- `except ProviderError`. -/
def isProvider : Error → Bool
  | .provider _ _ _ => true
  | .timeout _ _ => true
  | _ => false

/-- `except SchemaValidationError`. -/
def isSchemaValidation : Error → Bool
  | .schemaValidation _ _ => true
  | _ => false

end Error
end Johnny.LLM
