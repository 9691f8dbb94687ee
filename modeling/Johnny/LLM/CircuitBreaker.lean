import Mathlib.Algebra.Order.Field.Basic

/-!
# Per-provider circuit breaker

Opens after enough failures in a row and stays open for a cooldown; then a single
trial decides.
-/
namespace Johnny.LLM

inductive CircuitState where
  | closed
  | opened
  | halfOpen
  deriving DecidableEq, Repr

structure CircuitBreaker (K : Type) where
  failureThreshold : ℕ
  resetTimeout : K
  failures : ℕ := 0
  openedAt : Option K := none
  state : CircuitState := .closed

namespace CircuitBreaker
variable {K : Type}

def recordSuccess (b : CircuitBreaker K) : CircuitBreaker K :=
  { b with failures := 0, openedAt := none, state := .closed }

/-- A failed trial, or the threshold reached, opens the circuit. -/
def recordFailure (b : CircuitBreaker K) (now : K) : CircuitBreaker K :=
  if b.state = .halfOpen ∨ b.failureThreshold ≤ b.failures + 1 then
    { b with failures := b.failures + 1, state := .opened, openedAt := some now }
  else { b with failures := b.failures + 1 }

variable [Sub K] [LE K] [DecidableLE K]

def cooldownElapsed (b : CircuitBreaker K) (now : K) : Bool :=
  match b.openedAt with
  | none => false
  | some openedAt => decide (b.resetTimeout ≤ now - openedAt)

/-- The `state` property: an open circuit half-opens once it has cooled down. -/
def settled (b : CircuitBreaker K) (now : K) : CircuitBreaker K :=
  if b.state = .opened ∧ b.cooldownElapsed now = true then { b with state := .halfOpen } else b

/-- `allow`, with the state it leaves. -/
def allow (b : CircuitBreaker K) (now : K) : Bool × CircuitBreaker K :=
  let b := b.settled now
  (b.state == .closed || b.state == .halfOpen, b)

end CircuitBreaker
end Johnny.LLM
