import Johnny.Core.Audit

/-!
# Broadcasts on the workspace

An event is stamped, its payload redacted, and the safe event persisted and then
published.
-/
namespace Johnny

structure Workspace (K ω : Type) where
  settings : SecretSettings
  clock : ω → K
  /-- The insert of one `workspace_event` row, with the id it gets. -/
  insert : WorkspaceEvent K → Prog Failure ω ℕ
  publish : WorkspaceEvent K → Prog Failure ω Unit

namespace Workspace
variable {K ω : Type}

def stamped (event : WorkspaceEvent K) (now : K) : WorkspaceEvent K :=
  if event.ts.isSome then event else { event with ts := some now }

/-- The event with its payload redacted. -/
def safe (w : Workspace K ω) (event : WorkspaceEvent K) (now : K) : WorkspaceEvent K :=
  { stamped event now with
    payload := Redaction.redactPayload w.settings (stamped event now).payload }

def persist (w : Workspace K ω) (event : WorkspaceEvent K) :
    Prog Failure (Durable K ω) (WorkspaceEvent K) := do
  let id ← Durable.outside (w.insert event)
  Prog.modify fun d => { d with events := d.events ++ [{ event with id := some id }] }
  pure { event with id := some id }

/-- Persists the safe event, then publishes it. -/
def broadcast (w : Workspace K ω) (event : WorkspaceEvent K) :
    Prog Failure (Durable K ω) (WorkspaceEvent K) := do
  let now ← Prog.reads fun d => w.clock d.world
  let persisted ← w.persist (w.safe event now)
  Durable.outside (w.publish persisted)
  Prog.modify fun d => { d with published := d.published ++ [persisted] }
  pure persisted

theorem stamped_payload (event : WorkspaceEvent K) (now : K) :
    (stamped event now).payload = event.payload := by
  unfold stamped
  split <;> rfl

theorem safe_payload (w : Workspace K ω) (event : WorkspaceEvent K) (now : K) :
    (w.safe event now).payload = Redaction.redactPayload w.settings event.payload := by
  unfold safe
  rw [stamped_payload]

end Workspace
end Johnny
