import Johnny.Lib.Prog
import Johnny.Effectors.Tools
import Johnny.Foundation.Redaction

/-!
# The audit writer

The durable logs and the bus, and the one operation on the action log: an insert of a
record whose arguments and result are redacted first.
-/
namespace Johnny

/-- The tables and the bus, oldest entry first, beside the world outside. -/
structure Durable (K ω : Type) where
  /-- The `workspace_event` table. -/
  events : List (WorkspaceEvent K) := []
  /-- What was published on the bus. -/
  published : List (WorkspaceEvent K) := []
  /-- The `action_log` table. -/
  actions : List (ActionRecord K) := []
  world : ω

def Durable.outside {K ω α : Type} (p : Prog Failure ω α) : Prog Failure (Durable K ω) α :=
  Prog.zoom Durable.world (fun w d => { d with world := w }) p

structure AuditWriter (K ω : Type) where
  settings : SecretSettings
  /-- The transaction of one insert, which commits or raises. -/
  insert : ActionRecord K → Prog Failure ω Unit

namespace AuditWriter
variable {K ω : Type}

/-- The row as written: only the arguments and the result are redacted. -/
def safe (a : AuditWriter K ω) (r : ActionRecord K) : ActionRecord K :=
  { r with
    args := Redaction.redactPayload a.settings r.args
    result := r.result.map (Redaction.redactPayload a.settings) }

def record (a : AuditWriter K ω) (r : ActionRecord K) : Prog Failure (Durable K ω) Unit := do
  Durable.outside (a.insert (a.safe r))
  Prog.modify fun d => { d with actions := d.actions ++ [a.safe r] }

end AuditWriter
end Johnny
