import Johnny.Agents.Sensorium
import Johnny.Agents.Attention
import Johnny.Lib.Transaction

/-!
# What the agents of one Mind share

The input queue and the senses, what Attention remembers, the mood that biases recall and
the ticks that LEARN counted. The log of what was noted is not in the source: it records
what became of inputs, newest first, and no modelled function reads it.
-/
namespace Johnny

/-- Something that happened to inputs; what belongs to a tick carries its number. -/
inductive Noted (K : Type) where
  | pushed (place : ℕ) (input : RawInput)
  /-- PERCEIVE returned these items of drained inputs. -/
  | perceived (tick : ℕ) (inputs : List (Sensed K))
  | admitted (tick : ℕ) (items : List (WorkspaceItem K))
  /-- A fired wakeup was handed to the queue, which answered so. -/
  | injected (wakeup : ℕ) (answer : Except Failure Unit)
  /-- LEARN set out to write an interaction in which these texts were said. -/
  | wrote (tick : ℕ) (heard : List String)

structure Experience (K ω : Type) where
  senses : Senses ω
  attention : AttentionState K
  recallMood : Option (Mood K) := none
  learnerTicks : ℕ := 0
  noted : List (Noted K) := []

namespace Experience
variable {K ω α : Type}

def world (e : Experience K ω) : ω := e.senses.world

def outside (p : Prog Failure ω α) : Prog Failure (Experience K ω) α :=
  Prog.zoom world (fun w e => { e with senses := { e.senses with world := w } }) p

def sensing (p : Prog Failure (Senses ω) α) : Prog Failure (Experience K ω) α :=
  Prog.zoom Experience.senses (fun senses e => { e with senses := senses }) p

def attending (p : Prog Failure (AttentionState K) α) : Prog Failure (Experience K ω) α :=
  Prog.zoom Experience.attention (fun attention e => { e with attention := attention }) p

/-- Notes what happened, under the tick of the senses. -/
def note (what : ℕ → Noted K) : Prog Failure (Experience K ω) Unit :=
  Prog.modify fun e => { e with noted := what e.senses.ticks :: e.noted }

end Experience

/-- The queue of pending inputs, whose entries are JSON. -/
structure InputQueue (ω : Type) where
  /-- `model_dump_json`. -/
  dumpJson : RawInput → String
  /-- How the command that pushes an entry turns out. -/
  rpush : ω → Ending Failure × ω

namespace InputQueue
variable {K ω : Type}

def enqueue (q : InputQueue ω) (input : RawInput) (e : Experience K ω) : Experience K ω :=
  let queue := e.senses.queue
  { e with
    senses := { e.senses with queue := queue.push (q.dumpJson input) }
    noted := .pushed (queue.popped + queue.waiting.length) input :: e.noted }

def push (q : InputQueue ω) (raw source : String) : Prog Failure (Experience K ω) Unit := do
  let ending ← Experience.outside fun w => (.ok (q.rpush w).1, (q.rpush w).2)
  Prog.onlyIf (ending.takesEffect = true)
    (Prog.modify (q.enqueue { raw := raw, source := source }))
  Prog.reraise ending.answer

end InputQueue
end Johnny
