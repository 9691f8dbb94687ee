import Johnny.Affect.Appraisal
import Johnny.Effectors.Tools
import Johnny.Effectors.Dispatch
import Johnny.Goals.Arbiter
import Johnny.Lib.Runs

/-!
# The mood in memory and the mood on record

Each tick is appraised into the mood in memory, and a row is written where this one step
moves the mood far enough. Steps that are each too small for a row add up in memory alone.
-/
namespace Johnny

structure MoodRow (K : Type) where
  id : ℕ
  ts : K
  valence : K
  arousal : K
  emotions : List (String × K)

structure Feeling (K : Type) extends Mood K where
  ts : Option K := none

/-- `_row_to_mood`. -/
def MoodRow.toFeeling {K : Type} (row : MoodRow K) : Feeling K where
  id := some row.id
  ts := some row.ts
  valence := row.valence
  arousal := row.arousal
  emotions := row.emotions

/-- `set(a) == set(b)`, of two dictionaries. -/
def sameTags {K : Type} (a b : List (String × K)) : Bool :=
  (a.all fun e => b.any fun e' => e'.1 == e.1) && b.all fun e => a.any fun e' => e'.1 == e.1

structure Affected (K ω : Type) where
  current : Option (Feeling K) := none
  world : ω

structure Affect (K ω : Type) [Field K] where
  /-- `complete`, by role, messages, temperature and token ceiling. -/
  router : Option (String → List Message → K → ℕ → Prog Failure ω Completion)
  /-- `parse_appraisal`. -/
  parseAppraisal : String → Except Failure (Appraisal K)
  sessions : Sessions Failure (List (MoodRow K)) ℕ ω
  nowFn : ω → K
  prompt : String := ""
  maxTokens : ℕ
  blending : Blending K
  persistMinChange : K

structure AppraiseCall (K : Type) where
  contents : List (WorkspaceItem K)
  drives : List (DriveReading K)
  events : List (DriveEvent K) := []
  now : Option K := none

namespace Affect
variable {K ω α : Type} [Field K] [LinearOrder K]

omit [LinearOrder K] in
def outside (p : Prog Failure ω α) : Prog Failure (Affected K ω) α :=
  Prog.zoom Affected.world (fun w s => { s with world := w }) p

/-- The row with the latest time. -/
def latest (rows : List (MoodRow K)) : Option (MoodRow K) := firstMax MoodRow.ts rows

def loadedFrom (rows : List (MoodRow K)) : Feeling K :=
  match latest rows with
  | some row => row.toFeeling
  | none => { Mood.baseline with }

/-- `current`, which loads the last persisted row on first access. -/
def current (a : Affect K ω) : Prog Failure (Affected K ω) (Feeling K) := do
  match ← Prog.reads Affected.current with
  | some feeling => pure feeling
  | none =>
    let feeling ← outside (a.sessions.scope (Prog.reads fun t => loadedFrom t.1))
    Prog.modify fun s => { s with current := some feeling }
    pure feeling

omit [LinearOrder K] in
def freshInput (contents : List (WorkspaceItem K)) : Option String :=
  (contents.find? fun item => item.kind == .input).map WorkspaceItem.content

omit [LinearOrder K] in
def render (situation : String) : String :=
  "Appraise this event for how it bears on your goals and wellbeing.\n" ++
    "Event: " ++ situation ++ "\n\nRespond with ONLY JSON: " ++
    "\x7b\"goal_congruence\": <-1..1>, \"novelty\": <0..1>, \"agency\": <0..1>, " ++
    "\"certainty\": <0..1>, \"emotions\": \x7b\"<emotion>\": <0..1>\x7d\x7d."

/-- `_appraise_with_llm`: nothing where the model is tired. -/
def appraiseWithLlm (a : Affect K ω)
    (complete : String → List Message → K → ℕ → Prog Failure ω Completion) (situation : String) :
    Prog Failure (Affected K ω) (Option (Appraisal K)) := do
  let completion ← Prog.rescue Failure.isUnavailable
    (do
      let completion ← outside (complete "affect"
        [⟨"system", a.prompt⟩, ⟨"user", render situation⟩] (frac 4 10) a.maxTokens)
      pure (some completion))
    fun _ => pure none
  match completion with
  | none => pure none
  | some completion => do
    let appraisal ← Prog.reraise (a.parseAppraisal completion.content)
    pure (some appraisal)

/-- The model is asked about a fresh interaction alone. -/
def appraiseInput (a : Affect K ω) (contents : List (WorkspaceItem K)) :
    Prog Failure (Affected K ω) (Option (Appraisal K)) :=
  match freshInput contents, a.router with
  | some situation, some complete => a.appraiseWithLlm complete situation
  | _, _ => pure none

def appraise (a : Affect K ω) (call : AppraiseCall K) :
    Prog Failure (Affected K ω) (Appraisal K) := do
  let llm ← a.appraiseInput call.contents
  pure (llm.getD (deriveAppraisal call.contents call.drives call.events))

def elapsed (feeling : Feeling K) (reference : K) : K :=
  match feeling.ts with
  | none => 0
  | some ts => max 0 (reference - ts)

def blended (a : Affect K ω) (feeling : Feeling K) (call : AppraiseCall K)
    (appraisal : Appraisal K) (reference : K) : Mood K :=
  a.blending.blendMood feeling.toMood (tagLoneliness (appraiseDimensions appraisal) call.drives)
    (elapsed feeling reference) Mood.baseline

def shouldPersist (a : Affect K ω) (old new : Mood K) : Bool :=
  old.id.isNone ||
    decide (a.persistMinChange ≤ |new.valence - old.valence| + |new.arousal - old.arousal|) ||
    !sameTags new.emotions old.emotions

omit [LinearOrder K] in
def add (mood : Mood K) (ts : K) : Prog Failure (List (MoodRow K) × ℕ) (MoodRow K) := do
  let row ← Prog.reads fun t =>
    { id := t.2, ts := ts, valence := mood.valence, arousal := mood.arousal,
      emotions := mood.emotions }
  Prog.modify fun t => (t.1 ++ [row], t.2 + 1)
  pure row

def commit (a : Affect K ω) (feeling : Feeling K) (new : Mood K) (reference : K) :
    Prog Failure (Affected K ω) (Feeling K) := do
  let felt ← if a.shouldPersist feeling.toMood new then do
      let row ← outside (a.sessions.scope (add new reference))
      pure row.toFeeling
    else pure { new with id := feeling.id, ts := some reference }
  Prog.modify fun s => { s with current := some felt }
  pure felt

def appraiseTick (a : Affect K ω) (call : AppraiseCall K) :
    Prog Failure (Affected K ω) (Feeling K) := do
  let _ ← a.current
  let clock ← Prog.reads fun s => a.nowFn s.world
  let reference := call.now.getD clock
  let appraisal ← a.appraise call
  let feeling ← a.current
  a.commit feeling (a.blended feeling call appraisal reference) reference

end Affect
end Johnny
