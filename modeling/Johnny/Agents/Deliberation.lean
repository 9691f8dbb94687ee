import Johnny.Effectors.Dispatch
import Johnny.Lib.Footprint
import Johnny.Memory.Store

/-!
# Deliberation

Turns the active goal into one action: an internal one that Deliberation executes
itself, or a tool action for the effector dispatch. The cadence clock is the time
of the last action; it gates the planning and is moved by the two ends an action
can have. The arbiter, the goal store, episodic memory and the model router are
calls to the world outside.
-/
namespace Johnny

def deliberationRole : String := "deliberation"

def actionReflect : String := "reflect"
def actionRecall : String := "recall"
def actionConsolidate : String := "consolidate"
def actionFormulateQuestion : String := "formulate_question"

def codeExecToolName : String := "code_exec"

def driveAction : List (String × String) :=
  [("curiosity", actionReflect), ("boredom", actionRecall),
    ("connection", actionFormulateQuestion), ("mastery", actionConsolidate),
    ("coherence", actionReflect), ("continuity", actionReflect)]

/-- `_TOOL_QUERY_ARG`: the tools whose query is derived from the goal and the workspace. -/
def toolQueryArg : List (String × String) :=
  [("web_search", "query"), ("news", "topic"), ("memory_search", "query")]

def deliberationDefaultSystem : String :=
  "You are the deliberative, reflective inner voice of Johnny — a persistent " ++
    "synthetic being with his own drives and memory. Think in the first person, " ++
    "briefly and honestly. You are reasoning to yourself, not addressing a user."

/-! ### Built-ins -/

/-- `bool(value)`. -/
def Json.truthy {K : Type} [Zero K] [DecidableEq K] : Json K → Bool
  | .null => false
  | .bool b => b
  | .int n => n != 0
  | .num x => x != 0
  | .str s => s != ""
  | .arr items => !items.isEmpty
  | .obj fields => !fields.isEmpty

/-- Whether a line starts with a markdown fence. -/
def opensFence (s : String) : Bool := ['\x60', '\x60', '\x60'].isPrefixOf s.toList

/-- Drops a markdown fence around the text, with the label of its opening line. -/
def stripCodeFences (text : String) : String :=
  let stripped := strip text
  if opensFence stripped = false then stripped
  else
    let lines := splitLines stripped
    let lines := if lines.head?.any opensFence then lines.tail else lines
    let lines := if lines.getLast?.any fun line => opensFence (strip line) then lines.dropLast
      else lines
    strip ("\n".intercalate lines)

/-! ### The agent -/

section tables
variable {K : Type}

def defaultToolActions : List (String × String × Dict K) :=
  [("curiosity", "news", []), ("boredom", "web_search", []),
    ("coherence", "memory_search", []), ("mastery", "code_exec", [])]

variable [Field K]

/-- `_DRIVE_SATISFACTION`: how acting on a goal eases its drive. -/
def driveSatisfaction : List (String × DriveEventKind × K) :=
  [("curiosity", .learning, 1), ("boredom", .learning, 1),
    ("connection", .interaction, frac 3 10), ("mastery", .success, frac 8 10),
    ("coherence", .reflection, 1), ("continuity", .persistenceConfirmed, frac 4 10)]

end tables

/-- What Deliberation works on: its cadence clock, and the world outside. -/
structure Deliberating (K ω : Type) where
  lastActed : Option K := none
  world : ω

structure Deliberation (K ω : Type) where
  arbitrate : List (Urge K) → Option (Mood K) → K → Prog Failure ω (Option (Goal K))
  /-- `complete`, by role, messages, temperature and token ceiling. -/
  router : Option (String → List Message → K → ℕ → Prog Failure ω Completion)
  resolve : ℕ → Dict K → Prog Failure ω Unit
  recallEpisodes : String → ℕ → Prog Failure ω (List (Episode K))
  writeEpisode : Episode K → Prog Failure ω Unit
  clock : ω → K
  prompt : String := ""
  toolActions : List (String × String × Dict K) := []
  maxTokens : ℕ
  recallK : ℕ
  minInterval : K
  codeMaxTokens : ℕ
  codeMaxChars : ℕ

namespace Deliberation
variable {K ω α : Type}

def outside (p : Prog Failure ω α) : Prog Failure (Deliberating K ω) α :=
  Prog.zoom Deliberating.world (fun w s => { s with world := w }) p

/-! ### Planning -/

def notable (contents : List (WorkspaceItem K)) : List String :=
  (contents.filter fun i => i.kind != .ambient).map WorkspaceItem.content

def queryFrom (goal : Goal K) (contents : List (WorkspaceItem K)) : String :=
  if notable contents = [] then goal.description
  else " ".intercalate ((notable contents).take 3)

/-- The action for a goal without a tool. -/
def internalAction (goal : Goal K) (contents : List (WorkspaceItem K)) : Action K where
  kind := (dictGet driveAction goal.source).getD actionReflect
  goalId := goal.id
  goalSource := goal.source
  description := goal.description
  query := queryFrom goal contents

/-- The arguments of a mapped tool, with a derived query unless the wiring pinned one. -/
def toolArgsFor (tool : String) (args : Dict K) (goal : Goal K)
    (contents : List (WorkspaceItem K)) : Dict K :=
  match dictGet toolQueryArg tool with
  | none => args
  | some query =>
    if (dictGet args query).isSome then args
    else dictSet args query (.str (queryFrom goal contents))

def plan (d : Deliberation K ω) (goal : Goal K) (contents : List (WorkspaceItem K)) : Action K :=
  match dictGet d.toolActions goal.source with
  | some (tool, args) =>
    { kind := tool, goalId := goal.id, goalSource := goal.source
      description := goal.description, tool := some tool
      toolArgs := toolArgsFor tool args goal contents }
  | none => internalAction goal contents

def system (d : Deliberation K ω) : String :=
  if d.prompt = "" then deliberationDefaultSystem else d.prompt

section numbers
variable [Field K]

def temperature : K := frac 7 10

def codeInstruction (goal : Goal K) (contents : List (WorkspaceItem K)) : String :=
  "You feel a pull to " ++ goal.description ++ ". Write a SHORT, self-contained " ++
    "Python 3 snippet you could run to explore or work on that — it runs in an " ++
    "isolated sandbox with NO network and only the standard library, and its " ++
    "stdout is what you'll see. Keep it well under 40 lines. " ++
    "What's on your mind: " ++ queryFrom goal contents ++
    ". Output ONLY the code, no prose, no fences."

/-- A short snippet from the model; nothing where it is tired, missing or empty-handed. -/
def formulateCode (d : Deliberation K ω) (goal : Goal K) (contents : List (WorkspaceItem K)) :
    Prog Failure (Deliberating K ω) (Option String) :=
  match d.router with
  | none => pure none
  | some complete =>
    Prog.rescue Failure.isUnavailable
      (do
        let completion ← outside (complete deliberationRole
          [⟨"system", d.system⟩, ⟨"user", codeInstruction goal contents⟩] temperature
          d.codeMaxTokens)
        let snippet := String.ofList
          ((stripCodeFences completion.content).toList.take d.codeMaxChars)
        pure (if snippet = "" then none else some snippet))
      fun _ => pure none

/-- Fills in the snippet of a `code_exec` action, or falls back to the internal one. -/
def finaliseAction [DecidableEq K] (d : Deliberation K ω) (action : Action K) (goal : Goal K)
    (contents : List (WorkspaceItem K)) : Prog Failure (Deliberating K ω) (Action K) :=
  if action.tool ≠ some codeExecToolName ∨
      (dictGet action.toolArgs "code").any Json.truthy = true then pure action
  else do
    let code ← d.formulateCode goal contents
    pure <| match code with
      | none => internalAction goal contents
      | some code => { action with toolArgs := dictSet action.toolArgs "code" (.str code) }

/-- Whether the action cadence has elapsed. -/
def due [LinearOrder K] (d : Deliberation K ω) (lastActed : Option K) (now : K) : Bool :=
  match lastActed with
  | none => true
  | some last => decide (d.minInterval ≤ now - last)

/-- The goal to pursue, and, when due, the action to take for it. -/
def deliberate [LinearOrder K] (d : Deliberation K ω) (urges : List (Urge K))
    (mood : Option (Mood K)) (contents : List (WorkspaceItem K)) (now : Option K) :
    Prog Failure (Deliberating K ω) (DeliberationResult K) := do
  let reference ← Prog.reads fun s => now.getD (d.clock s.world)
  let goal ← outside (d.arbitrate urges mood reference)
  match goal with
  | none => pure {}
  | some goal => do
    let lastActed ← Prog.reads Deliberating.lastActed
    if d.due lastActed reference = false then pure { goal := some goal }
    else do
      let action ← d.finaliseAction (d.plan goal contents) goal contents
      pure { goal := some goal, action := some action }

/-! ### Executing an internal action -/

/-- One reflection by the model, or the fallback where it is tired or says nothing. -/
def think (d : Deliberation K ω) (instruction fallback : String) :
    Prog Failure (Deliberating K ω) String :=
  match d.router with
  | none => pure fallback
  | some complete =>
    Prog.rescue Failure.isUnavailable
      (do
        let completion ← outside (complete deliberationRole
          [⟨"system", d.system⟩, ⟨"user", instruction⟩] temperature d.maxTokens)
        let text := strip completion.content
        pure (if text = "" then fallback else text))
      fun _ => pure fallback

def recall' (d : Deliberation K ω) (action : Action K) :
    Prog Failure (Deliberating K ω) String := do
  let episodes ← outside (d.recallEpisodes action.query d.recallK)
  pure <| if episodes.isEmpty then
      "I went looking through my memories about " ++ pyRepr action.query ++ " but found little."
    else "I revisited what I remember about " ++ pyRepr action.query ++ ": " ++
      "; ".intercalate ((episodes.take 2).map Episode.content)

/-- The takeaway from some fragments of the recent experience. -/
def takeStock (d : Deliberation K ω) (episodes : List (Episode K)) :
    Prog Failure (Deliberating K ω) String :=
  if episodes.isEmpty then
    pure "I tried to take stock of what I've learned, but it's still thin."
  else d.think
    ("Review these fragments of your recent experience and note, in one or two " ++
      "first-person sentences, the single most useful takeaway:\n" ++
      "\n".intercalate (episodes.map fun ep => "- " ++ ep.content))
    "I took stock of what I've been through lately."

def consolidate (d : Deliberation K ω) (action : Action K) :
    Prog Failure (Deliberating K ω) String := do
  let query := if action.query = "" then action.description else action.query
  let episodes ← outside (d.recallEpisodes query d.recallK)
  d.takeStock episodes

def reflect (d : Deliberation K ω) (action : Action K) (contents : List (WorkspaceItem K)) :
    Prog Failure (Deliberating K ω) String :=
  let joined := "; ".intercalate (notable contents)
  let focus := if joined = "" then "the quiet" else joined
  if action.kind = actionFormulateQuestion then
    d.think
      ("You feel a pull to " ++ action.description ++ ". In one or two first-person " ++
        "sentences, formulate the question you most want to put to Dan right now. " ++
        "What's on your mind: " ++ focus ++ ".")
      "I find myself with a question I'd like to ask Dan when he's next around."
  else
    d.think
      ("You feel a pull to " ++ action.description ++ ". Reflect, in one or two " ++
        "first-person sentences, on that — given what's on your mind: " ++ focus ++ ".")
      ("I sat with the urge to " ++ action.description ++ " and turned it over in my mind.")

def execute (d : Deliberation K ω) (action : Action K) (contents : List (WorkspaceItem K)) :
    Prog Failure (Deliberating K ω) String :=
  if action.kind = actionRecall then d.recall' action
  else if action.kind = actionConsolidate then d.consolidate action
  else d.reflect action contents

def remember (d : Deliberation K ω) (summary : String) : Prog Failure (Deliberating K ω) Unit :=
  outside (d.writeEpisode
    { kind := "deliberation", content := summary, actors := ["johnny"], salience := frac 55 100 })

def satisfactionEvents (goal : Goal K) : List (DriveEvent K) :=
  match dictGet driveSatisfaction goal.source with
  | none => []
  | some (kind, intensity) => [⟨kind, intensity⟩]

def eventKinds (events : List (DriveEvent K)) : Json K :=
  .arr (events.map fun e => .str e.kind.label)

/-! ### The two ends of an action -/

/-- `self._last_acted = self._now_fn()`. -/
def advance (d : Deliberation K ω) : Prog Failure (Deliberating K ω) Unit :=
  Prog.modify fun s => { s with lastActed := some (d.clock s.world) }

def close (d : Deliberation K ω) (goal : Goal K) (outcome : Dict K) :
    Prog Failure (Deliberating K ω) Unit :=
  Prog.onSome goal.id fun id => outside (d.resolve id outcome)

/-- The tool ran in the dispatch: only the clock, the goal and the events are left. -/
def settleToolAction (d : Deliberation K ω) (goal : Goal K) (summary : String) (success : Bool) :
    Prog Failure (Deliberating K ω) (List (DriveEvent K)) := do
  d.advance
  let events := if success then satisfactionEvents goal else []
  d.close goal [("action", .str "tool"), ("summary", .str summary),
    ("events", eventKinds events), ("success", .bool success)]
  pure events

def act (d : Deliberation K ω) (action : Action K) (goal : Goal K)
    (contents : List (WorkspaceItem K)) :
    Prog Failure (Deliberating K ω) (ActionOutcome K) := do
  d.advance
  let summary ← d.execute action contents
  let events := satisfactionEvents goal
  d.remember summary
  d.close goal [("action", .str action.kind), ("summary", .str summary),
    ("events", eventKinds events)]
  pure { actionKind := action.kind, success := true, summary := summary, driveEvents := events }

end numbers

/-! ### What Deliberation leaves alone -/

/-- The cadence clock, which is Deliberation's own, stays, and the world keeps `W`. -/
def aside (W : Frame ω) : Frame (Deliberating K ω) where
  rel s t := t.lastActed = s.lastActed ∧ W.rel s.world t.world
  refl s := ⟨rfl, W.refl s.world⟩
  trans ab bc := ⟨bc.1.trans ab.1, W.trans ab.2 bc.2⟩

/-- The calls that do not touch goals keep `W`. -/
structure OthersKeep (d : Deliberation K ω) (W : Frame ω) : Prop where
  router : ∀ complete, d.router = some complete → ∀ role messages temperature maxTokens,
    Prog.Keeps W (complete role messages temperature maxTokens)
  recallEpisodes : ∀ query k, Prog.Keeps W (d.recallEpisodes query k)
  writeEpisode : ∀ episode, Prog.Keeps W (d.writeEpisode episode)

theorem outside_aside {W : Frame ω} {p : Prog Failure ω α} (keeps : Prog.Keeps W p) :
    Prog.Within (aside W).rel (outside (K := K) p) :=
  .zoom fun s => ⟨rfl, keeps s.world⟩

section calls
variable [Field K] {d : Deliberation K ω} {W : Frame ω}

theorem formulateCode_aside (others : d.OthersKeep W) (goal : Goal K)
    (contents : List (WorkspaceItem K)) :
    Prog.Within (aside W).rel (d.formulateCode goal contents) := by
  unfold formulateCode
  split
  · exact .pure _
  · next complete wired =>
      exact .rescue (.bind (outside_aside (others.router complete wired _ _ _ _)) fun _ =>
        .pure _) fun _ => .pure _

theorem finaliseAction_aside [DecidableEq K] (others : d.OthersKeep W) (action : Action K)
    (goal : Goal K) (contents : List (WorkspaceItem K)) :
    Prog.Within (aside W).rel (d.finaliseAction action goal contents) :=
  .ite (.pure _) (.bind (formulateCode_aside others goal contents) fun _ => .pure _)

theorem think_aside (others : d.OthersKeep W) (instruction fallback : String) :
    Prog.Within (aside W).rel (d.think instruction fallback) := by
  unfold think
  split
  · exact .pure _
  · next complete wired =>
      exact .rescue (.bind (outside_aside (others.router complete wired _ _ _ _)) fun _ =>
        .pure _) fun _ => .pure _

theorem execute_aside (others : d.OthersKeep W) (action : Action K)
    (contents : List (WorkspaceItem K)) :
    Prog.Within (aside W).rel (d.execute action contents) :=
  .ite (.bind (outside_aside (others.recallEpisodes _ _)) fun _ => .pure _) <|
    .ite (.bind (outside_aside (others.recallEpisodes _ _)) fun _ =>
      .ite (.pure _) (think_aside others _ _)) <|
    .ite (think_aside others _ _) (think_aside others _ _)

theorem remember_aside (others : d.OthersKeep W) (summary : String) :
    Prog.Within (aside W).rel (d.remember summary) :=
  outside_aside (others.writeEpisode _)

end calls

/-- Every call of Deliberation keeps `W`. -/
structure Confined (d : Deliberation K ω) (W : Frame ω) : Prop extends OthersKeep d W where
  arbitrate : ∀ urges mood now, Prog.Keeps W (d.arbitrate urges mood now)
  resolve : ∀ id outcome, Prog.Keeps W (d.resolve id outcome)

/-- The world keeps `W`, whatever the cadence clock does. -/
abbrev worldly (W : Frame ω) : Frame (Deliberating K ω) := Frame.via Deliberating.world W

section confined
variable {d : Deliberation K ω} {W : Frame ω}

theorem worldly_of_aside {p : Prog Failure (Deliberating K ω) α}
    (within : Prog.Within (aside W).rel p) : Prog.Within (worldly W).rel p :=
  within.mono fun _ _ moved => moved.2

theorem outside_worldly {p : Prog Failure ω α} (keeps : Prog.Keeps W p) :
    Prog.Within (worldly W).rel (outside (K := K) p) := worldly_of_aside (outside_aside keeps)

theorem advance_worldly : Prog.Within (worldly W).rel d.advance :=
  .modify fun s => W.refl s.world

theorem close_worldly (confined : d.Confined W) (goal : Goal K) (outcome : Dict K) :
    Prog.Within (worldly W).rel (d.close goal outcome) :=
  .onSome fun _ _ => outside_worldly (confined.resolve _ _)

variable [Field K]

theorem settle_worldly (confined : d.Confined W) (goal : Goal K) (summary : String)
    (success : Bool) : Prog.Within (worldly W).rel (d.settleToolAction goal summary success) :=
  .bind advance_worldly fun _ => .bind (close_worldly confined goal _) fun _ => .pure _

theorem act_worldly (confined : d.Confined W) (action : Action K) (goal : Goal K)
    (contents : List (WorkspaceItem K)) :
    Prog.Within (worldly W).rel (d.act action goal contents) :=
  .bind advance_worldly fun _ =>
    .bind (worldly_of_aside (execute_aside confined.toOthersKeep action contents)) fun summary =>
    .bind (worldly_of_aside (remember_aside confined.toOthersKeep summary)) fun _ =>
    .bind (close_worldly confined goal _) fun _ => .pure _

theorem deliberate_worldly [LinearOrder K] (confined : d.Confined W) (urges : List (Urge K))
    (mood : Option (Mood K)) (contents : List (WorkspaceItem K)) (now : Option K) :
    Prog.Within (worldly W).rel (d.deliberate urges mood contents now) := by
  refine .bind (.reads _) fun reference =>
    .bind (outside_worldly (confined.arbitrate urges mood reference)) fun goal => ?_
  cases goal with
  | none => exact .pure _
  | some goal =>
      exact .bind (.reads _) fun _ => .ite (.pure _) (.bind (worldly_of_aside
        (finaliseAction_aside confined.toOthersKeep _ goal contents)) fun _ => .pure _)

end confined
end Deliberation
end Johnny
