import Johnny.Agents.Consult
import Johnny.Lib.Runs
import Johnny.Lib.Transaction
import Mathlib.Data.List.Sort

/-!
# Self-review and its notes

Each sleep a review of a window of the past goes to the model, and every proposal of its reply
becomes a note, in a transaction of its own, under the reflection and the window it came from.
Nothing acts on a note. The router, the reader of its replies and the clock are outside.
-/
namespace Johnny

structure ReviewWindow where
  goalsResolved : ℤ := 0
  goalsAbandoned : ℤ := 0
  degradedTicks : ℤ := 0
  recentGoals : List String := []
  mood : String := ""
  drives : String := ""

/-- `window.model_dump()`. -/
def ReviewWindow.modelDump {K : Type} (window : ReviewWindow) : Dict K :=
  [("goals_resolved", .int window.goalsResolved),
    ("goals_abandoned", .int window.goalsAbandoned),
    ("degraded_ticks", .int window.degradedTicks),
    ("recent_goals", .arr (window.recentGoals.map .str)),
    ("mood", .str window.mood),
    ("drives", .str window.drives)]

structure Proposal where
  observation : String
  proposal : String

structure Review where
  reflection : String
  proposals : List Proposal := []

def statusOpen : String := "open"

structure SelfImprovementNoteRow (K : Type) where
  id : ℕ
  ts : K
  observation : String
  proposal : String
  source : Dict K
  status : String

structure SelfImprovementNote (K : Type) where
  id : Option ℕ := none
  ts : Option K := none
  observation : String
  proposal : String
  source : Dict K := []
  status : String := statusOpen

/-- `_row_to_note`. -/
def SelfImprovementNoteRow.toNote {K : Type} (row : SelfImprovementNoteRow K) :
    SelfImprovementNote K where
  id := some row.id
  ts := some row.ts
  observation := row.observation
  proposal := row.proposal
  source := row.source
  status := row.status

/-! ### The store -/

structure MetacognitionStore (K ω : Type)
    extends Sessions Failure (List (SelfImprovementNoteRow K)) ℕ ω where
  nowFn : ω → K

namespace MetacognitionStore
variable {K ω : Type}

/-- The row of a note, open whatever the note says. -/
def rowOf (note : SelfImprovementNote K) (now : K) (id : ℕ) : SelfImprovementNoteRow K where
  id := id
  ts := note.ts.getD now
  observation := note.observation
  proposal := note.proposal
  source := note.source
  status := statusOpen

def add (note : SelfImprovementNote K) (now : K) :
    Prog Failure (List (SelfImprovementNoteRow K) × ℕ) (SelfImprovementNote K) := fun t =>
  let row := rowOf note now t.2
  (.ok row.toNote, t.1 ++ [row], t.2 + 1)

def addNote (s : MetacognitionStore K ω) (note : SelfImprovementNote K) :
    Prog Failure ω (SelfImprovementNote K) := do
  let now ← Prog.reads s.nowFn
  s.scope (add note now)

/-- Newest first, and rows of one instant in the order of the table. -/
def recent [LinearOrder K] (s : MetacognitionStore K ω) (limit : ℕ) :
    Prog Failure ω (List (SelfImprovementNote K)) :=
  s.scope <| Prog.reads fun t =>
    ((t.1.insertionSort fun a b => b.ts ≤ a.ts).take limit).map SelfImprovementNoteRow.toNote

end MetacognitionStore

/-! ### The agent -/

def tiredReflection : String := "I didn't have the clarity to review myself this cycle."

structure Metacognition (K ω : Type) where
  router : Option (Complete K ω)
  /-- `parse_review`. -/
  parseReview : String → Except Failure Review
  store : MetacognitionStore K ω
  prompt : String
  maxTokens : ℕ

namespace Metacognition
variable {K ω : Type}

def render (window : ReviewWindow) : String :=
  let goals := if window.recentGoals.isEmpty then "- (none of note)"
    else "\n".intercalate (window.recentGoals.map ("- " ++ ·))
  "Here is a window of how you've been functioning lately:\n" ++
    "- goals resolved: " ++ toString window.goalsResolved ++ "\n" ++
    "- goals abandoned: " ++ toString window.goalsAbandoned ++ "\n" ++
    "- ticks where your cognition degraded: " ++ toString window.degradedTicks ++ "\n" ++
    "- recent goals:\n" ++ goals ++ "\n" ++
    "- mood: " ++ (if window.mood = "" then "unremarkable" else window.mood) ++ "\n" ++
    "- drives: " ++ (if window.drives = "" then "at rest" else window.drives) ++ "\n\n" ++
    "Review how your mind has been working and respond with the required JSON."

/-- Where the note of a proposal comes from. -/
def provenance (review : Review) (window : ReviewWindow) : Dict K :=
  [("reflection", .str review.reflection), ("window", .obj window.modelDump)]

def noteOf (review : Review) (window : ReviewWindow) (proposal : Proposal) :
    SelfImprovementNote K where
  observation := proposal.observation
  proposal := proposal.proposal
  source := provenance review window

section agent
variable [Field K]

def reflect (m : Metacognition K ω) (window : ReviewWindow) : Prog Failure ω Review :=
  let tired : Review := { reflection := tiredReflection }
  match m.router with
  | none => pure tired
  | some complete =>
    if m.prompt = "" then pure tired
    else do
      let review ← consult complete "metacognition" m.prompt (render window) (frac 5 10)
        m.maxTokens m.parseReview
      pure (review.getD tired)

def review (m : Metacognition K ω) (window : ReviewWindow) : Prog Failure ω Review := do
  let review ← m.reflect window
  Prog.forEach review.proposals fun proposal => do
    let _ ← m.store.addNote (noteOf review window proposal)
    pure ()
  pure review

end agent

/-! ### What a review leaves -/

def notes (m : Metacognition K ω) (w : ω) : List (SelfImprovementNoteRow K) :=
  (m.store.db.get w).tables

/-- What a row says, apart from where it stands and when it was written. -/
def said (row : SelfImprovementNoteRow K) : SelfImprovementNote K where
  observation := row.observation
  proposal := row.proposal
  source := row.source
  status := row.status

/-- The notes of a review as changes of what the table says, one transaction each. -/
def changes (review : Review) (window : ReviewWindow) :
    List (List (SelfImprovementNote K) → List (SelfImprovementNote K)) :=
  review.proposals.map fun proposal told => told ++ [noteOf review window proposal]

/-- Nobody but the review writes its notes. -/
structure Alone (m : Metacognition K ω) : Prop where
  router : ∀ complete, m.router = some complete → ∀ role messages temperature maxTokens w,
    m.store.db.get (complete role messages temperature maxTokens w).2 = m.store.db.get w

/-- The rows stay, and more may follow. -/
def onward (m : Metacognition K ω) : Frame ω where
  rel v w := m.notes v <+: m.notes w
  refl _ := List.prefix_rfl
  trans := List.IsPrefix.trans

theorem onward_of_same {m : Metacognition K ω} {v w : ω}
    (same : m.store.db.get w = m.store.db.get v) : m.onward.rel v w := by
  simp only [onward, notes, same]
  exact List.prefix_rfl

theorem addNote_within (m : Metacognition K ω) (note : SelfImprovementNote K) :
    Prog.Within m.onward.rel (m.store.addNote note) := by
  intro w
  apply Relation.ReflTransGen.single
  have kept := Sessions.scope_rule m.store.toSessions (MetacognitionStore.add note (m.store.nowFn w))
    w (A := fun d => m.notes w <+: d.tables) (B := fun _ _ => True) ?_ ?_
  · exact kept.1
  · rintro _ _ ⟨⟩
    exact ⟨List.prefix_append _ _, trivial⟩
  · exact fun _ => List.prefix_rfl

/-- To look at the newest notes is to leave them. -/
theorem recent_notes [LinearOrder K] (m : Metacognition K ω) (limit : ℕ) (w : ω) :
    m.notes (m.store.recent limit w).2 = m.notes w := by
  have kept := Sessions.scope_rule m.store.toSessions (Prog.reads fun t =>
    ((t.1.insertionSort fun a b => b.ts ≤ a.ts).take limit).map SelfImprovementNoteRow.toNote) w
    (A := fun d => d.tables = m.notes w) (B := fun _ _ => True) ?_ ?_
  · exact kept.1
  · rintro _ _ ⟨⟩
    exact ⟨rfl, trivial⟩
  · exact fun _ => rfl

section agent
variable [Field K] {m : Metacognition K ω} {window : ReviewWindow} {review : Review} {w v : ω}

/-- To reflect is to leave the notes alone. -/
theorem reflect_db (alone : m.Alone) (window : ReviewWindow) (w : ω) :
    m.store.db.get (m.reflect window w).2 = m.store.db.get w := by
  have within : Prog.Within (Frame.eqOn m.store.db.get).rel (m.reflect window) := by
    unfold reflect
    cases routed : m.router with
    | none => exact .pure _
    | some complete =>
        apply Prog.Within.ite (.pure _)
        refine .bind (consult_within ?_) fun _ => .pure _
        intro role messages temperature maxTokens v
        exact .single (alone.router complete routed _ _ _ _ v)
  exact within.keeps (fun _ _ moved => moved) w

/-- The review is what the reader took from the completion that the model returned to it. -/
def Replied (m : Metacognition K ω) (window : ReviewWindow) (w : ω) (review : Review) : Prop :=
  ∃ complete completion v, m.router = some complete ∧
    complete "metacognition" [⟨"system", m.prompt⟩, ⟨"user", render window⟩] (frac 5 10)
      m.maxTokens w = (.ok completion, v) ∧
    m.parseReview completion.content = .ok review

/-- A reflection is a reply of the model, or the tired one, which proposes nothing. -/
theorem reflect_told (ran : m.reflect window w = (.ok review, v)) :
    review.proposals = [] ∨ m.Replied window w review := by
  unfold reflect at ran
  cases routed : m.router with
  | none =>
      rw [routed] at ran
      cases ran
      exact .inl rfl
  | some complete =>
      rw [routed] at ran
      dsimp only at ran
      split at ran
      · cases ran
        exact .inl rfl
      · obtain ⟨told, v', consulted, same⟩ := Prog.ok_of_bind ran
        cases same
        cases told with
        | none => exact .inl rfl
        | some reply =>
            obtain ⟨completion, asked, read⟩ := consult_reply consulted
            exact .inr ⟨complete, completion, v, routed, asked, read⟩

/-- The notes of a review are its proposals up to the first whose transaction is not acknowledged,
and the review is told exactly if there is none. -/
theorem review_execute (alone : m.Alone) (reflected : m.reflect window w = (.ok review, v)) :
    (m.notes (m.review window w).2).map said =
        (Database.execute (m.store.db.get w).endings (changes review window)
          ((m.notes w).map said)).1 ∧
      ((m.review window w).1 = .ok review ↔
        ∀ ending ∈ (m.store.db.get w).endings.take review.proposals.length,
          ending.acknowledged = true) := by
  have still := reflect_db alone window w
  rw [reflected] at still
  obtain ⟨shown, told⟩ := Sessions.forEach_execute (s := m.store.toSessions)
    (fun proposal => m.store.addNote (noteOf review window proposal) >>= fun _ => pure ())
    (fun proposal w => MetacognitionStore.add (noteOf review window proposal) (m.store.nowFn w))
    (List.map said) (fun proposal told => told ++ [noteOf review window proposal])
    (fun _ _ => rfl) (fun proposal w t => ⟨_, _, rfl, List.map_append⟩) review.proposals v
  dsimp only at still
  rw [still] at shown told
  have known := told.trans Database.execute_acknowledged
  rw [List.length_map] at known
  have step : m.review window w = (Prog.forEach review.proposals (fun proposal =>
      m.store.addNote (noteOf review window proposal) >>= fun _ => pure ()) >>= fun _ =>
        pure review) v := Prog.bind_of_ok reflected
  rw [step, Prog.bind_pure_apply]
  refine ⟨shown, Iff.trans ?_ known⟩
  generalize (Prog.forEach review.proposals _ v).1 = r
  rcases r with e | ⟨⟩
  · exact iff_of_false nofun nofun
  · exact iff_of_true rfl rfl

theorem review_within (alone : m.Alone) (window : ReviewWindow) :
    Prog.Within m.onward.rel (m.review window) := by
  refine .bind (fun w => .single (onward_of_same (reflect_db alone window w))) fun review => ?_
  refine .bind (.forEach (fun proposal => ?_) _) fun _ => .pure review
  exact .bind (addNote_within m _) fun _ => .pure ()

/-- What the notes of one review say: those of the first few proposals of a reply to it, in its
order. -/
def Batch (m : Metacognition K ω) (window : ReviewWindow) (w : ω)
    (told : List (SelfImprovementNote K)) : Prop :=
  told = [] ∨ ∃ review count, m.Replied window w review ∧
    told = (review.proposals.take count).map (noteOf review window)

/-- A review adds one batch at most. -/
theorem review_batch (alone : m.Alone) (window : ReviewWindow) (w : ω) :
    ∃ told, (m.notes (m.review window w).2).map said = (m.notes w).map said ++ told ∧
      m.Batch window w told := by
  rcases reflected : m.reflect window w with ⟨e | review, v⟩
  · have still := reflect_db alone window w
    have ended : m.review window w = (.error e, v) := Prog.bind_of_error reflected
    rw [reflected] at still
    dsimp only at still
    rw [ended, notes, still]
    exact ⟨[], (List.append_nil _).symm, .inl rfl⟩
  obtain ⟨shown, -⟩ := review_execute alone reflected
  rcases reflect_told reflected with none | replied
  · rw [changes, none] at shown
    exact ⟨[], by rw [List.append_nil]; exact shown, .inl rfl⟩
  · obtain ⟨count, -, stand, -⟩ := Database.execute_append (m.store.db.get w).endings
      (review.proposals.map (noteOf (K := K) review window)) ((m.notes w).map said)
    rw [List.map_map] at stand
    rw [changes] at shown
    refine ⟨_, ?_, .inr ⟨review, count, replied, rfl⟩⟩
    rw [List.map_take]
    exact shown.trans stand

/-! ### Runs -/

/-- What happens to the notes, one after the other. -/
inductive Turn (m : Metacognition K ω) where
  | review (window : ReviewWindow)
  | recent (limit : ℕ)
  /-- Anything else, which leaves them alone. -/
  | elsewhere (happens : ω → ω) (apart : ∀ w, m.store.db.get (happens w) = m.store.db.get w)

def turn [LinearOrder K] (m : Metacognition K ω) : m.Turn → ω → ω
  | .review window, w => (m.review window w).2
  | .recent limit, w => (m.store.recent limit w).2
  | .elsewhere happens _, w => happens w

theorem turn_onward [LinearOrder K] (alone : m.Alone) (t : m.Turn) (w : ω) :
    m.onward.rel w (m.turn t w) := by
  cases t with
  | review window => exact (review_within alone window).keeps (fun _ _ moved => moved) w
  | recent limit =>
      have same : m.notes (m.store.recent limit w).2 = m.notes w := recent_notes m limit w
      change m.notes w <+: m.notes (m.store.recent limit w).2
      exact same.symm ▸ List.prefix_rfl
  | elsewhere happens apart => exact onward_of_same (apart w)

/-- What a turn adds to what the notes say. -/
def Adds (m : Metacognition K ω) : m.Turn → ω → List (SelfImprovementNote K) → Prop
  | .review window, w, told => m.Batch window w told
  | .recent _, _, told => told = []
  | .elsewhere _ _, _, told => told = []

theorem turn_adds [LinearOrder K] (alone : m.Alone) (t : m.Turn) (w : ω) :
    ∃ told, (m.notes (m.turn t w)).map said = (m.notes w).map said ++ told ∧
      m.Adds t w told := by
  cases t with
  | review window => exact review_batch alone window w
  | recent limit =>
      have same : m.notes (m.store.recent limit w).2 = m.notes w := recent_notes m limit w
      exact ⟨[], by rw [List.append_nil]; exact congrArg (List.map said) same, rfl⟩
  | elsewhere happens apart =>
      have same : m.notes (happens w) = m.notes w := congrArg Database.tables (apart w)
      exact ⟨[], by rw [List.append_nil]; exact congrArg (List.map said) same, rfl⟩

/-- In every run, whatever fails, the notes only grow, a review by one batch of the first
proposals of what the model replied to it; and the next review leaves its proposals up to the
first that is not acknowledged. -/
theorem run_notes [LinearOrder K] (alone : m.Alone) (turns : List m.Turn) (w : ω) :
    let v := runSteps m.turn turns w
    m.notes w <+: m.notes v ∧
      (∀ before t after, turns = before ++ t :: after → ∃ told,
        (m.notes (runSteps m.turn (before ++ [t]) w)).map said =
          (m.notes (runSteps m.turn before w)).map said ++ told ∧
        m.Adds t (runSteps m.turn before w) told) ∧
      ∀ window review v', m.reflect window v = (.ok review, v') →
        (m.notes (m.review window v).2).map said =
            (Database.execute (m.store.db.get v).endings (changes review window)
              ((m.notes v).map said)).1 ∧
          ((m.review window v).1 = .ok review ↔
            ∀ ending ∈ (m.store.db.get v).endings.take review.proposals.length,
              ending.acknowledged = true) := by
  intro v
  refine ⟨?_, fun before t _ _ => ?_, fun window review v' reflected =>
    review_execute alone reflected⟩
  · exact runSteps_invariant (I := m.onward.rel w)
      (fun t _ reached => m.onward.trans reached (turn_onward alone t _)) turns (m.onward.refl w)
  · rw [runSteps_append]
    exact turn_adds alone t (runSteps m.turn before w)

end agent

/-! ### A review cut short -/

namespace CutShort

def proposals : List Proposal :=
  [⟨"I drop goals early.", "Wait a day."⟩, ⟨"I read little.", "Read more."⟩, ⟨"I tire.", "Rest."⟩]

def metacognition : Metacognition ℚ (Database Failure (List (SelfImprovementNoteRow ℚ)) ℕ) where
  router := some fun _ _ _ _ => pure ⟨"I do what I can."⟩
  parseReview content := .ok ⟨content, proposals⟩
  store := { db := .whole, meanwhile := id, apart := fun _ => rfl, nowFn := fun _ => 0 }
  prompt := "Review yourself."
  maxTokens := 512

/-- The second note is written, but the answer to its commit is lost. -/
def start : Database Failure (List (SelfImprovementNoteRow ℚ)) ℕ :=
  ⟨[], 1, [.committed, .unacknowledged (.exception (.other "OperationalError") "lost")], []⟩

end CutShort

open CutShort in
/-- The third proposal is never written, and the review raises. -/
theorem cut_short_notes :
    (metacognition.notes (runSteps metacognition.turn [.review {}] start)).map
        SelfImprovementNoteRow.proposal = ["Wait a day.", "Read more."] ∧
      ∃ told, (metacognition.notes (runSteps metacognition.turn [.review {}] start)).map said =
          (metacognition.notes start).map said ++ told ∧
        metacognition.Adds (.review {}) start told := by
  have alone : metacognition.Alone := by
    constructor
    rintro _ ⟨⟩ _ _ _ _ _
    rfl
  exact ⟨by decide +kernel, (run_notes alone [.review {}] start).2.1 [] (.review {}) [] rfl⟩

end Metacognition
end Johnny
