import Johnny.Agents.Cadence
import Johnny.Brain.Feedback
import Johnny.Effectors.WebConsolidator
import Mathlib.Data.Rat.Floor

/-!
# Reading eases a drive only once it is remembered

In a tick whose action is a web read, an outcome is queued only where the tool ran with
success, the read became an episode that carries its URL, and a fact was written with
that episode as its source.
-/
namespace Johnny
variable {K ω α : Type}

/-! ### What a consolidation writes -/

/-- The text has the given part. -/
def Contains (text part : String) : Prop := ∃ before after, text = before ++ part ++ after

theorem episodeContent_contains (url title text : String) :
    Contains (WebReadConsolidator.episodeContent url title text) url := by
  refine ⟨"I read \"" ++ (if strip title = "" then url else strip title) ++ "\" (",
    ").\n" ++ takeChars episodeExcerptChars (strip text), ?_⟩
  unfold WebReadConsolidator.episodeContent
  simp only [String.append_assoc]

/-- The tables after the episode of a read and the fact distilled from it, newest first. -/
structure ReadWritten (url : String) (base : MemoryStore K) (written : List (MemoryStore K)) :
    Prop where
  chain : ∃ row fact, written = [(base.insertEpisode row).upsert fact, base.insertEpisode row] ∧
    Contains row.content url ∧ fact.sourceEpisodeIds = [row.id]

/-- The rows the two writes left in the last of the tables. -/
theorem ReadWritten.rows {url : String} {base : MemoryStore K} {written : List (MemoryStore K)}
    (read : ReadWritten url base written) :
    ∃ tables ∈ written, ∃ row ∈ tables.episodes, Contains row.content url ∧
      ∃ fact ∈ tables.facts, row.id ∈ fact.sourceEpisodeIds := by
  obtain ⟨row, fact, rfl, url, source⟩ := read.chain
  have stored := MemoryStore.holds_upsert (base.insertEpisode row) fact
  have held : ((base.insertEpisode row).upsert fact).Holds fact.key fact.sourceEpisodeIds := by
    rw [stored]
    exact .inl ⟨rfl, rfl⟩
  obtain ⟨kept, inside, _, sources⟩ := held
  have known : row ∈ ((base.insertEpisode row).upsert fact).episodes := by
    unfold MemoryStore.upsert
    split <;> exact List.mem_append_right _ (List.mem_singleton_self row)
  refine ⟨_, List.mem_cons_self, row, known, url, kept, inside, ?_⟩
  rw [sources, source]
  exact List.mem_singleton_self row.id

namespace MemoryDatabase
variable [Field K] [LinearOrder K] {m : MemoryDatabase K ω} {w w' : ω}

/-- The embedder does not write the memory. -/
def EmbedsApart (m : MemoryDatabase K ω) : Prop :=
  ∀ text, Prog.Keeps (Frame.eqOn m.db.get) (m.embedOne text)

theorem write_spec (apart : m.EmbedsApart) {episode stored : Episode K}
    (ran : m.write episode w = (.ok stored, w')) :
    ∃ row, row.content = episode.content ∧ stored.id = some row.id ∧
      (m.db.get w').tables = (m.db.get w).tables.insertEpisode row ∧
      (m.db.get w').versions =
        (m.db.get w).tables.insertEpisode row :: (m.db.get w).versions := by
  obtain ⟨vector, w₁, embedded, ran⟩ := Prog.ok_of_bind ran
  have same : m.db.get w₁ = m.db.get w := by
    have := apart episode.content w
    rw [embedded] at this
    exact this
  rw [Prog.reads_bind] at ran
  obtain ⟨t, inserted, committed⟩ := Sessions.scope_ok ran
  rw [same] at inserted committed
  cases inserted
  rw [committed]
  exact ⟨_, rfl, rfl, rfl, rfl⟩

theorem upsertFact_spec (apart : m.EmbedsApart) {subject predicate obj : String} {confidence : K}
    {sources : List ℕ} {stored : SemanticFact}
    (ran : m.upsertFact subject predicate obj confidence sources w = (.ok stored, w')) :
    ∃ fact, fact.sourceEpisodeIds = sources ∧
      (m.db.get w').versions = (m.db.get w).tables.upsert fact :: (m.db.get w).versions := by
  obtain ⟨vector, w₁, embedded, ran⟩ := Prog.ok_of_bind ran
  have same : m.db.get w₁ = m.db.get w := by
    have := apart (factText subject predicate obj) w
    rw [embedded] at this
    exact this
  obtain ⟨t, asserted, committed⟩ := Sessions.scope_ok ran
  rw [same] at asserted committed
  cases asserted
  rw [committed]
  exact ⟨_, rfl, rfl⟩

end MemoryDatabase

namespace WebReadConsolidator
variable [Field K] [LinearOrder K] {c : WebReadConsolidator K ω} {w w' : ω}

/-- Neither the embedder nor the model router writes the memory. -/
structure MemoryApart (c : WebReadConsolidator K ω) : Prop where
  embeds : c.memory.EmbedsApart
  router : ∀ complete, c.router = some complete → ∀ role messages temperature maxTokens,
    Prog.Keeps (Frame.eqOn c.memory.db.get) (complete role messages temperature maxTokens)

theorem summarise_apart (apart : c.MemoryApart) (url title text : String) :
    Prog.Within (Frame.eqOn c.memory.db.get).rel (c.summarise url title text) := by
  unfold summarise
  split
  · exact .pure _
  · next complete wired =>
      refine .ite (.pure _) (.bind (.rescue (.bind ?_ fun _ => .pure _) fun _ => .pure _)
        fun completion => ?_)
      · exact fun w => .single (apart.router complete wired _ _ _ _ w)
      · cases completion with
        | none => exact .pure _
        | some completion => exact .bind (.reraise _) fun _ => .pure _

/-- A consolidation that returns has written the episode and then the fact. -/
theorem consolidate_spec (apart : c.MemoryApart) {url title text : String}
    {result : WebReadResult K} (ran : c.consolidate url title text w = (.ok result, w')) :
    ∃ written, ReadWritten url (c.memory.db.get w).tables written ∧
      (c.memory.db.get w').versions = written ++ (c.memory.db.get w).versions := by
  obtain ⟨episode, w₁, recorded, ran⟩ := Prog.ok_of_bind ran
  obtain ⟨row, content, named, tables, versions⟩ := MemoryDatabase.write_spec apart.embeds recorded
  obtain ⟨summary, w₂, distilled, ran⟩ := Prog.ok_of_bind ran
  have same : c.memory.db.get w₂ = c.memory.db.get w₁ := by
    have := (summarise_apart apart url title text).keeps (F := Frame.eqOn c.memory.db.get)
      (fun _ _ moved => moved) w₁
    rw [distilled] at this
    exact this
  obtain ⟨fact, w₃, asserted, ran⟩ := Prog.ok_of_bind ran
  cases ran
  obtain ⟨stored, sources, grown⟩ := MemoryDatabase.upsertFact_spec apart.embeds asserted
  rw [same, tables, versions] at grown
  refine ⟨_, ⟨row, stored, rfl, ?_, ?_⟩, grown⟩
  · rw [content]
    exact episodeContent_contains url title text
  · rw [sources, named]
    rfl

/-- A read counts as remembered only once both are written. -/
theorem remembers_spec (apart : c.MemoryApart) {tool : String} {output : Dict K}
    (ran : c.remembers tool output w = (.ok true, w')) :
    ∃ url title text written, extractWebContent tool output = some (url, title, text) ∧
      ReadWritten url (c.memory.db.get w).tables written ∧
      (c.memory.db.get w').versions = written ++ (c.memory.db.get w).versions := by
  obtain ⟨result, w₁, asked, ran⟩ := Prog.ok_of_bind ran
  unfold consolidateToolResult at asked
  cases extracted : extractWebContent tool output with
  | none =>
      rw [extracted] at asked
      cases asked
      cases ran
  | some content =>
      obtain ⟨url, title, text⟩ := content
      rw [extracted] at asked
      obtain ⟨result, w₂, consolidated, rest⟩ := Prog.ok_of_bind asked
      cases rest
      cases ran
      obtain ⟨written, read, versions⟩ := consolidate_spec apart consolidated
      exact ⟨url, title, text, written, rfl, read, versions⟩

end WebReadConsolidator

/-! ### A read inside one tick -/

/-- The entry of a deliberation that returned. -/
def Happening.isDeliberated : Happening K ω → Bool
  | .deliberated _ _ => true
  | _ => false

/-- A read with the tool ran in the tick `n` and was remembered, by what was recorded and
what became visible in the memory. -/
structure Remembered (n : ℕ) (tool : String) (new : List (Entry K ω))
    (versions : List (MemoryStore K)) (v : VettedAction K ω) (result : ToolResult K)
    (url : String) : Prop where
  named : v.tool.name = tool
  ran : ⟨n, .ran v.tool v.validated⟩ ∈ new
  committed : ∃ outcome, ⟨n, .commitEnded (.ok outcome)⟩ ∈ new ∧ outcome.ran = true ∧
    outcome.result = some result
  success : result.success = true
  source : ∃ title text, extractWebContent tool result.output = some (url, title, text)
  written : ∃ later base written earlier, versions = later ++ written ++ earlier ∧
    ReadWritten url base written

def ReadRemembered (n : ℕ) (tool : String) (new : List (Entry K ω))
    (versions : List (MemoryStore K)) : Prop :=
  ∃ v result url, Remembered n tool new versions v result url

theorem ReadRemembered.grow {n : ℕ} {tool : String} {new : List (Entry K ω)}
    {versions : List (MemoryStore K)} (read : ReadRemembered n tool new versions)
    (later earlier : List (Entry K ω)) (beyond under : List (MemoryStore K)) :
    ReadRemembered n tool (later ++ new ++ earlier) (beyond ++ versions ++ under) := by
  obtain ⟨v, result, url, named, ran, ⟨outcome, ended, succeeded⟩, success, source,
    later', base, written, earlier', rfl, chain⟩ := read
  have inside {e : Entry K ω} (member : e ∈ new) : e ∈ later ++ new ++ earlier :=
    List.mem_append_left _ (List.mem_append_right _ member)
  refine ⟨v, result, url, named, inside ran, ⟨outcome, inside ended, succeeded⟩, success, source,
    beyond ++ later', base, written, earlier' ++ under, ?_, chain⟩
  simp only [List.append_assoc]

namespace CognitiveCycle
variable [Field K] [LinearOrder K] {c : CognitiveCycle K (Deliberating K ω)}
  {d : Deliberation K ω} {r : WebReadConsolidator K ω}

/-- What became visible in the memory so far. -/
def memoryVersions (r : WebReadConsolidator K ω) (w : Deliberating K ω) : List (MemoryStore K) :=
  (r.memory.db.get w.world).versions

/-- The memory's past does not change. -/
def visible (r : WebReadConsolidator K ω) : Frame ω :=
  Frame.grows (fun w => (r.memory.db.get w).versions) fun _ => True

abbrev remembering (r : WebReadConsolidator K ω) : Frame (Deliberating K ω) :=
  Deliberation.worldly (visible r)

omit [Field K] [LinearOrder K] in
theorem visible_of_same {p : Prog Failure ω α}
    (keeps : Prog.Keeps (Frame.eqOn r.memory.db.get) p) :
    Prog.Within (visible r).rel p := fun w =>
  .single ⟨[], congrArg Database.versions (keeps w), List.forall_mem_nil _⟩

/-- The consolidator itself only adds to the memory's past. -/
theorem remembers_visible (apart : r.MemoryApart) (tool : String) (output : Dict K) :
    Prog.Within (visible r).rel (r.remembers tool output) := by
  have embeds (text : String) : Prog.Within (visible r).rel (r.memory.embedOne text) :=
    visible_of_same (apart.embeds text)
  have writes {β : Type} (p : Prog Failure (MemoryStore K × Unit) β) :
      Prog.Within (visible r).rel (r.memory.scope p) := fun w =>
    .single (Sessions.scope_grows r.memory.toSessions p w)
  have consolidates (url title text : String) :
      Prog.Within (visible r).rel (r.consolidate url title text) :=
    .bind (.bind (embeds _) fun _ => .bind (.reads _) fun _ => writes _) fun _ =>
      .bind ((WebReadConsolidator.summarise_apart apart url title text).mono fun _ _ same =>
        ⟨[], congrArg Database.versions same, List.forall_mem_nil _⟩) fun _ =>
      .bind (.bind (embeds _) fun _ => writes _) fun _ => .pure _
  refine .bind ?_ fun _ => .pure _
  unfold WebReadConsolidator.consolidateToolResult
  split
  · exact .pure _
  · exact .bind (consolidates _ _ _) fun _ => .pure _

/-- Deliberation and the consolidator are wired, and no call rewrites the memory's past. -/
structure ReadsThrough (c : CognitiveCycle K (Deliberating K ω)) (d : Deliberation K ω)
    (r : WebReadConsolidator K ω) : Prop where
  deliberation : c.deliberation = some d.stage
  webConsolidator : c.webConsolidator =
    some fun tool output => Deliberation.outside (r.remembers tool output)
  apart : r.MemoryApart
  around : c.Confined (remembering r)
  actions : d.Confined (visible r)

/-- What ACT does for the action: outcomes of a web read are queued only if it was remembered. -/
structure ActsOn (r : WebReadConsolidator K ω) (action : Action K)
    (s t : Mind K (Deliberating K ω)) : Prop where
  tick : t.tick = s.tick
  left : ∃ new versions, t.history = new ++ s.history ∧
    memoryVersions r t.world = versions ++ memoryVersions r s.world ∧
    (∀ e ∈ new, e.tick = s.tick ∧ e.what.isDeliberated = false) ∧
    ∀ tool, action.tool = some tool → tool ∈ webReadTools →
      ∀ e ∈ new, ∀ event, e.what = .enqueued event → ReadRemembered s.tick tool new versions

variable {s t u : Mind K (Deliberating K ω)} {action : Action K}

/-- Nothing was queued, and only the memory and the records grew. -/
structure Unread (r : WebReadConsolidator K ω) (s t : Mind K (Deliberating K ω)) : Prop where
  tick : t.tick = s.tick
  left : ∃ new versions, t.history = new ++ s.history ∧
    memoryVersions r t.world = versions ++ memoryVersions r s.world ∧
    ∀ e ∈ new, e.tick = s.tick ∧ e.what.isDeliberated = false ∧
      ∀ event, e.what ≠ .enqueued event

omit [Field K] [LinearOrder K] in
theorem Unread.actsOn (unread : Unread r s t) (action : Action K) : ActsOn r action s t := by
  obtain ⟨tick, new, versions, history, grown, small⟩ := unread
  refine ⟨tick, new, versions, history, grown, fun e member => ?_, fun _ _ _ e member event queued => ?_⟩
  · exact ⟨(small e member).1, (small e member).2.1⟩
  · exact absurd queued ((small e member).2.2 event)

omit [Field K] [LinearOrder K] in
theorem Unread.refl (r : WebReadConsolidator K ω) (s : Mind K (Deliberating K ω)) :
    Unread r s s := ⟨rfl, [], [], rfl, rfl, List.forall_mem_nil _⟩

omit [Field K] [LinearOrder K] in
theorem Unread.trans (first : Unread r s t) (second : Unread r t u) : Unread r s u := by
  obtain ⟨tick, new, versions, history, grown, small⟩ := first
  obtain ⟨tick', newer, versions', history', grown', small'⟩ := second
  refine ⟨tick'.trans tick, newer ++ new, versions' ++ versions, ?_, ?_, ?_⟩
  · rw [history', history, List.append_assoc]
  · rw [grown', grown, List.append_assoc]
  · intro e member
    rcases List.mem_append.mp member with later | earlier
    · exact ⟨(small' e later).1.trans tick, (small' e later).2⟩
    · exact small e earlier

omit [Field K] [LinearOrder K] in
theorem unread_of_light (light : Light (remembering r) s t) : Unread r s t := by
  obtain ⟨versions, grown, _⟩ := light.world
  have rest := light.rest
  exact ⟨by rw [rest], [], versions, by rw [rest]; rfl, grown, List.forall_mem_nil _⟩


/-! ### The steps of a tool action -/

theorem commit_unread (through : c.ReadsThrough d r) {dispatch : EffectorDispatch K (Deliberating K ω)}
    (wired : c.dispatch = some dispatch) {v : VettedAction K (Deliberating K ω)}
    (belt : ∃ w, v.tool ∈ (dispatch.registry w).tools) (s : Mind K (Deliberating K ω)) :
    Unread r s (dispatch.commit v s).2 ∧ ∃ records, (dispatch.commit v s).2.history =
      ⟨s.tick, .commitEnded (dispatch.commit v s).1⟩ ::
        (records ++ (startedBy v s.tick ++ s.history)) := by
  have confined := through.around.dispatch dispatch wired
  obtain ⟨w₀, onBelt⟩ := belt
  obtain ⟨w, records, left, ⟨versions, grown, _⟩, recorded⟩ :=
    dispatch.commit_spec confined (confined.run w₀ v.tool onBelt) s
  rw [left]
  refine ⟨⟨rfl, ⟨s.tick, .commitEnded (dispatch.commit v s).1⟩ ::
    (records ++ startedBy v s.tick), versions, ?_, grown, ?_⟩, records, rfl⟩
  · simp
  · intro e member
    rcases List.mem_cons.mp member with rfl | member
    · exact ⟨rfl, rfl, nofun⟩
    · rcases List.mem_append.mp member with record | started
      · obtain ⟨rec, rfl⟩ := recorded e record
        exact ⟨rfl, rfl, nofun⟩
      · unfold startedBy at started
        split at started
        · rw [List.mem_singleton.mp started]
          exact ⟨rfl, rfl, nofun⟩
        · cases started

omit [Field K] [LinearOrder K] in
/-- An outcome that tells of a run comes with the run's entry. -/
theorem ran_of_commit {dispatch : EffectorDispatch K ω} {v : VettedAction K ω}
    {s t : Mind K ω} {outcome : DispatchOutcome K}
    (committed : dispatch.commit v s = (.ok outcome, t)) (ran : outcome.ran = true) :
    startedBy v s.tick = [⟨s.tick, .ran v.tool v.validated⟩] := by
  unfold startedBy
  cases allowed : v.verdict.allowed with
  | true => rfl
  | false =>
      have returned : (dispatch.commit v s).1 = .ok outcome := congrArg Prod.fst committed
      unfold EffectorDispatch.commit at returned
      rw [Mind.noting_apply, allowed] at returned
      simp only [Bool.not_false, if_true] at returned
      obtain ⟨_, _, _, body⟩ := Prog.ok_of_bind (Prod.ext returned rfl)
      obtain ⟨_, _, _, body⟩ := Prog.ok_of_bind body
      cases body
      cases ran

omit [Field K] [LinearOrder K] in
/-- A web read settles its goal as a success only once it was consolidated. -/
theorem settledBy_read {c : CognitiveCycle K ω} {tool : String} (web : tool ∈ webReadTools)
    {outcome : DispatchOutcome K} {s t : Mind K ω}
    (settled : c.settledBy (some tool) outcome s = (.ok true, t)) :
    outcome.ran = true ∧ ∃ result, outcome.result = some result ∧ result.success = true ∧
      c.consolidateWebRead tool result.output s = (.ok true, t) := by
  unfold settledBy at settled
  cases found : outcome.result with
  | none =>
      rw [found] at settled
      have never : (outcome.ran && false) = true :=
        Except.ok.inj (congrArg Prod.fst settled)
      rw [Bool.and_false] at never
      cases never
  | some result =>
      rw [found] at settled
      dsimp only [Option.any_some] at settled
      by_cases okay : (outcome.ran && result.success) = true
      · rw [if_pos ⟨okay, web⟩] at settled
        obtain ⟨ran, success⟩ := Bool.and_eq_true_iff.mp okay
        exact ⟨ran, result, rfl, success, settled⟩
      · rw [if_neg fun both => okay both.1] at settled
        exact absurd (Except.ok.inj (congrArg Prod.fst settled)) okay

/-- A read that the cycle takes as remembered is written in the memory. -/
theorem consolidateWebRead_written (through : c.ReadsThrough d r) {tool : String}
    {output : Dict K} {s t : Mind K (Deliberating K ω)}
    (remembered : c.consolidateWebRead tool output s = (.ok true, t)) :
    ∃ url title text base written, extractWebContent tool output = some (url, title, text) ∧
      ReadWritten url base written ∧
      memoryVersions r t.world = written ++ memoryVersions r s.world := by
  unfold consolidateWebRead at remembered
  rw [through.webConsolidator] at remembered
  dsimp only at remembered
  rcases asked : r.remembers tool output s.world.world with ⟨q, w⟩
  have called : Mind.outside (K := K) (Deliberation.outside (r.remembers tool output)) s =
      (q, { s with world := { s.world with world := w } }) := by
    rw [Mind.outside_apply]
    unfold Deliberation.outside Prog.zoom
    rw [asked]
  cases q with
  | error e =>
      cases caught : e.isException with
      | true =>
          rw [Prog.rescue_of_caught called caught] at remembered
          cases Except.ok.inj (congrArg Prod.fst remembered)
      | false =>
          rw [Prog.rescue_of_passed called caught] at remembered
          cases congrArg Prod.fst remembered
  | ok answer =>
      rw [Prog.rescue_of_ok called] at remembered
      obtain rfl : answer = true := Except.ok.inj (congrArg Prod.fst remembered)
      obtain ⟨url, title, text, written, extracted, read, versions⟩ :=
        WebReadConsolidator.remembers_spec through.apart asked
      refine ⟨url, title, text, _, written, extracted, read, ?_⟩
      rw [← show _ = t from congrArg Prod.snd remembered]
      exact versions


omit [Field K] [LinearOrder K] in
theorem enqueueAll_history (events : List (DriveEvent K)) (s : Mind K (Deliberating K ω)) :
    ∃ new, Prog.forEach events enqueueDriveEvent s =
        (.ok (), { s with
          history := new ++ s.history, pendingEvents := s.pendingEvents ++ events }) ∧
      ∀ e ∈ new, ∃ event, e = ⟨s.tick, .enqueued event⟩ := by
  induction events generalizing s with
  | nil => exact ⟨[], by rw [List.append_nil]; rfl, List.forall_mem_nil _⟩
  | cons event events ih =>
      obtain ⟨new, ran, queued⟩ := ih { s with
        history := ⟨s.tick, .enqueued event⟩ :: s.history
        pendingEvents := s.pendingEvents ++ [event] }
      refine ⟨new ++ [⟨s.tick, .enqueued event⟩], ?_, ?_⟩
      · have step : Prog.forEach (event :: events) enqueueDriveEvent s =
            Prog.forEach events enqueueDriveEvent { s with
              history := ⟨s.tick, .enqueued event⟩ :: s.history
              pendingEvents := s.pendingEvents ++ [event] } := rfl
        rw [step, ran]
        simp only [List.append_assoc, List.cons_append, List.nil_append]
      · intro e member
        rcases List.mem_append.mp member with later | first
        · exact queued e later
        · exact ⟨event, List.mem_singleton.mp first⟩

/-- The vetted tool is the one the action names, and is on the belt. -/
def VettedFor (c : CognitiveCycle K (Deliberating K ω)) (action : Action K)
    (v : VettedAction K (Deliberating K ω)) : Prop :=
  action.tool = some v.tool.name ∧
    ∃ dispatch w, c.dispatch = some dispatch ∧ v.tool ∈ (dispatch.registry w).tools

omit [Field K] [LinearOrder K] in
/-- Queueing outcomes after a part of ACT that queued nothing. -/
theorem Unread.queues (unread : Unread r s t) (action : Action K) (events : List (DriveEvent K))
    (read : ∀ tool, action.tool = some tool → tool ∈ webReadTools →
      ∀ new versions, t.history = new ++ s.history →
        memoryVersions r t.world = versions ++ memoryVersions r s.world →
          ReadRemembered s.tick tool new versions) :
    ActsOn r action s (Prog.forEach events enqueueDriveEvent t).2 := by
  obtain ⟨tick, new, versions, history, grown, small⟩ := unread
  obtain ⟨newer, ran, queued⟩ := enqueueAll_history events t
  rw [ran]
  refine ⟨tick, newer ++ new, versions, ?_, grown, ?_, ?_⟩
  · rw [List.append_assoc, ← history]
  · intro e member
    rcases List.mem_append.mp member with later | earlier
    · obtain ⟨event, rfl⟩ := queued e later
      exact ⟨tick, rfl⟩
    · exact ⟨(small e earlier).1, (small e earlier).2.1⟩
  · intro tool named web e member event what
    have done := read tool named web new versions history grown
    simpa using done.grow newer [] [] []

/-- What a tool action has done once it is settled as a success. -/
theorem success_remembered (through : c.ReadsThrough d r)
    {dispatch : EffectorDispatch K (Deliberating K ω)} {v : VettedAction K (Deliberating K ω)}
    {tool : String} (named : v.tool.name = tool) (web : tool ∈ webReadTools)
    {outcome : DispatchOutcome K} {s₁ s₂ : Mind K (Deliberating K ω)}
    (unread : Unread r s s₁)
    (committed : dispatch.commit v s = (.ok outcome, s₁))
    (records : List (Entry K (Deliberating K ω)))
    (history : s₁.history = ⟨s.tick, .commitEnded (.ok outcome)⟩ ::
      (records ++ (startedBy v s.tick ++ s.history)))
    (settled : c.settledBy (some tool) outcome s₁ = (.ok true, s₂))
    {new : List (Entry K (Deliberating K ω))} {versions later : List (MemoryStore K)}
    (since : s₁.history = new ++ s.history)
    (grown : versions ++ memoryVersions r s.world = later ++ memoryVersions r s₂.world) :
    ReadRemembered s.tick tool new versions := by
  obtain ⟨ran, result, found, success, consolidated⟩ := settledBy_read web settled
  obtain ⟨url, title, text, base, written, extracted, read, wrote⟩ :=
    consolidateWebRead_written through consolidated
  obtain ⟨_, _, earlier, _, before, _⟩ := unread
  rw [ran_of_commit committed ran] at history
  have entries : new = ⟨s.tick, .commitEnded (.ok outcome)⟩ ::
      (records ++ [⟨s.tick, .ran v.tool v.validated⟩]) := by
    refine (List.append_left_inj s.history).mp ?_
    rw [← since, history]
    simp
  have visible : versions = later ++ written ++ earlier := by
    refine (List.append_left_inj (memoryVersions r s.world)).mp ?_
    rw [grown, wrote, before]
    simp only [List.append_assoc]
  refine ⟨v, result, url, named, ?_, ⟨outcome, ?_, ran, found⟩, success, ⟨title, text, extracted⟩,
    later, base, written, earlier, visible, read⟩
  · rw [entries]
    simp
  · rw [entries]
    exact List.mem_cons_self

theorem dispatchToolAction_acts (through : c.ReadsThrough d r)
    (planned : s.ctx.action = some action)
    (vetted : ∀ v, s.ctx.vetted = some v → VettedFor c action v) :
    ActsOn r action s (c.dispatchToolAction s).2 := by
  unfold dispatchToolAction
  rw [Prog.reads_bind]
  cases wired : c.dispatch with
  | none => exact (Unread.refl r s).actsOn action
  | some dispatch =>
      rw [Prog.onSome_some]
      cases known : s.ctx.vetted with
      | none => exact (Unread.refl r s).actsOn action
      | some v =>
          rw [Prog.onSome_some]
          cases s.ctx.goal with
          | none => exact (Unread.refl r s).actsOn action
          | some goal =>
              rw [Prog.onSome_some]
              obtain ⟨named, _, w, wired', belt⟩ := vetted v known
              obtain rfl := Option.some.inj (wired.symm.trans wired')
              obtain ⟨unread₁, records, history⟩ := commit_unread through wired ⟨w, belt⟩ s
              rcases committed : dispatch.commit v s with ⟨q, s₁⟩
              rw [committed] at unread₁ history
              cases q with
              | error e =>
                  rw [Prog.bind_of_error committed]
                  exact unread₁.actsOn action
              | ok outcome =>
                  rw [Prog.bind_of_ok committed, planned, Option.bind_some]
                  have light := (settledBy_light through.around action.tool outcome).keeps s₁
                  rcases asked : c.settledBy action.tool outcome s₁ with ⟨q, s₂⟩
                  rw [asked] at light
                  have unread₂ := unread₁.trans (unread_of_light light)
                  cases q with
                  | error e =>
                      rw [Prog.bind_of_error asked]
                      exact unread₂.actsOn action
                  | ok success =>
                      rw [Prog.bind_of_ok asked, through.deliberation]
                      change ActsOn r action s ((Mind.outside
                        (d.settleToolAction goal outcome.summary success) >>= fun events =>
                          Prog.forEach events enqueueDriveEvent) s₂).2
                      obtain ⟨later, grown, _⟩ := (Deliberation.settle_worldly through.actions goal
                        outcome.summary success).keeps (F := remembering r) (fun _ _ moved => moved)
                          s₂.world
                      rcases settled : d.settleToolAction goal outcome.summary success s₂.world with
                        ⟨q, x⟩
                      rw [settled] at grown
                      have unread₃ : Unread r s { s₂ with world := x } := unread₂.trans
                        ⟨rfl, [], later, rfl, grown, List.forall_mem_nil _⟩
                      cases q with
                      | error e =>
                          rw [Mind.outside_bind_error (e := e) (by rw [settled]), settled]
                          exact unread₃.actsOn action
                      | ok events =>
                          rw [Mind.outside_bind_ok (a := events) (by rw [settled]), settled]
                          cases success with
                          | false =>
                              have none : events = [] := by
                                obtain ⟨_, _, _, rest⟩ := Prog.ok_of_bind settled
                                obtain ⟨_, _, _, rest⟩ := Prog.ok_of_bind rest
                                exact (Except.ok.inj (congrArg Prod.fst rest)).symm
                              rw [none]
                              exact unread₃.actsOn action
                          | true =>
                              refine unread₃.queues action events ?_
                              intro tool named' web new versions since visible
                              rw [named'] at asked
                              have rest : s₂ = _ := light.rest
                              have same : s₂.history = s₁.history := by rw [rest]
                              have since₁ : s₁.history = new ++ s.history :=
                                same.symm.trans since
                              have beyond : versions ++ memoryVersions r s.world =
                                  later ++ memoryVersions r s₂.world := visible.symm.trans grown
                              exact success_remembered through
                                (Option.some.inj (named.symm.trans named')) web unread₁ committed
                                records history asked since₁ beyond

theorem actInternally_acts (through : c.ReadsThrough d r) (internal : action.tool = none)
    (goal : Goal K) : ActsOn r action s (c.actInternally action goal s).2 := by
  have none_web (new : List (Entry K (Deliberating K ω))) (versions : List (MemoryStore K))
      (tool : String) (named : action.tool = some tool) (web : tool ∈ webReadTools) :
      ∀ e ∈ new, ∀ event, e.what = .enqueued event →
        ReadRemembered s.tick tool new versions := by
    rw [internal] at named
    cases named
  unfold actInternally
  rw [through.deliberation, Prog.onSome_some, Prog.reads_bind, Mind.note_bind]
  change ActsOn r action s ((Mind.outside (d.act action goal s.ctx.contents) >>= _) _).2
  obtain ⟨versions, grown, _⟩ := (Deliberation.act_worldly through.actions action goal
    s.ctx.contents).keeps (F := remembering r) (fun _ _ moved => moved) s.world
  rcases called : d.act action goal s.ctx.contents s.world with ⟨q, w⟩
  rw [called] at grown
  cases q with
  | error e =>
      rw [Mind.outside_bind_error (e := e) (by rw [called]), called]
      refine ⟨rfl, [⟨s.tick, .acting action⟩], versions, rfl, grown, ?_, none_web _ _⟩
      intro e member
      rw [List.mem_singleton.mp member]
      exact ⟨rfl, rfl⟩
  | ok outcome =>
      rw [Mind.outside_bind_ok (a := outcome) (by rw [called]), called]
      -- what is left is quiet: the broadcast, and the outcome going into the queue
      have rest : QuietProg (remembering r) (c.dispatchAction
          [("action", .str action.kind), ("goal_id", jsonId goal.id),
            ("goal_source", .str goal.source), ("summary", .str outcome.summary),
            ("success", .bool outcome.success)] >>= fun _ =>
          Prog.forEach outcome.driveEvents enqueueDriveEvent) :=
        .bind (dispatchAction_light through.around _).quiet fun _ =>
          .forEach (fun _ => enqueueDriveEvent_quiet _) outcome.driveEvents
      have after := rest.keeps
        { s with world := w, history := ⟨s.tick, .acting action⟩ :: s.history }
      obtain ⟨beyond, further, _⟩ := after.world
      obtain ⟨new, history, small⟩ := after.history
      refine ⟨after.tick, new ++ [⟨s.tick, .acting action⟩], beyond ++ versions, ?_, ?_, ?_,
        none_web _ _⟩
      · rw [List.append_assoc]
        exact history
      · rw [List.append_assoc]
        exact further.trans (congrArg (beyond ++ ·) grown)
      · intro e member
        rcases List.mem_append.mp member with later | first
        · obtain ⟨tick, feedback⟩ := small e later
          refine ⟨tick, ?_⟩
          cases what : e.what <;> first | rfl | (rw [what] at feedback; cases feedback)
        · rw [List.mem_singleton.mp first]
          exact ⟨rfl, rfl⟩

/-- Whatever ACT does, the outcomes of a web read are queued only if it was remembered. -/
theorem act_acts (through : c.ReadsThrough d r)
    (vetted : ∀ v, s.ctx.vetted = some v → ∃ action, s.ctx.action = some action ∧
      VettedFor c action v) :
    Unread r s (c.act s).2 ∨ ∃ action, s.ctx.action = some action ∧ ActsOn r action s (c.act s).2 := by
  unfold act
  rw [Prog.reads_bind]
  cases agency : s.fullAgency with
  | false => exact .inl (Unread.refl r s)
  | true =>
      simp only [Prog.onlyIf, if_true]
      cases planned : s.ctx.action with
      | none => exact .inl (Unread.refl r s)
      | some action =>
          rw [Prog.onSome_some]
          cases s.ctx.goal with
          | none => exact .inl (Unread.refl r s)
          | some goal =>
              rw [Prog.onSome_some]
              refine .inr ⟨action, rfl, ?_⟩
              cases tool : action.isToolAction with
              | true =>
                  simp only [if_true]
                  refine dispatchToolAction_acts through planned fun v known => ?_
                  obtain ⟨other, same, for_it⟩ := vetted v known
                  obtain rfl := Option.some.inj (planned.symm.trans same)
                  exact for_it
              | false =>
                  simp only [Bool.false_eq_true, if_false]
                  exact actInternally_acts through (Option.isSome_eq_false_iff.mp tool |> Option.isNone_iff_eq_none.mp) goal

/-! ### The tick -/

/-- What was recorded, and what became visible in the memory, from `s` to `t`. -/
structure Since (r : WebReadConsolidator K ω) (s t : Mind K (Deliberating K ω))
    (new : List (Entry K (Deliberating K ω))) (versions : List (MemoryStore K)) : Prop where
  history : t.history = new ++ s.history
  memory : memoryVersions r t.world = versions ++ memoryVersions r s.world

/-- An action that names a web read queued nothing unless the read was remembered. -/
def Answers (new : List (Entry K ω)) (versions : List (MemoryStore K)) : Prop :=
  ∀ n time result action tool, ⟨n, .deliberated time result⟩ ∈ new →
    result.action = some action → action.tool = some tool → tool ∈ webReadTools →
      ∀ e ∈ new, ∀ event, e.what = .enqueued event → ReadRemembered e.tick tool new versions

/-- The tick from `s` has kept to that so far. -/
def Answered (r : WebReadConsolidator K ω) (s t : Mind K (Deliberating K ω)) : Prop :=
  ∃ new versions, Since r s t new versions ∧ Answers new versions

/-- Nothing was queued yet, and the deliberations of the tick, if any, came to the action
of the scratchpad. -/
def Pursues (r : WebReadConsolidator K ω) (s t : Mind K (Deliberating K ω)) : Prop :=
  ∃ new versions, Since r s t new versions ∧ ∀ e ∈ new, (∀ event, e.what ≠ .enqueued event) ∧
    ∀ time result, e.what = .deliberated time result → t.ctx.action = result.action

/-- Nor was anything deliberated or vetted. -/
def Undecided (r : WebReadConsolidator K ω) (s t : Mind K (Deliberating K ω)) : Prop :=
  t.ctx.vetted = none ∧ ∃ new versions, Since r s t new versions ∧
    ∀ e ∈ new, (∀ event, e.what ≠ .enqueued event) ∧ e.what.isDeliberated = false

/-- The verdict of the scratchpad, if any, is for its action. -/
def Judged (c : CognitiveCycle K (Deliberating K ω)) (s : Mind K (Deliberating K ω)) : Prop :=
  ∀ v, s.ctx.vetted = some v → ∃ action, s.ctx.action = some action ∧ VettedFor c action v

section course
variable {s₀ : Mind K (Deliberating K ω)} {new : List (Entry K (Deliberating K ω))}
  {versions : List (MemoryStore K)}

omit [Field K] [LinearOrder K] in
theorem Since.grow (since : Since r s₀ s new versions) (more : List (Entry K (Deliberating K ω)))
    (history : t.history = more ++ s.history) (moved : (remembering r).rel s.world t.world) :
    ∃ beyond, Since r s₀ t (more ++ new) (beyond ++ versions) := by
  obtain ⟨beyond, grown, _⟩ := moved
  refine ⟨beyond, ?_, ?_⟩
  · rw [history, since.history, List.append_assoc]
  · rw [List.append_assoc, ← since.memory]
    exact grown

omit [Field K] [LinearOrder K] in
theorem Since.light (since : Since r s₀ s new versions) (light : Light (remembering r) s t) :
    ∃ beyond, Since r s₀ t new (beyond ++ versions) := by
  have rest := light.rest
  exact since.grow [] (by rw [rest]; rfl) light.world

omit [Field K] [LinearOrder K] in
theorem Pursues.answered (pursues : Pursues r s₀ s) : Answered r s₀ s := by
  obtain ⟨new, versions, since, small⟩ := pursues
  refine ⟨new, versions, since, ?_⟩
  intro _ _ _ _ _ _ _ _ _ e member event queued
  exact absurd queued ((small e member).1 event)

omit [Field K] [LinearOrder K] in
theorem Undecided.pursues (undecided : Undecided r s₀ s) : Pursues r s₀ s := by
  obtain ⟨_, new, versions, since, small⟩ := undecided
  refine ⟨new, versions, since, fun e member => ⟨(small e member).1, ?_⟩⟩
  intro time result what
  have other := (small e member).2
  rw [what] at other
  cases other

omit [Field K] [LinearOrder K] in
theorem Answered.light (answered : Answered r s₀ s) (light : Light (remembering r) s t) :
    Answered r s₀ t := by
  obtain ⟨new, versions, since, answers⟩ := answered
  obtain ⟨beyond, since'⟩ := since.light light
  refine ⟨new, beyond ++ versions, since', ?_⟩
  intro n time result action tool deliberated planned named web e member event queued
  have read := answers n time result action tool deliberated planned named web e member event queued
  simpa using read.grow [] [] beyond []

omit [Field K] [LinearOrder K] in
theorem Pursues.grow (pursues : Pursues r s₀ s) (more : List (Entry K (Deliberating K ω)))
    (history : t.history = more ++ s.history) (moved : (remembering r).rel s.world t.world)
    (action : t.ctx.action = s.ctx.action)
    (other : ∀ e ∈ more, (∀ event, e.what ≠ .enqueued event) ∧ e.what.isDeliberated = false) :
    Pursues r s₀ t := by
  obtain ⟨new, versions, since, small⟩ := pursues
  obtain ⟨beyond, since'⟩ := since.grow more history moved
  refine ⟨more ++ new, beyond ++ versions, since', ?_⟩
  intro e member
  rw [action]
  rcases List.mem_append.mp member with later | earlier
  · refine ⟨(other e later).1, fun time result what => ?_⟩
    have plain := (other e later).2
    rw [what] at plain
    cases plain
  · exact small e earlier

omit [Field K] [LinearOrder K] in
theorem Pursues.light (pursues : Pursues r s₀ s) (light : Light (remembering r) s t) :
    Pursues r s₀ t := by
  have rest := light.rest
  exact pursues.grow [] (by rw [rest]; rfl) light.world light.action (List.forall_mem_nil _)

omit [Field K] [LinearOrder K] in
theorem Undecided.grow (undecided : Undecided r s₀ s)
    (more : List (Entry K (Deliberating K ω))) (history : t.history = more ++ s.history)
    (moved : (remembering r).rel s.world t.world) (vetted : t.ctx.vetted = s.ctx.vetted)
    (other : ∀ e ∈ more, (∀ event, e.what ≠ .enqueued event) ∧ e.what.isDeliberated = false) :
    Undecided r s₀ t := by
  obtain ⟨unvetted, new, versions, since, small⟩ := undecided
  obtain ⟨beyond, since'⟩ := since.grow more history moved
  refine ⟨vetted.trans unvetted, more ++ new, beyond ++ versions, since', ?_⟩
  intro e member
  rcases List.mem_append.mp member with later | earlier
  · exact other e later
  · exact small e earlier

omit [Field K] [LinearOrder K] in
theorem Undecided.light (undecided : Undecided r s₀ s) (light : Light (remembering r) s t) :
    Undecided r s₀ t := by
  have rest := light.rest
  exact undecided.grow [] (by rw [rest]; rfl) light.world light.vetted (List.forall_mem_nil _)

omit [Field K] [LinearOrder K] in
theorem Judged.light (judged : Judged c s) (light : Light (remembering r) s t) : Judged c t := by
  intro v known
  rw [light.action]
  exact judged v (light.vetted.symm.trans known)

omit [LinearOrder K] in
theorem Appraised.undecided {q : Except Failure Unit × Mind K (Deliberating K ω)}
    (ended : Appraised c (remembering r) s q) (around : c.Confined (remembering r))
    (undecided : Undecided r s₀ s) : Undecided r s₀ q.2 := by
  cases ended with
  | undriven _ after =>
      refine Undecided.light ?_ after
      exact undecided.grow [] rfl ((remembering r).refl _) rfl (List.forall_mem_nil _)
  | raised wired called =>
      have moved := around.drives _ wired (gathered s) s.world
      rw [called] at moved
      exact undecided.grow [] rfl moved rfl (List.forall_mem_nil _)
  | stepped wired called after =>
      have moved := around.drives _ wired (gathered s) s.world
      rw [called] at moved
      refine Undecided.light ?_ after
      refine undecided.grow [_] rfl moved rfl fun e member => ?_
      rw [List.mem_singleton.mp member]
      exact ⟨nofun, rfl⟩

omit [Field K] [LinearOrder K] in
theorem vetTrace_plain {dispatch : EffectorDispatch K (Deliberating K ω)} {n : ℕ}
    {proposal : ProposedAction K} {q : Except Failure (VettedAction K (Deliberating K ω))}
    (trace : VetTrace dispatch n proposal q new) :
    ∀ e ∈ new, (∀ event, e.what ≠ .enqueued event) ∧ e.what.isDeliberated = false := by
  intro e member
  cases trace <;> simp only [List.mem_cons, List.not_mem_nil, or_false] at member <;>
    rcases member with rfl | rfl | rfl | rfl <;> exact ⟨nofun, rfl⟩

theorem check_pursues (through : c.ReadsThrough d r) (pursues : Pursues r s₀ s)
    (unvetted : s.ctx.vetted = none) :
    Pursues r s₀ (c.check s).2 ∧ Judged c (c.check s).2 := by
  have ended := check_spec through.around.dispatch s
  generalize c.check s = q at ended ⊢
  cases ended with
  | idle _ =>
      refine ⟨pursues, fun v known => ?_⟩
      rw [unvetted] at known
      cases known
  | refused agency wired planned named moved trace vetted =>
      refine ⟨pursues.grow _ rfl moved rfl (vetTrace_plain trace), fun v known => ?_⟩
      rw [show s.ctx.vetted = some v from known] at unvetted
      cases unvetted
  | vetted agency wired planned named moved trace belt =>
      refine ⟨pursues.grow _ rfl moved rfl (vetTrace_plain trace), fun v known => ?_⟩
      obtain rfl := Option.some.inj known
      obtain ⟨w, onBelt⟩ := belt
      refine ⟨_, planned, ?_, _, w, wired, onBelt⟩
      cases trace with
      | judged tool args reply verdict called checked judged =>
          exact named.trans (congrArg some called.symm)

theorem deliberate_pursues [FloorRing K] (through : c.ReadsThrough d r)
    (undecided : Undecided r s₀ s) :
    Pursues r s₀ (c.deliberate s).2 ∧ (c.deliberate s).2.ctx.vetted = none := by
  have ended := deliberate_spec through.around s
  obtain ⟨entries, grown, other⟩ :=
    (c.deliberate_apart.keeps (F := Johnny.apart) (fun _ _ a => a) s).history
  have moves := (Deliberation.deliberate_worldly through.actions s.ctx.urges s.ctx.mood
    s.ctx.contents none).keeps (F := remembering r) (fun _ _ moved => moved) s.world
  generalize c.deliberate s = q at ended grown ⊢
  cases ended with
  | idle _ => exact ⟨undecided.pursues, undecided.1⟩
  | raised agency wired called =>
      obtain rfl := Option.some.inj (through.deliberation.symm.trans wired)
      rw [show d.deliberate s.ctx.urges s.ctx.mood s.ctx.contents none s.world = _ from called]
        at moves
      refine ⟨undecided.pursues.grow [_] rfl moves rfl fun e member => ?_, undecided.1⟩
      rw [List.mem_singleton.mp member]
      exact ⟨nofun, rfl⟩
  | @planned _ result _ _ _ agency wired called after =>
      obtain rfl := Option.some.inj (through.deliberation.symm.trans wired)
      rw [show d.deliberate s.ctx.urges s.ctx.mood s.ctx.contents none s.world = _ from called]
        at moves
      obtain ⟨unvetted, new, versions, since, small⟩ := undecided
      obtain ⟨told, history, feedback⟩ := after.history
      obtain ⟨beyond, since'⟩ := since.grow entries grown ((remembering r).trans moves after.world)
      refine ⟨⟨entries ++ new, beyond ++ versions, since', fun e member => ?_⟩,
        after.vetted.trans unvetted⟩
      rcases List.mem_append.mp member with later | earlier
      · refine ⟨fun event what => ?_, fun time answer what => ?_⟩
        · have quiet := (other e later).2
          rw [what] at quiet
          cases quiet
        · -- the one deliberation of the stage is the one that set the action
          have same : entries = told ++
              [⟨s.tick, .deliberated (c.clock s.world) result⟩, ⟨s.tick, .deliberating⟩] := by
            refine (List.append_left_inj s.history).mp ?_
            rw [← grown, List.append_assoc]
            exact history
          rw [same] at later
          rcases List.mem_append.mp later with quiet | started
          · have feeds := (feedback e quiet).2
            rw [what] at feeds
            cases feeds
          · rcases List.mem_cons.mp started with rfl | started
            · obtain ⟨_, rfl⟩ := Happening.deliberated.inj what
              exact after.action
            · rw [List.mem_singleton.mp started] at what
              cases what
      · refine ⟨(small e earlier).1, fun time result what => ?_⟩
        have plain := (small e earlier).2
        rw [what] at plain
        cases plain

omit [Field K] [LinearOrder K] in
theorem Pursues.acted (pursues : Pursues r s₀ s) (planned : s.ctx.action = some action)
    (acts : ActsOn r action s t) : Answered r s₀ t := by
  obtain ⟨new, versions, since, small⟩ := pursues
  obtain ⟨_, newer, beyond, history, grown, now, read⟩ := acts
  refine ⟨newer ++ new, beyond ++ versions, ⟨?_, ?_⟩, ?_⟩
  · rw [history, since.history, List.append_assoc]
  · rw [grown, since.memory, List.append_assoc]
  · intro n time result other tool deliberated asked named web e member event queued
    rcases List.mem_append.mp deliberated with late | early
    · cases (now _ late).2
    · have same : s.ctx.action = result.action := (small _ early).2 time result rfl
      obtain rfl := Option.some.inj (planned.symm.trans (same.trans asked))
      rcases List.mem_append.mp member with later | earlier
      · rw [(now e later).1]
        exact (read tool named web e later event queued).grow [] new [] versions
      · exact absurd queued ((small e earlier).1 event)

theorem act_answered (through : c.ReadsThrough d r) (pursues : Pursues r s₀ s)
    (judged : Judged c s) : Answered r s₀ (c.act s).2 := by
  rcases act_acts through judged with unread | ⟨action, planned, acts⟩
  · cases planned : s.ctx.action with
    | some action => exact pursues.acted planned (unread.actsOn action)
    | none =>
        obtain ⟨_, newer, beyond, history, grown, plain⟩ := unread
        obtain ⟨new, versions, since, small⟩ := pursues
        refine ⟨newer ++ new, beyond ++ versions, ⟨?_, ?_⟩, ?_⟩
        · rw [history, since.history, List.append_assoc]
        · rw [grown, since.memory, List.append_assoc]
        · intro _ _ _ _ _ _ _ _ _ e member event queued
          rcases List.mem_append.mp member with later | earlier
          · exact absurd queued ((plain e later).2.2 event)
          · exact absurd queued ((small e earlier).1 event)
  · exact pursues.acted planned acts

end course

variable [FloorRing K]

theorem reading_course (through : c.ReadsThrough d r) (s₀ : Mind K (Deliberating K ω)) :
    TickCourse c (remembering r) (fun s => s = s₀) (Undecided r s₀) (Undecided r s₀)
      (fun s => Pursues r s₀ s ∧ s.ctx.vetted = none) (fun s => Pursues r s₀ s ∧ Judged c s)
      (Answered r s₀) (Answered r s₀) where
  awakened := by
    refine awakening_triple through.around ?_ (fun _ _ light undecided => undecided.light light)
      fun _ undecided => undecided.pursues.answered
    rintro s rfl
    refine ⟨rfl, [_], [], ⟨rfl, rfl⟩, fun e member => ?_⟩
    rw [List.mem_singleton.mp member]
    exact ⟨nofun, rfl⟩
  appraised s undecided := by
    have after := (appraise_spec through.around s).undecided through.around undecided
    exact ⟨fun _ => after, after.pursues.answered⟩
  deliberated s undecided := by
    have after := deliberate_pursues through undecided
    exact ⟨fun _ => after, after.1.answered⟩
  checked s pre := by
    have after := check_pursues through pre.1 pre.2
    exact ⟨fun _ => after, after.1.answered⟩
  acted s pre := by
    have after := act_answered through pre.1 pre.2
    exact ⟨fun _ => after, after⟩
  stable₁ _ _ light undecided := undecided.light light
  stable₂ _ _ light pre := ⟨pre.1.light light, light.vetted.trans pre.2⟩
  stable₃ _ _ light pre := ⟨pre.1.light light, pre.2.light light⟩
  stable _ _ light answered := answered.light light
  tiring _ _ answered := by
    obtain ⟨new, versions, since, answers⟩ := answered
    exact ⟨new, versions, ⟨since.history, since.memory⟩, answers⟩
  weaken₁ _ undecided := undecided.pursues.answered
  weaken _ answered := answered

/-- However a tick goes, and whatever fails in it: where its action names a web read, an
outcome is queued only if the tool ran with success in that tick, the read became an
episode with its URL, and a fact was written with that episode as its source. -/
theorem tick_reads_remembered (c : CognitiveCycle K (Deliberating K ω)) (d : Deliberation K ω)
    (r : WebReadConsolidator K ω) (through : c.ReadsThrough d r)
    (s : Mind K (Deliberating K ω)) : Answered r s (c.tick s).2 := by
  have ended := course_triple through.around (reading_course through s)
  rcases ran : c.tick s with ⟨q, t⟩
  cases q with
  | ok report => exact ended.of_ok rfl ran
  | error e => exact (ended.of_error rfl ran).2

end CognitiveCycle

/-! ### A headline that was read and remembered -/

namespace NewsRead
open CognitiveCycle

abbrev World := Database Failure (MemoryStore ℚ) Unit

def consolidator : WebReadConsolidator ℚ World where
  memory :=
    { db := .whole, meanwhile := id, apart := fun _ => rfl
      nowFn := fun _ => 0, embedOne := fun _ => pure [1] }
  router := none
  prompt := ""
  parseConsolidation _ := .error (.exception (.other "ValueError") "no summary")
  maxTokens := 1
  salience := 1 / 2

def news : Tool ℚ (Deliberating ℚ World) where
  name := "news"
  danger := .network
  validateArgs args := .ok args
  run _ := pure ⟨true, [("results", .arr [.obj [("url", .str "https://news.example/octopus"),
    ("title", .str "How octopuses dream"), ("snippet", .str "They change colour.")]])], "1 headline"⟩

def dispatch : EffectorDispatch ℚ (Deliberating ℚ World) where
  registry _ := ⟨[news], List.nodup_singleton _⟩
  conscience := ⟨"", fun _ => "\x7b\x7d", fun _ => .ok ⟨.allow, ""⟩, fun _ _ => pure ⟨""⟩⟩
  audit _ := pure ()
  broadcast _ := pure ()

def deliberation : Deliberation ℚ World where
  arbitrate _ _ _ := pure (some
    { id := some 1, source := "curiosity", description := "learn something new", priority := 1 })
  router := none
  resolve _ _ := pure ()
  recallEpisodes _ _ := pure []
  writeEpisode _ := pure ()
  clock _ := 0
  toolActions := defaultToolActions
  maxTokens := 1
  recallK := 1
  minInterval := 0
  codeMaxTokens := 1
  codeMaxChars := 1

def cycle : CognitiveCycle ℚ (Deliberating ℚ World) where
  broadcast _ := pure ()
  setContents _ := pure ()
  clock _ := 0
  sleepFn _ := pure ()
  deliberation := some deliberation.stage
  dispatch := some dispatch
  webConsolidator := some fun tool output => Deliberation.outside (consolidator.remembers tool output)
  interval := 1
  minInterval := 1
  maxInterval := 1
  arousalSpeedup := 0
  tiredSlowdown := 0
  attentionDriveWeight := 0
  capacity := 7

def start : Mind ℚ (Deliberating ℚ World) :=
  cycle.fresh { world := ⟨{}, (), [], []⟩ }

theorem memory_apart : consolidator.MemoryApart := ⟨fun _ _ => rfl, nofun⟩

theorem reads_through : cycle.ReadsThrough deliberation consolidator where
  deliberation := rfl
  webConsolidator := rfl
  apart := memory_apart
  around := by
    have still (w : Deliberating ℚ World) : (remembering consolidator).rel w w :=
      (remembering consolidator).refl w
    refine ⟨fun _ => still, fun _ => still, fun _ => still, nofun, nofun, nofun, nofun, nofun,
      nofun, nofun, nofun, nofun, ?_, ?_, nofun⟩
    · rintro consolidate ⟨⟩ tool output
      exact (Deliberation.outside_worldly ((remembers_visible memory_apart tool output).keeps
        fun _ _ moved => moved)).keeps fun _ _ moved => moved
    · rintro d ⟨⟩
      refine ⟨fun _ _ => still, fun _ => still, fun _ => still, ?_⟩
      intro w tool member args
      rw [List.mem_singleton.mp member]
      exact still
  actions :=
    have still (w : World) : (visible consolidator).rel w w := (visible consolidator).refl w
    ⟨⟨nofun, fun _ _ => still, fun _ => still⟩, fun _ _ _ => still, fun _ _ => still⟩

end NewsRead

open NewsRead CognitiveCycle in
theorem read_headline_eases :
    Answered consolidator start (cycle.tick start).2 ∧
      (cycle.tick start).2.pendingEvents = [⟨.learning, 1⟩] ∧
      (memoryVersions consolidator (cycle.tick start).2.world).length = 2 := by
  refine ⟨tick_reads_remembered cycle deliberation consolidator reads_through start, ?_, ?_⟩
  · decide +kernel
  · decide +kernel

end Johnny
