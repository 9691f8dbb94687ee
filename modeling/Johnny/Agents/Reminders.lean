import Johnny.Agents.Remembering

/-!
# Whose words an input carries

A fired wakeup is drained like a message and becomes an item of the same kind. APPRAISE
and LEARN go by the kind alone, so both take a wakeup that was perceived for Dan. In a run
in which none is perceived, whatever they take for Dan was pushed by an interface.
-/
namespace Johnny
variable {K ω : Type}

def Said (log : List (Noted K)) (text : String) : Prop :=
  ∃ place input, Noted.pushed place input ∈ log ∧ input.source ≠ wakeupSource ∧
    strip input.raw = text

/-- The item is that of an input which was pushed. -/
def OfPush (log : List (Noted K)) (item : WorkspaceItem K) : Prop :=
  ∃ place input, Noted.pushed place input ∈ log ∧ item.content = strip input.raw ∧
    item.source = input.source

theorem Said.grow {log : List (Noted K)} {text : String} (said : Said log text) (new : Noted K) :
    Said (new :: log) text := by
  obtain ⟨place, input, pushed, which⟩ := said
  exact ⟨place, input, List.mem_cons_of_mem new pushed, which⟩

namespace Recollection
variable {r : Recollection K ω}

/-- What an entry of the queue reads back as is what was pushed. -/
def ReadsBack (r : Recollection K ω) : Prop :=
  ∀ input, r.sensorium.validateJson (r.scheduler.queue.dumpJson input) = .ok input

/-- Working memory holds no input that nobody said. -/
def holds (r : Recollection K ω) (log : List (Noted K)) (w : ω) : Prop :=
  r.workingMemory.Holds (fun kind content => kind = "input" → Said log content) w

/-- What is held stays within any bound that it was within. -/
def holding (r : Recollection K ω) : Frame ω where
  rel w w' := ∀ P, r.workingMemory.Holds P w → r.workingMemory.Holds P w'
  refl _ _ := id
  trans ab bc P held := bc P (ab P held)

/-- What is queued was pushed, and what is held or was written was said. -/
structure Attributed (r : Recollection K ω) (e : Experience K ω) : Prop where
  queued : ∀ entry ∈ e.senses.queue.placed, ∃ input,
    entry.1 = r.scheduler.queue.dumpJson input ∧ Noted.pushed entry.2 input ∈ e.noted
  held : r.holds e.noted e.world
  wrote : ∀ w ∈ written e.noted, ∀ text ∈ w.2, Said e.noted text

/-- The inputs among these items were said. -/
def Spoken (log : List (Noted K)) (items : List (WorkspaceItem K)) : Prop :=
  ∀ item ∈ items, item.kind = .input → Said log item.content

/-- Before APPRAISE: the inputs among the percepts were pushed. -/
structure Perceiving (r : Recollection K ω) (s : Mind K (Experience K ω)) : Prop where
  attributed : r.Attributed s.world
  percepts : ∀ item ∈ s.ctx.percepts, item.kind.label = "input" →
    item.kind = .input ∧ OfPush s.world.noted item
  contents : s.ctx.contents = []

/-- From APPRAISE on, where no wakeup was perceived: they were said. -/
structure Hearing (r : Recollection K ω) (s : Mind K (Experience K ω)) : Prop where
  attributed : r.Attributed s.world
  percepts : ∀ item ∈ s.ctx.percepts, item.kind.label = "input" →
    Said s.world.noted item.content
  contents : Spoken s.world.noted s.ctx.contents

/-- No percept of the tick is a fired wakeup. -/
def Unreminded (s : Mind K (Experience K ω)) : Prop :=
  ∀ item ∈ s.ctx.percepts, item.kind = .input → item.source ≠ wakeupSource

/-! ### What keeps the attribution -/

section moves
variable {e f : Experience K ω} {s t : Mind K (Experience K ω)}

theorem Attributed.unnoticed (attributed : r.Attributed e)
    (moved : Unnoticed r.holding e f) : r.Attributed f := by
  refine ⟨?_, ?_, ?_⟩
  · rw [moved.queue, moved.noted]
    exact attributed.queued
  · rw [moved.noted]
    exact moved.world _ attributed.held
  · rw [moved.noted]
    exact attributed.wrote

theorem Attributed.note (attributed : r.Attributed e) (new : Noted K)
    (unwritten : written (new :: e.noted) = written e.noted) :
    r.Attributed { e with noted := new :: e.noted } := by
  refine ⟨?_, ?_, ?_⟩
  · intro entry waiting
    obtain ⟨input, same, pushed⟩ := attributed.queued entry waiting
    exact ⟨input, same, List.mem_cons_of_mem new pushed⟩
  · intro item member kind
    exact (attributed.held item member kind).grow new
  · intro w member text said
    rw [unwritten] at member
    exact (attributed.wrote w member text said).grow new

theorem Perceiving.focused (perceiving : r.Perceiving s)
    (moved : Focused (Johnny.unnoticed r.holding) s t) : r.Perceiving t := by
  refine ⟨perceiving.attributed.unnoticed moved.world, ?_, moved.contents.trans perceiving.contents⟩
  rw [moved.percepts, moved.world.noted]
  exact perceiving.percepts

theorem Hearing.focused (hearing : r.Hearing s)
    (moved : Focused (Johnny.unnoticed r.holding) s t) : r.Hearing t := by
  refine ⟨hearing.attributed.unnoticed moved.world, ?_, ?_⟩
  · rw [moved.percepts, moved.world.noted]
    exact hearing.percepts
  · rw [moved.contents, moved.world.noted]
    exact hearing.contents

/-- Where no wakeup was perceived, every input was pushed by an interface. -/
theorem Perceiving.hearing (perceiving : r.Perceiving s) (unreminded : Unreminded s) :
    r.Hearing s := by
  refine ⟨perceiving.attributed, ?_, ?_⟩
  · intro item member label
    obtain ⟨kind, place, input, pushed, content, source⟩ := perceiving.percepts item member label
    refine ⟨place, input, pushed, ?_, content.symm⟩
    rw [← source]
    exact unreminded item member kind
  · unfold Spoken
    rw [perceiving.contents]
    exact List.forall_mem_nil _

theorem enqueue_attributed (attributed : r.Attributed e) (input : RawInput) :
    r.Attributed (r.scheduler.queue.enqueue input e) := by
  have kept := attributed.note (.pushed
    (e.senses.queue.popped + e.senses.queue.waiting.length) input) rfl
  refine ⟨?_, kept.held, kept.wrote⟩
  intro entry waiting
  rw [show (r.scheduler.queue.enqueue input e).senses.queue =
    e.senses.queue.push (r.scheduler.queue.dumpJson input) from rfl, Fifo.push_placed] at waiting
  rcases List.mem_append.mp waiting with old | new
  · exact kept.queued entry old
  · rw [List.mem_singleton.mp new]
    exact ⟨input, rfl, List.mem_cons_self⟩

theorem push_attributed (keeps : r.StoresKeep r.holding) (raw source : String) :
    Prog.Maintains r.Attributed (r.scheduler.queue.push raw source) fun _ => True := by
  apply Prog.Maintains.bind (Prog.Maintains.of_keeps (F := Johnny.unnoticed r.holding)
    (Experience.outside_unnoticed fun w => keeps.queue w)
    fun _ _ attributed moved => attributed.unnoticed moved)
  intro ending _
  apply Prog.Maintains.bind (Q := fun _ => True)
  · apply Prog.Maintains.onlyIf
    intro _
    exact .modify fun e attributed => enqueue_attributed attributed _
  · intro _ _
    exact .reraise ending.answer

theorem fireDue_attributed [LinearOrder K] (keeps : r.StoresKeep r.holding)
    (attributed : r.Attributed e) : r.Attributed (r.scheduler.fireDue e).2 := by
  have moves : Prog.Maintains r.Attributed r.scheduler.fireDue fun _ => True := by
    apply Prog.Maintains.bind (.reads (Q := fun _ => True) fun _ _ => trivial)
    intro now _
    apply Prog.Maintains.bind (Prog.Maintains.of_keeps
      (Experience.outside_unnoticed (keeps.wakeups _ _))
      fun _ _ attributed moved => attributed.unnoticed moved)
    intro fired _
    apply Prog.Maintains.bind (Prog.Maintains.forEach fired fun wakeup _ =>
      (push_attributed keeps _ _).outcome.bind fun answer _ => Prog.Maintains.bind
        (.modify fun e attributed => attributed.note (.injected wakeup.id answer) rfl)
        fun _ _ => .reraise answer)
    intro _ _
    exact .pure trivial
  exact (moves e attributed).1

end moves

/-! ### The agents of a tick -/

section agents
variable [Field K] [LinearOrder K] [FloorRing K] {c : CognitiveCycle K (Experience K ω)}
  {e : Experience K ω}

theorem perceive_attributed (keeps : r.StoresKeep r.holding) (reads : r.ReadsBack)
    (attributed : r.Attributed e) :
    r.Attributed (r.perceive e).2 ∧ ∀ items, (r.perceive e).1 = .ok items →
      ∀ item ∈ items, item.kind.label = "input" →
        item.kind = .input ∧ OfPush (r.perceive e).2.noted item := by
  obtain ⟨moved, queue, ticks, ended⟩ := perceive_noted keeps e
  have waiting : ∀ entry ∈ (e.senses.queue.rest maxDrainPerTick).placed,
      entry ∈ e.senses.queue.placed := by
    intro entry left
    rw [← Fifo.batch_append_rest maxDrainPerTick]
    exact List.mem_append_right _ left
  rcases ended with ⟨failure, raised, noted⟩ | ⟨sensed, returned, items, noted⟩
  · refine ⟨⟨?_, ?_, ?_⟩, fun items same => ?_⟩
    · rw [queue, noted]
      exact fun entry left => attributed.queued entry (waiting entry left)
    · rw [noted]
      exact moved _ attributed.held
    · rw [noted]
      exact attributed.wrote
    · rw [raised] at same
      cases same
  · have kept := attributed.note (.perceived (e.senses.ticks + 1)
      (sensed.filter fun x => x.place.isSome)) rfl
    refine ⟨⟨?_, ?_, ?_⟩, fun items' same item member label => ?_⟩
    · rw [queue, noted]
      exact fun entry left => kept.queued entry (waiting entry left)
    · rw [noted]
      exact moved _ kept.held
    · rw [noted]
      exact kept.wrote
    · rw [items] at same
      cases same
      obtain ⟨x, among, rfl⟩ := List.mem_map.mp member
      rcases Sensorium.mem_perceive returned among with ⟨w, rfl⟩ | ⟨entry, popped, raw, parsed, rfl⟩
      · have ambient : "ambient" ≠ "input" := by decide
        exact absurd label ambient
      · have queued : entry ∈ e.senses.queue.placed := by
          rw [← Fifo.batch_append_rest maxDrainPerTick]
          exact List.mem_append_left _ popped
        obtain ⟨input, text, pushed⟩ := kept.queued entry queued
        rw [text, reads] at parsed
        cases parsed
        rw [noted]
        exact ⟨rfl, entry.2, _, pushed, rfl, rfl⟩

omit [LinearOrder K] [FloorRing K] in
theorem learn_attributed (keeps : r.StoresKeep r.holding) (attributed : r.Attributed e)
    {contents : List (WorkspaceItem K)} (spoken : Spoken e.noted contents)
    (thought : Option String) : r.Attributed (r.learner.learn contents thought e).2 := by
  obtain ⟨moved, queue, -, ended⟩ := learn_noted keeps contents thought e
  have held := moved _ attributed.held
  rcases ended with same | ⟨-, noted⟩
  · refine ⟨?_, ?_, ?_⟩
    · rw [queue, same]
      exact attributed.queued
    · rw [same]
      exact held
    · rw [same]
      exact attributed.wrote
  · refine ⟨?_, ?_, ?_⟩
    · rw [queue, noted]
      intro entry waiting
      obtain ⟨input, text, pushed⟩ := attributed.queued entry waiting
      exact ⟨input, text, List.mem_cons_of_mem _ pushed⟩
    · rw [noted]
      exact fun item member kind => (held item member kind).grow _
    · rw [noted]
      intro w member text said
      rcases List.mem_cons.mp member with rfl | old
      · obtain ⟨item, among, rfl⟩ := List.mem_map.mp said
        obtain ⟨inside, kind⟩ := List.mem_filter.mp among
        exact (spoken item inside (eq_of_beq kind)).grow _
      · exact (attributed.wrote w old text said).grow _

omit [LinearOrder K] [Field K] [FloorRing K] in
theorem memory_triple {α : Type} {p : Prog Failure ω α} {Q : List (Noted K) → α → Prop}
    {percepts : List (WorkspaceItem K)}
    (kept : ∀ s, r.Hearing s → s.ctx.percepts = percepts →
      Prog.Maintains (r.holds s.world.noted) p (Q s.world.noted)) :
    Prog.Triple (fun s => r.Hearing s ∧ s.ctx.percepts = percepts)
      (Mind.outside (Experience.outside p))
      (fun a s => (r.Hearing s ∧ s.ctx.percepts = percepts) ∧ Q s.world.noted a)
      fun _ => r.Hearing := by
  have still (s : Mind K (Experience K ω)) (hearing : r.Hearing s)
      (same : s.ctx.percepts = percepts) :
      r.Hearing (Mind.outside (Experience.outside p) s).2 := by
    have held := (kept s hearing same s.world.world hearing.attributed.held).1
    exact ⟨⟨hearing.attributed.queued, held, hearing.attributed.wrote⟩, hearing.percepts,
      hearing.contents⟩
  refine .intro (fun s a t pre ran => ?_) (fun s e t pre ran => ?_)
  · have after := still s pre.1 pre.2
    have told := (kept s pre.1 pre.2 s.world.world pre.1.attributed.held).2 a
      (congrArg Prod.fst ran)
    rw [← show (Mind.outside (Experience.outside p) s).2 = t from congrArg Prod.snd ran]
    exact ⟨⟨after, pre.2⟩, told⟩
  · have after := still s pre.1 pre.2
    rw [ran] at after
    exact after

/-- What working memory returns of inputs was said, as what it was given was. -/
theorem refresh_hearing (percepts : List (WorkspaceItem K)) :
    Prog.Triple (fun s => r.Hearing s ∧ s.ctx.percepts = percepts)
      ((r.wire c).refreshWorkingMemory percepts)
      (fun working s => r.Hearing s ∧ Spoken s.world.noted working ∧ s.ctx.percepts = percepts)
      fun _ => r.Hearing := by
  have put (item : WorkspaceItem K) (member : item ∈ percepts) :
      Prog.Triple (fun s => r.Hearing s ∧ s.ctx.percepts = percepts)
        (Mind.outside (Experience.outside
          (r.workingMemory.stage.put item.content item.kind item.salience)))
        (fun _ s => r.Hearing s ∧ s.ctx.percepts = percepts) fun _ => r.Hearing := by
    refine (memory_triple (Q := fun _ _ => True) fun s hearing same => ?_).mono
      (fun _ pre => pre) (fun _ _ post => post.1) fun _ _ raised => raised
    refine Prog.Maintains.bind (WorkingMemory.put_maintains fun label => ?_) fun _ _ =>
      .pure trivial
    exact hearing.percepts item (by rwa [same]) label
  have decay : Prog.Triple (fun s => r.Hearing s ∧ s.ctx.percepts = percepts)
      (Mind.outside (Experience.outside r.workingMemory.stage.decay))
      (fun _ s => r.Hearing s ∧ s.ctx.percepts = percepts) fun _ => r.Hearing := by
    refine (memory_triple (Q := fun _ _ => True) fun s hearing same => ?_).mono
      (fun _ pre => pre) (fun _ _ post => post.1) fun _ _ raised => raised
    exact WorkingMemory.decay_maintains.bind fun _ _ => .pure trivial
  have contents : Prog.Triple (fun s => r.Hearing s ∧ s.ctx.percepts = percepts)
      (Mind.outside (Experience.outside r.workingMemory.stage.contents))
      (fun items s => (r.Hearing s ∧ s.ctx.percepts = percepts) ∧ Spoken s.world.noted items)
      fun _ => r.Hearing := by
    refine memory_triple fun s hearing same => ?_
    refine WorkingMemory.contents_maintains.bind fun items fits => .pure ?_
    intro item member kind
    obtain ⟨held, among, rfl⟩ := List.mem_map.mp member
    exact fits held among (ItemKind.ofLabel_eq_input.mp kind)
  have steps : (r.wire c).refreshWorkingMemory percepts =
      Prog.forEach percepts (fun p => Mind.outside (Experience.outside
        (r.workingMemory.stage.put p.content p.kind p.salience))) >>= fun _ =>
      Mind.outside (Experience.outside r.workingMemory.stage.decay) >>= fun _ =>
      Mind.outside (Experience.outside r.workingMemory.stage.contents) := rfl
  rw [steps]
  refine .bind (.forEach percepts put) fun _ => .bind decay fun _ => contents.mono
    (fun _ pre => pre) (fun _ _ post => ⟨post.1.1, post.2, post.1.2⟩) fun _ _ raised => raised

theorem attend_hearing (h : c.Bystanders (unnoticed r.holding)) (s : Mind K (Experience K ω))
    (pre : r.Hearing s) : r.Hearing ((r.wire c).attend s).2 := by
  refine CognitiveCycle.attend_ended (wire_bystanders h) (P := r.Hearing)
    (Q := fun working s => Spoken s.world.noted working)
    (R := fun items s => Spoken s.world.noted items)
    (fun s t moved pre => pre.focused moved) refresh_hearing ?_ ?_ s pre
  · rintro working percepts s ⟨hearing, remembered, rfl⟩
    have admits : Spoken s.world.noted
        (r.attention.admitted s.world.attention working s.ctx.percepts) := by
      intro item member kind
      obtain ⟨candidate, among, same, content⟩ := Attention.mem_admitted member
      rw [content]
      rw [same] at kind
      rcases List.mem_append.mp among with percept | working
      · exact hearing.percepts candidate percept (congrArg ItemKind.label kind)
      · exact remembered candidate working kind
    have noted := hearing.attributed.note (.admitted s.world.senses.ticks
      (r.attention.admitted s.world.attention working s.ctx.percepts)) rfl
    refine ⟨⟨⟨noted.queued, noted.held, noted.wrote⟩, ?_, ?_⟩, ?_⟩
    · exact fun item member label => (hearing.percepts item member label).grow _
    · exact fun item member kind => (hearing.contents item member kind).grow _
    · exact fun item member kind => (admits item member kind).grow _
  · intro items s pre spoken
    exact ⟨pre.attributed, pre.percepts,
      fun item member => spoken item (List.mem_of_mem_take member)⟩

theorem reminders_outline (h : c.Bystanders (unnoticed r.holding))
    (keeps : r.StoresKeep r.holding) (reads : r.ReadsBack) :
    CognitiveCycle.TickOutline (r.wire c) (unnoticed r.holding)
      (fun s => r.Attributed s.world) Unreminded
      (fun s => r.Attributed s.world ∧ s.ctx.percepts = [] ∧ s.ctx.contents = [])
      r.Perceiving r.Hearing where
  begun _ attributed := ⟨attributed, rfl, rfl⟩
  perceived s pre := by
    obtain ⟨attributed, percepts, contents⟩ := pre
    obtain ⟨after, inputs⟩ := perceive_attributed keeps reads attributed
    rcases CognitiveCycle.perceive_ended (wire_bystanders h) (p := r.perceive) rfl s with
      ⟨-, ended⟩ | ⟨items, returned, moved⟩
    · rw [ended]
      refine ⟨after, ?_, contents⟩
      dsimp only
      rw [percepts]
      exact List.forall_mem_nil _
    · have perceiving : r.Perceiving { s with
          world := (r.perceive s.world).2, ctx := { s.ctx with percepts := items } } :=
        ⟨after, inputs items returned, contents⟩
      exact perceiving.focused moved
  foreseen _ perceiving unreminded := perceiving.hearing unreminded
  attended := attend_hearing h
  recalled s pre := by
    refine recallStage_keeps h keeps (P := r.Hearing) (fun s t moved pre => pre.focused moved)
      ?_ s pre
    intro s contents pre fewer
    exact ⟨pre.attributed, pre.percepts,
      fun item member kind => pre.contents item (fewer item member kind) kind⟩
  learned s pre := by
    rw [CognitiveCycle.learn_ended (c := r.wire c) rfl s]
    exact learn_attributed keeps pre.attributed pre.contents s.ctx.thought
  stable₀ _ _ moved pre := ⟨pre.1.unnoticed moved.world, moved.percepts.trans pre.2.1,
    moved.contents.trans pre.2.2⟩
  stable₁ _ _ moved pre := pre.focused moved
  stable₂ _ _ moved pre := pre.focused moved
  stable _ _ moved attributed := attributed.unnoticed moved.world
  weaken₀ _ pre := pre.1
  weaken₁ _ pre := pre.attributed
  weaken₂ _ pre := pre.attributed

/-! ### Whole runs -/

/-- The percepts for which APPRAISE raises an interaction. -/
def raisedFor (s : Mind K (Experience K ω)) : List (WorkspaceItem K) :=
  s.ctx.percepts.filter fun item => item.kind == .input

omit [LinearOrder K] [FloorRing K] in
theorem gathered_raised (s : Mind K (Experience K ω)) : CognitiveCycle.gathered s =
    s.pendingEvents ++ (raisedFor s).map fun _ => ⟨.interaction, 1⟩ := by
  unfold CognitiveCycle.gathered raisedFor
  rw [List.map_const', List.countP_eq_length_filter]

/-- The item is that of an input which an interface pushed. -/
def ByInterface (log : List (Noted K)) (item : WorkspaceItem K) : Prop :=
  ∃ place input, Noted.pushed place input ∈ log ∧ input.source ≠ wakeupSource ∧
    item.content = strip input.raw ∧ item.source = input.source

/-- Before each APPRAISE of the run, this holds. -/
def AtAppraise (c : CognitiveCycle K ω) (turns : List (CognitiveCycle.Turn K ω)) (s : Mind K ω)
    (C : Mind K ω → Prop) : Prop :=
  ∀ before after t, turns = before ++ .beat :: after → c.run before s = (.ok (), t) →
    CognitiveCycle.Foreseen c C t

/-- In no tick is an interaction raised, or a text written down as said by Dan, but for an
input that an interface pushed. -/
structure NeverMistaken (c : CognitiveCycle K (Experience K ω))
    (turns : List (CognitiveCycle.Turn K (Experience K ω))) (start : Mind K (Experience K ω)) :
    Prop where
  interactions : AtAppraise c turns start fun s =>
    CognitiveCycle.gathered s =
        s.pendingEvents ++ (raisedFor s).map (fun _ => ⟨.interaction, 1⟩) ∧
      ∀ item ∈ raisedFor s, ByInterface s.world.noted item
  episodes : ∀ w ∈ written (c.run turns start).2.world.noted, ∀ text ∈ w.2,
    Said (c.run turns start).2.world.noted text

theorem run_attributed (h : c.Bystanders (unnoticed r.holding))
    (keeps : r.StoresKeep r.holding) (reads : r.ReadsBack)
    (turns : List (CognitiveCycle.Turn K (Experience K ω)))
    (visits : ∀ change, .elsewhere change ∈ turns →
      r.Visit r.holding (fun source => source ≠ wakeupSource) change)
    {s : Mind K (Experience K ω)} (start : r.Attributed s.world)
    (unreminded : AtAppraise (r.wire c) turns s Unreminded) :
    r.Attributed ((r.wire c).run turns s).2.world := by
  refine CognitiveCycle.run_outline (wire_bystanders h) (J := r.Attributed)
    (reminders_outline h keeps reads) ?_ ?_ start unreminded
  · intro fire wired e attributed
    obtain rfl := Option.some.inj wired
    rw [Prog.bind_pure_apply]
    exact fireDue_attributed keeps attributed
  · intro change turn e attributed
    rcases visits change turn with ⟨raw, source, -, pushed⟩ | moved
    · rw [pushed e]
      exact (push_attributed keeps raw source e attributed).1
    · exact attributed.unnoticed (moved e)

/-- From a start with nothing queued and no input in working memory, a run never mistakes
Johnny's reminders for Dan exactly where none of its ticks perceives a fired wakeup. -/
theorem run_never_mistaken_iff (r : Recollection K ω) (c : CognitiveCycle K (Experience K ω))
    (h : c.Bystanders (unnoticed r.holding)) (keeps : r.StoresKeep r.holding)
    (reads : r.ReadsBack) (turns : List (CognitiveCycle.Turn K (Experience K ω)))
    (visits : ∀ change, .elsewhere change ∈ turns →
      r.Visit r.holding (fun source => source ≠ wakeupSource) change)
    (e : Experience K ω) (unqueued : e.senses.queue.waiting = []) (unwritten : e.noted = [])
    (unheld : r.workingMemory.Holds (fun kind _ => kind ≠ "input") e.world) :
    NeverMistaken (r.wire c) turns ((r.wire c).fresh e) ↔
      AtAppraise (r.wire c) turns ((r.wire c).fresh e) Unreminded := by
  have start : r.Attributed e := by
    refine ⟨?_, fun item member kind => absurd kind (unheld item member), ?_⟩
    · unfold Fifo.placed
      rw [unqueued]
      exact List.forall_mem_nil _
    · rw [unwritten]
      exact List.forall_mem_nil _
  constructor
  · intro kept before after t split reached s awake item member kind
    obtain ⟨-, sources⟩ := kept.interactions before after t split reached s awake
    have among : item ∈ raisedFor s := List.mem_filter.mpr ⟨member, beq_iff_eq.mpr kind⟩
    obtain ⟨place, input, -, other, -, source⟩ := sources item among
    rw [source]
    exact other
  · intro unreminded
    refine ⟨?_, (run_attributed h keeps reads turns visits start unreminded).wrote⟩
    intro before after t split reached s awake
    refine ⟨gathered_raised s, fun item among => ?_⟩
    obtain ⟨member, kind⟩ := List.mem_filter.mp among
    have input := beq_iff_eq.mp kind
    -- the run up to this pass keeps the attribution, and so does its PERCEIVE
    have attributed : r.Attributed t.world := by
      have kept := run_attributed h keeps reads before
        (fun change inside => visits change (by rw [split]; exact List.mem_append_left _ inside))
        (s := (r.wire c).fresh e) start fun earlier later u split' => unreminded earlier
          (later ++ .beat :: after) u (by rw [split, split', List.append_assoc]; rfl)
      rwa [reached] at kept
    have perceiving := ((CognitiveCycle.awakening_outline (wire_bystanders h)
      (reminders_outline h keeps reads)).of_ok attributed awake).1
    obtain ⟨-, place, pushed, logged, content, source⟩ :=
      perceiving.percepts item member (congrArg ItemKind.label input)
    refine ⟨place, pushed, logged, ?_, content, source⟩
    rw [← source]
    exact unreminded before after t split reached s awake item member input

end agents

/-! ### A wakeup and a message -/

open QuietEvening CognitiveCycle

def reminded : Experience ℚ World :=
  { dawn with senses := { dawn.senses with world := {
      wakeups := ⟨[{ id := 1, fireAt := 0, reason := "stretch", createdAt := 0 }], 2, [], []⟩ } } }

/-- The second tick perceives the wakeup, and writes down that Dan said it. -/
theorem wakeup_taken_for_dan : ¬ NeverMistaken ((agents 0).wire rest) [.beat, .beat]
    (((agents 0).wire rest).fresh reminded) := by
  intro kept
  let log := (((agents 0).wire rest).run [.beat, .beat]
    (((agents 0).wire rest).fresh reminded)).2.world.noted
  obtain ⟨wrote, pushes⟩ : (2, ["stretch"]) ∈ written log ∧ (log.filterMap fun
      | .pushed _ input => some input.source
      | _ => none) = [wakeupSource] := by decide +kernel
  obtain ⟨place, input, pushed, other, -⟩ :=
    kept.episodes (2, ["stretch"]) wrote "stretch" List.mem_cons_self
  have among : input.source ∈ [wakeupSource] := by
    rw [← pushes]
    exact List.mem_filterMap.mpr ⟨_, pushed, rfl⟩
  exact other (List.mem_singleton.mp among)

theorem agents_keep (decayFactor : ℚ) :
    (agents decayFactor).StoresKeep (agents decayFactor).holding where
  percepts _ _ _ := id
  episodes _ _ _ _ _ := id
  facts _ _ _ _ := id
  write _ _ _ := id
  wakeups _ body w P held := by
    unfold WorkingMemory.Holds WorkingMemory.held
    rw [Sessions.scope_apply]
    exact held
  queue _ _ := id

theorem agents_readsBack (decayFactor : ℚ) : (agents decayFactor).ReadsBack := by
  intro input
  have same : (agents decayFactor).sensorium.validateJson = validateJson := rfl
  have dumped : (agents decayFactor).scheduler.queue.dumpJson = dumpJson := rfl
  rw [same, dumped]
  exact validateJson_dumpJson input

/-- Where Dan speaks and no wakeup is due, only Dan is taken for Dan. -/
theorem greeting_taken_for_dan :
    NeverMistaken ((agents 0).wire rest) [.elsewhere (greeting 0), .beat]
      (((agents 0).wire rest).fresh dawn) := by
  refine (run_never_mistaken_iff (agents 0) rest (rest_bystanders _) (agents_keep 0)
    (agents_readsBack 0) [.elsewhere (greeting 0), .beat] ?_ dawn rfl rfl ?_).mpr ?_
  · intro change turn
    refine .inl ⟨hello.raw, hello.source, by decide, fun e => ?_⟩
    simp only [List.mem_cons, List.not_mem_nil, or_false, Turn.elsewhere.injEq,
      reduceCtorEq] at turn
    rw [turn]
    rfl
  · exact List.forall_mem_nil _
  · intro before after t split reached s awake
    -- the one tick comes after the greeting
    have first : before = [.elsewhere (greeting 0)] := by
      match before, split with
      | [.elsewhere _], same => rw [(List.cons.inj same).1]
      | [.elsewhere _, .beat], same => cases (List.cons.inj (List.cons.inj same).2).2
    have same : s = (((agents 0).wire rest).awakening (((agents 0).wire rest).run
        [.elsewhere (greeting 0)] (((agents 0).wire rest).fresh dawn)).2).2 := by
      rw [← first, reached, awake]
    have sources : ∀ item ∈ (((agents 0).wire rest).awakening (((agents 0).wire rest).run
        [.elsewhere (greeting 0)] (((agents 0).wire rest).fresh dawn)).2).2.ctx.percepts,
        item.kind = .input → item.source ≠ wakeupSource := by decide +kernel
    unfold Unreminded
    rw [same]
    exact sources

end Recollection
end Johnny
