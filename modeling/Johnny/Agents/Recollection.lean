import Johnny.Agents.InputsKept
import Johnny.Agents.MemoryStages
import Johnny.Brain.Focus
import Johnny.Effectors.Scheduler
import Johnny.Memory.Working

/-!
# From the input queue to an episode

The agents that an input passes through, wired into one cycle: the senses and working
memory, Attention, RECALL and LEARN, and the wakeups that are injected between ticks.
Every other collaborator of the cycle leaves the queue and the log of what was noted alone.
-/
namespace Johnny

structure Recollection (K ω : Type) where
  sensorium : Sensorium K ω
  workingMemory : WorkingMemory K ω
  attention : Attention K
  recaller : MemoryRecaller K ω
  learner : EpisodicLearner K ω
  scheduler : Scheduler K ω

namespace Recollection
variable {K ω : Type} [Field K] [LinearOrder K]

def perceive [FloorRing K] (r : Recollection K ω) :
    Prog Failure (Experience K ω) (List (WorkspaceItem K)) := do
  let sensed ← Experience.sensing r.sensorium.perceive
  Experience.note fun tick => .perceived tick (sensed.filter fun x => x.place.isSome)
  pure (sensed.map Sensed.item)

def attentionStage (r : Recollection K ω) : AttentionStage K (Experience K ω) where
  select working percepts := do
    let items ← Experience.attending (r.attention.select working percepts)
    Experience.note fun tick => .admitted tick items
    pure items
  setBias bias := Experience.attending (Attention.setBias bias)

/-- `recall`, in the mood set last. -/
def recall' (r : Recollection K ω) (focus : List (WorkspaceItem K)) :
    Prog Failure (Experience K ω) (List (WorkspaceItem K)) := do
  let mood ← Prog.reads Experience.recallMood
  Experience.outside (r.recaller.recallFor mood focus)

def recallStage (r : Recollection K ω) : RecallStage K (Experience K ω) where
  recallFor := r.recall'
  setMood mood := Prog.modify fun e => { e with recallMood := mood }

def workingMemoryStage (r : Recollection K ω) : WorkingMemoryStage K (Experience K ω) where
  put content kind salience := Experience.outside (r.workingMemory.stage.put content kind salience)
  decay := Experience.outside r.workingMemory.stage.decay
  contents := Experience.outside r.workingMemory.stage.contents

/-- The cycle with these agents as its own. -/
def wire [FloorRing K] (r : Recollection K ω) (c : CognitiveCycle K (Experience K ω)) :
    CognitiveCycle K (Experience K ω) :=
  { c with
    perception := some r.perceive
    attention := some r.attentionStage
    workingMemory := some r.workingMemoryStage
    recaller := some r.recallStage
    learning := some r.learner.learn
    fireDue := some do
      let _ ← r.scheduler.fireDue
      pure () }

end Recollection

/-! ### What leaves the log alone -/

/-- Queue, ticks and log stay, and the world outside moves within the frame. -/
structure Unnoticed {K ω : Type} (V : Frame ω) (e f : Experience K ω) : Prop where
  queue : f.senses.queue = e.senses.queue
  ticks : f.senses.ticks = e.senses.ticks
  noted : f.noted = e.noted
  world : V.rel e.world f.world

def unnoticed {K ω : Type} (V : Frame ω) : Frame (Experience K ω) where
  rel := Unnoticed V
  refl e := ⟨rfl, rfl, rfl, V.refl e.world⟩
  trans ab bc := ⟨bc.queue.trans ab.queue, bc.ticks.trans ab.ticks, bc.noted.trans ab.noted,
    V.trans ab.world bc.world⟩

namespace Experience
variable {K ω α : Type} {V : Frame ω}

theorem outside_apply (p : Prog Failure ω α) (e : Experience K ω) :
    outside p e = ((p e.world).1, { e with
      senses := { e.senses with world := (p e.world).2 } }) := rfl

theorem outside_unnoticed {p : Prog Failure ω α} (h : Prog.Keeps V p) :
    Prog.Keeps (unnoticed V) (outside (K := K) p) := fun e => ⟨rfl, rfl, rfl, h e.world⟩

theorem attending_unnoticed (p : Prog Failure (AttentionState K) α) :
    Prog.Keeps (unnoticed V) (attending (ω := ω) p) := fun e => ⟨rfl, rfl, rfl, V.refl e.world⟩

end Experience

namespace Recollection
variable {K ω : Type} {V : Frame ω}

/-- The stores that the agents call keep the frame. -/
structure StoresKeep (r : Recollection K ω) (V : Frame ω) : Prop where
  percepts : ∀ percept, Prog.Keeps V (r.sensorium.persist percept)
  episodes : ∀ query k weights, Prog.Keeps V (r.recaller.recallEpisodes query k weights)
  facts : ∀ query k, Prog.Keeps V (r.recaller.recallFacts query k)
  write : ∀ episode, Prog.Keeps V (r.learner.write episode)
  wakeups : ∀ α (body : Prog Failure (List (ScheduledWakeup K) × ℕ) α),
    Prog.Keeps V (r.scheduler.sessions.scope body)
  queue : ∀ w, V.rel w (r.scheduler.queue.rpush w).2

theorem storesKeep_any (r : Recollection K ω) : r.StoresKeep Frame.any :=
  ⟨fun _ _ => trivial, fun _ _ _ _ => trivial, fun _ _ _ => trivial, fun _ _ => trivial,
    fun _ _ _ => trivial, fun _ => trivial⟩

variable [Field K] [LinearOrder K] [FloorRing K] {r : Recollection K ω}
  {c : CognitiveCycle K (Experience K ω)}

theorem wire_bystanders (h : c.Bystanders (unnoticed V)) :
    (r.wire c).Bystanders (unnoticed V) where
  broadcast := h.broadcast
  setContents := h.setContents
  sleepFn := h.sleepFn
  setBias := by
    intro stage wired bias
    obtain rfl : r.attentionStage = stage := Option.some.inj wired
    exact Experience.attending_unnoticed _
  setMood := by
    intro stage wired mood e
    obtain rfl : r.recallStage = stage := Option.some.inj wired
    exact ⟨rfl, rfl, rfl, V.refl e.world⟩
  narration := h.narration
  drives := h.drives
  affect := h.affect
  deliberation := h.deliberation
  dispatch := h.dispatch
  sleepCycle := h.sleepCycle
  webConsolidator := h.webConsolidator

/-! ### What the agents note -/

/-- A perceive pops its batch and counts its tick, and notes the inputs it returns. -/
theorem perceive_noted (keeps : r.StoresKeep V) (e : Experience K ω) :
    V.rel e.world (r.perceive e).2.world ∧
      (r.perceive e).2.senses.queue = e.senses.queue.rest maxDrainPerTick ∧
      (r.perceive e).2.senses.ticks = e.senses.ticks + 1 ∧
      ((∃ failure, (r.perceive e).1 = .error failure ∧ (r.perceive e).2.noted = e.noted) ∨
        ∃ sensed, (r.sensorium.perceive e.senses).1 = .ok sensed ∧
          (r.perceive e).1 = .ok (sensed.map Sensed.item) ∧
          (r.perceive e).2.noted = .perceived (e.senses.ticks + 1)
            (sensed.filter fun x => x.place.isSome) :: e.noted) := by
  have queue := (r.sensorium.perceive_spec e.senses).1
  have ticks := r.sensorium.perceive_ticks e.senses
  have moved := r.sensorium.perceive_world keeps.percepts e.senses
  have step : r.perceive e = match r.sensorium.perceive e.senses with
      | (.ok sensed, senses) => (.ok (sensed.map Sensed.item), { e with
          senses := senses
          noted := .perceived senses.ticks (sensed.filter fun x => x.place.isSome) :: e.noted })
      | (.error failure, senses) => (.error failure, { e with senses := senses }) := by
    unfold perceive
    rw [Prog.bind_apply]
    unfold Experience.sensing Prog.zoom
    dsimp only
    rcases r.sensorium.perceive e.senses with ⟨_ | sensed, senses⟩
    · rfl
    · rfl
  rcases called : r.sensorium.perceive e.senses with ⟨result, senses⟩
  rw [called] at step queue ticks moved
  dsimp only at queue ticks moved
  cases result with
  | error failure =>
      rw [step]
      exact ⟨moved, queue, ticks, .inl ⟨failure, rfl, rfl⟩⟩
  | ok sensed =>
      rw [step, ← ticks]
      exact ⟨moved, queue, rfl, .inr ⟨sensed, rfl, rfl, rfl⟩⟩

omit [LinearOrder K] [FloorRing K] in
/-- LEARN notes the texts it writes, if it writes an interaction. -/
theorem learn_noted (keeps : r.StoresKeep V) (contents : List (WorkspaceItem K))
    (thought : Option String) (e : Experience K ω) :
    let f := (r.learner.learn contents thought e).2
    V.rel e.world f.world ∧ f.senses.queue = e.senses.queue ∧ f.senses.ticks = e.senses.ticks ∧
      (f.noted = e.noted ∨ EpisodicLearner.heardIn contents ≠ [] ∧
        f.noted = .wrote e.senses.ticks (EpisodicLearner.heardIn contents) :: e.noted) := by
  dsimp only
  unfold EpisodicLearner.learn
  rw [Prog.modify_bind, Prog.reads_bind]
  dsimp only
  split
  · next heard => exact ⟨keeps.write _ _, rfl, rfl, .inr ⟨heard, rfl⟩⟩
  · cases thought with
    | none => exact ⟨V.refl _, rfl, rfl, .inl rfl⟩
    | some text =>
        rw [Prog.onSome_some]
        unfold Prog.onlyIf
        split
        · exact ⟨keeps.write _ _, rfl, rfl, .inl rfl⟩
        · exact ⟨V.refl _, rfl, rfl, .inl rfl⟩

omit [FloorRing K] in
/-- RECALL brings memories and facts, and never an input. -/
theorem recallFor_kinds {r : MemoryRecaller K ω} {mood : Option (Mood K)}
    {focus items : List (WorkspaceItem K)} {w : ω}
    (returned : (r.recallFor mood focus w).1 = .ok items) : ∀ x ∈ items, x.kind ≠ .input := by
  unfold MemoryRecaller.recallFor at returned
  split at returned
  · cases returned
    exact List.forall_mem_nil _
  · rcases recalled : r.recallEpisodes (MemoryRecaller.buildQuery focus) r.episodesK
      (r.biasedWeights mood) w with ⟨_ | episodes, w₁⟩
    · rw [Prog.bind_of_error recalled] at returned
      cases returned
    rw [Prog.bind_of_ok recalled] at returned
    rcases found : r.recallFacts (MemoryRecaller.buildQuery focus) r.factsK w₁ with ⟨_ | facts, w₂⟩
    · rw [Prog.bind_of_error found] at returned
      cases returned
    rw [Prog.bind_of_ok found] at returned
    cases returned
    intro x member
    rcases List.mem_append.mp member with episode | fact
    · obtain ⟨_, -, rfl⟩ := List.mem_map.mp episode
      exact nofun
    · obtain ⟨_, -, rfl⟩ := List.mem_map.mp fact
      exact nofun

omit [FloorRing K] in
theorem recallFor_world (keeps : r.StoresKeep V) (mood : Option (Mood K))
    (focus : List (WorkspaceItem K)) : Prog.Keeps V (r.recaller.recallFor mood focus) := by
  refine Prog.Within.keeps (M := V.rel) ?_ fun _ _ moved => moved
  unfold MemoryRecaller.recallFor
  exact .ite (.pure _) (.bind (fun w => .single (keeps.episodes _ _ _ w)) fun _ =>
    .bind (fun w => .single (keeps.facts _ _ w)) fun _ => .pure _)

omit [Field K] [FloorRing K] in
theorem mem_mergeRecalled {capacity : ℕ} {contents recalled : List (WorkspaceItem K)}
    {x : WorkspaceItem K} (member : x ∈ CognitiveCycle.mergeRecalled capacity contents recalled) :
    x ∈ contents ∨ x ∈ recalled :=
  List.mem_append.mp ((List.perm_insertionSort _ _).mem_iff.mp (List.mem_of_mem_take member))

omit [FloorRing K] in
theorem recall_apply (r : Recollection K ω) (focus : List (WorkspaceItem K))
    (e : Experience K ω) : r.recall' focus e =
      Experience.outside (r.recaller.recallFor e.recallMood focus) e := by
  unfold recall'
  rw [Prog.reads_bind]

/-- RECALL in the wired cycle keeps what holds with fewer inputs among the contents. -/
theorem recallStage_keeps (h : c.Bystanders (unnoticed V)) (keeps : r.StoresKeep V)
    {P : Mind K (Experience K ω) → Prop}
    (stable : ∀ s t, Focused (unnoticed V) s t → P s → P t)
    (fewer : ∀ s contents, P s → (∀ x ∈ contents, x.kind = .input → x ∈ s.ctx.contents) →
      P { s with ctx := { s.ctx with contents := contents } })
    (s : Mind K (Experience K ω)) (pre : P s) : P ((r.wire c).recallStage s).2 := by
  have called : r.recallStage.recallFor = r.recall' := rfl
  have kept (focus : List (WorkspaceItem K)) :
      Prog.Keeps (unnoticed V) (r.recallStage.recallFor focus) := by
    intro e
    rw [called, recall_apply]
    exact Experience.outside_unnoticed (recallFor_world keeps e.recallMood focus) e
  have recalled (focus : List (WorkspaceItem K)) (e : Experience K ω)
      (items : List (WorkspaceItem K))
      (returned : (r.recallStage.recallFor focus e).1 = .ok items) :
      ∀ x ∈ items, x.kind ≠ .input := by
    rw [called, recall_apply, Experience.outside_apply] at returned
    dsimp only at returned
    exact recallFor_kinds returned
  refine CognitiveCycle.recallStage_ended (wire_bystanders h) rfl kept stable recalled ?_ s pre
  intro s items pre none
  refine fewer s _ pre fun x member kind => ?_
  exact (mem_mergeRecalled member).resolve_right fun new => none x new kind

end Recollection
end Johnny
