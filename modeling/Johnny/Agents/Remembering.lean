import Johnny.Agents.Recollection
import Johnny.Lib.JsonString
import Mathlib.Data.List.Pairwise
import Mathlib.Data.Rat.Floor

/-!
# How often an input is remembered

LEARN takes every input among the contents for one just heard. An input stays in working
memory under its kind, so Attention can admit it again in a later tick, and then it is
written again. Where Attention admits the inputs of its own tick alone, each is written
once.
-/
namespace Johnny
variable {K ω : Type}

/-! ### What the log tells -/

/-- The interactions written, newest first, each with its tick. -/
def written (log : List (Noted K)) : List (ℕ × List String) :=
  log.filterMap fun
    | .wrote tick heard => some (tick, heard)
    | _ => none

/-- The inputs that each PERCEIVE returned. -/
def drained (log : List (Noted K)) : List (ℕ × List (Sensed K)) :=
  log.filterMap fun
    | .perceived tick inputs => some (tick, inputs)
    | _ => none

/-- What Attention admitted in each tick. -/
def admissions (log : List (Noted K)) : List (ℕ × List (WorkspaceItem K)) :=
  log.filterMap fun
    | .admitted tick items => some (tick, items)
    | _ => none

/-- Attention admitted an input with this text in this tick. -/
def Admits (log : List (Noted K)) (tick : ℕ) (text : String) : Prop :=
  ∃ a ∈ admissions log, a.1 = tick ∧ ∃ item ∈ a.2, item.kind = .input ∧ item.content = text

/-- The drained inputs have pairwise different texts. -/
def Distinct (log : List (Noted K)) : Prop :=
  ∀ d ∈ drained log, ∀ d' ∈ drained log, ∀ x ∈ d.2, ∀ y ∈ d'.2, x.place ≠ y.place →
    x.item.content ≠ y.item.content

/-- An interaction is written only in a tick with a fresh input, and no two interactions
contain the same text. -/
structure RememberedOnce (log : List (Noted K)) : Prop where
  fresh : ∀ w ∈ written log, ∃ d ∈ drained log, d.1 = w.1 ∧ d.2 ≠ []
  once : Distinct log → (written log).Pairwise fun w w' => ∀ text ∈ w.2, text ∉ w'.2

/-- Every input that Attention admits has the text of a fresh input of the tick. -/
def NoneLinger (log : List (Noted K)) : Prop :=
  ∀ a ∈ admissions log, ∀ item ∈ a.2, item.kind = .input →
    ∃ d ∈ drained log, d.1 = a.1 ∧ ∃ x ∈ d.2, x.item.content = item.content

/-- What holds of the log at any time: the places of the inputs were handed out in turn,
and each tick wrote one interaction at most, of inputs that Attention admitted in it. -/
structure Logged (log : List (Noted K)) (ticks popped : ℕ) : Prop where
  dated : ∀ d ∈ drained log, ∀ x ∈ d.2, ∃ place, x.place = some place ∧ place < popped
  apart : (drained log).Pairwise fun d d' => ∀ x ∈ d.2, ∀ y ∈ d'.2, x.place ≠ y.place
  wrote : ∀ w ∈ written log, w.1 ≤ ticks ∧ w.2 ≠ [] ∧ ∀ text ∈ w.2, Admits log w.1 text
  once : (written log).Pairwise fun w w' => w.1 ≠ w'.1

theorem Logged.remembered {log : List (Noted K)} {ticks popped : ℕ}
    (logged : Logged log ticks popped) (none : NoneLinger log) : RememberedOnce log := by
  have heard (w : ℕ × List String) (member : w ∈ written log) (text : String)
      (said : text ∈ w.2) :
      ∃ d ∈ drained log, d.1 = w.1 ∧ ∃ x ∈ d.2, x.item.content = text := by
    obtain ⟨a, admitted, same, item, among, kind, rfl⟩ := (logged.wrote w member).2.2 text said
    rw [← same]
    exact none a admitted item among kind
  refine ⟨fun w member => ?_, fun distinct => ?_⟩
  · obtain ⟨text, said⟩ := List.exists_mem_of_ne_nil _ (logged.wrote w member).2.1
    obtain ⟨d, inside, same, x, among, -⟩ := heard w member text said
    exact ⟨d, inside, same, List.ne_nil_of_mem among⟩
  · refine logged.once.imp_of_mem ?_
    intro w w' member member' ticks text said said'
    obtain ⟨d, inside, same, x, among, rfl⟩ := heard w member text said
    obtain ⟨d', inside', same', y, among', content⟩ := heard w' member' _ said'
    -- one text at two ticks is two inputs
    have two : d ≠ d' := by
      rintro rfl
      exact ticks (same.symm.trans same')
    have symmetric : Std.Symm fun d d' : ℕ × List (Sensed K) =>
        ∀ x ∈ d.2, ∀ y ∈ d'.2, x.place ≠ y.place :=
      ⟨fun _ _ apart x hx y hy => (apart y hy x hx).symm⟩
    have places := logged.apart.forall inside inside' two x among y among'
    exact distinct d inside d' inside' x among y among' places content.symm

/-! ### What each agent does to the log -/

def Experience.Sound (e : Experience K ω) : Prop :=
  Logged e.noted e.senses.ticks e.senses.queue.popped

/-- In a tick under way: it has written nothing yet, and the inputs among these contents
were admitted in it. -/
structure Attending (e : Experience K ω) (contents : List (WorkspaceItem K)) : Prop where
  sound : e.Sound
  unwritten : ∀ w ∈ written e.noted, w.1 ≠ e.senses.ticks
  admitted : ∀ item ∈ contents, item.kind = .input →
    Admits e.noted e.senses.ticks item.content

section moves
variable {V : Frame ω} {e f : Experience K ω} {contents : List (WorkspaceItem K)}

theorem Unnoticed.sound (moved : Unnoticed V e f) (sound : e.Sound) : f.Sound := by
  unfold Experience.Sound
  rw [moved.noted, moved.ticks, moved.queue]
  exact sound

theorem Unnoticed.attending (moved : Unnoticed V e f) (attending : Attending e contents) :
    Attending f contents := by
  refine ⟨moved.sound attending.sound, ?_, ?_⟩
  · rw [moved.noted, moved.ticks]
    exact attending.unwritten
  · rw [moved.noted, moved.ticks]
    exact attending.admitted

/-- An admission makes no difference to what was drained or written. -/
theorem Experience.Sound.admission (sound : e.Sound) (tick : ℕ) (items : List (WorkspaceItem K)) :
    Logged (.admitted tick items :: e.noted) e.senses.ticks e.senses.queue.popped := by
  refine ⟨sound.dated, sound.apart, ?_, sound.once⟩
  intro w member
  obtain ⟨early, some, admitted⟩ := sound.wrote w member
  refine ⟨early, some, fun text said => ?_⟩
  obtain ⟨a, among, which⟩ := admitted text said
  exact ⟨a, List.mem_cons_of_mem _ among, which⟩

theorem InputQueue.push_sound (q : InputQueue ω) (raw source : String) :
    Prog.Maintains Experience.Sound (q.push (K := K) raw source) fun _ => True := by
  apply Prog.Maintains.bind (Prog.Maintains.of_keeps (F := unnoticed Frame.any)
    (Experience.outside_unnoticed fun _ => trivial) fun _ _ sound moved => moved.sound sound)
  intro ending _
  apply Prog.Maintains.bind (Q := fun _ => True)
  · apply Prog.Maintains.onlyIf
    intro _
    exact .modify fun e sound => ⟨sound.dated, sound.apart, sound.wrote, sound.once⟩
  · intro _ _
    exact .reraise ending.answer

end moves

namespace Recollection
variable [Field K] [LinearOrder K] [FloorRing K] {r : Recollection K ω}
  {c : CognitiveCycle K (Experience K ω)}

theorem perceive_attending {e : Experience K ω} (sound : e.Sound) :
    Attending (r.perceive e).2 [] := by
  obtain ⟨-, queue, ticks, ended⟩ := perceive_noted r.storesKeep_any e
  have later : e.senses.queue.popped ≤ (e.senses.queue.rest maxDrainPerTick).popped :=
    Fifo.rest_popped_le _ _
  have fresh : ∀ w ∈ written e.noted, w.1 ≠ e.senses.ticks + 1 := by
    intro w member
    have early := (sound.wrote w member).1
    omega
  have wrote : ∀ w ∈ written e.noted, w.1 ≤ e.senses.ticks + 1 ∧ w.2 ≠ [] ∧
      ∀ text ∈ w.2, Admits e.noted w.1 text := by
    intro w member
    obtain ⟨early, rest⟩ := sound.wrote w member
    exact ⟨Nat.le_succ_of_le early, rest⟩
  have dated : ∀ d ∈ drained e.noted, ∀ x ∈ d.2, ∃ place, x.place = some place ∧
      place < (e.senses.queue.rest maxDrainPerTick).popped := by
    intro d member x among
    obtain ⟨place, same, before⟩ := sound.dated d member x among
    exact ⟨place, same, before.trans_le later⟩
  rcases ended with ⟨failure, -, noted⟩ | ⟨sensed, returned, -, noted⟩
  · refine ⟨?_, ?_, List.forall_mem_nil _⟩
    · unfold Experience.Sound
      rw [queue, ticks, noted]
      exact ⟨dated, sound.apart, wrote, sound.once⟩
    · rw [ticks, noted]
      exact fresh
  · have places (x : Sensed K) (among : x ∈ sensed.filter fun x => x.place.isSome) :
        ∃ place, x.place = some place ∧ e.senses.queue.popped ≤ place ∧
          place < (e.senses.queue.rest maxDrainPerTick).popped := by
      obtain ⟨member, placed⟩ := List.mem_filter.mp among
      rcases Sensorium.mem_perceive returned member with ⟨w, rfl⟩ | ⟨entry, popped, raw, -, rfl⟩
      · cases placed
      · exact ⟨entry.2, rfl, Fifo.mem_batch_le popped, Fifo.mem_batch_lt popped⟩
    refine ⟨?_, ?_, List.forall_mem_nil _⟩
    · unfold Experience.Sound
      rw [queue, ticks, noted]
      refine ⟨?_, List.pairwise_cons.mpr ⟨?_, sound.apart⟩, wrote, sound.once⟩
      · intro d member x among
        rcases List.mem_cons.mp member with rfl | old
        · obtain ⟨place, same, -, before⟩ := places x among
          exact ⟨place, same, before⟩
        · exact dated d old x among
      · intro d old x among y among'
        obtain ⟨place, same, after, -⟩ := places x among
        obtain ⟨place', same', before⟩ := sound.dated d old y among'
        rw [same, same']
        intro equal
        cases equal
        omega
    · rw [ticks, noted]
      exact fresh

omit [LinearOrder K] [FloorRing K] in
theorem learn_sound {e : Experience K ω} {contents : List (WorkspaceItem K)}
    (attending : Attending e contents) (thought : Option String) :
    (r.learner.learn contents thought e).2.Sound := by
  obtain ⟨-, queue, ticks, ended⟩ := learn_noted r.storesKeep_any contents thought e
  unfold Experience.Sound
  rw [queue, ticks]
  have sound := attending.sound
  rcases ended with same | ⟨some, noted⟩
  · rw [same]
    exact sound
  · rw [noted]
    refine ⟨sound.dated, sound.apart, ?_, List.pairwise_cons.mpr ⟨?_, sound.once⟩⟩
    · intro w member
      rcases List.mem_cons.mp member with rfl | old
      · refine ⟨le_refl _, some, fun text said => ?_⟩
        obtain ⟨item, among, rfl⟩ := List.mem_map.mp said
        obtain ⟨inside, kind⟩ := List.mem_filter.mp among
        exact attending.admitted item inside (eq_of_beq kind)
      · exact sound.wrote w old
    · intro w old
      exact (attending.unwritten w old).symm

omit [Field K] [FloorRing K] in
theorem fireDue_sound {e : Experience K ω} (sound : e.Sound) : (r.scheduler.fireDue e).2.Sound := by
  have noting (id : ℕ) (answer : Except Failure Unit) : Prog.Maintains (ε := Failure)
      (Experience.Sound (K := K) (ω := ω))
      (Experience.note fun _ => .injected id answer) fun _ => True :=
    .modify fun e sound => ⟨sound.dated, sound.apart, sound.wrote, sound.once⟩
  have moves : Prog.Maintains Experience.Sound r.scheduler.fireDue fun _ => True := by
    apply Prog.Maintains.bind (.reads (Q := fun _ => True) fun _ _ => trivial)
    intro now _
    apply Prog.Maintains.bind (Prog.Maintains.of_keeps
      (Experience.outside_unnoticed (r.storesKeep_any.wakeups _ _))
      fun _ _ sound moved => moved.sound sound)
    intro fired _
    apply Prog.Maintains.bind (Prog.Maintains.forEach fired fun wakeup _ =>
      (InputQueue.push_sound _ _ _).outcome.bind fun answer _ =>
        (noting wakeup.id answer).bind fun _ _ => .reraise answer)
    intro _ _
    exact .pure trivial
  exact (moves e sound).1

/-! ### A tick of the wired cycle -/

omit [Field K] [LinearOrder K] [FloorRing K] in
theorem refresh_focused {W : Frame (Experience K ω)} {m : WorkingMemoryStage K (Experience K ω)}
    (put : ∀ content kind salience, Prog.Keeps W (m.put content kind salience))
    (decay : Prog.Keeps W m.decay) (contents : Prog.Keeps W m.contents)
    {c : CognitiveCycle K (Experience K ω)} (wired : c.workingMemory = some m)
    (percepts : List (WorkspaceItem K)) : FocusedProg W (c.refreshWorkingMemory percepts) := by
  unfold CognitiveCycle.refreshWorkingMemory
  rw [wired]
  exact .bind (.forEach (fun _ => Mind.outside_focused (put _ _ _)) percepts) fun _ =>
    .bind (Mind.outside_focused decay) fun _ => Mind.outside_focused contents

/-- What Attention admits, ATTEND bounds: the inputs among the contents were admitted. -/
theorem attend_attending (h : c.Bystanders (unnoticed Frame.any))
    (s : Mind K (Experience K ω)) (pre : Attending s.world s.ctx.contents) :
    Attending ((r.wire c).attend s).2.world ((r.wire c).attend s).2.ctx.contents := by
  have stable (s t : Mind K (Experience K ω)) (moved : Focused (unnoticed Frame.any) s t)
      (pre : Attending s.world s.ctx.contents) : Attending t.world t.ctx.contents := by
    rw [moved.contents]
    exact moved.world.attending pre
  have called {α : Type} (p : Prog Failure ω α) :
      Prog.Keeps (unnoticed Frame.any) (Experience.outside (K := K) p) :=
    Experience.outside_unnoticed fun _ => trivial
  refine CognitiveCycle.attend_ended (wire_bystanders h)
    (P := fun s => Attending s.world s.ctx.contents) (Q := fun _ _ => True)
    (R := fun items s => ∀ item ∈ items, item.kind = .input →
      Admits s.world.noted s.world.senses.ticks item.content) stable ?_ ?_ ?_ s pre
  · intro percepts
    have moves := refresh_focused (fun _ _ _ => called _) (called _) (called _)
      (m := r.workingMemoryStage) (c := r.wire c) rfl percepts
    refine .intro (fun s working t pre ran => ?_) (fun s e t pre ran => ?_)
    · have moved := moves.keeps s
      rw [ran] at moved
      exact ⟨stable s t moved pre.1, trivial, moved.percepts.trans pre.2⟩
    · have moved := moves.keeps s
      rw [ran] at moved
      exact stable s t moved pre.1
  · intro working percepts s pre
    have admits : ∀ item ∈ r.attention.admitted s.world.attention working percepts,
        item.kind = .input → Admits (.admitted s.world.senses.ticks
          (r.attention.admitted s.world.attention working percepts) :: s.world.noted)
          s.world.senses.ticks item.content :=
      fun item member kind => ⟨_, List.mem_cons_self, rfl, item, member, kind, rfl⟩
    refine ⟨⟨pre.1.sound.admission _ _, pre.1.unwritten, ?_⟩, admits⟩
    intro item member kind
    obtain ⟨a, among, which⟩ := pre.1.admitted item member kind
    exact ⟨a, List.mem_cons_of_mem _ among, which⟩
  · intro items s pre admits
    exact ⟨pre.sound, pre.unwritten, fun item member => admits item (List.mem_of_mem_take member)⟩

theorem remembering_outline (h : c.Bystanders (unnoticed Frame.any)) :
    CognitiveCycle.TickOutline (r.wire c) (unnoticed Frame.any) (fun s => s.world.Sound)
      (fun _ => True) (fun s => s.world.Sound ∧ s.ctx.contents = [])
      (fun s => Attending s.world s.ctx.contents) (fun s => Attending s.world s.ctx.contents) where
  begun _ sound := ⟨sound, rfl⟩
  perceived s pre := by
    have fresh : Attending (r.perceive s.world).2 s.ctx.contents := by
      rw [pre.2]
      exact perceive_attending pre.1
    rcases CognitiveCycle.perceive_ended (wire_bystanders h) (p := r.perceive) rfl s with
      ⟨-, ended⟩ | ⟨percepts, -, moved⟩
    · rw [ended]
      exact fresh
    · rw [moved.contents]
      exact moved.world.attending fresh
  foreseen _ attending _ := attending
  attended := attend_attending h
  recalled s pre := by
    refine recallStage_keeps h r.storesKeep_any
      (P := fun s => Attending s.world s.ctx.contents) ?_ ?_ s pre
    · intro s t moved pre
      rw [moved.contents]
      exact moved.world.attending pre
    · intro s contents pre fewer
      exact ⟨pre.sound, pre.unwritten,
        fun item member kind => pre.admitted item (fewer item member kind) kind⟩
  learned s pre := by
    rw [CognitiveCycle.learn_ended (c := r.wire c) rfl s]
    exact learn_sound pre s.ctx.thought
  stable₀ _ _ moved pre := ⟨moved.world.sound pre.1, moved.contents.trans pre.2⟩
  stable₁ _ _ moved pre := by
    rw [moved.contents]
    exact moved.world.attending pre
  stable₂ _ _ moved pre := by
    rw [moved.contents]
    exact moved.world.attending pre
  stable _ _ moved sound := moved.world.sound sound
  weaken₀ _ pre := pre.1
  weaken₁ _ pre := pre.sound
  weaken₂ _ pre := pre.sound

/-- What someone else does between the turns: a message is pushed, or something that
leaves queue and log alone. -/
def Visit (r : Recollection K ω) (V : Frame ω) (spoken : String → Prop)
    (change : Experience K ω → Experience K ω) : Prop :=
  (∃ raw source, spoken source ∧ ∀ e, change e = (r.scheduler.queue.push raw source e).2) ∨
    ∀ e, Unnoticed V e (change e)

theorem run_sound (h : c.Bystanders (unnoticed Frame.any)) {turns : List (CognitiveCycle.Turn K _)}
    (visits : ∀ change, .elsewhere change ∈ turns → r.Visit Frame.any (fun _ => True) change)
    {e : Experience K ω} (start : e.Sound) :
    ((r.wire c).run turns ((r.wire c).fresh e)).2.world.Sound := by
  refine CognitiveCycle.run_outline (wire_bystanders h) (J := Experience.Sound)
    (remembering_outline h) ?_ ?_ start fun _ _ _ _ _ _ _ => trivial
  · intro fire wired e sound
    obtain rfl := Option.some.inj wired
    rw [Prog.bind_pure_apply]
    exact fireDue_sound sound
  · intro change turn e sound
    rcases visits change turn with ⟨raw, source, -, pushed⟩ | moved
    · rw [pushed e]
      exact (InputQueue.push_sound _ raw source e sound).1
    · exact (moved e).sound sound

/-- In a run in which Attention admits no lingering input, each input is remembered once. -/
theorem run_remembered_once (r : Recollection K ω) (c : CognitiveCycle K (Experience K ω))
    (h : c.Bystanders (unnoticed Frame.any)) (turns : List (CognitiveCycle.Turn K (Experience K ω)))
    (visits : ∀ change, .elsewhere change ∈ turns → r.Visit Frame.any (fun _ => True) change)
    (e : Experience K ω) (start : e.noted = [])
    (none : NoneLinger ((r.wire c).run turns ((r.wire c).fresh e)).2.world.noted) :
    RememberedOnce ((r.wire c).run turns ((r.wire c).fresh e)).2.world.noted := by
  have sound : e.Sound := by
    unfold Experience.Sound
    rw [start]
    exact ⟨List.forall_mem_nil _, .nil, List.forall_mem_nil _, .nil⟩
  exact (run_sound h visits sound).remembered none

end Recollection

/-! ### A message and a quiet tick -/

namespace QuietEvening
open CognitiveCycle

structure World where
  working : Database Failure (WorkingSet ℚ) Unit := ⟨{}, (), [], []⟩
  wakeups : Database Failure (List (ScheduledWakeup ℚ)) ℕ := ⟨[], 1, [], []⟩

def hello : RawInput := { raw := "hello", source := "repl" }
def stretch : RawInput := { raw := "stretch", source := wakeupSource }

def dumpJson (input : RawInput) : String := String.ofList (
  "\x7b\"raw\":".toList ++ (JsonString.literal false input.raw ++ (",\"source\":".toList ++
  (JsonString.literal false input.source ++ (",\"modality\":".toList ++
  (JsonString.literal false input.modality ++ "\x7d".toList))))))

def readInput (text : List Char) : Option RawInput := do
  let cs ← JsonString.expect "\x7b\"raw\":".toList text
  let (raw, cs) ← JsonString.readLiteral JsonString.scalars cs
  let cs ← JsonString.expect ",\"source\":".toList cs
  let (source, cs) ← JsonString.readLiteral JsonString.scalars cs
  let cs ← JsonString.expect ",\"modality\":".toList cs
  let (modality, _) ← JsonString.readLiteral JsonString.scalars cs
  some { raw := raw, source := source, modality := modality }

def validateJson (text : String) : Except Failure RawInput :=
  match readInput text.toList with
  | some input => .ok input
  | none => .error (.exception .validationError "Invalid JSON")

theorem validateJson_dumpJson (input : RawInput) : validateJson (dumpJson input) = .ok input := by
  have read : readInput (dumpJson input).toList = some input := by
    unfold readInput dumpJson
    simp only [String.toList_ofList, JsonString.expect_append, Option.bind_eq_bind,
      Option.bind_some, JsonString.readLiteral_literal, JsonString.scalars_toNat, Option.map_some]
  unfold validateJson
  rw [read]

def sensorium : Sensorium ℚ World where
  validateJson := validateJson
  persist _ := pure ()
  clock _ := 0
  loadavg _ := none
  isoformat _ := "2025-01-01T20:00:00+00:00"
  showFloat _ := "0.0"
  dumps _ := "\x7b\"time\": \"2025-01-01T20:00:00+00:00\"\x7d"
  inputSalience := frac 85 100
  ambientSalience := frac 15 100
  ambientPersistEveryTicks := 15

/-- The agents, over a working set with this decay. -/
def agents (decayFactor : ℚ) : Recollection ℚ World where
  sensorium := sensorium
  workingMemory :=
    { redis := { db := ⟨World.working, fun d w => { w with working := d }, fun _ _ => rfl⟩
                 meanwhile := id, apart := fun _ => rfl }
      capacity := 12
      decayFactor := decayFactor
      floor := 5 / 100
      defaultTtl := 900
      clock := fun _ => 0
      freshId := fun w => String.ofList (List.replicate w.working.versions.length 'i') }
  attention :=
    { capacity := 5, weightSalience := 1, weightNovelty := 6 / 10, repeatPenalty := 1 / 2
      weightArousal := 7 / 10, noveltyHorizon := 20 }
  recaller :=
    { recallEpisodes := fun _ _ _ => pure [], recallFacts := fun _ _ => pure []
      episodesK := 3, factsK := 3, ceiling := 7 / 10
      baseWeights := ⟨1, 1, 1, 86400⟩, arousalGain := 1 }
  learner := { write := fun _ => pure (), idleEveryTicks := 15 }
  scheduler :=
    { queue := ⟨dumpJson, fun w => (.committed, w)⟩
      sessions := { db := ⟨World.wakeups, fun d w => { w with wakeups := d }, fun _ _ => rfl⟩
                    meanwhile := id, apart := fun _ => rfl }
      nowFn := fun _ => 0 }

/-- The rest of the Mind, which is idle here. -/
def rest : CognitiveCycle ℚ (Experience ℚ World) where
  broadcast _ := pure ()
  setContents _ := pure ()
  clock _ := 0
  sleepFn _ := pure ()
  interval := 1
  minInterval := 1
  maxInterval := 1
  arousalSpeedup := 0
  tiredSlowdown := 0
  attentionDriveWeight := 0
  capacity := 7

theorem rest_bystanders (V : Frame World) : rest.Bystanders (unnoticed V) :=
  have still (e : Experience ℚ World) : Unnoticed V e e := (unnoticed V).refl e
  ⟨fun _ => still, fun _ => still, fun _ => still, nofun, nofun, nofun, nofun, nofun, nofun,
    nofun, nofun, nofun⟩

def dawn : Experience ℚ World where
  senses := { world := {} }
  attention := { bias := { arousal := 3 / 10 } }

def greeting (decayFactor : ℚ) (e : Experience ℚ World) : Experience ℚ World :=
  ((agents decayFactor).scheduler.queue.push hello.raw hello.source e).2

/-- The log of a tick after the greeting and a quiet one. -/
def log (decayFactor : ℚ) : List (Noted ℚ) :=
  (((agents decayFactor).wire rest).run [.elsewhere (greeting decayFactor), .beat, .beat]
    (((agents decayFactor).wire rest).fresh dawn)).2.world.noted

/-- What lasts a tick at nine tenths is written by the tick that drained nothing. -/
theorem lingering_log : (2, ["hello"]) ∈ written (log (9 / 10)) ∧
    (drained (log (9 / 10))).map (fun d => (d.1, d.2.length)) = [(2, 0), (1, 1)] := by
  decide +kernel

theorem faded_log : written (log 0) = [(1, ["hello"])] ∧ NoneLinger (log 0) := by
  unfold NoneLinger
  decide +kernel

end QuietEvening

open QuietEvening

/-- The quiet tick drains nothing, and writes the greeting again. -/
theorem lingering_input_written_again : ¬ RememberedOnce (log (9 / 10)) := by
  intro kept
  obtain ⟨again, counts⟩ := lingering_log
  obtain ⟨d, inside, tick, some⟩ := kept.fresh _ again
  have counted : (d.1, d.2.length) ∈ [(2, 0), (1, 1)] := by
    rw [← counts]
    exact List.mem_map_of_mem inside
  rw [tick] at counted
  have length : 0 < d.2.length := List.length_pos_iff.mpr some
  simp only [List.mem_cons, Prod.mk.injEq, List.not_mem_nil, or_false] at counted
  omega

/-- Where nothing outlasts a tick in working memory, the greeting is written once. -/
theorem faded_input_written_once :
    written (log 0) = [(1, ["hello"])] ∧ RememberedOnce (log 0) := by
  refine ⟨faded_log.1, ?_⟩
  refine Recollection.run_remembered_once (agents 0) rest (rest_bystanders _)
    [.elsewhere (greeting 0), .beat, .beat] ?_ dawn rfl faded_log.2
  · intro change turn
    refine .inl ⟨hello.raw, hello.source, trivial, fun e => ?_⟩
    simp only [List.mem_cons, List.not_mem_nil, or_false, CognitiveCycle.Turn.elsewhere.injEq,
      reduceCtorEq] at turn
    rw [turn]
    rfl

end Johnny
