import Johnny.Agents.Remembering
import Johnny.Lib.Ranking
import Mathlib.Tactic.Linarith
import Mathlib.Tactic.NormNum

/-!
# Recall and a fresh message

With the default weights an input that Attention admits scores above the ceiling of recalled
items, so the merge of RECALL puts none of them before it.
-/
namespace Johnny
variable {K ω : Type}

/-! ### The default settings -/

section settings
variable [Field K] [LinearOrder K]

def RecallWeights.byDefault : RecallWeights K where
  similarity := 1
  recency := 1
  salience := 1
  recencyHalflifeSeconds := frac 86400 1

def Attention.byDefault (capacity : ℕ) : Attention K where
  capacity := capacity
  weightSalience := 1
  weightNovelty := frac 6 10
  repeatPenalty := frac 5 10
  weightArousal := frac 7 10
  noveltyHorizon := max (capacity * 4) 12

/-- RECALL over the two stores. -/
def MemoryRecaller.byDefault (episodic : EpisodicMemory K ω) (semantic : SemanticIndex K ω) :
    MemoryRecaller K ω where
  recallEpisodes := { episodic with weights := .byDefault }.recall'
  recallFacts := semantic.recall'
  episodesK := 3
  factsK := 3
  ceiling := frac 7 10
  baseWeights := .byDefault
  arousalGain := 1

def Recollection.byDefault (r : Recollection K ω) (capacity : ℕ) (episodic : EpisodicMemory K ω)
    (semantic : SemanticIndex K ω) : Recollection K ω :=
  { r with
    attention := .byDefault capacity
    recaller := .byDefault episodic semantic }

/-- `sensorium_input_salience`. -/
def defaultInputSalience : K := frac 85 100

end settings

theorem bystanders_any (c : CognitiveCycle K ω) : c.Bystanders Frame.any where
  broadcast := c.confined_any.broadcast
  setContents := c.confined_any.setContents
  sleepFn := c.confined_any.sleepFn
  setBias := fun a wired => (c.confined_any.attention a wired).2
  setMood := fun r wired => (c.confined_any.recaller r wired).2
  narration := c.confined_any.narration
  drives := c.confined_any.drives
  affect := c.confined_any.affect
  deliberation := fun _ _ => ⟨fun _ _ _ _ => trivial, fun _ _ _ _ => trivial,
    fun _ _ _ _ _ _ => trivial⟩
  dispatch := c.confined_any.dispatch
  sleepCycle := c.confined_any.sleepCycle
  webConsolidator := c.confined_any.webConsolidator

/-- A stage that degrades keeps the contents that its body left. -/
theorem CognitiveCycle.stage_contents (name : String) (fn : Stage K ω Unit) (s : Mind K ω) :
    (CognitiveCycle.stage name fn s).2.ctx.contents = (fn s).2.ctx.contents := by
  unfold CognitiveCycle.stage Prog.rescue
  rcases fn s with ⟨_ | _, t⟩
  · dsimp only
    split <;> rfl
  · rfl

/-! ### What Attention makes of an item -/

/-- An item as it is admitted: its score is its salience. -/
def Attention.surfaced [Field K] [LinearOrder K] (a : Attention K) (s : AttentionState K)
    (item : WorkspaceItem K) : WorkspaceItem K := { item with salience := clamp01 (a.score s item) }

/-- An arousal between zero and one, and no negative boost. -/
structure AttentionBias.Proper [Field K] [LinearOrder K] (bias : AttentionBias K) : Prop where
  calm : 0 ≤ bias.arousal
  excited : bias.arousal ≤ 1
  boosts : ∀ boost ∈ bias.kindBoosts, 0 ≤ boost.2

section scores
variable [Field K] [LinearOrder K] [IsStrictOrderedRing K]

omit [IsStrictOrderedRing K] in
theorem AttentionBias.Proper.boost_nonneg {bias : AttentionBias K} (proper : bias.Proper)
    (kind : String) : 0 ≤ (dictGet bias.kindBoosts kind).getD 0 := by
  unfold dictGet
  cases found : bias.kindBoosts.find? fun e => e.1 == kind with
  | none => exact le_rfl
  | some boost => exact proper.boosts boost (List.mem_of_find?_eq_some found)

theorem novelty_nonneg (capacity : ℕ) (s : AttentionState K) (content : String) :
    0 ≤ (Attention.byDefault capacity : Attention K).novelty s content := by
  refine pow_nonneg ?_ _
  change 0 ≤ (frac 5 10 : K)
  exact div_nonneg (Nat.cast_nonneg _) (Nat.cast_nonneg _)

theorem ceiling_lt_one : (frac 7 10 : K) < 1 := by
  norm_num [frac]

theorem defaultInputSalience_le_one : (defaultInputSalience : K) ≤ 1 := by
  norm_num [defaultInputSalience, frac]

/-- Neither repetition nor calm brings an input below the ceiling of recalled items. -/
theorem ceiling_lt_score (capacity : ℕ) {s : AttentionState K} (proper : s.bias.Proper)
    {item : WorkspaceItem K} (least : defaultInputSalience ≤ item.salience)
    (most : item.salience ≤ 1) :
    (frac 7 10 : K) < (Attention.byDefault capacity).score s item := by
  have boost := proper.boost_nonneg item.kind.label
  have novelty := novelty_nonneg capacity s item.content
  have calm := proper.calm
  have excited := proper.excited
  unfold Attention.score defaultInputSalience at *
  dsimp only [Attention.byDefault] at *
  generalize (dictGet s.bias.kindBoosts item.kind.label).getD 0 = b at boost ⊢
  generalize Attention.novelty _ s item.content = n at novelty ⊢
  generalize s.bias.arousal = a at calm excited ⊢
  generalize item.salience = x at least most ⊢
  unfold frac at *
  push_cast at *
  have base : 85 / 100 ≤ 1 * x + 6 / 10 * n + b := by linarith
  have sharpen : (895 : K) / 1000 ≤ 1 + 7 / 10 * (a - 3 / 10) * (x - 1 / 2) := by
    have product : 0 ≤ a * (x - 1 / 2) := mul_nonneg calm (by linarith)
    linarith
  have least := mul_le_mul base sharpen (by norm_num) (by linarith)
  refine lt_max_of_lt_right (lt_of_lt_of_le ?_ least)
  norm_num

/-! ### What RECALL brings -/

/-- A share of the ceiling is below it. -/
theorem share_le_ceiling {share : K} (most : share ≤ 1) :
    clamp01 (share * frac 7 10) ≤ (frac 7 10 : K) := by
  have ceiling : (0 : K) ≤ frac 7 10 := div_nonneg (Nat.cast_nonneg _) (Nat.cast_nonneg _)
  refine (min_le_right _ _).trans (max_le ceiling ?_)
  exact (mul_le_mul_of_nonneg_right most ceiling).trans_eq (one_mul _)

omit [Field K] [IsStrictOrderedRing K] in
theorem le_foldl_max {scores : List K} {x : K} (start : K) (member : x = start ∨ x ∈ scores) :
    x ≤ scores.foldl max start := by
  induction scores generalizing start x with
  | nil => exact (member.resolve_right (List.not_mem_nil)).le
  | cons score scores ih =>
      rw [List.foldl_cons]
      rcases member with rfl | inside
      · exact (le_max_left x score).trans (ih _ (.inl rfl))
      · rcases List.mem_cons.mp inside with rfl | later
        · exact (le_max_right start x).trans (ih _ (.inl rfl))
        · exact ih _ (.inr later)

/-- Scores that are not negative are scaled into the band below the ceiling. -/
theorem episodesToItems_salience {r : MemoryRecaller K ω} (ceiling : r.ceiling = frac 7 10)
    {episodes : List (Episode K)} (nonneg : ∀ episode ∈ episodes, 0 ≤ episode.score.getD 0) :
    ∀ item ∈ r.episodesToItems episodes, item.salience ≤ frac 7 10 := by
  intro item member
  obtain ⟨episode, inside, rfl⟩ := List.mem_map.mp member
  dsimp only
  rw [ceiling]
  refine share_le_ceiling ?_
  have best := le_foldl_max ((episodes.map fun episode => episode.score.getD 0).headD 0)
    (.inr (List.mem_map_of_mem (f := fun episode : Episode K => episode.score.getD 0) inside))
  split
  · next zero =>
      rw [zero] at best
      rw [div_one]
      exact best.trans zero_le_one
  · exact div_le_one_of_le₀ best ((nonneg episode inside).trans best)

theorem factsToItems_salience {r : MemoryRecaller K ω} (ceiling : r.ceiling = frac 7 10)
    {facts : List (RecalledFact K)} (most : ∀ fact ∈ facts, fact.score.getD 0 ≤ 1) :
    ∀ item ∈ r.factsToItems facts, item.salience ≤ frac 7 10 := by
  intro item member
  obtain ⟨fact, inside, rfl⟩ := List.mem_map.mp member
  dsimp only
  rw [ceiling]
  exact share_le_ceiling (most fact inside)

/-- Whatever the mood, no weight of the blend is negative. -/
theorem byDefault_nonneg (episodic : EpisodicMemory K ω) (semantic : SemanticIndex K ω)
    (mood : Option (Mood K)) :
    (((MemoryRecaller.byDefault episodic semantic).biasedWeights mood).getD .byDefault).Nonneg := by
  have base : (RecallWeights.byDefault : RecallWeights K).Nonneg :=
    ⟨zero_le_one, zero_le_one, zero_le_one⟩
  cases mood with
  | none => exact base
  | some mood =>
      unfold MemoryRecaller.biasedWeights
      dsimp only
      split
      · exact base
      · refine ⟨zero_le_one, zero_le_one, mul_nonneg zero_le_one ?_⟩
        exact add_nonneg zero_le_one (mul_nonneg zero_le_one (le_max_left _ _))

theorem recallFor_salience {episodic : EpisodicMemory K ω} {semantic : SemanticIndex K ω}
    {mood : Option (Mood K)} {focus items : List (WorkspaceItem K)} {w t : ω}
    (ran : (MemoryRecaller.byDefault episodic semantic).recallFor mood focus w = (.ok items, t)) :
    ∀ item ∈ items, item.salience ≤ frac 7 10 := by
  unfold MemoryRecaller.recallFor at ran
  split at ran
  · cases ran
    exact List.forall_mem_nil _
  · obtain ⟨episodes, s₁, recalled, ran⟩ := Prog.ok_of_bind ran
    obtain ⟨facts, s₂, found, ran⟩ := Prog.ok_of_bind ran
    cases ran
    have blended : { episodic with weights := .byDefault }.recall'
      (MemoryRecaller.buildQuery focus) 3 _ w = (.ok episodes, s₁) := recalled
    have similar : semantic.recall' (MemoryRecaller.buildQuery focus) 3 s₁ = (.ok facts, t) := found
    intro item member
    rcases List.mem_append.mp member with episode | fact
    · exact episodesToItems_salience rfl (EpisodicMemory.recall_score
        (byDefault_nonneg episodic semantic mood) blended) item episode
    · exact factsToItems_salience rfl (SemanticIndex.recall_score similar) item fact

/-! ### The merge -/

omit [Field K] [IsStrictOrderedRing K] in
/-- What is more salient than all that is recalled stays among bounded contents. -/
theorem mem_mergeRecalled_of_lt {capacity : ℕ} {contents recalled : List (WorkspaceItem K)}
    (bounded : contents.length ≤ capacity) {item : WorkspaceItem K} (member : item ∈ contents)
    (below : ∀ other ∈ recalled, other.salience < item.salience) :
    item ∈ CognitiveCycle.mergeRecalled capacity contents recalled := by
  have : IsTrans (WorkspaceItem K) fun a b => b.salience ≤ a.salience :=
    ⟨fun _ _ _ first second => second.trans first⟩
  have : Std.Total fun a b : WorkspaceItem K => b.salience ≤ a.salience :=
    ⟨fun a b => le_total b.salience a.salience⟩
  obtain ⟨before, after, rfl⟩ := List.append_of_mem member
  obtain ⟨first, last, sorted, place⟩ := List.insertionSort_split
    (fun a b : WorkspaceItem K => b.salience ≤ a.salience) item before (after ++ recalled)
  have none : recalled.countP (fun other => !decide (other.salience ≤ item.salience)) = 0 :=
    List.countP_eq_zero.mpr fun other inside => by
      rw [decide_eq_true (below other inside).le]
      exact Bool.false_ne_true
  rw [List.countP_append, none] at place
  have front := List.countP_le_length (p := fun b : WorkspaceItem K =>
    decide (item.salience ≤ b.salience)) (l := before)
  have back := List.countP_le_length (p := fun b : WorkspaceItem K =>
    !decide (b.salience ≤ item.salience)) (l := after)
  rw [List.length_append, List.length_cons] at bounded
  unfold CognitiveCycle.mergeRecalled
  rw [List.append_assoc, List.cons_append, sorted]
  obtain ⟨room, more⟩ : ∃ room, capacity - first.length = room + 1 :=
    Nat.exists_eq_succ_of_ne_zero (by omega)
  rw [List.take_append, more, List.take_succ_cons]
  exact List.mem_append_right _ List.mem_cons_self

/-! ### ATTEND and RECALL -/

section stages
variable [FloorRing K] {r : Recollection K ω} {capacity : ℕ} {episodic : EpisodicMemory K ω}
  {semantic : SemanticIndex K ω}

/-- The cycle wired with the default weights, its bound that of Attention. -/
def Recollection.defaultCycle (r : Recollection K ω) (c : CognitiveCycle K (Experience K ω))
    (capacity : ℕ) (episodic : EpisodicMemory K ω) (semantic : SemanticIndex K ω) :
    CognitiveCycle K (Experience K ω) :=
  (r.byDefault capacity episodic semantic).wire { c with capacity := capacity }

variable {c : CognitiveCycle K (Experience K ω)}

/-- Each is an admitted percept or item of working memory, with its score for a salience. -/
def Surfaced (a : Attention K) (s : AttentionState K) (percepts contents : List (WorkspaceItem K)) :
    Prop :=
  ∃ working, ∀ item ∈ contents, ∃ candidate ∈ percepts ++ working, item = a.surfaced s candidate

omit [IsStrictOrderedRing K] [FloorRing K] in
theorem surfaced_admitted (a : Attention K) (s : AttentionState K)
    (working percepts : List (WorkspaceItem K)) :
    Surfaced a s percepts (a.admitted s working percepts) := by
  refine ⟨working, fun item member => ?_⟩
  obtain ⟨pair, taken, rfl⟩ := List.mem_map.mp member
  have scored := (List.perm_insertionSort _ _).mem_iff.mp (List.mem_of_mem_take taken)
  obtain ⟨candidate, inside, rfl⟩ := List.mem_map.mp scored
  exact ⟨candidate, Attention.mem_dedupe inside, rfl⟩

variable (r c capacity episodic semantic)

omit [IsStrictOrderedRing K] in
/-- ATTEND leaves a bounded selection, scored by what Attention remembered before. -/
theorem attend_surfaced (s : Mind K (Experience K ω)) (blank : s.ctx.contents = []) :
    let attended := ((r.defaultCycle c capacity episodic semantic).attend s).2.ctx.contents
    attended.length ≤ capacity ∧
      Surfaced (.byDefault capacity) s.world.attention s.ctx.percepts attended := by
  have start : s.ctx.contents.length ≤ capacity ∧
      Surfaced (.byDefault capacity) s.world.attention s.ctx.percepts s.ctx.contents := by
    rw [blank]
    exact ⟨Nat.zero_le _, [], List.forall_mem_nil _⟩
  have called {α : Type} (p : Prog Failure ω α) :
      Prog.Keeps (Frame.eqOn Experience.attention) (Experience.outside (K := K) p) := fun _ => rfl
  have refreshed := (Recollection.refresh_focused (fun _ _ _ => called _) (called _) (called _)
    (m := (r.byDefault capacity episodic semantic).workingMemoryStage)
    (c := r.defaultCycle c capacity episodic semantic) rfl s.ctx.percepts).keeps s
  dsimp only
  unfold CognitiveCycle.attend
  rw [Prog.reads_bind]
  rcases ran : (r.defaultCycle c capacity episodic semantic).refreshWorkingMemory s.ctx.percepts s
    with ⟨_ | working, t⟩
  · rw [Prog.bind_of_error ran]
    rw [ran] at refreshed
    rw [refreshed.contents]
    exact start
  · rw [Prog.bind_of_ok ran]
    rw [ran] at refreshed
    have remembered : t.world.attention = s.world.attention := refreshed.world
    have bystanders := bystanders_any (r.defaultCycle c capacity episodic semantic)
    have after (items : List (WorkspaceItem K)) (u : Mind K (Experience K ω)) :=
      (FocusedProg.keeps (W := Frame.any) (.bind (Mind.outside_focused (bystanders.setContents items))
        fun _ => CognitiveCycle.emit_focused bystanders "attention" "attention.selected"
          [("count", .int items.length), ("items", .arr (items.map fun i => .str i.content))]
          (some "attend")) u).contents
    have selected : (r.defaultCycle c capacity episodic semantic).selectContents working
        s.ctx.percepts t = (.ok ((Attention.byDefault capacity).admitted t.world.attention working
          s.ctx.percepts), _) := rfl
    rw [Prog.bind_of_ok selected, Mind.setCtx_bind, after]
    dsimp only
    obtain ⟨among, surfaced⟩ := surfaced_admitted (.byDefault capacity) t.world.attention working
      s.ctx.percepts
    refine ⟨List.length_take_le _ _, ?_⟩
    rw [← remembered]
    exact ⟨among, fun item member => surfaced item (List.mem_of_mem_take member)⟩

/-- RECALL keeps the contents bounded, and among them what scored above its ceiling. -/
theorem recallStage_keeps {s : Mind K (Experience K ω)} (bounded : s.ctx.contents.length ≤ capacity) :
    let recalled :=
      ((r.defaultCycle c capacity episodic semantic).recallStage s).2.ctx.contents
    recalled.length ≤ capacity ∧
      ∀ item ∈ s.ctx.contents, frac 7 10 < item.salience → item ∈ recalled := by
  have bystanders := bystanders_any (r.defaultCycle c capacity episodic semantic)
  have ceiling (focus items : List (WorkspaceItem K)) (e : Experience K ω)
      (returned : ((r.byDefault capacity episodic semantic).recallStage.recallFor focus e).1 =
        .ok items) : ∀ item ∈ items, item.salience ≤ frac 7 10 := by
    change ((r.byDefault capacity episodic semantic).recall' focus e).1 = _ at returned
    have recaller : (r.byDefault capacity episodic semantic).recaller =
      .byDefault episodic semantic := rfl
    rw [Recollection.recall_apply, Experience.outside_apply, recaller] at returned
    rcases ran : (MemoryRecaller.byDefault episodic semantic).recallFor e.recallMood focus e.world
      with ⟨answer, w⟩
    rw [ran] at returned
    dsimp only at returned
    rw [returned] at ran
    exact recallFor_salience ran
  have wired : (r.defaultCycle c capacity episodic semantic).recaller =
    some (r.byDefault capacity episodic semantic).recallStage := rfl
  have kept (focus : List (WorkspaceItem K)) : Prog.Keeps Frame.any
    ((r.byDefault capacity episodic semantic).recallStage.recallFor focus) := fun _ => trivial
  refine CognitiveCycle.recallStage_ended bystanders wired kept
    (P := fun t => t.ctx.contents.length ≤ capacity ∧
      ∀ item ∈ s.ctx.contents, frac 7 10 < item.salience → item ∈ t.ctx.contents)
    (R := fun items => ∀ item ∈ items, item.salience ≤ frac 7 10) ?_
    (fun focus w items returned => ceiling focus items w returned) ?_ s
    ⟨bounded, fun item member _ => member⟩
  · intro t u moved pre
    rw [moved.contents]
    exact pre
  · rintro t items ⟨room, kept⟩ below
    refine ⟨List.length_take_le _ _, fun item member above => ?_⟩
    exact mem_mergeRecalled_of_lt room (kept item member above)
      fun other inside => (below other inside).trans_lt above

end stages

end scores

/-- With the default weights the workspace stays bounded through ATTEND and RECALL, and RECALL
leaves every input that was perceived and admitted in this tick among the contents. -/
theorem fresh_inputs_survive_recall [Field K] [LinearOrder K] [IsStrictOrderedRing K] [FloorRing K]
    (r : Recollection K ω) (c : CognitiveCycle K (Experience K ω)) (capacity : ℕ)
    (episodic : EpisodicMemory K ω) (semantic : SemanticIndex K ω) (s : Mind K (Experience K ω))
    (blank : s.ctx.contents = []) (proper : s.world.attention.bias.Proper) :
    let cycle := r.defaultCycle c capacity episodic semantic
    let attended := (CognitiveCycle.stage "attend" cycle.attend s).2
    let recalled := (CognitiveCycle.stage "recall" cycle.recallStage attended).2
    let surfaced := (Attention.byDefault capacity).surfaced s.world.attention
    attended.ctx.contents.length ≤ capacity ∧ recalled.ctx.contents.length ≤ capacity ∧
      Surfaced (.byDefault capacity) s.world.attention s.ctx.percepts attended.ctx.contents ∧
      ∀ fresh ∈ s.ctx.percepts, fresh.kind = .input → fresh.salience = defaultInputSalience →
        surfaced fresh ∈ attended.ctx.contents → surfaced fresh ∈ recalled.ctx.contents := by
  have first := CognitiveCycle.stage_contents "attend"
    (r.defaultCycle c capacity episodic semantic).attend s
  obtain ⟨bounded, scored⟩ := attend_surfaced r capacity episodic semantic c s blank
  dsimp only
  rw [CognitiveCycle.stage_contents "recall"]
  generalize (CognitiveCycle.stage "attend" (r.defaultCycle c capacity episodic semantic).attend
    s).2 = attended at first ⊢
  rw [← first] at bounded scored
  obtain ⟨room, kept⟩ := recallStage_keeps r capacity episodic semantic c bounded
  refine ⟨bounded, room, scored, fun fresh _ _ salience among => kept _ among ?_⟩
  have most : fresh.salience ≤ 1 := salience.trans_le defaultInputSalience_le_one
  have above := ceiling_lt_score capacity proper salience.ge most
  exact lt_min ceiling_lt_one (lt_max_of_lt_right above)

/-! ### A greeting beside a memory -/

namespace QuietEvening

/-- What is remembered was remembered just now, where `exp` is one. -/
def episodic : EpisodicMemory ℚ World where
  embedOne _ := pure [1]
  nearest _ _ := pure [({ id := 1, ts := 0, kind := "reflection", content := "The kettle is on."
                          salience := 1, embedding := [1] }, 0)]
  weights := .byDefault
  candidatePool := 50
  nowFn _ := 0
  exponential := ⟨fun _ => 1, rfl, fun _ _ => (one_mul 1).symm, fun _ _ _ => le_rfl⟩
  logTwo := frac 693 1000

def semantic : SemanticIndex ℚ World where
  embedOne _ := pure [1]
  nearest _ _ := pure []

def heard : WorkspaceItem ℚ :=
  { kind := .input, content := "hello", salience := defaultInputSalience, source := "repl" }

/-- PERCEIVE has returned the greeting. -/
def perceived : Mind ℚ (Experience ℚ World) where
  world := dawn
  nextInterval := 1
  ctx := { tick := 1, percepts := [heard] }

def attended : Mind ℚ (Experience ℚ World) :=
  (CognitiveCycle.stage "attend"
    ((agents (9 / 10)).defaultCycle rest 1 episodic semantic).attend perceived).2

def recalled : Mind ℚ (Experience ℚ World) :=
  (CognitiveCycle.stage "recall"
    ((agents (9 / 10)).defaultCycle rest 1 episodic semantic).recallStage attended).2

theorem attended_contents : attended.ctx.contents = [{ heard with salience := 1 }] := by
  decide +kernel

theorem heard_surfaced : (Attention.byDefault 1).surfaced perceived.world.attention heard =
    { heard with salience := 1 } := by
  decide +kernel

end QuietEvening

open QuietEvening in
/-- In a workspace for one item the memory does not take the place of the greeting. -/
theorem greeting_survives_recall : { heard with salience := 1 } ∈ recalled.ctx.contents := by
  have proper : perceived.world.attention.bias.Proper :=
    ⟨by decide +kernel, by decide +kernel, List.forall_mem_nil _⟩
  have kept := (fresh_inputs_survive_recall (agents (9 / 10)) rest 1 episodic semantic perceived rfl
    proper).2.2.2 heard List.mem_cons_self rfl rfl
  rw [heard_surfaced] at kept
  refine kept ?_
  change _ ∈ attended.ctx.contents
  rw [attended_contents]
  exact List.mem_cons_self

end Johnny
