import Johnny.LLM.Attempts
import Johnny.Lib.Hoare
import Mathlib.Data.Int.ConditionallyCompleteOrder

/-!
# The daily budget

A paid call is to start only while the day's recorded spend is below the ceiling. The
gate is asked before a step, not before its retries, and it asks by the rounded cost of
one token each way; where neither lets a call through, the ceiling holds over any run.
-/
namespace Johnny.LLM
variable {K ω : Type}

/-! ### Time and the log -/

namespace BudgetGovernor

/-- Time goes on, and the log stays. -/
def calm (g : BudgetGovernor ω) : Frame ω where
  rel w w' := g.nowFn w ≤ g.nowFn w' ∧ g.log.rows w' = g.log.rows w
  refl _ := ⟨le_refl _, rfl⟩
  trans ab bc := ⟨ab.1.trans bc.1, bc.2.trans ab.2⟩

/-- Time goes on, and the log grows by spend. -/
def accruing (g : BudgetGovernor ω) : Frame ω where
  rel w w' := g.nowFn w ≤ g.nowFn w' ∧ ∃ more, g.log.rows w' = g.log.rows w ++ more ∧ Spends more
  refl _ := ⟨le_refl _, [], (List.append_nil _).symm, List.forall_mem_nil _⟩
  trans := by
    rintro a b c ⟨ab, more, grown, spends⟩ ⟨bc, more', grown', spends'⟩
    refine ⟨ab.trans bc, more ++ more', ?_, ?_⟩
    · rw [grown', grown, List.append_assoc]
    · intro row member
      rcases List.mem_append.mp member with first | second
      · exact spends row first
      · exact spends' row second

def SameDay (g : BudgetGovernor ω) (w w' : ω) : Prop := dayStart (g.nowFn w) = dayStart (g.nowFn w')

variable {g : BudgetGovernor ω} {w w' : ω}

theorem accruing_of_calm (calm : g.calm.rel w w') : g.accruing.rel w w' :=
  ⟨calm.1, [], by rw [calm.2, List.append_nil], List.forall_mem_nil _⟩

theorem spends_accruing (spends : Spends (g.log.rows w)) (accrued : g.accruing.rel w w') :
    Spends (g.log.rows w') := by
  obtain ⟨_, more, grown, fresh⟩ := accrued
  intro row member
  rw [grown] at member
  rcases List.mem_append.mp member with old | new
  · exact spends row old
  · exact fresh row new

/-- Where only time goes on, the day's spend does not grow. -/
theorem spentToday_calm (spends : Spends (g.log.rows w)) (calm : g.calm.rel w w') :
    g.spentToday w' ≤ g.spentToday w := by
  unfold spentToday
  rw [calm.2]
  exact spentSince_anti spends (dayStart_mono calm.1)

/-- Within a day the spend does not shrink. -/
theorem spentToday_accruing (accrued : g.accruing.rel w w') (same : g.SameDay w w') :
    g.spentToday w ≤ g.spentToday w' := by
  obtain ⟨_, more, grown, spends⟩ := accrued
  unfold spentToday
  rw [grown, ← show dayStart (g.nowFn w) = dayStart (g.nowFn w') from same, spentSince_append]
  have extra := spentSince_nonneg spends (dayStart (g.nowFn w))
  linarith

/-- A day between two readings of one day is that day. -/
theorem SameDay.between {a b c : ω} (same : g.SameDay a c) (ab : g.nowFn a ≤ g.nowFn b)
    (bc : g.nowFn b ≤ g.nowFn c) : g.SameDay a b := by
  have first := dayStart_mono ab
  have second := dayStart_mono bc
  unfold SameDay at same ⊢
  omega

theorem record_onward (onward : g.log.toSessions.Onward g.nowFn) (entry : CallLogRecord) (w : ω) :
    g.nowFn w ≤ g.nowFn (g.log.record entry w).2 := by
  rw [CallLog.record_apply]
  exact Sessions.scope_onward onward _ w

theorem record_accrues (onward : g.log.toSessions.Onward g.nowFn) {entry : CallLogRecord}
    (cost : 0 ≤ entry.costUsd) (w : ω) : g.accruing.rel w (g.log.record entry w).2 := by
  refine ⟨record_onward onward entry w, ?_⟩
  rcases g.log.record_rows entry w with same | ⟨row, rfl, grown⟩
  · exact ⟨[], by rw [same, List.append_nil], List.forall_mem_nil _⟩
  · refine ⟨[row], grown, fun other member => ?_⟩
    rw [List.mem_singleton.mp member]
    exact cost

/-- A logged call adds its cost at most to the day's spend. -/
theorem spentToday_record (onward : g.log.toSessions.Onward g.nowFn) {entry : CallLogRecord}
    (cost : 0 ≤ entry.costUsd) (spends : Spends (g.log.rows w)) :
    g.spentToday (g.log.record entry w).2 ≤ g.spentToday w + entry.costUsd := by
  have later := dayStart_mono (record_onward onward entry w)
  have shrunk := spentSince_anti spends later
  unfold spentToday
  rcases g.log.record_rows entry w with same | ⟨row, rfl, grown⟩
  · rw [same]
    linarith
  · rw [grown, spentSince_append]
    have single := spentSince_single cost
      (dayStart (g.nowFn (g.log.record row.toCallLogRecord w).2))
    linarith

/-- A gate that lets pass has seen the spend below the ceiling, and it still is. -/
theorem isExhausted_false (onward : g.log.toSessions.Onward g.nowFn)
    (spends : Spends (g.log.rows w)) {answer : Except Error Bool}
    (ran : g.isExhausted w = (answer, w')) :
    g.calm.rel w w' ∧ (answer = .ok false → g.spentToday w' < g.budget) := by
  have queried := Sessions.scope_rule g.log.toSessions
    (Prog.reads fun t => spentSince t.1 (dayStart (g.nowFn w))) w
    (A := fun d => d.tables = g.log.rows w) (B := fun spent _ => spent = g.spentToday w)
    (by
      rintro _ _ ⟨⟩
      exact ⟨rfl, rfl⟩)
    fun _ => rfl
  have passes := Sessions.scope_onward onward
    (Prog.reads fun t => spentSince t.1 (dayStart (g.nowFn w))) w
  unfold isExhausted querySpentToday querySince at ran
  rcases asked : g.log.scope (Prog.reads fun t => spentSince t.1 (dayStart (g.nowFn w))) w with
    ⟨q, u⟩
  rw [asked] at queried passes
  have moved : g.calm.rel w u := ⟨passes, queried.1⟩
  have read : (Prog.reads g.nowFn >>= fun now =>
      g.log.scope (Prog.reads fun t => spentSince t.1 (dayStart now))) w = (q, u) := asked
  cases q with
  | error e =>
      rw [Prog.bind_of_error read] at ran
      obtain ⟨rfl, rfl⟩ := Prod.mk.inj ran
      exact ⟨moved, fun none => by cases none⟩
  | ok spent =>
      rw [Prog.bind_of_ok read] at ran
      obtain ⟨rfl, rfl⟩ := Prod.mk.inj ran
      refine ⟨moved, fun passed => ?_⟩
      have under : ¬ g.budget ≤ spent := by simpa using passed
      have told : spent = g.spentToday w := queried.2 spent rfl
      have still := spentToday_calm spends moved
      rw [told] at under
      exact lt_of_le_of_lt still (not_le.mp under)

end BudgetGovernor

/-! ### The ceiling over a run -/

def Adapter.post : Adapter K ω → Post K → ω → HttpAnswer × ω
  | .openai p => p.post
  | .ollama p => p.post

/-- A completion moves the world by one answered request. -/
theorem Adapter.complete_world (a : Adapter K ω) (messages : List Message) (model : String)
    (temperature : K) (maxTokens : Option ℤ) (responseFormat : Option (Dict K))
    (stop : List String) (w : ω) :
    ∃ posted, (a.complete messages model temperature maxTokens responseFormat stop w).2 =
      (a.post posted w).2 := by
  cases a with
  | openai p => exact ⟨_, rfl⟩
  | ollama p =>
      unfold Adapter.complete OllamaProvider.complete
      dsimp only
      split
      · exact ⟨_, rfl⟩
      · exact ⟨_, rfl⟩

/-- Neither a call's start nor its end. -/
def Event.isOther : Event K ω → Bool
  | .called _ _ _ _ => false
  | .ended _ _ => false
  | _ => true

/-- What happens to a router over time: a completion is asked for, or the world changes
between two completions. -/
inductive Turn (K ω : Type) where
  | complete (request : Request K)
  | elsewhere (change : ω → ω)

namespace LLMRouter
open Routed

section numbers
variable [Field K] [LinearOrder K] [FloorRing K]

def turn (r : LLMRouter K ω) : Turn K ω → Prog Error (Routed K ω) Unit
  | .complete request => (r.complete request).outcome >>= fun _ => pure ()
  | .elsewhere change => Prog.modify fun s => { s with world := change s.world }

/-- The turns one after the other, whatever the completions end in. -/
def run (r : LLMRouter K ω) (turns : List (Turn K ω)) : Prog Error (Routed K ω) Unit :=
  Prog.forEach turns r.turn

end numbers

/-- The gate is the governor over the log that the router writes; a request and a
transaction take time and leave the rest of the log alone. -/
structure Governed (r : LLMRouter K ω) (g : BudgetGovernor ω) : Prop where
  log : r.callLogger = g.log
  gate : r.budgetGate = some g.isExhausted
  onward : g.log.toSessions.Onward g.nowFn
  posts : ∀ entry ∈ r.providers, ∀ posted w, g.calm.rel w (entry.2.post posted w).2

def PaidStep (r : LLMRouter K ω) (step : ModelStep) : Prop :=
  Paid r.prices step.provider step.model

/-- Of two calls that were over, the older first: not both, being paid, ended a day's
spend at the ceiling or above. -/
def EndedApart (r : LLMRouter K ω) (g : BudgetGovernor ω) (newer older : Event K ω) : Prop :=
  ∀ step w step' w', newer = .ended step w → older = .ended step' w' →
    r.PaidStep step → r.PaidStep step' → g.budget ≤ g.spentToday w →
      g.budget ≤ g.spentToday w' → ¬ g.SameDay w' w

/-- Every paid call started with the day's spend below the ceiling, and at most one of a
day ended it there or above. -/
structure WithinBudget (r : LLMRouter K ω) (g : BudgetGovernor ω) (trace : List (Event K ω)) :
    Prop where
  below : ∀ step left request w, .called step left request w ∈ trace → r.PaidStep step →
    g.spentToday w < g.budget
  once : trace.Pairwise (r.EndedApart g)

/-- A call in the trace and what the provider made of it. -/
structure Replied (r : LLMRouter K ω) (trace : List (Event K ω)) (step : ModelStep) (left : ℕ)
    (request : Request K) (w : ω) (provider : Adapter K ω) (completion : Completion) : Prop where
  called : .called step left request w ∈ trace
  routed : dictGet r.providers step.provider = some provider
  replied : (reply provider step.model request w).1 = .ok completion

/-- No provider counts tokens below zero, and a reply of a paid step that the schema
refuses while a retry is left costs less than the day has left when its call starts. -/
structure Affordable (r : LLMRouter K ω) (g : BudgetGovernor ω) (trace : List (Event K ω)) :
    Prop where
  counts : ∀ step left request w provider completion,
    Replied r trace step left request w provider completion →
      0 ≤ completion.promptTokens ∧ 0 ≤ completion.completionTokens
  retries : ∀ step left request w provider completion cost,
    Replied r trace step (left + 1) request w provider completion → r.PaidStep step →
      (refusal request completion).isSome = true →
        r.replyCost provider step.model completion = some cost →
          g.spentToday w + cost < g.budget

variable {r : LLMRouter K ω} {g : BudgetGovernor ω} {trace more : List (Event K ω)}

theorem Affordable.suffix (affordable : r.Affordable g (more ++ trace)) : r.Affordable g trace := by
  have inside {step left request w provider completion}
      (replied : Replied r trace step left request w provider completion) :
      Replied r (more ++ trace) step left request w provider completion :=
    ⟨List.mem_append_right _ replied.called, replied.routed, replied.replied⟩
  constructor
  · intro step left request w provider completion replied
    exact affordable.counts step left request w provider completion (inside replied)
  · intro step left request w provider completion cost replied
    exact affordable.retries step left request w provider completion cost (inside replied)

/-- What the run keeps: the budget so far, and a day once at the ceiling stays there. -/
structure Sound (r : LLMRouter K ω) (g : BudgetGovernor ω) (s : Routed K ω) : Prop where
  within : r.WithinBudget g s.trace
  spends : Spends (g.log.rows s.world)
  past : ∀ step w, .ended step w ∈ s.trace → g.nowFn w ≤ g.nowFn s.world ∧
    (g.SameDay w s.world → g.budget ≤ g.spentToday w → g.budget ≤ g.spentToday s.world)

def Below (r : LLMRouter K ω) (g : BudgetGovernor ω) (step : ModelStep) (s : Routed K ω) : Prop :=
  r.PaidStep step → g.spentToday s.world < g.budget

variable {s t : Routed K ω}

/-- The world accrues, and other events are recorded. -/
theorem Sound.moves (sound : r.Sound g s) (accrued : g.accruing.rel s.world t.world)
    (grown : t.trace = more ++ s.trace) (other : ∀ e ∈ more, e.isOther = true) : r.Sound g t := by
  have old {e : Event K ω} (member : e ∈ t.trace) (kind : e.isOther = false) : e ∈ s.trace := by
    rw [grown] at member
    rcases List.mem_append.mp member with new | old
    · rw [other e new] at kind
      cases kind
    · exact old
  refine ⟨⟨?_, ?_⟩, g.spends_accruing sound.spends accrued, ?_⟩
  · intro step left request w member
    exact sound.within.below step left request w (old member rfl)
  · rw [grown]
    refine List.pairwise_append.mpr ⟨List.pairwise_of_forall_mem_list ?_, sound.within.once, ?_⟩
    · rintro e member _ _ step w _ _ rfl
      cases other _ member
    · rintro e member _ _ step w _ _ rfl
      cases other _ member
  · intro step w member
    obtain ⟨before, stays⟩ := sound.past step w (old member rfl)
    refine ⟨before.trans accrued.1, fun same reached => ?_⟩
    have now : g.SameDay w s.world := same.between before accrued.1
    have held := stays now reached
    have kept := g.spentToday_accruing accrued (now.symm.trans same)
    exact held.trans kept

/-- The day of the clock is none that a call, in which the step must not follow, used up. -/
def Fresh (r : LLMRouter K ω) (g : BudgetGovernor ω) (step : ModelStep) (s : Routed K ω) : Prop :=
  r.PaidStep step → ∀ step' w, .ended step' w ∈ s.trace → g.budget ≤ g.spentToday w →
    ¬ g.SameDay w s.world

variable {step : ModelStep} {left : ℕ} {request : Request K} {w : ω}

variable (left request) in
theorem Sound.called (sound : r.Sound g s) (below : r.Below g step s)
    (calm : g.calm.rel s.world w) :
    r.Sound g (afterReply step left request s w) ∧
      r.Fresh g step (afterReply step left request s w) := by
  have ended {step' : ModelStep} {w' : ω}
      (member : .ended step' w' ∈ (afterReply step left request s w).trace) :
      .ended step' w' ∈ s.trace := by
    rcases List.mem_cons.mp member with new | old
    · cases new
    · exact old
  refine ⟨⟨⟨?_, ?_⟩, ?_, ?_⟩, ?_⟩
  · intro step' left' request' w' member paid
    rcases List.mem_cons.mp member with new | old
    · obtain ⟨rfl, rfl, rfl, rfl⟩ := Event.called.inj new
      exact below paid
    · exact sound.within.below step' left' request' w' old paid
  · refine List.pairwise_cons.mpr ⟨?_, sound.within.once⟩
    rintro older member step₁ w₁ step₂ w₂ ⟨⟩
  · exact g.spends_accruing sound.spends (g.accruing_of_calm calm)
  · intro step' w' member
    obtain ⟨before, stays⟩ := sound.past step' w' (ended member)
    refine ⟨before.trans calm.1, fun same reached => ?_⟩
    have now : g.SameDay w' s.world := same.between before calm.1
    have kept := g.spentToday_accruing (g.accruing_of_calm calm) (now.symm.trans same)
    exact (stays now reached).trans kept
  · intro paid step' w' member reached same
    obtain ⟨before, stays⟩ := sound.past step' w' (ended member)
    have now : g.SameDay w' s.world := same.between before calm.1
    exact absurd (below paid) (not_lt.mpr (stays now reached))

theorem Sound.ends (governed : r.Governed g) (sound : r.Sound g s) (fresh : r.Fresh g step s)
    {record : CallLogRecord} (cost : 0 ≤ record.costUsd) :
    r.Sound g (r.afterCall step record s) := by
  have accrued : g.accruing.rel s.world (r.callLogger.record record s.world).2 := by
    rw [governed.log]
    exact g.record_accrues governed.onward cost s.world
  have logged : r.Sound g (r.afterLog record s) := by
    have grown : (r.afterLog record s).trace = [.logged record] ++ s.trace := rfl
    apply sound.moves accrued grown
    intro e member
    rw [List.mem_singleton.mp member]
    rfl
  refine ⟨⟨?_, ?_⟩, logged.spends, ?_⟩
  · intro step' left request w member
    rcases List.mem_cons.mp member with new | old
    · cases new
    · exact logged.within.below step' left request w old
  · refine List.pairwise_cons.mpr ⟨?_, logged.within.once⟩
    rintro older member step₁ w₁ step₂ w₂ ⟨⟩ rfl paid _ _ reached same
    have old : .ended step₂ w₂ ∈ s.trace := by
      rcases List.mem_cons.mp member with new | old
      · cases new
      · exact old
    have before := (sound.past step₂ w₂ old).1
    exact fresh paid step₂ w₂ old reached (same.between before accrued.1)
  · intro step' w member
    rcases List.mem_cons.mp member with new | old
    · obtain ⟨rfl, rfl⟩ := Event.ended.inj new
      exact ⟨le_refl _, fun _ reached => reached⟩
    · exact logged.past step' w old

/-- What a program that prepends to the trace keeps, as far as its calls are affordable. -/
def keeping (r : LLMRouter K ω) (g : BudgetGovernor ω) : Frame (Routed K ω) where
  rel s t := (∃ more, t.trace = more ++ s.trace) ∧
    (r.Affordable g t.trace → r.Sound g s → r.Sound g t)
  refl s := ⟨⟨[], rfl⟩, fun _ sound => sound⟩
  trans := by
    rintro a b c ⟨⟨more, ab⟩, first⟩ ⟨⟨more', bc⟩, second⟩
    refine ⟨⟨more' ++ more, by rw [bc, ab, List.append_assoc]⟩, fun affordable sound => ?_⟩
    refine second affordable (first ?_ sound)
    rw [bc] at affordable
    exact affordable.suffix

theorem moves_keeping (accrued : g.accruing.rel s.world t.world)
    (grown : t.trace = more ++ s.trace) (other : ∀ e ∈ more, e.isOther = true) :
    (r.keeping g).rel s t := ⟨⟨more, grown⟩, fun _ sound => sound.moves accrued grown other⟩

theorem reply_calm (governed : r.Governed g) {provider : Adapter K ω}
    (routed : dictGet r.providers step.provider = some provider) {answer : Except Error Completion}
    (replied : reply provider step.model request s.world = (answer, w)) :
    g.calm.rel s.world w := by
  obtain ⟨entry, found, rfl⟩ := Option.map_eq_some_iff.mp routed
  obtain ⟨posted, moved⟩ : ∃ posted, (reply entry.2 step.model request s.world).2 =
      (entry.2.post posted s.world).2 := entry.2.complete_world _ _ _ _ _ _ _
  have posts := governed.posts entry (List.mem_of_find?_eq_some found) posted s.world
  rw [← moved, replied] at posts
  exact posts

section calls
variable [Field K] [LinearOrder K] [FloorRing K]

theorem Attempted.sound (governed : r.Governed g) {provider : Adapter K ω}
    (routed : dictGet r.providers step.provider = some provider)
    {q : Except Error Completion × Routed K ω}
    (ended : Attempted r provider step left request s q) :
    (∃ more, q.2.trace = more ++ s.trace) ∧
      (r.Affordable g q.2.trace → r.Sound g s → r.Below g step s →
        r.Sound g q.2 ∧ ∀ e, q.1 = .error e → e.isSchemaValidation = true → 0 < left →
          r.Below g step q.2) := by
  -- a logged call costs what the affordable reply costs
  have spends {completion : Completion} {status : String} {cost : ℚ} {w : ω}
      (replied : reply provider step.model request s.world = (.ok completion, w))
      (costs : r.replyCost provider step.model completion = some cost)
      (affordable : r.Affordable g (r.afterCall step (r.entry request.role provider.name step.model
        (some completion) status (some (r.perfCounter s.world)) cost w)
        (afterReply step left request s w)).trace)
      (sound : r.Sound g s) (below : r.Below g step s) :
      0 ≤ cost ∧ r.Sound g (r.afterCall step (r.entry request.role provider.name step.model
        (some completion) status (some (r.perfCounter s.world)) cost w)
        (afterReply step left request s w)) := by
    obtain ⟨prompt, tokens⟩ := affordable.counts step left request s.world provider completion
      ⟨List.mem_cons_of_mem _ (List.mem_cons_of_mem _ List.mem_cons_self), routed,
        congrArg Prod.fst replied⟩
    have nonneg : 0 ≤ cost := estimateCost_nonneg prompt tokens costs
    have called := sound.called left request below (reply_calm governed routed replied)
    exact ⟨nonneg, called.1.ends governed called.2 nonneg⟩
  cases ended with
  | @failed e w replied known =>
      refine ⟨⟨[_, _, _], rfl⟩, fun affordable sound below => ⟨?_, ?_⟩⟩
      · have called := sound.called left request below (reply_calm governed routed replied)
        exact called.1.ends governed called.2 (le_refl _)
      · rintro _ ⟨⟩ schema
        rw [Error.not_schemaValidation known] at schema
        cases schema
  | raised replied foreign =>
      have calm := reply_calm governed routed replied
      refine ⟨⟨[_], rfl⟩, fun affordable sound below => ⟨(sound.called left request below calm).1, ?_⟩⟩
      intro e raised schema retry paid
      exact lt_of_le_of_lt (g.spentToday_calm sound.spends calm) (below paid)
  | uncounted replied invalid =>
      refine ⟨⟨[_], rfl⟩, fun affordable sound below => ⟨?_, ?_⟩⟩
      · exact (sound.called left request below (reply_calm governed routed replied)).1
      · rintro e ⟨⟩ schema
        cases schema
  | @rejected completion w cost schema text replied costs refused =>
      have calm := reply_calm governed routed replied
      refine ⟨⟨[_, _, _], rfl⟩, fun affordable sound below => ?_⟩
      obtain ⟨nonneg, after⟩ := spends replied costs affordable sound below
      refine ⟨after, ?_⟩
      rintro e ⟨⟩ _ retry paid
      obtain ⟨n, rfl⟩ := Nat.exists_eq_succ_of_ne_zero retry.ne'
      have room : g.spentToday s.world + cost < g.budget := by
        apply affordable.retries step n request s.world provider completion cost _ paid _ costs
        · exact ⟨List.mem_cons_of_mem _ (List.mem_cons_of_mem _ List.mem_cons_self), routed,
            congrArg Prod.fst replied⟩
        · rw [refused]
          rfl
      have waited := g.spentToday_calm sound.spends calm
      have spends := g.spends_accruing sound.spends (g.accruing_of_calm calm)
      have recorded := g.spentToday_record (w := w) governed.onward
        (show 0 ≤ (r.entry request.role provider.name step.model (some completion) "schema_error"
          (some (r.perfCounter s.world)) cost w).costUsd from nonneg) spends
      rw [← governed.log] at recorded
      calc g.spentToday _ ≤ g.spentToday w + cost := recorded
        _ ≤ g.spentToday s.world + cost := add_le_add_left waited cost
        _ < g.budget := room
  | returned replied costs valid =>
      refine ⟨⟨[_, _, _], rfl⟩, fun affordable sound below => ⟨?_, fun e raised => by cases raised⟩⟩
      exact (spends replied costs affordable sound below).2

theorem invokeWithFeedback_sound (governed : r.Governed g) {provider : Adapter K ω}
    (routed : dictGet r.providers step.provider = some provider) (left : ℕ) (request : Request K)
    (s : Routed K ω) :
    (∃ more, (r.invokeWithFeedback provider step left request s).2.trace = more ++ s.trace) ∧
      (r.Affordable g (r.invokeWithFeedback provider step left request s).2.trace →
        r.Sound g s → r.Below g step s →
          r.Sound g (r.invokeWithFeedback provider step left request s).2) := by
  induction left generalizing request s with
  | zero =>
      obtain ⟨grown, kept⟩ := (r.attempt_spec provider step 0 request s).sound governed routed
      exact ⟨grown, fun affordable sound below => (kept affordable sound below).1⟩
  | succ left ih =>
      obtain ⟨⟨more, grown⟩, kept⟩ :=
        (r.attempt_spec provider step (left + 1) request s).sound governed routed
      unfold invokeWithFeedback
      rcases tried : r.attempt provider step (left + 1) request s with ⟨q, t⟩
      rw [tried] at grown kept
      cases q with
      | ok completion =>
          rw [Prog.rescue_of_ok tried]
          exact ⟨⟨more, grown⟩, fun affordable sound below => (kept affordable sound below).1⟩
      | error e =>
          cases schema : e.isSchemaValidation with
          | false =>
              rw [Prog.rescue_of_passed tried schema]
              exact ⟨⟨more, grown⟩, fun affordable sound below => (kept affordable sound below).1⟩
          | true =>
              rw [Prog.rescue_of_caught tried schema]
              obtain ⟨⟨more', grown'⟩, kept'⟩ := ih
                { request with messages := request.messages ++ feedback e } t
              have whole := grown'.trans (congrArg (more' ++ ·) grown)
              refine ⟨⟨more' ++ more, by rw [List.append_assoc]; exact whole⟩,
                fun affordable sound below => ?_⟩
              have early : r.Affordable g t.trace := by
                rw [grown'] at affordable
                exact affordable.suffix
              obtain ⟨after, room⟩ := kept early sound below
              exact kept' affordable after (room e rfl schema (Nat.succ_pos left))

/-- The gate is asked for every step that costs something. -/
def Priced (r : LLMRouter K ω) : Prop :=
  ∀ step, r.PaidStep step →
    ∃ cost, estimateCost r.prices step.provider step.model 1 1 = some cost ∧ 0 < cost

omit [Field K] [LinearOrder K] [FloorRing K] in
/-- A step that the gate lets through may be called. -/
theorem budgetBlocks_sound (governed : r.Governed g) (priced : r.Priced) {q : Except Error Bool}
    (ran : r.budgetBlocks step s = (q, t)) :
    (r.keeping g).rel s t ∧ (r.Sound g s → q = .ok false → r.Below g step t) := by
  unfold budgetBlocks at ran
  rw [governed.gate] at ran
  dsimp only at ran
  cases estimated : estimateCost r.prices step.provider step.model 1 1 with
  | none =>
      rw [estimated] at ran
      obtain ⟨rfl, rfl⟩ := Prod.mk.inj ran
      exact ⟨(r.keeping g).refl _, fun _ none => by cases none⟩
  | some cost =>
      rw [estimated] at ran
      dsimp only at ran
      by_cases free : cost ≤ 0
      · rw [if_pos free] at ran
        obtain ⟨rfl, rfl⟩ := Prod.mk.inj ran
        refine ⟨(r.keeping g).refl _, fun _ _ paid => ?_⟩
        obtain ⟨cost', same, positive⟩ := priced step paid
        obtain rfl := Option.some.inj (estimated.symm.trans same)
        exact absurd free (not_le.mpr positive)
      · rw [if_neg free] at ran
        have asked : (Routed.outside g.isExhausted : Prog Error (Routed K ω) Bool)
            { s with trace := .asked step s.world :: s.trace } = (q, t) := ran
        rcases answered : g.isExhausted s.world with ⟨answer, w⟩
        have left : (answer, { s with world := w, trace := .asked step s.world :: s.trace }) =
            (q, t) := by
          rw [← asked]
          unfold Routed.outside Prog.zoom
          rw [answered]
        obtain ⟨rfl, rfl⟩ := Prod.mk.inj left
        have grown : (Routed.mk w s.breakers (.asked step s.world :: s.trace)).trace =
            [Event.asked step s.world] ++ s.trace := rfl
        have plain : ∀ e ∈ [Event.asked (K := K) step s.world], e.isOther = true := by
          intro e member
          rw [List.mem_singleton.mp member]
          rfl
        refine ⟨⟨⟨_, grown⟩, fun _ sound => ?_⟩, fun sound passed paid => ?_⟩
        · have moved := (g.isExhausted_false governed.onward sound.spends answered).1
          exact sound.moves (g.accruing_of_calm moved) grown plain
        · exact (g.isExhausted_false governed.onward sound.spends answered).2 passed

omit [Field K] [LinearOrder K] [FloorRing K] in
/-- What the breakers record changes nothing of the budget. -/
theorem still_keeping (grown : t.trace = more ++ s.trace) (same : t.world = s.world)
    (other : ∀ e ∈ more, e.isOther = true) : (r.keeping g).rel s t := by
  apply moves_keeping _ grown other
  rw [same]
  exact g.accruing.refl s.world

omit [Field K] [LinearOrder K] [FloorRing K] in
theorem still_one (e : Event K ω) (grown : t.trace = e :: s.trace) (same : t.world = s.world)
    (other : e.isOther = true) : (r.keeping g).rel s t := by
  apply still_keeping (show t.trace = [e] ++ s.trace from grown) same
  intro x member
  rw [List.mem_singleton.mp member]
  exact other

theorem Invoked.sound (governed : r.Governed g) {provider : Adapter K ω}
    (routed : dictGet r.providers step.provider = some provider)
    {q : Except Error (Except Error Completion) × Routed K ω}
    (ended : Invoked r provider step request s q) :
    (∃ more, q.2.trace = more ++ s.trace) ∧
      (r.Affordable g q.2.trace → r.Sound g s → r.Below g step s → r.Sound g q.2) := by
  have started : (r.keeping g).rel s (admitted step s) := still_one (.invoked step) rfl rfl rfl
  -- the calls of the step, and then what the breaker records
  have through {result : Except Error Completion} {t u : Routed K ω}
      (ran : r.invokeWithFeedback provider step r.schemaRetries request (admitted step s) =
        (result, t)) (recorded : (r.keeping g).rel t u) :
      (∃ more, u.trace = more ++ s.trace) ∧
        (r.Affordable g u.trace → r.Sound g s → r.Below g step s → r.Sound g u) := by
    obtain ⟨⟨calls, grown⟩, kept⟩ :=
      invokeWithFeedback_sound governed routed r.schemaRetries request (admitted step s)
    rw [ran] at grown kept
    obtain ⟨⟨more, grown'⟩, kept'⟩ := recorded
    have whole : u.trace = more ++ calls ++ (Event.invoked step :: s.trace) := by
      rw [List.append_assoc, grown', grown]
      rfl
    refine ⟨⟨more ++ calls ++ [Event.invoked step], by rw [whole, List.append_cons]⟩, ?_⟩
    intro affordable sound below
    have early : r.Affordable g t.trace := by
      rw [grown'] at affordable
      exact affordable.suffix
    have begun : r.Affordable g (admitted step s).trace := by
      rw [grown] at early
      exact early.suffix
    exact kept' affordable (kept early (started.2 begun sound) below)
  cases ended with
  | succeeded ran => exact through ran (still_one (.outcome step.provider true) rfl rfl rfl)
  | failed ran known => exact through ran (still_one (.outcome step.provider false) rfl rfl rfl)
  | unusable ran schema => exact through ran (still_one (.outcome step.provider true) rfl rfl rfl)
  | raised ran known schema => exact through ran ((r.keeping g).refl _)

theorem tryStep_keeping (governed : r.Governed g) (priced : r.Priced) (step : ModelStep)
    (request : Request K) (lastError : Option Error) :
    Prog.Keeps (r.keeping g) (r.tryStep step request lastError) := by
  intro s
  have settled : (r.keeping g).rel s (r.settledBreaker step s) :=
    still_keeping (show (r.settledBreaker step s).trace = [] ++ s.trace from rfl) rfl
      (List.forall_mem_nil _)
  have gated {q : Except Error Bool} {t : Routed K ω}
      (asked : r.budgetBlocks step (r.settledBreaker step s) = (q, t)) : (r.keeping g).rel s t :=
    (r.keeping g).trans settled (budgetBlocks_sound governed priced asked).1
  -- a step that the gate lets through
  have called {t : Routed K ω} {provider : Adapter K ω}
      {q : Except Error (Except Error Completion) × Routed K ω}
      (asked : r.budgetBlocks step (r.settledBreaker step s) = (.ok false, t))
      (routed : dictGet r.providers step.provider = some provider)
      (ended : Invoked r provider step request t q) : (r.keeping g).rel s q.2 := by
    obtain ⟨⟨more, grown⟩, kept⟩ := ended.sound governed routed
    obtain ⟨⟨first, before⟩, keeps⟩ := gated asked
    refine ⟨⟨more ++ first, by rw [grown, before, List.append_assoc]⟩, fun affordable sound => ?_⟩
    have early : r.Affordable g t.trace := by
      rw [grown] at affordable
      exact affordable.suffix
    have begun : r.Affordable g s.trace := by
      rw [before] at early
      exact early.suffix
    have below := (budgetBlocks_sound governed priced asked).2 (settled.2 begun sound) rfl
    exact kept affordable (keeps early sound) below
  have ended := r.tryStep_spec step request lastError s
  generalize r.tryStep step request lastError s = q at ended ⊢
  cases ended with
  | refused closed => exact still_one (.refused step) rfl rfl rfl
  | ungated asked => exact gated asked
  | @blocked t asked =>
      refine (r.keeping g).trans (gated asked) ?_
      have accrued : g.accruing.rel t.world (r.callLogger.record
          (r.entry request.role step.provider step.model none budgetSkipStatus none 0 t.world)
          t.world).2 := by
        rw [governed.log]
        exact g.record_accrues governed.onward (le_refl 0) t.world
      have grown (skipped logged : Event K ω) :
          skipped :: logged :: t.trace = [skipped, logged] ++ t.trace := rfl
      refine moves_keeping accrued (grown _ _) ?_
      intro e member
      rcases List.mem_cons.mp member with rfl | member
      · rfl
      · rw [List.mem_singleton.mp member]
        rfl
  | unrouted asked missing => exact gated asked
  | invoked asked routed ended => exact called asked routed ended
  | raised asked routed ended => exact called asked routed ended

theorem completeFrom_keeping (governed : r.Governed g) (priced : r.Priced) (request : Request K)
    (chain : List ModelStep) (lastError : Option Error) :
    Prog.Keeps (r.keeping g) (r.completeFrom request chain lastError) := by
  induction chain generalizing lastError with
  | nil => exact fun s => (r.keeping g).refl s
  | cons step rest ih =>
      intro s
      have tried := tryStep_keeping governed priced step request lastError s
      unfold completeFrom
      rcases ran : r.tryStep step request lastError s with ⟨q, t⟩
      rw [ran] at tried
      cases q with
      | error e =>
          rw [Prog.bind_of_error ran]
          exact tried
      | ok result =>
          rw [Prog.bind_of_ok ran]
          cases result with
          | ok completion => exact tried
          | error lastError => exact (r.keeping g).trans tried (ih lastError t)

theorem complete_keeping (governed : r.Governed g) (priced : r.Priced) (request : Request K) :
    Prog.Keeps (r.keeping g) (r.complete request) := by
  intro s
  unfold complete
  cases r.routing.chainFor request.role with
  | error e => exact (r.keeping g).refl s
  | ok chain => exact completeFrom_keeping governed priced request chain none s

theorem turn_keeping (governed : r.Governed g) (priced : r.Priced) (turn : Turn K ω)
    (others : ∀ change, turn = .elsewhere change → ∀ w, g.accruing.rel w (change w)) :
    Prog.Keeps (r.keeping g) (r.turn turn) := by
  intro s
  cases turn with
  | complete request => exact complete_keeping governed priced request s
  | elsewhere change =>
      have same : s.trace = [] ++ s.trace := rfl
      exact moves_keeping (others change rfl s.world) same (List.forall_mem_nil _)

theorem run_keeping (governed : r.Governed g) (priced : r.Priced) (turns : List (Turn K ω))
    (others : ∀ change, .elsewhere change ∈ turns → ∀ w, g.accruing.rel w (change w)) :
    Prog.Keeps (r.keeping g) (r.run turns) := by
  intro s
  unfold run
  induction turns generalizing s with
  | nil => exact (r.keeping g).refl s
  | cons turn turns ih =>
      have first := turn_keeping governed priced turn
        (fun change same => others change (by rw [← same]; exact List.mem_cons_self)) s
      have rest := ih fun change member => others change (List.mem_cons_of_mem turn member)
      change (r.keeping g).rel s ((r.turn turn >>= fun _ => Prog.forEach turns r.turn) s).2
      rcases ran : r.turn turn s with ⟨q, t⟩
      rw [ran] at first
      cases q with
      | error e =>
          rw [Prog.bind_of_error ran]
          exact first
      | ok _ =>
          rw [Prog.bind_of_ok ran]
          exact (r.keeping g).trans first (rest t)

/-- Over every run of completions, whatever the chains, the replies and the failures: where
each step that costs something is asked about, and the replies are affordable, every paid
call starts with the day's recorded spend below the ceiling, and at most one of a day ends
it there or above. -/
theorem run_within_budget (r : LLMRouter K ω) (g : BudgetGovernor ω) (governed : r.Governed g)
    (priced : r.Priced) (turns : List (Turn K ω))
    (others : ∀ change, .elsewhere change ∈ turns → ∀ w, g.accruing.rel w (change w)) (world : ω)
    (spends : Spends (g.log.rows world))
    (affordable : r.Affordable g (r.run turns (r.fresh world)).2.trace) :
    r.WithinBudget g (r.run turns (r.fresh world)).2.trace := by
  have start : r.Sound g (r.fresh world) := by
    refine ⟨⟨?_, List.Pairwise.nil⟩, spends, ?_⟩
    · intro step left request w member
      cases member
    · intro step w member
      cases member
  have kept := run_keeping governed priced turns others (r.fresh world)
  exact (kept.2 affordable start).within

end calls
end LLMRouter

/-! ### A retry above the ceiling -/

namespace DailyCeiling
open LLMRouter

abbrev World := Database Error (List CallLogRow) ℕ

def callLog : CallLog World where
  db := .whole
  meanwhile := id
  apart _ := rfl
  serverNow _ := 0

def governor : BudgetGovernor World where
  log := callLog
  budget := 5
  nowFn _ := 0

def step : ModelStep := ⟨"groq", "llama-3.3-70b-versatile"⟩

def envelope (content : String) : Dict Number :=
  [("choices", .arr [.obj [("message", .obj [("content", .str content)])]]),
    ("usage", .obj [("prompt_tokens", .int 2000), ("completion_tokens", .int 500)])]

def answer (content : String) : HttpAnswer := .response 200 "" (some (.obj (envelope content)))

def groq (content : String) : OpenAICompatibleProvider ℚ World where
  name := "groq"
  post _ w := (answer content, w)
  intOfText _ := none

def router (content : String) : LLMRouter ℚ World where
  providers := [("groq", .openai (groq content))]
  routing := ⟨[("deliberation", [step])]⟩
  callLogger := callLog
  budgetGate := some governor.isExhausted
  prices := pricing
  failureThreshold := 4
  resetTimeout := 60
  schemaRetries := 1
  timeFn _ := 0
  perfCounter _ := 0
  validated := by
    intro entry member s inside
    rw [List.mem_singleton.mp member] at inside
    rw [List.mem_singleton.mp inside]
    rfl

/-- A schema that only takes an empty object. -/
def schema : Schema where
  name := "Plan"
  invalid content := if content = "\x7b\x7d" then none else some "Invalid JSON"

def request : Request ℚ where
  role := "deliberation"
  messages := [⟨"user", "plan"⟩]
  schema := some schema
  temperature := 7 / 10

/-- The log of a day that has a thousandth of a dollar left. -/
def spent : World where
  tables := [{ id := 1, ts := 0, role := "deliberation", provider := "groq"
               model := "llama-3.3-70b-versatile", promptTokens := 0, completionTokens := 0
               latencyMs := 0, status := "ok", costUsd := 4999 / 1000 }]
  sequences := 2

def completed (content : String) : Routed ℚ World :=
  ((router content).run [.complete request] ((router content).fresh spent)).2

/-- A call of the step that starts with the ceiling reached. -/
def late : Event ℚ World → Bool
  | .called s _ _ w => s == step && decide (governor.budget ≤ governor.spentToday w)
  | _ => false

theorem step_paid (content : String) : (router content).PaidStep step :=
  ⟨_, rfl, by norm_num⟩

theorem governed (content : String) : (router content).Governed governor where
  log := rfl
  gate := rfl
  onward := ⟨fun _ => le_refl _, fun _ _ => rfl⟩
  posts entry member posted w := by
    rw [List.mem_singleton.mp member]
    exact governor.calm.refl w

theorem priced (content : String) : (router content).Priced := by
  rintro ⟨provider, model⟩ ⟨price, listed, _⟩
  obtain ⟨rfl, rfl⟩ := pricing_key listed
  exact ⟨1 / 1000000, estimateCost_listed, by norm_num⟩

def reply : Completion where
  content := "\x7b\x7d"
  provider := "groq"
  model := "llama-3.3-70b-versatile"
  promptTokens := 2000
  completionTokens := 500
  raw := envelope "\x7b\x7d"

theorem replies (asked : Request ℚ) (w : World) :
    (LLMRouter.reply (.openai (groq "\x7b\x7d")) step.model asked w).1 = .ok reply := by
  rfl

/-- A call of the step that asks for what the reply gives. -/
def satisfied : Event ℚ World → Bool
  | .called s _ asked _ => s == step && (refusal asked reply).isNone
  | _ => true

/-- Every call of the valid run takes the reply, and the run ends above the ceiling. -/
theorem valid_run : (completed "\x7b\x7d").trace.all satisfied = true ∧
    governor.budget ≤ governor.spentToday (completed "\x7b\x7d").world := by
  decide +kernel

theorem affordable : (router "\x7b\x7d").Affordable governor (completed "\x7b\x7d").trace := by
  have told {s : ModelStep} {left : ℕ} {asked : Request ℚ} {w : World}
      {provider : Adapter ℚ World} {completion : Completion}
      (replied : (router "\x7b\x7d").Replied (completed "\x7b\x7d").trace s left asked w provider
        completion) : completion = reply ∧ refusal asked completion = none := by
    obtain ⟨same, valid⟩ := Bool.and_eq_true_iff.mp (List.all_eq_true.mp valid_run.1 _ replied.called)
    obtain rfl := eq_of_beq same
    obtain rfl : Adapter.openai (groq "\x7b\x7d") = provider := Option.some.inj replied.routed
    have content := replied.replied
    rw [replies] at content
    obtain rfl := Except.ok.inj content
    exact ⟨rfl, Option.isNone_iff_eq_none.mp valid⟩
  constructor
  · intro s left asked w provider completion replied
    rw [(told replied).1]
    decide
  · intro s left asked w provider completion cost replied _ refused
    rw [(told replied).2] at refused
    cases refused

end DailyCeiling

open DailyCeiling in
/-- The retry of a refused reply starts above the ceiling. -/
theorem refused_reply_overspends :
    ¬ (router "prose").WithinBudget governor (completed "prose").trace := by
  intro kept
  have overspent : (completed "prose").trace.any late = true := by decide +kernel
  obtain ⟨e, member, starts⟩ := List.any_eq_true.mp overspent
  cases e with
  | called s left request w =>
      obtain ⟨same, reached⟩ := Bool.and_eq_true_iff.mp starts
      obtain rfl := eq_of_beq same
      have under := kept.below step left request w member (step_paid "prose")
      exact absurd under (not_lt.mpr (of_decide_eq_true reached))
  | _ => cases starts

open DailyCeiling in
/-- A valid reply may end above the ceiling, but no paid call starts there. -/
theorem valid_reply_within_budget :
    (router "\x7b\x7d").WithinBudget governor (completed "\x7b\x7d").trace ∧
      governor.budget ≤ governor.spentToday (completed "\x7b\x7d").world := by
  refine ⟨?_, valid_run.2⟩
  apply (router "\x7b\x7d").run_within_budget governor (governed _) (priced _)
    [.complete request] _ spent _ affordable
  · intro change member
    cases List.mem_singleton.mp member
  · intro row member
    rw [List.mem_singleton.mp member]
    norm_num

end Johnny.LLM
