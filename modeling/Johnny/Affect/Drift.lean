import Johnny.Affect.Agent
import Johnny.Lib.Hoare

/-!
# How far the mood strays from its last row

A call that writes leaves no distance to the last row, and one that does not adds its own
move to the distance there was. A call compares with the mood in memory, so the mood stays
within the threshold of the last row where that is the mood of the row, or the call writes.
-/
namespace Johnny

namespace Affect
variable {K ω α : Type} [Field K] [LinearOrder K] (a : Affect K ω)

def rows (s : Affected K ω) : List (MoodRow K) := (a.sessions.db.get s.world).tables

/-- The mood in memory, or the one that the next access loads. -/
def known (s : Affected K ω) : Feeling K := s.current.getD (loadedFrom (a.rows s))

/-- The writes to come succeed. -/
def Settled (s : Affected K ω) : Prop := (a.sessions.db.get s.world).endings = []

/-- A completion leaves the moods on record alone. -/
def RouterApart : Prop := ∀ complete, a.router = some complete →
  ∀ role messages temperature maxTokens w,
    a.sessions.db.get (complete role messages temperature maxTokens w).2 = a.sessions.db.get w

/-- The distance of two moods, as `_should_persist` takes it. -/
def distance (old new : Mood K) : K :=
  |new.valence - old.valence| + |new.arousal - old.arousal|

/-- The mood has the tags of the last row, and is less than the threshold away from it. -/
def InStep (s : Affected K ω) : Prop :=
  match (a.rows s).getLast? with
  | none => (a.known s).id = none
  | some row => sameTags (a.known s).emotions row.emotions = true ∧
      distance row.toFeeling.toMood (a.known s).toMood < a.persistMinChange

instance (s : Affected K ω) : Decidable (a.InStep s) :=
  match last : (a.rows s).getLast? with
  | none => decidable_of_iff ((a.known s).id = none) (by unfold InStep; rw [last])
  | some row => decidable_of_iff (sameTags (a.known s).emotions row.emotions = true ∧
      distance row.toFeeling.toMood (a.known s).toMood < a.persistMinChange)
      (by unfold InStep; rw [last])

def ready (s : Affected K ω) : Affected K ω := (a.current s).2

/-- What the call makes of the mood, where this is the appraisal. -/
def moved (call : AppraiseCall K) (appraisal : Appraisal K) (s : Affected K ω) : Mood K :=
  a.blended (a.known s) call appraisal (call.now.getD (a.nowFn (a.ready s).world))

/-- The call starts from the mood of the last row, or what it is told makes it write. -/
def Anchored (call : AppraiseCall K) (s : Affected K ω) : Prop :=
  ∀ row, (a.rows s).getLast? = some row →
    ((a.known s).valence = row.valence ∧ (a.known s).arousal = row.arousal) ∨
      ∀ appraisal, (a.appraise call (a.ready s)).1 = .ok appraisal →
        a.shouldPersist (a.known s).toMood (a.moved call appraisal s) = true

variable {a} {s s' : Affected K ω}

/-! ### What a call does -/

omit [LinearOrder K] in
theorem scope_of_settled (settled : a.Settled s) (body : Prog Failure (List (MoodRow K) × ℕ) α)
    {x : α} {t : List (MoodRow K) × ℕ}
    (ran : body (a.rows s, (a.sessions.db.get s.world).sequences) = (.ok x, t)) :
    ∃ s', outside (a.sessions.scope body) s = (.ok x, s') ∧ s'.current = s.current ∧
      a.rows s' = t.1 ∧ a.Settled s' := by
  have ended : Database.transact body (a.sessions.db.get s.world) =
      (.ok x, (a.sessions.db.get s.world).commit t) := by
    have body' : body ((a.sessions.db.get s.world).tables,
      (a.sessions.db.get s.world).sequences) = (.ok x, t) := ran
    unfold Settled at settled
    simp only [Database.transact, Database.ending, settled, List.headD_nil, body']
  have stored : a.sessions.db.get (a.sessions.scope body s.world).2 =
      (a.sessions.db.get s.world).commit t := by
    rw [a.sessions.scope_db, Sessions.after, ended]
  have answered : (a.sessions.scope body s.world).1 = .ok x := by
    rw [Sessions.scope_apply, ended]
  refine ⟨{ s with world := (a.sessions.scope body s.world).2 }, ?_, rfl, ?_, ?_⟩
  · rw [← answered]
    rfl
  · unfold rows
    rw [stored]
    rfl
  · unfold Settled at settled ⊢
    rw [stored]
    simp [Database.commit, settled]

theorem current_spec (settled : a.Settled s) :
    a.current s = (.ok (a.known s), a.ready s) ∧ (a.ready s).current = some (a.known s) ∧
      a.rows (a.ready s) = a.rows s ∧ a.Settled (a.ready s) := by
  have spec : ∃ s', a.current s = (.ok (a.known s), s') ∧ s'.current = some (a.known s) ∧
      a.rows s' = a.rows s ∧ a.Settled s' := by
    cases held : s.current with
    | some feeling =>
        have known : a.known s = feeling := by
          unfold known
          rw [held]
          rfl
        refine ⟨s, ?_, ?_, rfl, settled⟩
        · unfold current
          rw [Prog.reads_bind, held, known]
          rfl
        · rw [held, known]
    | none =>
        have known : a.known s = loadedFrom (a.rows s) := by
          unfold known
          rw [held]
          rfl
        obtain ⟨t, ran, -, rows, still⟩ := scope_of_settled settled
          (Prog.reads fun t => loadedFrom t.1) (x := loadedFrom (a.rows s)) rfl
        refine ⟨{ t with current := some (a.known s) }, ?_, rfl, rows, still⟩
        unfold current
        rw [Prog.reads_bind, held]
        dsimp only
        rw [Prog.bind_of_ok ran, known]
        rfl
  obtain ⟨s', ran, held, rows, still⟩ := spec
  have same : a.ready s = s' := congrArg Prod.snd ran
  rw [same]
  exact ⟨ran, held, rows, still⟩

/-- An appraisal leaves the mood in memory and the moods on record alone. -/
theorem appraise_keeps (apart : a.RouterApart) (call : AppraiseCall K) (s : Affected K ω) :
    (a.appraise call s).2.current = s.current ∧
      a.sessions.db.get (a.appraise call s).2.world = a.sessions.db.get s.world := by
  let I (t : Affected K ω) : Prop := t.current = s.current ∧
    a.sessions.db.get t.world = a.sessions.db.get s.world
  have outside {β : Type} {p : Prog Failure ω β}
      (still : ∀ w, a.sessions.db.get (p w).2 = a.sessions.db.get w) :
      Prog.Maintains I (outside p) fun _ => True :=
    fun t held => ⟨⟨held.1, (still t.world).trans held.2⟩, fun _ _ => trivial⟩
  have maintained : Prog.Maintains I (a.appraise call) fun _ => True := by
    unfold appraise
    have done {β : Type} (b : β) : Prog.Maintains I (pure b : Prog Failure _ β) fun _ => True :=
      .pure trivial
    refine .bind (Q := fun _ => True) ?_ fun _ _ => done _
    unfold appraiseInput
    split
    · next situation complete _ wired =>
        unfold appraiseWithLlm
        have asked : Prog.Maintains I _ fun _ => True :=
          outside (apart complete wired "affect" [⟨"system", a.prompt⟩, ⟨"user", render situation⟩]
            (frac 4 10) a.maxTokens)
        refine .bind (Q := fun _ => True) (.rescue (asked.bind fun _ _ => done _)
          fun _ => done _) fun answer _ => ?_
        cases answer with
        | none => exact done _
        | some completion => exact .bind (.reraise _) fun _ _ => done _
    · exact done _
  exact (maintained s ⟨rfl, rfl⟩).1

/-- How a call ends, where the writes succeed. -/
inductive Appraised (a : Affect K ω) (call : AppraiseCall K) (s s' : Affected K ω) : Prop
  | raised (failure : Failure) (told : (a.appraise call (a.ready s)).1 = .error failure)
      (held : a.known s' = a.known s) (rows : a.rows s' = a.rows s)
  | kept (appraisal : Appraisal K) (told : (a.appraise call (a.ready s)).1 = .ok appraisal)
      (small : a.shouldPersist (a.known s).toMood (a.moved call appraisal s) = false)
      (held : (a.known s').toMood = { a.moved call appraisal s with id := (a.known s).id })
      (rows : a.rows s' = a.rows s)
  | wrote (appraisal : Appraisal K) (told : (a.appraise call (a.ready s)).1 = .ok appraisal)
      (shift : a.shouldPersist (a.known s).toMood (a.moved call appraisal s) = true)
      (row : MoodRow K) (held : a.known s' = row.toFeeling) (rows : a.rows s' = a.rows s ++ [row])

theorem known_of_current {feeling : Feeling K} (held : s.current = some feeling) :
    a.known s = feeling := by
  unfold known
  rw [held]
  rfl

theorem appraiseTick_spec (apart : a.RouterApart) (settled : a.Settled s)
    (call : AppraiseCall K) :
    a.Appraised call s (a.appraiseTick call s).2 ∧ a.Settled (a.appraiseTick call s).2 := by
  obtain ⟨ran, held, rows, still⟩ := current_spec settled
  obtain ⟨held', same⟩ := appraise_keeps apart call (a.ready s)
  let reference := call.now.getD (a.nowFn (a.ready s).world)
  have unfolded : a.appraiseTick call s = (a.appraise call >>= fun appraisal =>
      a.current >>= fun feeling =>
        a.commit feeling (a.blended feeling call appraisal reference) reference) (a.ready s) :=
    Prog.bind_of_ok ran
  rw [unfolded]
  rcases told : a.appraise call (a.ready s) with ⟨r, t⟩
  rw [told] at held' same
  have rowsT : a.rows t = a.rows s := by
    rw [← rows]
    exact congrArg Database.tables same
  have stillT : a.Settled t := by
    unfold Settled at still ⊢
    rw [same]
    exact still
  have heldT : t.current = some (a.known s) := held'.trans held
  have knownT := known_of_current (a := a) heldT
  cases r with
  | error failure =>
      rw [Prog.bind_of_error told]
      exact ⟨.raised failure (congrArg Prod.fst told) knownT rowsT, stillT⟩
  | ok appraisal =>
      rw [Prog.bind_of_ok told]
      -- the mood is in memory by now, so the second access only reads it
      have again : a.current t = (.ok (a.known s), t) := by
        unfold current
        rw [Prog.reads_bind, heldT]
        rfl
      rw [Prog.bind_of_ok again]
      have told' : (a.appraise call (a.ready s)).1 = .ok appraisal := congrArg Prod.fst told
      unfold commit
      cases shift : a.shouldPersist (a.known s).toMood (a.moved call appraisal s) with
      | false =>
          have small : a.shouldPersist (a.known s).toMood
              (a.blended (a.known s) call appraisal reference) = false := shift
          rw [small]
          exact ⟨.kept appraisal told' shift rfl rowsT, stillT⟩
      | true =>
          have large : a.shouldPersist (a.known s).toMood
              (a.blended (a.known s) call appraisal reference) = true := shift
          rw [large]
          let d := a.sessions.db.get t.world
          let row : MoodRow K :=
            { id := d.sequences, ts := reference, valence := (a.moved call appraisal s).valence
              arousal := (a.moved call appraisal s).arousal
              emotions := (a.moved call appraisal s).emotions }
          obtain ⟨u, wrote, -, stored, stillU⟩ := scope_of_settled stillT
            (add (a.moved call appraisal s) reference) (x := row)
            (t := (a.rows t ++ [row], d.sequences + 1)) rfl
          have inserted : outside (a.sessions.scope
              (add (a.blended (a.known s) call appraisal reference) reference)) t =
                (.ok row, u) := wrote
          simp only [if_true]
          rw [Prog.bind_of_ok inserted]
          refine ⟨.wrote appraisal told' shift row rfl ?_, stillU⟩
          rw [← rowsT]
          exact stored

/-! ### Whole runs -/

omit [Field K] [LinearOrder K] in
theorem sameTags_iff {x y : List (String × K)} :
    sameTags x y = true ↔ ∀ tag, tag ∈ x.map Prod.fst ↔ tag ∈ y.map Prod.fst := by
  simp only [sameTags, Bool.and_eq_true, List.all_eq_true, List.any_eq_true, beq_iff_eq,
    List.mem_map]
  constructor
  · rintro ⟨there, back⟩ tag
    constructor
    · rintro ⟨e, inside, rfl⟩
      exact there e inside
    · rintro ⟨e, inside, rfl⟩
      exact back e inside
  · intro same
    exact ⟨fun e inside => (same e.1).mp ⟨e, inside, rfl⟩,
      fun e inside => (same e.1).mpr ⟨e, inside, rfl⟩⟩

omit [Field K] [LinearOrder K] in
theorem sameTags_refl (x : List (String × K)) : sameTags x x = true :=
  sameTags_iff.mpr fun _ => Iff.rfl

omit [Field K] [LinearOrder K] in
theorem sameTags_trans {x y z : List (String × K)} (first : sameTags x y = true)
    (second : sameTags y z = true) : sameTags x z = true := by
  rw [sameTags_iff] at first second ⊢
  intro tag
  rw [first tag, second tag]

/-- A mood that is written nowhere keeps its id and its tags, and moves less than the threshold. -/
theorem kept_of_small {old new : Mood K} (small : a.shouldPersist old new = false) :
    old.id ≠ none ∧ distance old new < a.persistMinChange ∧
      sameTags new.emotions old.emotions = true := by
  unfold shouldPersist at small
  simp only [Bool.or_eq_false_iff, decide_eq_false_iff_not, not_le, Bool.not_eq_false',
    Option.isNone_eq_false_iff, Option.isSome_iff_ne_none] at small
  exact ⟨small.1.1, small.1.2, small.2⟩

theorem distance_congr {old old' : Mood K} (valence : old.valence = old'.valence)
    (arousal : old.arousal = old'.arousal) (new : Mood K) :
    distance old new = distance old' new := by
  unfold distance
  rw [valence, arousal]

theorem Appraised.inStep {call : AppraiseCall K} (ended : a.Appraised call s s')
    (positive : 0 < a.persistMinChange) (anchored : a.Anchored call s) (step : a.InStep s) :
    a.InStep s' := by
  cases ended with
  | raised failure told held rows =>
      unfold InStep at step ⊢
      rw [held, rows]
      exact step
  | kept appraisal told small held rows =>
      obtain ⟨known, near, tags⟩ := kept_of_small small
      unfold InStep at step ⊢
      rw [rows]
      cases last : (a.rows s).getLast? with
      | none =>
          rw [last] at step
          exact absurd step known
      | some row =>
          rw [last] at step
          -- nothing was written, so the call started from the mood of the row
          obtain ⟨valence, arousal⟩ | writes := anchored row last
          · refine ⟨?_, ?_⟩
            · rw [held]
              exact sameTags_trans tags step.1
            · have far : distance row.toFeeling.toMood (a.known s').toMood =
                  distance row.toFeeling.toMood (a.moved call appraisal s) := by
                rw [held]
                rfl
              have same : distance (a.known s).toMood (a.moved call appraisal s) =
                  distance row.toFeeling.toMood (a.moved call appraisal s) :=
                distance_congr valence arousal _
              rw [far, ← same]
              exact near
          · rw [writes appraisal told] at small
            cases small
  | wrote appraisal told shift row held rows =>
      unfold InStep
      rw [rows, List.getLast?_append_of_ne_nil _ (List.cons_ne_nil _ _), held]
      refine ⟨sameTags_refl _, ?_⟩
      simpa [distance, abs] using positive

/-- The states of a run: the failure of a call is logged by the loop, which goes on. -/
def run (a : Affect K ω) (calls : List (AppraiseCall K)) (s : Affected K ω) : Affected K ω :=
  runSteps (fun call t => (a.appraiseTick call t).2) calls s

/-- All along a run in which the writes succeed the mood stays in step with the last row, where
every call writes or starts from the mood of that row. -/
theorem run_in_step (a : Affect K ω) (positive : 0 < a.persistMinChange) (apart : a.RouterApart)
    (calls : List (AppraiseCall K)) (s : Affected K ω) (settled : a.Settled s) (start : a.InStep s)
    (anchored : ∀ before call after, calls = before ++ call :: after →
      a.Anchored call (a.run before s)) :
    ∀ before after, calls = before ++ after → a.InStep (a.run before s) := by
  intro before after split
  let I (t : Affected K ω) : Prop := a.Settled t ∧ a.InStep t
  have kept : I (a.run before s) := by
    refine runSteps_invariant_of (I := I) (C := a.Anchored) ?_ before ?_ ⟨settled, start⟩
    · rintro call t met ⟨still, step⟩
      obtain ⟨ended, still'⟩ := appraiseTick_spec apart still call
      exact ⟨still', ended.inStep positive met step⟩
    · intro earlier call later inner
      refine anchored earlier call (later ++ after) ?_
      rw [split, inner, List.append_assoc, List.cons_append]
  exact kept.2

end Affect

/-! ### A slow drift -/

namespace SlowDrift

/-- Dan talks on, and each appraisal is mildly pleasant. -/
def affect : Affect ℚ (Database Failure (List (MoodRow ℚ)) ℕ) where
  router := some fun _ _ _ _ => pure ⟨"pleasant"⟩
  parseAppraisal _ := .ok
    { goalCongruence := 6 / 100, novelty := 8 / 10, agency := 1 / 2, certainty := 1 }
  sessions := { db := .whole, meanwhile := id, apart := fun _ => rfl }
  nowFn _ := 0
  maxTokens := 1024
  -- every call comes at one time, where nothing has faded
  blending := { halfPow := fun _ => 1, halflifeSeconds := 180, responsiveness := 1 / 2 }
  persistMinChange := 4 / 100

def talk : AppraiseCall ℚ where
  contents := [{ kind := .input, content := "I like this", salience := 1 }]
  drives := []

def praise : AppraiseCall ℚ where
  contents := []
  drives := []
  events := [{ kind := .success, intensity := 1 }]

def unmoved : Affected ℚ (Database Failure (List (MoodRow ℚ)) ℕ) where
  world := ⟨[], 1, [], []⟩

end SlowDrift

open SlowDrift

/-- The third call takes the mood past the threshold, and writes no row. -/
theorem third_call_out_of_step : ¬ affect.InStep (affect.run [talk, talk, talk] unmoved) := by
  decide +kernel

/-- The call that writes has started away from the last row, and brings the mood back in step. -/
theorem praise_in_step : affect.InStep (affect.run [talk, talk, praise] unmoved) := by
  have apart : affect.RouterApart := by
    intro complete wired _ _ _ _ w
    cases wired
    rfl
  refine Affect.run_in_step affect (by decide +kernel) apart [talk, talk, praise] unmoved rfl rfl
    (each_cons.mpr ⟨?_, each_cons.mpr ⟨?_, each_cons.mpr ⟨?_, each_nil⟩⟩⟩)
    [talk, talk, praise] [] rfl
  · intro row last
    cases last
  · intro row last
    cases last
    exact .inl (by decide +kernel)
  · intro row _
    refine .inr fun appraisal told => ?_
    cases told
    decide +kernel

end Johnny
