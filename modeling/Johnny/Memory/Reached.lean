import Johnny.Lib.Ranking
import Johnny.Memory.Forgetting

/-!
# Which episodes a pass ever reaches

The sweep takes the oldest episodes. A pass changes neither the ids nor the times of the
episodes, so the next one sweeps the same rows: an episode beyond them is never reached.
-/
namespace Johnny
variable {K : Type}

section order
variable [LinearOrder K]

instance : Std.Total fun a b : EpisodeRow K => a.ts ≤ b.ts := ⟨fun a b => le_total a.ts b.ts⟩

instance : IsTrans (EpisodeRow K) fun a b => a.ts ≤ b.ts :=
  ⟨fun _ _ _ => le_trans⟩

end order

namespace MemoryDecay
variable [Field K] [LinearOrder K] {d : MemoryDecay K} {s : MemoryStore K} {row : EpisodeRow K}
  {now : K}

/-! ### The sweep -/

/-- How many episodes come before one, in the order of the sweep. -/
def ahead (before : List (EpisodeRow K)) (row : EpisodeRow K) (after : List (EpisodeRow K)) : ℕ :=
  (before.countP fun b => decide (b.ts ≤ row.ts)) + after.countP fun b => !decide (row.ts ≤ b.ts)

theorem inSweep_iff {before after : List (EpisodeRow K)}
    (rows : s.episodes = before ++ row :: after) (keys : (s.episodes.map EpisodeRow.id).Nodup) :
    d.inSweep s row.id = true ↔ ahead before row after < d.episodeLimit := by
  obtain ⟨first, last, sorted, place⟩ :=
    List.insertionSort_split (fun a b : EpisodeRow K => a.ts ≤ b.ts) row before after
  have distinct : ((first ++ row :: last).map EpisodeRow.id).Nodup := by
    rw [← sorted, ← rows]
    exact ((List.perm_insertionSort _ _).map _).nodup_iff.mpr keys
  rw [List.map_append, List.map_cons] at distinct
  have elsewhere : ∀ other ∈ first, other.id ≠ row.id := fun other member =>
    (List.nodup_append.mp distinct).2.2 _ (List.mem_map_of_mem member) _ List.mem_cons_self
  unfold inSweep sweep ahead
  rw [rows, sorted, ← place]
  by_cases reached : first.length < d.episodeLimit
  · refine iff_of_true ?_ reached
    obtain ⟨more, limit⟩ := Nat.exists_eq_add_of_lt reached
    rw [limit, Nat.add_assoc, List.take_length_add_append, List.take_succ_cons]
    simp
  · refine iff_of_false ?_ reached
    rw [List.take_append_of_le_length (Nat.not_lt.mp reached), List.any_eq_true]
    rintro ⟨other, member, same⟩
    exact elsewhere other (List.mem_of_mem_take member) (beq_iff_eq.mp same)

theorem decayRow_ts (s : MemoryStore K) (now : K) (row : EpisodeRow K) :
    (d.decayRow s now row).ts = row.ts := by
  unfold decayRow
  split <;> rfl

/-- The next pass sweeps the same episodes. -/
theorem inSweep_run (d : MemoryDecay K) (now : K) (s : MemoryStore K) (id : ℕ) :
    d.inSweep (d.run now s).1 id = d.inSweep s id := by
  have kept (r : EpisodeRow K) :
      (if d.inSweep s r.id then d.decayRow s now r else r).ts = r.ts ∧
        (if d.inSweep s r.id then d.decayRow s now r else r).id = r.id := by
    split
    · exact ⟨decayRow_ts s now r, decayRow_id now r⟩
    · exact ⟨rfl, rfl⟩
  have rows : (d.run now s).1.episodes = s.episodes.map fun r =>
      if d.inSweep s r.id then d.decayRow s now r else r := mergeFacts_episodes d _
  have swept : d.sweep (d.run now s).1 = (d.sweep s).map fun r =>
      if d.inSweep s r.id then d.decayRow s now r else r := by
    unfold sweep
    rw [rows, ← List.map_insertionSort (r := fun a b : EpisodeRow K => a.ts ≤ b.ts), List.map_take]
    intro a _ b _
    rw [(kept a).1, (kept b).1]
  unfold inSweep
  rw [swept, List.any_map]
  exact congrArg (fun p => (d.sweep s).any p) (funext fun r => by rw [Function.comp_apply, (kept r).2])

/-! ### One pass -/

/-- The older an uncharged episode, the less of it is left. -/
theorem rescored_anti [IsStrictOrderedRing K] (uncharged : charged s row = false)
    (above : d.salienceFloor ≤ row.salience) {later : K} (le : now ≤ later) :
    d.rescored s later row ≤ d.rescored s now row := by
  have older : max 0 (now - row.ts) ≤ max 0 (later - row.ts) :=
    max_le_max le_rfl (sub_le_sub_right le row.ts)
  unfold rescored adjustedSalience clamp01
  dsimp only
  rw [uncharged]
  refine min_le_min le_rfl (max_le_max le_rfl (relax_mono above ?_))
  by_cases positive : 0 < d.halflifeSeconds
  · rw [if_pos positive, if_pos positive]
    exact d.halving.strictAnti.antitone (div_le_div_of_nonneg_right older positive.le)
  · rw [if_neg positive, if_neg positive]

/-! ### Many passes -/

/-- Some number of passes, at that or later times, is sure to leave less of the episode. -/
def Reaches (d : MemoryDecay K) (s : MemoryStore K) (row : EpisodeRow K) (now : K) : Prop :=
  ∃ n, ∀ times : List K, times.length = n → (∀ t ∈ times, now ≤ t) →
    ∃ faded, (d.turns (times.map .pass) s).episode? row.id = some faded ∧
      faded.salience < row.salience

/-- However many passes there are, an episode outside the sweep stays as it is. -/
theorem passes_episode?_of_outside (outside : d.inSweep s row.id = false)
    (found : s.episode? row.id = some row) (times : List K) :
    (d.turns (times.map .pass) s).episode? row.id = some row := by
  induction times generalizing s with
  | nil => exact found
  | cons now times ih =>
      refine ih (s := (d.run now s).1) ?_ ?_
      · rw [inSweep_run, outside]
      · rw [run_episode?, found, outside]
        rfl

theorem not_reaches_of_outside (outside : d.inSweep s row.id = false)
    (found : s.episode? row.id = some row) : ¬ d.Reaches s row now := by
  rintro ⟨n, lowered⟩
  obtain ⟨faded, same, less⟩ := lowered (List.replicate n now) List.length_replicate
    fun t member => (List.eq_of_mem_replicate member).ge
  rw [passes_episode?_of_outside outside found] at same
  cases same
  exact lt_irrefl _ less

omit [Field K] [LinearOrder K] in
theorem find?_of_split {rows before after : List (EpisodeRow K)}
    (split : rows = before ++ row :: after) (keys : (rows.map EpisodeRow.id).Nodup) :
    rows.find? (fun r => r.id == row.id) = some row := by
  subst split
  rw [List.map_append, List.map_cons] at keys
  have elsewhere : before.find? (fun r => r.id == row.id) = none := by
    refine List.find?_eq_none.mpr fun other member same => ?_
    exact (List.nodup_append.mp keys).2.2 _ (List.mem_map_of_mem member) _ List.mem_cons_self
      (beq_iff_eq.mp same)
  rw [List.find?_append, elsewhere]
  simp

/-- An uncharged episode above the floor, old enough for the half-life to lower its salience,
is reached exactly if fewer episodes come before it than a pass takes. -/
theorem decay_reaches_iff [IsStrictOrderedRing K] {before after : List (EpisodeRow K)}
    (tolerance : d.writeTolerance = frac 1 1000000000)
    (rows : s.episodes = before ++ row :: after) (keys : (s.episodes.map EpisodeRow.id).Nodup)
    (uncharged : charged s row = false) (above : d.salienceFloor < row.salience)
    (old : d.rescored s now row < row.salience - d.writeTolerance) :
    d.Reaches s row now ↔ ahead before row after < d.episodeLimit := by
  have found : s.episode? row.id = some row := find?_of_split rows keys
  rw [← inSweep_iff rows keys]
  constructor
  · intro reaches
    by_contra outside
    exact not_reaches_of_outside (Bool.eq_false_iff.mpr outside) found reaches
  · intro swept
    refine ⟨1, fun times one later => ?_⟩
    obtain ⟨t, rfl⟩ := List.length_eq_one_iff.mp one
    have lower : d.rescored s t row < row.salience - d.writeTolerance :=
      (rescored_anti uncharged above.le (later t List.mem_cons_self)).trans_lt old
    have written : d.lowers s t row = true := decide_eq_true lower
    refine ⟨{ row with salience := d.rescored s t row }, ?_, ?_⟩
    · change (d.run t s).1.episode? row.id = _
      rw [run_episode?, found, Option.map_some, if_pos swept]
      unfold decayRow
      rw [written]
      rfl
    · refine lower.trans_le (sub_le_self _ ?_)
      rw [tolerance]
      exact div_nonneg (Nat.cast_nonneg _) (Nat.cast_nonneg _)

end MemoryDecay

/-! ### Two old episodes and a limit of one -/

namespace StarvedMemory

noncomputable def decay : MemoryDecay ℝ :=
  { OneMemory.decay with episodeLimit := 1, writeTolerance := frac 1 1000000000 }

def lamp : EpisodeRow ℝ := { OneMemory.kettle with id := 2, ts := 1, content := "The lamp is off." }

def store : MemoryStore ℝ := { episodes := [OneMemory.kettle, lamp], nextEpisode := 3 }

theorem keys : (store.episodes.map EpisodeRow.id).Nodup := by decide

theorem uncharged (row : EpisodeRow ℝ) (plain : row.emotionTags = []) :
    MemoryDecay.charged store row = false := by
  simp [MemoryDecay.charged, plain, MemoryStore.consolidatedSourceIds, store]

/-- A half-life after it, half of what a plain episode had above the floor is gone. -/
theorem halved (row : EpisodeRow ℝ) (plain : row.emotionTags = []) (full : row.salience = 1) :
    decay.rescored store (row.ts + 604800) row < row.salience - decay.writeTolerance := by
  have half : decay.halving.pow 1 = 1 / 2 := by
    have twice := decay.halving.pow_one
    linarith
  have week : max 0 (row.ts + 604800 - row.ts) / decay.halflifeSeconds = 1 := by
    norm_num [decay, OneMemory.decay]
  unfold MemoryDecay.rescored adjustedSalience
  dsimp only
  rw [uncharged row plain, week, half, full]
  norm_num [decay, OneMemory.decay, frac, relax, clamp01]

end StarvedMemory

open StarvedMemory in
theorem starved_episode :
    ((store.episodes.map EpisodeRow.id).Nodup ∧ 1 ≤ decay.episodeLimit ∧
      store.episodes = [OneMemory.kettle] ++ lamp :: [] ∧
      MemoryDecay.charged store lamp = false ∧ decay.salienceFloor < lamp.salience ∧
      decay.rescored store (lamp.ts + 604800) lamp < lamp.salience - decay.writeTolerance) ∧
    ¬ decay.Reaches store lamp (lamp.ts + 604800) := by
  refine ⟨⟨keys, le_rfl, rfl, uncharged lamp rfl, ?_, halved lamp rfl rfl⟩, ?_⟩
  · norm_num [decay, OneMemory.decay, frac, lamp, OneMemory.kettle]
  · refine MemoryDecay.not_reaches_of_outside (Bool.eq_false_iff.mpr fun swept => ?_) ?_
    · have rows : store.episodes = [OneMemory.kettle] ++ lamp :: [] := rfl
      have place := (MemoryDecay.inSweep_iff rows keys).mp swept
      norm_num [MemoryDecay.ahead, decay, lamp, OneMemory.kettle] at place
    · simp [MemoryStore.episode?, store, lamp, OneMemory.kettle]

open StarvedMemory in
theorem oldest_reached :
    decay.Reaches store OneMemory.kettle (OneMemory.kettle.ts + 604800) ↔
      MemoryDecay.ahead [] OneMemory.kettle [lamp] < decay.episodeLimit :=
  MemoryDecay.decay_reaches_iff rfl rfl keys (uncharged _ rfl)
    (by norm_num [decay, OneMemory.decay, frac, OneMemory.kettle]) (halved _ rfl rfl)

end Johnny
