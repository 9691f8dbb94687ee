import Johnny.Memory.Decay
import Johnny.Lib.Runs

/-!
# Forgetting over many sleeps

Each pass applies the share of the whole age to the salience the last pass stored, so
the shares of all passes multiply. The half-life law holds of the last pass exactly
where the earlier ones took nothing away.
-/
namespace Johnny
namespace MemoryDecay
variable {K : Type} [Field K] [LinearOrder K]

/-- What happens to the memory: a pass, a new episode, or a rewrite of the facts. -/
inductive Turn (K : Type) where
  | pass (now : K)
  | write (row : EpisodeRow K)
  | knowledge (facts : List (SemanticFactRow K)) (edges : List SemanticEdgeRow)

def turn (d : MemoryDecay K) : Turn K → MemoryStore K → MemoryStore K
  | .pass now, s => (d.run now s).1
  | .write row, s => { s with
      episodes := s.episodes ++ [{ row with id := s.nextEpisode }]
      nextEpisode := s.nextEpisode + 1 }
  | .knowledge facts edges, s => { s with facts := facts, edges := edges }

def turns (d : MemoryDecay K) (ts : List (Turn K)) (s : MemoryStore K) : MemoryStore K :=
  runSteps d.turn ts s

/-- The times of the passes. -/
def passTimes : List (Turn K) → List K
  | [] => []
  | .pass now :: ts => now :: passTimes ts
  | _ :: ts => passTimes ts

/-- The episode is uncharged and inside the sweep of a pass on this store. -/
def Fades (d : MemoryDecay K) (id : ℕ) (s : MemoryStore K) : Prop :=
  d.inSweep s id = true ∧ ∀ row, s.episode? id = some row → charged s row = false

/-- The half-life law for an episode of age `age`. -/
def law (d : MemoryDecay K) (salience age : K) : K :=
  relax d.salienceFloor (d.halving.pow (age / d.halflifeSeconds)) salience

variable [IsStrictOrderedRing K] {d : MemoryDecay K} {s : MemoryStore K} {row : EpisodeRow K}
  {now : K} {id : ℕ}

/-! ### One pass -/

/-- A salience between the floor and one, as stored. -/
structure Stored (d : MemoryDecay K) (salience : K) : Prop where
  floor : d.salienceFloor ≤ salience
  nonneg : 0 ≤ salience
  le_one : salience ≤ 1

theorem share_le_one (d : MemoryDecay K) (positive : 0 < d.halflifeSeconds) {age : K}
    (nonneg : 0 ≤ age) : d.halving.pow (age / d.halflifeSeconds) ≤ 1 :=
  d.halving.pow_le_one (div_nonneg nonneg positive.le)

theorem rescored_uncharged (positive : 0 < d.halflifeSeconds) (stored : d.Stored row.salience)
    (later : row.ts ≤ now) (uncharged : charged s row = false) :
    d.rescored s now row = max 0 (d.law row.salience (now - row.ts)) := by
  have age : (0 : K) ≤ now - row.ts := sub_nonneg.mpr later
  have below : d.law row.salience (now - row.ts) ≤ 1 :=
    (relax_le stored.floor (d.share_le_one positive age)).trans stored.le_one
  unfold rescored adjustedSalience clamp01
  dsimp only
  rw [uncharged, max_eq_right age, if_pos positive]
  exact min_eq_right (max_le zero_le_one below)

omit [IsStrictOrderedRing K] in
/-- Without a tolerance the new salience is always written. -/
theorem decayRow_exact (exact : d.writeTolerance = 0) :
    d.decayRow s now row = { row with salience := d.rescored s now row } := by
  unfold decayRow lowers raises
  rw [exact, sub_zero, add_zero]
  rcases lt_trichotomy (d.rescored s now row) row.salience with less | same | more
  · simp [less]
  · simp [same]
  · simp [more]

/-- A pass over a fading episode. -/
theorem pass_episode? (exact : d.writeTolerance = 0) (positive : 0 < d.halflifeSeconds)
    (found : s.episode? id = some row) (fades : d.Fades id s) (stored : d.Stored row.salience)
    (later : row.ts ≤ now) : (d.run now s).1.episode? id =
      some { row with salience := max 0 (d.law row.salience (now - row.ts)) } := by
  rw [run_episode?, found, fades.1, Option.map_some, if_pos rfl, decayRow_exact exact,
    rescored_uncharged positive stored later (fades.2 row found)]

theorem Stored.law {salience age : K} (stored : d.Stored salience)
    (positive : 0 < d.halflifeSeconds) (nonneg : 0 ≤ age) :
    d.Stored (max 0 (d.law salience age)) where
  floor := (le_relax stored.floor (d.halving.pow_pos _).le).trans (le_max_right _ _)
  nonneg := le_max_left _ _
  le_one := max_le zero_le_one
    ((relax_le stored.floor (d.share_le_one positive nonneg)).trans stored.le_one)

/-- Two ages in a row act as one age, their sum. -/
theorem law_law {salience a b : K} (stored : d.Stored salience)
    (positive : 0 < d.halflifeSeconds) (nonneg : 0 ≤ b) :
    max 0 (d.law (max 0 (d.law salience a)) b) = max 0 (d.law salience (a + b)) := by
  unfold MemoryDecay.law
  rw [max_relax_max_relax stored.floor (d.halving.pow_pos _).le (d.share_le_one positive nonneg),
    add_div, d.halving.pow_add]

/-! ### Runs -/

/-- The salience after the passes is the law of the summed ages, cut off at zero. -/
theorem turns_episode? (exact : d.writeTolerance = 0) (positive : 0 < d.halflifeSeconds)
    (ts : List (Turn K)) (found : s.episode? id = some row) (stored : d.Stored row.salience)
    (later : ∀ now ∈ passTimes ts, row.ts ≤ now)
    (fades : ∀ before now after, ts = before ++ .pass now :: after →
      d.Fades id (d.turns before s)) :
    (d.turns ts s).episode? id = some { row with
      salience := max 0 (d.law row.salience ((passTimes ts).map (· - row.ts)).sum) } := by
  induction ts generalizing s row with
  | nil =>
      have whole : d.law row.salience 0 = row.salience := by
        rw [law, zero_div, d.halving.pow_zero, relax_one]
      simp only [turns, runSteps_nil, passTimes, List.map_nil, List.sum_nil, whole,
        max_eq_right stored.nonneg]
      exact found
  | cons t ts ih =>
      have onwards (before : List (Turn K)) (now : K) (after : List (Turn K))
          (split : ts = before ++ .pass now :: after) :
          d.Fades id (d.turns before (d.turn t s)) :=
        fades (t :: before) now after (by rw [split]; rfl)
      cases t with
      | pass now =>
          have after_ts := later now List.mem_cons_self
          have age : (0 : K) ≤ now - row.ts := sub_nonneg.mpr after_ts
          have passed := pass_episode? exact positive found (fades [] now ts rfl) stored after_ts
          have rest := ih (s := d.turn (.pass now) s) passed (stored.law positive age)
            (fun t member => later t (List.mem_cons_of_mem now member)) onwards
          have ages : (0 : K) ≤ ((passTimes ts).map (· - row.ts)).sum := by
            refine List.sum_nonneg fun a member => ?_
            obtain ⟨t, inTimes, rfl⟩ := List.mem_map.mp member
            exact sub_nonneg.mpr (later t (List.mem_cons_of_mem now inTimes))
          refine rest.trans ?_
          simp only [passTimes, List.map_cons, List.sum_cons]
          rw [law_law stored positive ages]
      | write new =>
          refine ih (s := d.turn (.write new) s) ?_ stored later onwards
          exact List.find?_append.trans (by rw [show s.episodes.find? _ = _ from found]; rfl)
      | knowledge facts edges =>
          exact ih (s := d.turn (.knowledge facts edges) s) found stored later onwards

/-! ### The law -/

theorem law_eq_law_iff {salience a b : K} (positive : 0 < d.halflifeSeconds) :
    d.law salience a = d.law salience b ↔ salience = d.salienceFloor ∨ a = b := by
  unfold law
  rw [relax_eq_relax_iff, d.halving.pow_inj, div_left_inj' positive.ne']

/-- The older, the less is left. -/
theorem law_anti {salience a b : K} (positive : 0 < d.halflifeSeconds)
    (above : d.salienceFloor ≤ salience) (le : a ≤ b) : d.law salience b ≤ d.law salience a :=
  relax_mono above
    (d.halving.strictAnti.antitone (div_le_div_of_nonneg_right le positive.le))

/-- After any run whose passes fade the episode, its salience is what the half-life law
gives for the last pass exactly where that value is not negative and is zero, or the
salience started at the floor, or every earlier pass ran at the episode's own time. -/
theorem half_life_iff (exact : d.writeTolerance = 0) (positive : 0 < d.halflifeSeconds)
    (ts : List (Turn K)) (found : s.episode? id = some row) (stored : d.Stored row.salience)
    {earlier : List K} {last : K} (passes : passTimes ts = earlier ++ [last])
    (ordered : (row.ts :: passTimes ts).Pairwise (· ≤ ·))
    (fades : ∀ before now after, ts = before ++ .pass now :: after →
      d.Fades id (d.turns before s)) :
    ((d.turns ts s).episode? id).map EpisodeRow.salience =
        some (d.law row.salience (last - row.ts)) ↔
      0 ≤ d.law row.salience (last - row.ts) ∧
        (d.law row.salience (last - row.ts) = 0 ∨ row.salience = d.salienceFloor ∨
          ∀ now ∈ earlier, now = row.ts) := by
  have later := (List.pairwise_cons.mp ordered).1
  have ages : ∀ age ∈ earlier.map (· - row.ts), 0 ≤ age := by
    intro age member
    obtain ⟨now, inEarlier, rfl⟩ := List.mem_map.mp member
    refine sub_nonneg.mpr (later now ?_)
    rw [passes]
    exact List.mem_append_left _ inEarlier
  have total : ((passTimes ts).map (· - row.ts)).sum =
      (earlier.map (· - row.ts)).sum + (last - row.ts) := by
    rw [passes, List.map_append, List.sum_append, List.map_singleton, List.sum_singleton]
  rw [turns_episode? exact positive ts found stored later fades, Option.map_some, total,
    Option.some_inj]
  have below := law_anti positive stored.floor
    (le_add_of_nonneg_left (a := last - row.ts) (List.sum_nonneg ages))
  -- the earlier passes took nothing exactly where their ages sum to zero
  have idle : (earlier.map (· - row.ts)).sum = 0 ↔ ∀ now ∈ earlier, now = row.ts := by
    constructor
    · intro zero now inEarlier
      have none := List.all_zero_of_le_zero_le_of_sum_eq_zero ages zero
        (List.mem_map_of_mem inEarlier)
      exact sub_eq_zero.mp none
    · intro unaged
      refine List.sum_eq_zero fun age member => ?_
      obtain ⟨now, inEarlier, rfl⟩ := List.mem_map.mp member
      exact sub_eq_zero.mpr (unaged now inEarlier)
  constructor
  · intro same
    have nonneg : 0 ≤ d.law row.salience (last - row.ts) := by
      rw [← same]
      exact le_max_left _ _
    refine ⟨nonneg, ?_⟩
    rcases nonneg.eq_or_lt with zero | some
    · exact .inl zero.symm
    · right
      have uncut : d.law row.salience ((earlier.map (· - row.ts)).sum + (last - row.ts)) =
          d.law row.salience (last - row.ts) := by
        rcases max_choice 0 (d.law row.salience
          ((earlier.map (· - row.ts)).sum + (last - row.ts))) with cut | kept
        · rw [cut] at same
          exact absurd same some.ne
        · exact kept.symm.trans same
      rcases (law_eq_law_iff positive).mp uncut with atFloor | zero
      · exact .inl atFloor
      · exact .inr (idle.mp (add_eq_right.mp zero))
  · rintro ⟨nonneg, zero | atFloor | unaged⟩
    · rw [zero] at below ⊢
      exact max_eq_left below
    · rw [(law_eq_law_iff positive).mpr (.inl atFloor)]
      exact max_eq_right nonneg
    · rw [idle.mpr unaged, zero_add]
      exact max_eq_right nonneg

end MemoryDecay

/-! ### Two sleeps in one night -/

namespace OneMemory

/-- The settings, without the write tolerance. -/
noncomputable def decay : MemoryDecay ℝ where
  episodeLimit := 2000
  halflifeSeconds := 604800
  salienceFloor := frac 5 100
  chargedBoost := frac 25 100
  mergeThreshold := frac 95 100
  writeTolerance := 0
  halving := .real
  sqrt := Real.sqrt

def kettle : EpisodeRow ℝ where
  id := 1
  ts := 0
  kind := "thought"
  content := "The kettle is on."
  salience := 1
  embedding := [1]

def store : MemoryStore ℝ := { episodes := [kettle], nextEpisode := 2 }

/-- One plain episode, and no facts. -/
def Alone (s : MemoryStore ℝ) : Prop :=
  ∃ row, s.episodes = [row] ∧ row.id = 1 ∧ row.emotionTags = [] ∧ s.facts = []

theorem Alone.fades {s : MemoryStore ℝ} (alone : Alone s) : decay.Fades 1 s := by
  obtain ⟨row, only, numbered, plain, factless⟩ := alone
  refine ⟨?_, ?_⟩
  · simp [MemoryDecay.inSweep, MemoryDecay.sweep, only, numbered, decay]
  · intro other found
    rw [MemoryStore.episode?, only] at found
    obtain rfl := List.mem_singleton.mp (List.mem_of_find?_eq_some found)
    simp [MemoryDecay.charged, MemoryStore.consolidatedSourceIds, plain, factless]

theorem Alone.pass {s : MemoryStore ℝ} (alone : Alone s) (now : ℝ) :
    Alone (decay.run now s).1 := by
  obtain ⟨row, only, numbered, plain, factless⟩ := alone
  refine ⟨decay.decayRow s now row, ?_, ?_, ?_, ?_⟩
  · have swept : decay.inSweep s row.id = true := by
      simp [MemoryDecay.inSweep, MemoryDecay.sweep, only, decay]
    unfold MemoryDecay.run
    rw [MemoryDecay.mergeFacts_episodes]
    simp [MemoryDecay.decayEpisodes, only, swept]
  · rw [MemoryDecay.decayRow_id, numbered]
  · unfold MemoryDecay.decayRow
    split <;> exact plain
  · simp [MemoryDecay.run, MemoryDecay.mergeFacts, MemoryDecay.decayEpisodes, factless,
      MemoryDecay.duplicateFactGroups]

theorem fades (times : List ℝ) : decay.Fades 1 (decay.turns (times.map .pass) store) := by
  refine Alone.fades ?_
  refine runSteps_invariant_of (I := Alone) (C := fun t _ => ∃ now, t = .pass now) ?_ _ ?_
    ⟨kettle, rfl, rfl, rfl, rfl⟩
  · rintro _ s ⟨now, rfl⟩ alone
    exact alone.pass now
  · intro before t after split
    have member : t ∈ times.map MemoryDecay.Turn.pass := by
      rw [split]
      exact List.mem_append_right _ List.mem_cons_self
    obtain ⟨now, -, rfl⟩ := List.mem_map.mp member
    exact ⟨now, rfl⟩

theorem found : store.episode? 1 = some kettle := rfl

theorem stored : decay.Stored kettle.salience := by
  refine ⟨?_, zero_le_one, le_rfl⟩
  norm_num [decay, kettle, frac]

/-- Passes of one and the same evening, a week after the episode. -/
def evening (n : ℕ) : List (MemoryDecay.Turn ℝ) := (List.replicate n 604800).map .pass

theorem evening_times (n : ℕ) : MemoryDecay.passTimes (evening n) = List.replicate n 604800 := by
  unfold evening
  induction n with
  | zero => rfl
  | succ n ih => rw [List.replicate_succ, List.map_cons, MemoryDecay.passTimes, ih]

theorem passes_fades (times : List ℝ) : ∀ before now after,
    times.map MemoryDecay.Turn.pass = before ++ .pass now :: after →
      decay.Fades 1 (decay.turns before store) := by
  intro before now after split
  obtain ⟨some, -, -, same, -⟩ := List.map_eq_append_iff.mp split
  rw [← same]
  exact fades some

theorem law_pos : 0 < decay.law kettle.salience (604800 - kettle.ts) := by
  refine lt_of_lt_of_le ?_ (le_relax stored.floor (decay.halving.pow_pos _).le)
  norm_num [decay, frac]

end OneMemory

open OneMemory in
/-- The second pass of an evening fades the episode again. -/
theorem second_pass_compounds :
    (decay.Stored kettle.salience ∧ ∀ before now after, evening 2 = before ++ .pass now :: after →
      decay.Fades 1 (decay.turns before store)) ∧
    ((decay.turns (evening 2) store).episode? 1).map EpisodeRow.salience ≠
      some (decay.law kettle.salience (604800 - kettle.ts)) := by
  have week : (0 : ℝ) < decay.halflifeSeconds := by norm_num [decay]
  refine ⟨⟨stored, passes_fades _⟩, ?_⟩
  rw [MemoryDecay.turns_episode? rfl week (evening 2) found stored
    (by norm_num [evening_times, kettle]) (passes_fades _), evening_times]
  intro same
  have kept := Option.some.inj same
  rcases max_choice 0 (decay.law kettle.salience
    ((List.replicate 2 604800).map (· - kettle.ts)).sum) with cut | uncut
  · exact law_pos.ne (cut.symm.trans kept)
  · rcases (MemoryDecay.law_eq_law_iff week).mp (uncut.symm.trans kept) with floor | once
    · norm_num [decay, kettle, frac] at floor
    · norm_num [kettle] at once

open OneMemory in
/-- Two passes at the time of the episode take nothing from it, and the third is the law's. -/
theorem early_passes_follow_law :
    ((decay.turns ([kettle.ts, kettle.ts, 604800].map .pass) store).episode? 1).map
      EpisodeRow.salience = some (decay.law kettle.salience (604800 - kettle.ts)) := by
  have times : MemoryDecay.passTimes ([kettle.ts, kettle.ts, 604800].map .pass) =
      [kettle.ts, kettle.ts] ++ [604800] := rfl
  refine (MemoryDecay.half_life_iff rfl (by norm_num [decay]) _ found stored times ?_
    (passes_fades _)).mpr ⟨law_pos.le, .inr (.inr ?_)⟩
  · rw [times]
    norm_num [kettle]
  · intro now early
    simpa using early

end Johnny
