import Johnny.Agents.Attention
import Johnny.Lib.Best
import Johnny.Lib.Runs
import Mathlib.Algebra.Order.Field.Basic
import Mathlib.Data.List.DropRight

/-!
# Where attention drifts

Each selection admits the best of the candidates' contents, each content once, and remembers
what it surfaced for a while. What was surfaced lately counts for less, so a line that is always
there is surfaced again and again, as long as the different lines are not many more than those
remembered.
-/
namespace Johnny
namespace Attention
variable {K : Type}

/-! ### One slot for each content -/

section slots
variable [LinearOrder K]

/-- The slots that the items compete for: one for each content, held by the first of its best. -/
structure Slots (items : List (WorkspaceItem K)) (best : List (String × WorkspaceItem K)) :
    Prop where
  distinct : (best.map Prod.fst).Nodup
  named : ∀ e ∈ best, e.2.content = e.1
  mem (content : String) : content ∈ best.map Prod.fst ↔ content ∈ items.map WorkspaceItem.content
  given : ∀ e ∈ best, e.2 ∈ items
  top : ∀ e ∈ best, ∀ i ∈ items, i.content = e.1 → i.salience ≤ e.2.salience

theorem Slots.place {items : List (WorkspaceItem K)} {best : List (String × WorkspaceItem K)}
    (slots : Slots items best) {item : WorkspaceItem K}
    (wins : ∀ i ∈ items, i.content = item.content → i.salience ≤ item.salience) :
    Slots (items ++ [item]) (dictSet best item.content item) where
  distinct := by
    rw [keys_dictSet]
    split
    · exact slots.distinct
    next fresh =>
      rw [List.nodup_append]
      refine ⟨slots.distinct, List.nodup_singleton _, ?_⟩
      rintro content inside other mine rfl
      exact fresh (List.mem_singleton.mp mine ▸ inside)
  named e inside := by
    rcases mem_dictSet inside with old | rfl
    · exact slots.named e old
    · rfl
  mem content := by
    rw [keys_dictSet, List.map_append, List.mem_append, ← slots.mem]
    split
    next known =>
      refine ⟨.inl, fun either => either.elim id fun mine => ?_⟩
      exact List.mem_singleton.mp mine ▸ known
    next => rw [List.mem_append]; rfl
  given e inside := by
    rcases mem_dictSet inside with old | rfl
    · exact List.mem_append_left _ (slots.given e old)
    · exact List.mem_append_right _ List.mem_cons_self
  top e inside i candidate same := by
    by_cases here : e.1 = item.content
    · obtain rfl := dictSet_only inside here
      rcases List.mem_append.mp candidate with before | last
      · exact wins i before same
      · rw [List.mem_singleton.mp last]
    · have old : e ∈ best := (mem_dictSet inside).resolve_right fun new => here (new ▸ rfl)
      rcases List.mem_append.mp candidate with before | last
      · exact slots.top e old i before same
      · exact absurd (same ▸ List.mem_singleton.mp last ▸ rfl) here

theorem Slots.compete {items : List (WorkspaceItem K)} {best : List (String × WorkspaceItem K)}
    (slots : Slots items best) (item : WorkspaceItem K) :
    Slots (items ++ [item]) (compete best item) := by
  unfold Attention.compete
  split
  next fresh =>
    refine slots.place fun i inside same => ?_
    have absent := dictGet_eq_none.mp fresh
    exact absurd ((slots.mem _).mpr (List.mem_map.mpr ⟨i, inside, same⟩)) absent
  next existing found =>
    have held := mem_of_dictGet found
    split
    next better =>
      exact slots.place fun i inside same => (slots.top _ held i inside same).trans better.le
    next worse =>
      refine ⟨slots.distinct, slots.named, ?_, ?_, ?_⟩
      · intro content
        rw [List.map_append, List.mem_append, ← slots.mem]
        refine ⟨.inl, fun either => either.elim id fun mine => ?_⟩
        rw [List.map_singleton, List.mem_singleton] at mine
        exact mine ▸ List.mem_map.mpr ⟨_, held, rfl⟩
      · exact fun e inside => List.mem_append_left _ (slots.given e inside)
      · intro e inside i candidate same
        rcases List.mem_append.mp candidate with before | last
        · exact slots.top e inside i before same
        · rw [List.mem_singleton.mp last] at same ⊢
          rw [List.inj_on_of_nodup_map slots.distinct inside held same.symm]
          exact not_lt.mp worse

theorem slots_foldl {items more : List (WorkspaceItem K)}
    {best : List (String × WorkspaceItem K)} (slots : Slots items best) :
    Slots (items ++ more) (more.foldl Attention.compete best) := by
  induction more generalizing items best with
  | nil => rwa [List.append_nil]
  | cons item more ih =>
      have next := ih (slots.compete item)
      rwa [List.append_assoc] at next

/-- What competes for the places: each content of the items once, at its best. -/
structure Deduped (items kept : List (WorkspaceItem K)) : Prop where
  distinct : (kept.map WorkspaceItem.content).Nodup
  mem (content : String) :
    content ∈ kept.map WorkspaceItem.content ↔ content ∈ items.map WorkspaceItem.content
  given : ∀ item ∈ kept, item ∈ items
  top : ∀ item ∈ kept, ∀ i ∈ items, i.content = item.content → i.salience ≤ item.salience

theorem dedupe_deduped (items : List (WorkspaceItem K)) : Deduped items (dedupe items) := by
  have start : Slots ([] : List (WorkspaceItem K)) [] :=
    ⟨List.nodup_nil, nofun, fun _ => Iff.rfl, nofun, nofun⟩
  have slots : Slots items (items.foldl Attention.compete []) := slots_foldl start
  have contents : (dedupe items).map WorkspaceItem.content =
      (items.foldl Attention.compete []).map Prod.fst := by
    rw [dedupe, List.map_map]
    exact List.map_congr_left slots.named
  refine ⟨contents ▸ slots.distinct, fun content => contents ▸ slots.mem content, ?_, ?_⟩
  · intro item inside
    obtain ⟨e, member, rfl⟩ := List.mem_map.mp inside
    exact slots.given e member
  · intro item inside i candidate same
    obtain ⟨e, member, rfl⟩ := List.mem_map.mp inside
    exact slots.top e member i candidate (same.trans (slots.named e member))

end slots

/-! ### The best of them -/

variable [Field K] [LinearOrder K]

/-- The contents that compete, those admitted first. -/
def chosen (a : Attention K) (s : AttentionState K) (working percepts : List (WorkspaceItem K)) :
    List (WorkspaceItem K) :=
  (dedupe (percepts ++ working)).best (a.score s) a.capacity

def passed (a : Attention K) (s : AttentionState K) (working percepts : List (WorkspaceItem K)) :
    List (WorkspaceItem K) :=
  (dedupe (percepts ++ working)).rest (a.score s) a.capacity

variable {a : Attention K} {s : AttentionState K} {working percepts : List (WorkspaceItem K)}

theorem admitted_eq : a.admitted s working percepts =
    (a.chosen s working percepts).map fun item =>
      { item with salience := clamp01 (a.score s item) } := by
  have sorted := List.map_insertionSort (fun x y : WorkspaceItem K => a.score s y ≤ a.score s x)
    (fun x y : K × WorkspaceItem K => y.1 ≤ x.1) (fun item => (a.score s item, item))
    (dedupe (percepts ++ working)) fun _ _ _ _ => Iff.rfl
  rw [admitted, ← sorted, ← List.map_take, List.map_map]
  rfl

theorem admitted_contents : (a.admitted s working percepts).map WorkspaceItem.content =
    (a.chosen s working percepts).map WorkspaceItem.content := by
  rw [admitted_eq, List.map_map]
  rfl

theorem select_apply (a : Attention K) (working percepts : List (WorkspaceItem K))
    (s : AttentionState K) : a.select working percepts s =
      (.ok (a.admitted s working percepts),
        a.remember ((a.admitted s working percepts).map WorkspaceItem.content) s) := rfl

theorem chosen_nodup : ((a.chosen s working percepts).map WorkspaceItem.content).Nodup := by
  have distinct := (dedupe_deduped (percepts ++ working)).distinct
  have all := ((List.best_perm (a.score s) a.capacity
    (dedupe (percepts ++ working))).map WorkspaceItem.content).nodup_iff.mpr distinct
  rw [List.map_append] at all
  exact (List.nodup_append.mp all).1

/-- A content that is a candidate and not admitted was passed over for others. -/
theorem passed_over {content : String}
    (candidate : content ∈ (percepts ++ working).map WorkspaceItem.content)
    (out : content ∉ (a.chosen s working percepts).map WorkspaceItem.content) :
    ∃ item ∈ a.passed s working percepts, item.content = content := by
  obtain ⟨item, kept, same⟩ := List.mem_map.mp (((dedupe_deduped _).mem content).mpr candidate)
  have either : item ∈ a.chosen s working percepts ∨ item ∈ a.passed s working percepts :=
    List.mem_best_or_rest kept
  rcases either with taken | left
  · exact absurd (List.mem_map.mpr ⟨item, taken, same⟩) out
  · exact ⟨item, left, same⟩

/-! ### Runs -/

inductive Turn (K : Type) where
  | select (working percepts : List (WorkspaceItem K))
  | bias (bias : AttentionBias K)

def turn (a : Attention K) : Turn K → AttentionState K → AttentionState K
  | .select working percepts, s => (a.select working percepts s).2
  | .bias bias, s => (setBias bias s).2

/-- The contents a turn surfaces. -/
def shownBy (a : Attention K) (s : AttentionState K) : Turn K → List String
  | .select working percepts => (a.admitted s working percepts).map WorkspaceItem.content
  | .bias _ => []

/-- The contents a run surfaces, in their order. -/
def shown (a : Attention K) : List (Turn K) → AttentionState K → List String
  | [], _ => []
  | t :: turns, s => a.shownBy s t ++ shown a turns (a.turn t s)

theorem shown_append (first second : List (Turn K)) (s : AttentionState K) :
    a.shown (first ++ second) s =
      a.shown first s ++ a.shown second (runSteps a.turn first s) := by
  induction first generalizing s with
  | nil => rfl
  | cons t first ih => rw [List.cons_append, shown, ih, shown, List.append_assoc]; rfl

theorem rtake_append_rtake {α : Type} (first second : List α) (n : ℕ) :
    (first.rtake n ++ second).rtake n = (first ++ second).rtake n := by
  rw [List.rtake_eq_reverse_take_reverse, List.rtake_eq_reverse_take_reverse,
    List.rtake_eq_reverse_take_reverse, List.reverse_append, List.reverse_append,
    List.reverse_reverse, List.take_append, List.take_append, List.take_take]
  congr 3
  omega

theorem turn_recent (a : Attention K) (t : Turn K) (s : AttentionState K)
    (short : s.recent.length ≤ a.noveltyHorizon) :
    (a.turn t s).recent = (s.recent ++ a.shownBy s t).rtake a.noveltyHorizon := by
  cases t with
  | select working percepts => rfl
  | bias bias =>
      change s.recent = (s.recent ++ []).rtake a.noveltyHorizon
      rw [List.append_nil, List.rtake, Nat.sub_eq_zero_of_le short, List.drop_zero]

theorem rtake_length_le {α : Type} (l : List α) (n : ℕ) : (l.rtake n).length ≤ n := by
  rw [List.rtake, List.length_drop]
  omega

/-- What is remembered after a run: the last that was surfaced, up to the horizon. -/
theorem run_recent (a : Attention K) (turns : List (Turn K)) (s : AttentionState K)
    (short : s.recent.length ≤ a.noveltyHorizon) :
    (runSteps a.turn turns s).recent =
      (s.recent ++ a.shown turns s).rtake a.noveltyHorizon := by
  induction turns generalizing s with
  | nil => rw [runSteps_nil, shown, List.append_nil, List.rtake,
      Nat.sub_eq_zero_of_le short, List.drop_zero]
  | cons t turns ih =>
      have next := turn_recent a t s short
      have bounded : (a.turn t s).recent.length ≤ a.noveltyHorizon :=
        next ▸ rtake_length_le _ _
      rw [runSteps_cons, ih _ bounded, next, rtake_append_rtake, shown, List.append_assoc]

/-! ### What a selection admits -/

/-- A selection from what competes: as many as fit, each content once, the best first, and
nothing left out that scores more than something admitted. -/
structure Admits (a : Attention K) (s : AttentionState K)
    (kept selection : List (WorkspaceItem K)) : Prop where
  length : selection.length = min a.capacity kept.length
  distinct : (selection.map WorkspaceItem.content).Nodup
  scored : ∀ admitted ∈ selection, ∃ item ∈ kept,
    admitted = { item with salience := clamp01 (a.score s item) }
  best : ∀ item ∈ kept, item.content ∉ selection.map WorkspaceItem.content →
    ∀ other ∈ kept, other.content ∈ selection.map WorkspaceItem.content →
      a.score s item ≤ a.score s other
  ordered : selection.Pairwise fun x y => y.salience ≤ x.salience
  bounded : ∀ admitted ∈ selection, 0 ≤ admitted.salience ∧ admitted.salience ≤ 1

theorem clamp01_mono {x y : K} (le : x ≤ y) : clamp01 x ≤ clamp01 y :=
  min_le_min_left 1 (max_le_max_left 0 le)

theorem admitted_admits [IsStrictOrderedRing K] (a : Attention K) (s : AttentionState K)
    (working percepts : List (WorkspaceItem K)) :
    a.Admits s (dedupe (percepts ++ working)) (a.admitted s working percepts) where
  length := by rw [admitted_eq, List.length_map, chosen, List.length_best]
  distinct := by
    rw [admitted_contents]
    exact chosen_nodup
  scored admitted inside := by
    rw [admitted_eq] at inside
    obtain ⟨item, taken, rfl⟩ := List.mem_map.mp inside
    exact ⟨item, List.mem_of_mem_best taken, rfl⟩
  best item kept out other held inside := by
    rw [admitted_contents] at out inside
    obtain ⟨taken, first, same⟩ := List.mem_map.mp inside
    have left : item ∈ a.passed s working percepts :=
      (List.mem_best_or_rest kept).resolve_left fun again =>
        out (List.mem_map.mpr ⟨item, again, rfl⟩)
    have only : taken = other := List.inj_on_of_nodup_map (dedupe_deduped _).distinct
      (List.mem_of_mem_best first) held same
    exact only ▸ List.rest_le_best first left
  ordered := by
    rw [admitted_eq, List.pairwise_map]
    exact List.ordered_best.imp fun le => clamp01_mono le
  bounded admitted inside := by
    rw [admitted_eq] at inside
    obtain ⟨item, -, rfl⟩ := List.mem_map.mp inside
    exact ⟨clamp01_nonneg _, clamp01_le_one _⟩

/-- In every run of selections and biases: a selection admits the best of what competes, under
the novelty of all that was surfaced before, as far back as the horizon. -/
theorem run_admits [IsStrictOrderedRing K] (a : Attention K) (bias : AttentionBias K)
    (turns : List (Turn K)) (working percepts : List (WorkspaceItem K)) :
    let start : AttentionState K := { bias := bias }
    let s := runSteps a.turn turns start
    let kept := dedupe (percepts ++ working)
    Deduped (percepts ++ working) kept ∧
      (∀ content, a.novelty s content =
        a.repeatPenalty ^ ((a.shown turns start).rtake a.noveltyHorizon).count content) ∧
      ∃ selection s', a.select working percepts s = (.ok selection, s') ∧
        a.Admits s kept selection ∧
        s'.recent = (a.shown turns start ++ selection.map WorkspaceItem.content).rtake
          a.noveltyHorizon := by
  intro start s kept
  have remembered : s.recent = (a.shown turns start).rtake a.noveltyHorizon :=
    run_recent a turns start (Nat.zero_le _)
  refine ⟨dedupe_deduped _, fun content => by rw [novelty, remembered], _, _,
    select_apply a working percepts s, admitted_admits a s working percepts, ?_⟩
  change (s.recent ++ _).rtake a.noveltyHorizon = _
  rw [remembered, rtake_append_rtake]

/-! ### A line that is always there -/

/-- The selections of a run. -/
def selections : List (Turn K) → ℕ
  | [] => 0
  | .select _ _ :: turns => selections turns + 1
  | .bias _ :: turns => selections turns

omit [Field K] [LinearOrder K] in
theorem selections_cons (t : Turn K) (turns : List (Turn K)) :
    selections (t :: turns) = selections [t] + selections turns := by
  cases t <;> simp only [selections] <;> omega

omit [Field K] [LinearOrder K] in
/-- A run with enough selections, cut after some of them. -/
theorem cut_selections {turns : List (Turn K)} {n : ℕ} (enough : n ≤ selections turns) :
    ∃ first second, turns = first ++ second ∧ selections first = n ∧
      selections second + n = selections turns := by
  induction turns generalizing n with
  | nil => exact ⟨[], [], rfl, (Nat.le_zero.mp enough).symm, by rw [Nat.le_zero.mp enough]; rfl⟩
  | cons t turns ih =>
      rw [selections_cons] at enough
      by_cases zero : n = 0
      · exact ⟨[], t :: turns, rfl, zero.symm, by rw [zero, Nat.add_zero]⟩
      have single : selections [t] ≤ 1 := by cases t <;> simp [selections]
      obtain ⟨first, second, split, count, rest⟩ := ih (n := n - selections [t]) (by omega)
      refine ⟨t :: first, second, by rw [split, List.cons_append], ?_, ?_⟩
      · rw [selections_cons, count]
        omega
      · rw [selections_cons]
        omega

/-- The content is a candidate of the turn, all candidates are among the known lines, and what
was surfaced lately scores less than the content where that was not. -/
def Draws (a : Attention K) (known : List String) (content : String) :
    Turn K → AttentionState K → Prop
  | .select working percepts, s =>
    content ∈ (percepts ++ working).map WorkspaceItem.content ∧
      (∀ item ∈ percepts ++ working, item.content ∈ known) ∧
      (content ∉ s.recent → ∀ x ∈ dedupe (percepts ++ working), x.content = content →
        ∀ y ∈ dedupe (percepts ++ working), y.content ∈ s.recent → a.score s y < a.score s x)
  | .bias _, _ => True

/-- What is surfaced while a content that is there is not. -/
structure Passes (a : Attention K) (known : List String) (content : String) (s : AttentionState K)
    (working percepts : List (WorkspaceItem K)) (lines : List String) : Prop where
  full : lines.length = a.capacity
  distinct : lines.Nodup
  known : ∀ line ∈ lines, line ∈ known
  new : content ∉ s.recent → ∀ line ∈ lines, line ∉ s.recent

theorem Draws.passes {known : List String} {content : String}
    (draws : a.Draws known content (.select working percepts) s)
    (out : content ∉ a.shownBy s (.select working percepts)) :
    a.Passes known content s working percepts (a.shownBy s (.select working percepts)) := by
  obtain ⟨candidate, lines, lower⟩ := draws
  have contents : a.shownBy s (.select working percepts) =
      (a.chosen s working percepts).map WorkspaceItem.content := admitted_contents
  rw [contents] at out ⊢
  obtain ⟨x, left, same⟩ := passed_over candidate out
  have kept {item : WorkspaceItem K} (taken : item ∈ a.chosen s working percepts) :
      item ∈ dedupe (percepts ++ working) := List.mem_of_mem_best taken
  refine ⟨?_, chosen_nodup, ?_, ?_⟩
  · rw [List.length_map]
    exact List.length_best_of_rest left
  · intro line inside
    obtain ⟨item, taken, rfl⟩ := List.mem_map.mp inside
    exact lines item (mem_dedupe (kept taken))
  · intro unseen line inside again
    obtain ⟨item, taken, rfl⟩ := List.mem_map.mp inside
    have member : x ∈ dedupe (percepts ++ working) :=
      (List.best_perm (a.score s) a.capacity _).mem_iff.mp (List.mem_append_right _ left)
    exact (lower unseen x member same item (kept taken) again).not_ge
      (List.rest_le_best taken left)

/-- The lines surfaced while a content waits: all different, all remembered, and not it. -/
structure Waits (known : List String) (content : String) (s : AttentionState K)
    (lines : List String) : Prop where
  suffix : lines <:+ s.recent
  distinct : lines.Nodup
  known : ∀ line ∈ lines, line ∈ known
  unseen : content ∉ s.recent

theorem waiting_lt {known lines : List String} {content : String} (distinct : lines.Nodup)
    (inside : ∀ line ∈ lines, line ∈ known) (out : content ∉ lines) (there : content ∈ known) :
    lines.length < known.length := by
  have more : (content :: lines).Nodup := List.nodup_cons.mpr ⟨out, distinct⟩
  refine (List.subperm_of_subset more ?_).length_le
  intro line member
  rcases List.mem_cons.mp member with rfl | old
  · exact there
  · exact inside line old

theorem suffix_rtake {α : Type} {lines all : List α} {n : ℕ} (suffix : lines <:+ all)
    (short : lines.length ≤ n) : lines <:+ all.rtake n := by
  obtain ⟨front, rfl⟩ := suffix
  rw [List.rtake, List.drop_append_of_le_length (by rw [List.length_append]; omega)]
  exact List.suffix_append _ _

theorem Draws.full {known : List String} {content : String} {t : Turn K}
    (draws : a.Draws known content t s) (out : content ∉ a.shownBy s t) :
    (a.shownBy s t).length = a.capacity * selections [t] := by
  cases t with
  | select working percepts => simpa [selections] using (draws.passes out).full
  | bias bias => rfl

/-- While a content is passed over, every selection is full. -/
theorem full_run {known : List String} {content : String} {turns : List (Turn K)}
    (draws : ∀ before t after, turns = before ++ t :: after →
      a.Draws known content t (runSteps a.turn before s))
    (out : content ∉ a.shown turns s) :
    (a.shown turns s).length = a.capacity * selections turns := by
  induction turns generalizing s with
  | nil => rfl
  | cons t turns ih =>
      obtain ⟨first, later⟩ := each_cons.mp draws
      rw [shown, List.mem_append, not_or] at out
      rw [shown, List.length_append, first.full out.1, ih later out.2, selections_cons t turns,
        Nat.mul_add]

theorem turn_short (a : Attention K) (t : Turn K) (s : AttentionState K)
    (short : s.recent.length ≤ a.noveltyHorizon) :
    (a.turn t s).recent.length ≤ a.noveltyHorizon := by
  rw [turn_recent a t s short]
  exact rtake_length_le _ _

theorem Waits.turn {known lines : List String} {content : String}
    (waits : Waits known content s lines) (there : content ∈ known)
    (few : known.length ≤ a.noveltyHorizon + 1) (short : s.recent.length ≤ a.noveltyHorizon)
    {t : Turn K} (draws : a.Draws known content t s) (out : content ∉ a.shownBy s t) :
    Waits known content (a.turn t s) (lines ++ a.shownBy s t) := by
  cases t with
  | bias bias =>
      rw [shownBy, List.append_nil]
      exact ⟨waits.suffix, waits.distinct, waits.known, waits.unseen⟩
  | select working percepts =>
      have passes := draws.passes out
      have new := passes.new waits.unseen
      have distinct : (lines ++ a.shownBy s (.select working percepts)).Nodup := by
        rw [List.nodup_append]
        refine ⟨waits.distinct, passes.distinct, ?_⟩
        rintro line old other fresh rfl
        exact new line fresh (waits.suffix.subset old)
      have inside : ∀ line ∈ lines ++ a.shownBy s (.select working percepts), line ∈ known := by
        intro line member
        exact (List.mem_append.mp member).elim (waits.known line) (passes.known line)
      have apart : content ∉ lines ++ a.shownBy s (.select working percepts) := by
        rw [List.mem_append, not_or]
        exact ⟨fun old => waits.unseen (waits.suffix.subset old), out⟩
      have room := waiting_lt distinct inside apart there
      refine ⟨?_, distinct, inside, ?_⟩
      · rw [turn_recent a _ s short]
        refine suffix_rtake ?_ (by omega)
        obtain ⟨front, same⟩ := waits.suffix
        exact ⟨front, by rw [← same, List.append_assoc]⟩
      · rw [turn_recent a _ s short]
        intro again
        have seen : content ∈ s.recent ++ a.shownBy s (.select working percepts) :=
          List.mem_of_mem_drop again
        exact (List.mem_append.mp seen).elim waits.unseen out

/-- While a content waits, all that is surfaced is new. -/
theorem Waits.run {known lines : List String} {content : String}
    (waits : Waits known content s lines) (there : content ∈ known)
    (few : known.length ≤ a.noveltyHorizon + 1) (short : s.recent.length ≤ a.noveltyHorizon)
    {turns : List (Turn K)}
    (draws : ∀ before t after, turns = before ++ t :: after →
      a.Draws known content t (runSteps a.turn before s))
    (out : content ∉ a.shown turns s) :
    Waits known content (runSteps a.turn turns s) (lines ++ a.shown turns s) := by
  induction turns generalizing s lines with
  | nil => simpa [shown] using waits
  | cons t turns ih =>
      obtain ⟨first, later⟩ := each_cons.mp draws
      rw [shown, List.mem_append, not_or] at out
      have next := waits.turn there few short first out.1
      rw [shown, ← List.append_assoc]
      exact ih next (turn_short a t s short) later out.2

/-- A content that is not remembered is surfaced before the known lines run out. -/
theorem shown_soon {known : List String} {content : String} (there : content ∈ known)
    (few : known.length ≤ a.noveltyHorizon + 1) (short : s.recent.length ≤ a.noveltyHorizon)
    (unseen : content ∉ s.recent) {turns : List (Turn K)}
    (enough : known.length ≤ a.capacity * selections turns)
    (draws : ∀ before t after, turns = before ++ t :: after →
      a.Draws known content t (runSteps a.turn before s)) :
    content ∈ a.shown turns s := by
  by_contra out
  have start : Waits known content s [] :=
    ⟨List.nil_suffix, List.nodup_nil, nofun, unseen⟩
  have waits := start.run there few short draws out
  have room := waiting_lt waits.distinct waits.known (by simpa using out) there
  rw [List.nil_append, full_run draws out] at room
  omega

/-- Once enough else was surfaced a content is forgotten. -/
theorem forgotten {known : List String} {content : String}
    (short : s.recent.length ≤ a.noveltyHorizon) {turns : List (Turn K)}
    (enough : a.noveltyHorizon ≤ a.capacity * selections turns)
    (draws : ∀ before t after, turns = before ++ t :: after →
      a.Draws known content t (runSteps a.turn before s))
    (out : content ∉ a.shown turns s) : content ∉ (runSteps a.turn turns s).recent := by
  have long := full_run draws out
  rw [run_recent a turns s short, List.rtake, List.drop_append, List.drop_eq_nil_of_le]
  · rw [List.nil_append]
    exact fun inside => out (List.mem_of_mem_drop inside)
  · rw [List.length_append]
    omega

/-- Whatever happened before, a line that is a candidate all along is surfaced within as many
selections as it takes to forget it and to go through the known lines. -/
theorem run_drifts (a : Attention K) (bias : AttentionBias K) (earlier turns : List (Turn K))
    (known : List String) (content : String) (there : content ∈ known)
    (few : known.length ≤ a.noveltyHorizon + 1) (forget through : ℕ)
    (forgets : a.noveltyHorizon ≤ a.capacity * forget)
    (goes : known.length ≤ a.capacity * through) (enough : forget + through ≤ selections turns)
    (draws : ∀ before t after, turns = before ++ t :: after →
      a.Draws known content t (runSteps a.turn (earlier ++ before) { bias := bias })) :
    content ∈ a.shown turns (runSteps a.turn earlier { bias := bias }) := by
  have remembered := run_recent a earlier { bias := bias } (Nat.zero_le _)
  have short : (runSteps a.turn earlier { bias := bias }).recent.length ≤ a.noveltyHorizon :=
    remembered ▸ rtake_length_le _ _
  simp only [runSteps_append] at draws
  generalize runSteps a.turn earlier { bias := bias } = s at short draws ⊢
  have part : forget ≤ selections turns := by omega
  obtain ⟨first, second, rfl, count, rest⟩ := cut_selections part
  rw [shown_append, List.mem_append]
  by_cases early : content ∈ a.shown first s
  · exact .inl early
  · right
    have drawsFirst : ∀ before t after, first = before ++ t :: after →
        a.Draws known content t (runSteps a.turn before s) := by
      intro before t after split
      exact draws before t (after ++ second) (by rw [split, List.append_assoc]; rfl)
    have unseen := forgotten short (count ▸ forgets) drawsFirst early
    have still : (runSteps a.turn first s).recent.length ≤ a.noveltyHorizon := by
      rw [run_recent a first s short]
      exact rtake_length_le _ _
    have later : through ≤ selections second := by omega
    refine shown_soon there few still unseen (goes.trans (Nat.mul_le_mul_left _ later)) ?_
    intro before t after split
    rw [← runSteps_append]
    exact draws (first ++ before) t after (by rw [split, List.append_assoc])

/-! ### Lines of one weight -/

/-- Nothing but novelty tells the candidates of a selection apart. -/
structure Level (a : Attention K) (s : AttentionState K) (items : List (WorkspaceItem K)) :
    Prop where
  novelty : 0 < a.weightNovelty
  penalty : 0 ≤ a.repeatPenalty ∧ a.repeatPenalty < 1
  salience : ∀ x ∈ items, ∀ y ∈ items, x.salience = y.salience
  boost : ∀ x ∈ items, ∀ y ∈ items, (dictGet s.bias.kindBoosts x.kind.label).getD 0 =
    (dictGet s.bias.kindBoosts y.kind.label).getD 0
  weight : ∀ x ∈ items,
    0 ≤ a.weightSalience * x.salience + (dictGet s.bias.kindBoosts x.kind.label).getD 0
  focus : ∀ x ∈ items,
    0 < 1 + a.weightArousal * (s.bias.arousal - frac 3 10) * (x.salience - frac 1 2)

omit [LinearOrder K] in
theorem novelty_of_new {content : String} (new : content ∉ s.recent) : a.novelty s content = 1 := by
  rw [novelty, List.count_eq_zero_of_not_mem new, pow_zero]

variable [IsStrictOrderedRing K]

theorem novelty_le_one {items : List (WorkspaceItem K)} (level : Level a s items)
    (content : String) : a.novelty s content ≤ 1 :=
  pow_le_one₀ level.penalty.1 level.penalty.2.le

theorem novelty_lt_one {items : List (WorkspaceItem K)} (level : Level a s items) {content : String}
    (seen : content ∈ s.recent) : a.novelty s content < 1 :=
  pow_lt_one₀ level.penalty.1 level.penalty.2 (List.count_pos_iff.mpr seen).ne'

/-- Among such candidates a new line scores more than one that is not new, and no less than any. -/
theorem Level.score {items : List (WorkspaceItem K)} (level : Level a s items)
    {x y : WorkspaceItem K} (hx : x ∈ items) (hy : y ∈ items) (new : x.content ∉ s.recent) :
    a.score s y ≤ a.score s x ∧ (y.content ∈ s.recent → a.score s y < a.score s x) := by
  unfold Attention.score
  dsimp only
  rw [level.salience y hy x hx, level.boost y hy x hx, novelty_of_new new, mul_one]
  have weight := level.weight x hx
  have focus := level.focus x hx
  have novelty := level.novelty
  have positive : 0 < a.weightSalience * x.salience + a.weightNovelty +
      (dictGet s.bias.kindBoosts x.kind.label).getD 0 := by linarith
  constructor
  · refine max_le_max_left 0 (mul_le_mul_of_nonneg_right ?_ focus.le)
    have least := mul_le_of_le_one_right novelty.le (novelty_le_one level y.content)
    linarith
  · intro seen
    refine max_lt (lt_max_of_lt_right (mul_pos positive focus)) (lt_max_of_lt_right ?_)
    refine mul_lt_mul_of_pos_right ?_ focus
    have least := mul_lt_of_lt_one_right novelty (novelty_lt_one level seen)
    linarith

theorem Level.draws {known : List String} {content : String}
    (level : Level a s (percepts ++ working))
    (candidate : content ∈ (percepts ++ working).map WorkspaceItem.content)
    (lines : ∀ item ∈ percepts ++ working, item.content ∈ known) :
    a.Draws known content (.select working percepts) s := by
  refine ⟨candidate, lines, fun unseen x hx same y hy seen => ?_⟩
  exact (level.score (mem_dedupe hx) (mem_dedupe hy) (same ▸ unseen)).2 seen

/-! ### A line too far behind -/

/-- Behind as many lines that are no worse while they are new as are remembered and admitted
together, the content is a candidate that is out of reach. -/
def Behind (a : Attention K) (content : String) : Turn K → AttentionState K → Prop
  | .select working percepts, s => ∃ before x after,
      dedupe (percepts ++ working) = before ++ x :: after ∧ x.content = content ∧
        a.noveltyHorizon + a.capacity ≤ before.length ∧
        ∀ y ∈ before, y.content ∉ s.recent → a.score s x ≤ a.score s y
  | .bias _, _ => True

omit [Field K] [LinearOrder K] [IsStrictOrderedRing K] in
/-- Different lines that are remembered are no more than what is remembered. -/
theorem remembered_le {items : List (WorkspaceItem K)}
    (distinct : (items.map WorkspaceItem.content).Nodup) (recent : List String) :
    (items.filter fun y => decide (y.content ∈ recent)).length ≤ recent.length := by
  have contents : ((items.filter fun y => decide (y.content ∈ recent)).map
      WorkspaceItem.content).Nodup :=
    distinct.sublist (List.Sublist.map _ List.filter_sublist)
  rw [← List.length_map WorkspaceItem.content]
  refine (List.subperm_of_subset contents ?_).length_le
  intro line inside
  obtain ⟨y, old, rfl⟩ := List.mem_map.mp inside
  exact of_decide_eq_true (List.mem_filter.mp old).2

omit [IsStrictOrderedRing K] in
/-- A line that is chosen brings with it all that stand before it and score no less. -/
theorem chosen_before {x : WorkspaceItem K} {before after better : List (WorkspaceItem K)}
    (order : dedupe (percepts ++ working) = before ++ x :: after) (sub : better.Sublist before)
    (least : ∀ y ∈ better, a.score s x ≤ a.score s y) (taken : x ∈ a.chosen s working percepts) :
    better.length < a.capacity := by
  have distinct : (dedupe (percepts ++ working)).Nodup := (dedupe_deduped _).distinct.of_map
  have front := distinct
  rw [order, List.nodup_append] at front
  have all : (x :: better).Subperm (a.chosen s working percepts) := by
    refine List.subperm_of_subset (List.nodup_cons.mpr ⟨?_, front.1.sublist sub⟩) ?_
    · exact fun again => front.2.2 x (sub.subset again) x List.mem_cons_self rfl
    · intro y inside
      rcases List.mem_cons.mp inside with rfl | early
      · exact taken
      · refine List.mem_best_of_before distinct ?_ (least y early) taken
        rw [order]
        exact (List.singleton_sublist.mpr (sub.subset early)).append
          (List.singleton_sublist.mpr List.mem_cons_self)
  have room := all.length_le
  rw [List.length_cons, chosen, List.length_best] at room
  omega

omit [IsStrictOrderedRing K] in
theorem Behind.out {content : String} {t : Turn K} (behind : a.Behind content t s)
    (short : s.recent.length ≤ a.noveltyHorizon) : content ∉ a.shownBy s t := by
  cases t with
  | bias bias => exact List.not_mem_nil
  | select working percepts =>
      obtain ⟨before, x, after, order, rfl, long, least⟩ := behind
      have deduped := dedupe_deduped (percepts ++ working)
      change x.content ∉ (a.admitted s working percepts).map WorkspaceItem.content
      rw [admitted_contents]
      intro inside
      obtain ⟨z, taken, same⟩ := List.mem_map.mp inside
      have member : x ∈ dedupe (percepts ++ working) := by rw [order]; simp
      obtain rfl : z = x := List.inj_on_of_nodup_map deduped.distinct
        (List.mem_of_mem_best taken) member same
      -- of the lines before it too many are new
      have split := List.length_eq_length_filter_add (l := before)
        fun y => decide (y.content ∈ s.recent)
      have distinct : (before.map WorkspaceItem.content).Nodup := by
        refine deduped.distinct.sublist (List.Sublist.map _ ?_)
        rw [order]
        exact List.sublist_append_left _ _
      have old := remembered_le distinct s.recent
      have part : (before.filter fun y => !decide (y.content ∈ s.recent)).Sublist before :=
        List.filter_sublist
      have new := chosen_before order part (fun y fresh => least y (List.mem_filter.mp fresh).1
        (by simpa using (List.mem_filter.mp fresh).2)) taken
      omega

omit [IsStrictOrderedRing K] in
/-- However long it stays there, such a line is never surfaced. -/
theorem run_starves (a : Attention K) (bias : AttentionBias K) {turns : List (Turn K)}
    {content : String} (behind : ∀ before t after, turns = before ++ t :: after →
      a.Behind content t (runSteps a.turn before { bias := bias })) :
    content ∉ a.shown turns { bias := bias } := by
  have short : ({ bias := bias } : AttentionState K).recent.length ≤ a.noveltyHorizon :=
    Nat.zero_le _
  generalize ({ bias := bias } : AttentionState K) = s at short behind ⊢
  induction turns generalizing s with
  | nil => exact List.not_mem_nil
  | cons t turns ih =>
      obtain ⟨first, later⟩ := each_cons.mp behind
      rw [shown, List.mem_append, not_or]
      exact ⟨first.out short, ih _ (turn_short a t s short) later⟩

end Attention

/-! ### Idle lines -/

namespace IdleLines

def narrow (horizon : ℕ) : Attention ℚ where
  capacity := 1
  weightSalience := 1
  weightNovelty := 1
  repeatPenalty := 1 / 2
  weightArousal := 0
  noveltyHorizon := horizon

def calm : AttentionBias ℚ := { arousal := 3 / 10 }

def idle (content : String) : WorkspaceItem ℚ := { kind := .ambient, content, salience := 1 / 2 }

def lines : List (WorkspaceItem ℚ) := [idle "disk", idle "load", idle "uptime"]

def ticks : List (Attention.Turn ℚ) := List.replicate 5 (.select lines [])

/-- After the ticks one more line is admitted. -/
theorem one_admitted : ∃ selection s',
    (narrow 2).select lines [] (runSteps (narrow 2).turn ticks { bias := calm }) =
      (.ok selection, s') ∧ selection.length = 1 := by
  obtain ⟨-, -, selection, s', ran, admits, -⟩ :=
    Attention.run_admits (narrow 2) calm ticks lines []
  exact ⟨selection, s', ran, admits.length.trans rfl⟩

theorem level (horizon : ℕ) (s : AttentionState ℚ) (same : s.bias = calm) :
    Attention.Level (narrow horizon) s ([] ++ lines) := by
  have idle : ∀ x ∈ [] ++ lines, x.salience = 1 / 2 := by simp [lines, idle]
  have unbiased (x : WorkspaceItem ℚ) :
      (dictGet s.bias.kindBoosts x.kind.label).getD 0 = 0 := by
    rw [same]
    rfl
  refine ⟨?_, ?_, ?_, ?_, ?_, ?_⟩
  · norm_num [narrow]
  · norm_num [narrow]
  · intro x hx y hy
    rw [idle x hx, idle y hy]
  · intro x _ y _
    rw [unbiased, unbiased]
  · intro x hx
    rw [idle x hx, unbiased]
    norm_num [narrow]
  · intro x _
    norm_num [narrow]

theorem bias_kept (horizon : ℕ) {turns : List (Attention.Turn ℚ)}
    (idle : ∀ t ∈ turns, t = .select lines []) (s : AttentionState ℚ) :
    (runSteps (narrow horizon).turn turns s).bias = s.bias := by
  induction turns generalizing s with
  | nil => rfl
  | cons t turns ih =>
      rw [runSteps_cons, ih fun t inside => idle t (List.mem_cons_of_mem _ inside),
        idle t List.mem_cons_self]
      rfl

theorem tick_of_split {before after : List (Attention.Turn ℚ)} {t : Attention.Turn ℚ}
    (split : ticks = before ++ t :: after) :
    t = .select lines [] ∧ ∀ t ∈ before, t = .select lines [] := by
  have each : ∀ t ∈ ticks, t = .select lines [] := fun t inside => List.eq_of_mem_replicate inside
  rw [split] at each
  exact ⟨each t (by simp), fun t inside => each t (List.mem_append_left _ inside)⟩

/-- With two lines remembered, each of three is surfaced within five ticks. -/
theorem uptime_surfaced : "uptime" ∈ (narrow 2).shown ticks { bias := calm } := by
  refine Attention.run_drifts (narrow 2) calm [] ticks ["disk", "load", "uptime"] "uptime"
    (by decide) (by decide) 2 3 (by decide) (by decide) (by decide) ?_
  intro before t after split
  obtain ⟨rfl, idle⟩ := tick_of_split split
  refine (level 2 _ (bias_kept 2 idle _)).draws (by decide) ?_
  simp [lines, IdleLines.idle]

/-- With one line remembered the third is never. -/
theorem uptime_starved : "uptime" ∉ (narrow 1).shown ticks { bias := calm } := by
  refine Attention.run_starves (narrow 1) calm ?_
  intro before t after split
  obtain ⟨rfl, calm⟩ := tick_of_split split
  refine ⟨[idle "disk", idle "load"], idle "uptime", [], rfl, rfl, by decide, ?_⟩
  intro y inside new
  have even := level 1 _ (bias_kept 1 calm { bias := IdleLines.calm })
  refine (even.score ?_ ?_ new).1
  · simp only [List.nil_append, lines, List.mem_cons] at inside ⊢
    tauto
  · simp [lines]

end IdleLines
end Johnny
