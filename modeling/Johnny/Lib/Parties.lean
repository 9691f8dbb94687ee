import Johnny.Lib.Runs
import Mathlib.Algebra.BigOperators.Group.Finset.Basic
import Mathlib.Algebra.Order.BigOperators.Group.Finset
import Mathlib.Logic.Function.Basic

/-!
# Parties that share a state

Any number of parties take their steps in any order. A step is one party's: it changes the
shared state and what that party itself holds, so whatever the others hold stays.
-/

structure Parties (σ φ : Type) where
  shared : σ
  party : ℕ → φ

namespace Parties
variable {σ φ ι : Type} (move : ℕ → ι → σ × φ → σ × φ)

/-- One step of a party. -/
def step (i : ℕ × ι) (s : Parties σ φ) : Parties σ φ :=
  let after := move i.1 i.2 (s.shared, s.party i.1)
  ⟨after.1, Function.update s.party i.1 after.2⟩

theorem step_self (i : ℕ × ι) (s : Parties σ φ) :
    (step move i s).party i.1 = (move i.1 i.2 (s.shared, s.party i.1)).2 := by
  simp [step]

theorem step_other (i : ℕ × ι) (s : Parties σ φ) {j : ℕ} (other : j ≠ i.1) :
    (step move i s).party j = s.party j := by
  simp [step, other]

/-- What holds of the shared state, of what each party holds of its own, and of what any two
parties hold. -/
structure Held (S : σ → Prop) (L : ℕ → σ → φ → Prop) (P : φ → φ → Prop)
    (s : Parties σ φ) : Prop where
  shared : S s.shared
  own : ∀ i, L i s.shared (s.party i)
  apart : ∀ i j, i ≠ j → P (s.party i) (s.party j)

/-- What a step keeps: its party's own, and what the others hold. -/
structure Keeps (move : ℕ → ι → σ × φ → σ × φ) (S : σ → Prop) (L : ℕ → σ → φ → Prop)
    (P : φ → φ → Prop) : Prop where
  shared : ∀ i e s f, S s → L i s f → S (move i e (s, f)).1
  own : ∀ i e s f, S s → L i s f → L i (move i e (s, f)).1 (move i e (s, f)).2
  others : ∀ i e s f j g, i ≠ j → S s → L i s f → P f g → L j s g → L j (move i e (s, f)).1 g
  apart : ∀ i e s f j g, S s → L i s f → L j s g → P f g → P (move i e (s, f)).2 g
  symm : ∀ f g, P f g → P g f

variable {move} {S : σ → Prop} {L : ℕ → σ → φ → Prop} {P : φ → φ → Prop}

theorem Held.step (keeps : Keeps move S L P) {s : Parties σ φ} (held : s.Held S L P)
    (i : ℕ × ι) : (step move i s).Held S L P := by
  have own := held.own i.1
  refine ⟨keeps.shared i.1 i.2 _ _ held.shared own, fun j => ?_, fun j k apart => ?_⟩
  · by_cases same : j = i.1
    · subst same
      rw [step_self]
      exact keeps.own i.1 i.2 _ _ held.shared own
    · rw [step_other move i s same]
      exact keeps.others i.1 i.2 _ _ j _ (Ne.symm same) held.shared own
        (held.apart i.1 j (Ne.symm same)) (held.own j)
  · by_cases first : j = i.1
    · subst first
      rw [step_self, step_other move i s (Ne.symm apart)]
      exact keeps.apart i.1 i.2 _ _ k _ held.shared own (held.own k) (held.apart i.1 k apart)
    · rw [step_other move i s first]
      by_cases second : k = i.1
      · subst second
        rw [step_self]
        exact keeps.symm _ _ (keeps.apart i.1 i.2 _ _ j _ held.shared own (held.own j)
          (held.apart i.1 j (Ne.symm apart)))
      · rw [step_other move i s second]
        exact held.apart j k apart

/-- In whatever order the parties move. -/
theorem Held.run (keeps : Keeps move S L P) {s : Parties σ φ} (held : s.Held S L P)
    (moves : List (ℕ × ι)) : (runSteps (Parties.step move) moves s).Held S L P :=
  runSteps_invariant (fun i _ before => before.step keeps i) moves held

/-- What every move keeps of the shared state, whoever moves. -/
theorem run_shared {I : σ → Prop} (kept : ∀ i e s f, I s → I (move i e (s, f)).1)
    (moves : List (ℕ × ι)) {s : Parties σ φ} (start : I s.shared) :
    I (runSteps (step move) moves s).shared :=
  runSteps_invariant (I := fun t : Parties σ φ => I t.shared)
    (fun i t => kept i.1 i.2 t.shared (t.party i.1)) moves start

/-! ### What all parties hold together -/

section total
variable (weight : φ → ℕ) (n : ℕ)

/-- The weights of the first `n` parties together. -/
def total (s : Parties σ φ) : ℕ := ∑ i ∈ Finset.range n, weight (s.party i)

theorem total_step (move : ℕ → ι → σ × φ → σ × φ) {i : ℕ × ι} (among : i.1 < n)
    (s : Parties σ φ) : (step move i s).total weight n + weight (s.party i.1) =
      s.total weight n + weight (move i.1 i.2 (s.shared, s.party i.1)).2 := by
  have member : i.1 ∈ Finset.range n := Finset.mem_range.mpr among
  have others : ∑ j ∈ (Finset.range n).erase i.1, weight ((step move i s).party j) =
      ∑ j ∈ (Finset.range n).erase i.1, weight (s.party j) := by
    refine Finset.sum_congr rfl fun j inside => ?_
    rw [step_other move i s (Finset.ne_of_mem_erase inside)]
  unfold total
  rw [← Finset.add_sum_erase _ _ member, ← Finset.add_sum_erase _ _ member, others, step_self]
  omega

theorem total_le {weight : φ → ℕ} (light : ∀ f, weight f ≤ 1) (s : Parties σ φ) :
    s.total weight n ≤ n := by
  have bound := Finset.sum_le_card_nsmul (Finset.range n) (fun i => weight (s.party i)) 1
    fun i _ => light _
  rw [Finset.card_range] at bound
  exact bound.trans_eq (Nat.mul_one n)

/-- A party looks at a size that all share and later adds to it. Whoever lets itself in below the
limit may find the others in as well, so they overshoot by as many as there are. -/
theorem admitted_run {move : ℕ → ι → σ × φ → σ × φ} {size : σ → ℕ} {weight : φ → ℕ} {limit : ℕ}
    (light : ∀ f, weight f ≤ 1)
    (each : ∀ i e s f, size (move i e (s, f)).1 + weight (move i e (s, f)).2 ≤ size s + weight f ∨
      (size s < limit ∧ size (move i e (s, f)).1 ≤ size s))
    {moves : List (ℕ × ι)} (among : ∀ i ∈ moves, i.1 < n) (s : Parties σ φ) :
    size (runSteps (step move) moves s).shared + (runSteps (step move) moves s).total weight n ≤
      max (size s.shared + s.total weight n) (limit - 1 + n) := by
  induction moves generalizing s with
  | nil => exact le_max_left _ _
  | cons i moves ih =>
      obtain ⟨first, rest⟩ := List.forall_mem_cons.mp among
      refine (ih rest (step move i s)).trans (max_le ?_ (le_max_right _ _))
      have sum := total_step weight n move first s
      rcases each i.1 i.2 s.shared (s.party i.1) with less | ⟨below, same⟩
      · refine le_trans ?_ (le_max_left _ _)
        change size (move i.1 i.2 (s.shared, s.party i.1)).1 + _ ≤ _
        omega
      · refine le_trans ?_ (le_max_right _ _)
        change size (move i.1 i.2 (s.shared, s.party i.1)).1 + _ ≤ _
        have few := total_le n light (step move i s)
        omega

end total

end Parties
