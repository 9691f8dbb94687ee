import Johnny.Lib.Halving

/-!
# Relaxation in time

A value relaxes towards a target at a rate: after some time the exponential of it, and the
rate, is the share of the distance that is left. Relaxing for two times in a row is relaxing
for their sum.
-/

/-- What is used of `exp`. -/
structure Exponential (K : Type) [Field K] [LinearOrder K] where
  exp : K → K
  exp_zero : exp 0 = 1
  exp_add : ∀ a b, exp (a + b) = exp a * exp b
  monotone : Monotone exp

namespace Exponential

noncomputable def real : Exponential ℝ where
  exp := Real.exp
  exp_zero := Real.exp_zero
  exp_add := Real.exp_add
  monotone := Real.exp_monotone

variable {K : Type} [Field K] [LinearOrder K] (e : Exponential K)

/-- What is left of the distance after some time. -/
def share (rate time : K) : K := e.exp (-rate * time)

theorem share_zero (rate : K) : e.share rate 0 = 1 := by
  unfold share
  rw [mul_zero, e.exp_zero]

theorem share_add (rate a b : K) : e.share rate (a + b) = e.share rate a * e.share rate b := by
  unfold share
  rw [mul_add, e.exp_add]

variable [IsStrictOrderedRing K]

/-- A power is the square of its half. -/
theorem exp_nonneg (a : K) : 0 ≤ e.exp a := by
  rw [← add_halves a, e.exp_add]
  exact mul_self_nonneg _

theorem share_nonneg (rate time : K) : 0 ≤ e.share rate time := e.exp_nonneg _

theorem share_anti {rate a b : K} (positive : 0 ≤ rate) (le : a ≤ b) :
    e.share rate b ≤ e.share rate a :=
  e.monotone (mul_le_mul_of_nonpos_left le (neg_nonpos.mpr positive))

theorem share_le_one {rate time : K} (positive : 0 ≤ rate) (nonneg : 0 ≤ time) :
    e.share rate time ≤ 1 := by
  rw [← e.share_zero rate]
  exact e.share_anti positive nonneg

end Exponential

section towards
variable {K : Type} [Field K] [LinearOrder K] [IsStrictOrderedRing K] {target r r' s : K}

/-- From below, the target is approached from below. -/
theorem relax_le_target (below : s ≤ target) (nonneg : 0 ≤ r) : relax target r s ≤ target :=
  add_le_of_nonpos_right (mul_nonpos_of_nonpos_of_nonneg (sub_nonpos.mpr below) nonneg)

theorem relax_anti (below : s ≤ target) (le : r ≤ r') : relax target r' s ≤ relax target r s :=
  add_le_add_right (mul_le_mul_of_nonpos_left le (sub_nonpos.mpr below)) target

theorem le_relax_of_le (below : s ≤ target) (le : r ≤ 1) : s ≤ relax target r s := by
  have least := relax_anti below le
  rwa [relax_one] at least

/-- A relaxed value stays between where it was and the target. -/
theorem relax_mem {low high : K} (nonneg : 0 ≤ r) (le : r ≤ 1) (hs : low ≤ s ∧ s ≤ high)
    (ht : low ≤ target ∧ target ≤ high) :
    low ≤ relax target r s ∧ relax target r s ≤ high := by
  rcases le_total s target with below | above
  · exact ⟨hs.1.trans (le_relax_of_le below le), (relax_le_target below nonneg).trans ht.2⟩
  · exact ⟨ht.1.trans (le_relax above nonneg), (relax_le above le).trans hs.2⟩

end towards
