import Mathlib.Analysis.SpecialFunctions.Log.Basic

/-!
# Halving and relaxation

A quantity that relaxes towards a floor keeps a share of its distance to it. Shares
multiply, and the powers of one half turn sums of ages into products of shares.
-/

/-- The powers of one half: `pow x` is `0.5 ** x`. -/
structure Halving (K : Type) [Field K] [LinearOrder K] where
  pow : K → K
  pow_zero : pow 0 = 1
  pow_one : pow 1 + pow 1 = 1
  pow_add : ∀ x y, pow (x + y) = pow x * pow y
  pow_pos : ∀ x, 0 < pow x
  strictAnti : StrictAnti pow

namespace Halving
variable {K : Type} [Field K] [LinearOrder K]

theorem pow_inj (h : Halving K) {x y : K} : h.pow x = h.pow y ↔ x = y :=
  h.strictAnti.injective.eq_iff

theorem pow_le_one (h : Halving K) {x : K} (nonneg : 0 ≤ x) : h.pow x ≤ 1 := by
  rw [← h.pow_zero]
  exact h.strictAnti.antitone nonneg

/-- The exact powers, as `0.5 ** x = exp(-x * log 2)`. -/
noncomputable def real : Halving ℝ where
  pow x := Real.exp (-(x * Real.log (1 + 1)))
  pow_zero := by rw [zero_mul, neg_zero, Real.exp_zero]
  pow_one := by
    have two : (0 : ℝ) < 1 + 1 := add_pos zero_lt_one zero_lt_one
    rw [one_mul, Real.exp_neg, Real.exp_log two, ← two_mul, ← one_add_one_eq_two,
      mul_inv_cancel₀ two.ne']
  pow_add x y := by rw [add_mul, neg_add, Real.exp_add]
  pow_pos x := Real.exp_pos _
  strictAnti := by
    intro x y less
    have log : 0 < Real.log (1 + 1) := Real.log_pos (lt_add_one 1)
    exact Real.exp_lt_exp.mpr (neg_lt_neg (mul_lt_mul_of_pos_right less log))

end Halving

section relaxation
variable {K : Type} [Field K] {floor r s : K}

/-- `s` with the share `r` of its distance to `floor`. -/
def relax (floor r s : K) : K := floor + (s - floor) * r

@[simp] theorem relax_one (floor s : K) : relax floor 1 s = s := by
  unfold relax
  ring

theorem relax_relax (floor r r' s : K) : relax floor r' (relax floor r s) =
    relax floor (r * r') s := by
  unfold relax
  ring

variable [LinearOrder K] [IsStrictOrderedRing K]

theorem le_relax (above : floor ≤ s) (nonneg : 0 ≤ r) : floor ≤ relax floor r s :=
  le_add_of_nonneg_right (mul_nonneg (sub_nonneg.mpr above) nonneg)

theorem relax_mono {r r' : K} (above : floor ≤ s) (le : r ≤ r') :
    relax floor r s ≤ relax floor r' s :=
  add_le_add_right (mul_le_mul_of_nonneg_left le (sub_nonneg.mpr above)) floor

theorem relax_le (above : floor ≤ s) (le : r ≤ 1) : relax floor r s ≤ s := by
  have most := relax_mono above le
  rwa [relax_one] at most

/-- Two shares agree on the value exactly where they are equal or nothing is above the floor. -/
theorem relax_eq_relax_iff {r r' : K} :
    relax floor r s = relax floor r' s ↔ s = floor ∨ r = r' := by
  unfold relax
  rw [add_right_inj, mul_eq_mul_left_iff, sub_eq_zero, or_comm]

/-- Relaxing in two steps, each cut off at zero, cuts off the result at zero. -/
theorem max_relax_max_relax {r r' : K} (above : floor ≤ s) (nonneg : 0 ≤ r)
    (le' : r' ≤ 1) :
    max 0 (relax floor r' (max 0 (relax floor r s))) = max 0 (relax floor (r * r') s) := by
  rcases le_total 0 (relax floor r s) with positive | negative
  · rw [max_eq_right positive, relax_relax]
  · have low : floor ≤ 0 := (le_relax above nonneg).trans negative
    have first : relax floor r' 0 ≤ 0 := relax_le low le'
    have second : relax floor (r * r') s ≤ 0 := by
      rw [← relax_relax]
      exact (relax_le (le_relax above nonneg) le').trans negative
    rw [max_eq_left negative, max_eq_left first, max_eq_left second]

end relaxation
