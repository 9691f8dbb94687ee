import Johnny.Foundation.Values
import Johnny.Lib.Exponential

/-!
# The parameters of a drive

A drive is a pressure that relaxes, while nothing happens, along a first-order curve towards
an equilibrium. Two times in a row take it as far as their sum.
-/
namespace Johnny
variable {K : Type} [Field K] [LinearOrder K]

structure DriveParams (K : Type) where
  setpoint : K
  accrualRate : K
  decayRate : K
  threshold : K

namespace DriveParams

/-- The combined relaxation rate. -/
def kappa (p : DriveParams K) : K := p.accrualRate + p.decayRate

/-- Where the pressure settles if nothing ever happens. -/
def equilibrium (p : DriveParams K) : K :=
  if p.kappa ≤ 0 then clamp01 p.setpoint
  else clamp01 ((p.accrualRate + p.decayRate * p.setpoint) / p.kappa)

/-- The pressure `dt` seconds later. -/
def advance (exp : Exponential K) (p : DriveParams K) (value dt : K) : K :=
  if dt ≤ 0 ∨ p.kappa ≤ 0 then clamp01 value
  else
    let eq := p.equilibrium
    clamp01 (eq + (value - eq) * exp.exp (-p.kappa * dt))

/-- A pressure, as stored. -/
structure Pressure (value : K) : Prop where
  nonneg : 0 ≤ value
  le_one : value ≤ 1

theorem Pressure.clamp01 [IsStrictOrderedRing K] (value : K) : Pressure (clamp01 value) :=
  ⟨clamp01_nonneg value, clamp01_le_one value⟩

section order
variable [IsStrictOrderedRing K] {exp : Exponential K} {p : DriveParams K} {value : K}

theorem equilibrium_pressure (p : DriveParams K) : Pressure p.equilibrium := by
  unfold equilibrium
  split
  · exact .clamp01 _
  · exact .clamp01 _

theorem advance_pressure (value dt : K) : Pressure (p.advance exp value dt) := by
  unfold advance
  split
  · exact .clamp01 _
  · exact .clamp01 _

omit [IsStrictOrderedRing K] in
theorem advance_of_nonpos (pressure : Pressure value) {dt : K} (nonpos : dt ≤ 0) :
    p.advance exp value dt = value := by
  unfold advance
  rw [if_pos (.inl nonpos), clamp01_of_mem pressure.nonneg pressure.le_one]

omit [IsStrictOrderedRing K] in
theorem advance_of_still (pressure : Pressure value) (still : p.kappa ≤ 0) (dt : K) :
    p.advance exp value dt = value := by
  unfold advance
  rw [if_pos (.inr still), clamp01_of_mem pressure.nonneg pressure.le_one]

/-- Between stored pressures nothing is cut off. -/
theorem advance_eq_relax (pressure : Pressure value) (moving : 0 < p.kappa) {dt : K}
    (nonneg : 0 ≤ dt) :
    p.advance exp value dt = relax p.equilibrium (exp.share p.kappa dt) value := by
  have eq := equilibrium_pressure p
  obtain ⟨low, high⟩ := relax_mem (exp.share_nonneg p.kappa dt)
    (exp.share_le_one moving.le nonneg) ⟨pressure.nonneg, pressure.le_one⟩ ⟨eq.nonneg, eq.le_one⟩
  rcases nonneg.eq_or_lt with rfl | positive
  · rw [advance_of_nonpos pressure le_rfl, exp.share_zero, relax_one]
  · unfold advance
    rw [if_neg (not_or.mpr ⟨not_le.mpr positive, not_le.mpr moving⟩)]
    exact clamp01_of_mem low high

/-- One time after another is one time, their sum. -/
theorem advance_advance (pressure : Pressure value) {a b : K} (ha : 0 ≤ a) (hb : 0 ≤ b) :
    p.advance exp (p.advance exp value a) b = p.advance exp value (a + b) := by
  rcases le_or_gt p.kappa 0 with still | moving
  · rw [advance_of_still (advance_pressure _ _) still, advance_of_still pressure still,
      advance_of_still pressure still]
  · rw [advance_eq_relax (advance_pressure _ _) moving hb, advance_eq_relax pressure moving ha,
      advance_eq_relax pressure moving (add_nonneg ha hb), relax_relax, exp.share_add]

/-- Whatever time passes, the pressure moves towards the equilibrium and not past it. -/
structure Relaxes (exp : Exponential K) (p : DriveParams K) (value : K) : Prop where
  inside : ∀ dt, 0 ≤ p.advance exp value dt ∧ p.advance exp value dt ≤ 1
  rising : value ≤ p.equilibrium → ∀ a b, a ≤ b → value ≤ p.advance exp value a ∧
    p.advance exp value a ≤ p.advance exp value b ∧ p.advance exp value b ≤ p.equilibrium
  falling : p.equilibrium ≤ value → ∀ a b, a ≤ b → p.equilibrium ≤ p.advance exp value b ∧
    p.advance exp value b ≤ p.advance exp value a ∧ p.advance exp value a ≤ value

omit [IsStrictOrderedRing K] in
/-- Time that is not positive is no time. -/
theorem advance_max (pressure : Pressure value) (dt : K) :
    p.advance exp value dt = p.advance exp value (max 0 dt) := by
  rcases le_total dt 0 with nonpos | nonneg
  · rw [max_eq_left nonpos, advance_of_nonpos pressure nonpos, advance_of_nonpos pressure le_rfl]
  · rw [max_eq_right nonneg]

theorem relaxes (pressure : Pressure value) (moving : 0 < p.kappa) : p.Relaxes exp value := by
  have moved (dt : K) : p.advance exp value dt =
      relax p.equilibrium (exp.share p.kappa (max 0 dt)) value := by
    rw [advance_max pressure, advance_eq_relax pressure moving (le_max_left 0 dt)]
  have shares {a b : K} (le : a ≤ b) :
      exp.share p.kappa (max 0 b) ≤ exp.share p.kappa (max 0 a) :=
    exp.share_anti moving.le (max_le_max le_rfl le)
  have most (dt : K) : exp.share p.kappa (max 0 dt) ≤ 1 :=
    exp.share_le_one moving.le (le_max_left 0 dt)
  refine ⟨fun dt => ?_, fun below a b le => ?_, fun above a b le => ?_⟩
  · have stays : Pressure (p.advance exp value dt) := advance_pressure value dt
    exact ⟨stays.nonneg, stays.le_one⟩
  · rw [moved a, moved b]
    exact ⟨le_relax_of_le below (most a), relax_anti below (shares le),
      relax_le_target below (exp.share_nonneg _ _)⟩
  · rw [moved a, moved b]
    exact ⟨le_relax above (exp.share_nonneg _ _), relax_mono above (shares le),
      relax_le above (most a)⟩

end order
end DriveParams
end Johnny
