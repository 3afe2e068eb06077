import Logix.Spec.Numerals
import Mathlib.Analysis.InnerProductSpace.PiL2
import Mathlib.Analysis.SpecialFunctions.Complex.Arg
import Mathlib.Geometry.Euclidean.Angle.Unoriented.TriangleInequality
import Mathlib.Tactic.LinearCombination

/-!
# Great circles

Places of the unit sphere, given by latitude and longitude in radians. `haversine` of two places is
half of what the cosine of their angle lacks to one; distances are computed from it.

* `Trigonometry`: the functions in use; `realTrigonometry`: those of the real numbers;
* `onSphere`, `north`, `east`: a place and the directions there;
* `centralAngle`, `bearing`: the angle of two places by its haversine, and the direction from one to
  the other;
* **`centralAngle_eq`**: it is the angle of the two vectors; `centralAngle_triangle`: so the
  triangle inequality holds;
* **`onSphere_eq_polar`**: angle and direction locate the other place.
-/

namespace Logix.Spec

open Real InnerProductGeometry
open scoped RealInnerProductSpace Numerals

/-- Functions of trigonometry on the numbers `K`. -/
structure Trigonometry (K : Type) where
  pi : K
  sin : K → K
  cos : K → K
  sqrt : K → K
  atan2 : K → K → K

/-- Those of the real numbers: `atan2 y x` is the angle of the point `(x, y)`. -/
noncomputable def realTrigonometry : Trigonometry ℝ where
  pi := π
  sin := Real.sin
  cos := Real.cos
  sqrt := Real.sqrt
  atan2 y x := Complex.arg ⟨x, y⟩

/-! ## Angles by the haversine -/

section Formulas

variable {K : Type} [Field K] (T : Trigonometry K)

/-- `sin² (Δφ / 2) + cos φ₁ cos φ₂ sin² (Δl / 2)`. -/
def haversine (φ₁ l₁ φ₂ l₂ : K) : K :=
  T.sin ((φ₂ - φ₁) / 2) ^ 2 + T.cos φ₁ * T.cos φ₂ * T.sin ((l₂ - l₁) / 2) ^ 2

/-- The angle that has this haversine. -/
def centralAngle (φ₁ l₁ φ₂ l₂ : K) : K :=
  2 * T.atan2 (T.sqrt (haversine T φ₁ l₁ φ₂ l₂)) (T.sqrt (1 - haversine T φ₁ l₁ φ₂ l₂))

/-- The direction of the second place at the first, from the north to the east. -/
def bearing (φ₁ l₁ φ₂ l₂ : K) : K :=
  T.atan2 (T.sin (l₂ - l₁) * T.cos φ₂)
    (T.cos φ₁ * T.sin φ₂ - T.sin φ₁ * T.cos φ₂ * T.cos (l₂ - l₁))

end Formulas

/-! ## The sphere -/

/-- A place of the sphere. -/
noncomputable def onSphere (φ l : ℝ) : EuclideanSpace ℝ (Fin 3) :=
  !₂[cos φ * cos l, cos φ * sin l, sin φ]

/-- The north at a place. -/
noncomputable def north (φ l : ℝ) : EuclideanSpace ℝ (Fin 3) :=
  !₂[-(sin φ * cos l), -(sin φ * sin l), cos φ]

/-- The east at a place. -/
noncomputable def east (l : ℝ) : EuclideanSpace ℝ (Fin 3) := !₂[-sin l, cos l, 0]

variable (φ₁ l₁ φ₂ l₂ φ₃ l₃ : ℝ)

theorem inner_onSphere : ⟪onSphere φ₁ l₁, onSphere φ₂ l₂⟫ =
    sin φ₁ * sin φ₂ + cos φ₁ * cos φ₂ * cos (l₂ - l₁) := by
  simp only [onSphere, PiLp.inner_apply, Fin.sum_univ_three, RCLike.inner_apply, conj_trivial,
    cos_sub]
  simp
  ring

theorem norm_onSphere : ‖onSphere φ₁ l₁‖ = 1 := by
  rw [← sq_eq_sq₀ (norm_nonneg _) zero_le_one, ← real_inner_self_eq_norm_sq, inner_onSphere,
    sub_self, cos_zero, one_pow]
  linear_combination sin_sq_add_cos_sq φ₁

theorem cos_angle_onSphere : cos (angle (onSphere φ₁ l₁) (onSphere φ₂ l₂)) =
    sin φ₁ * sin φ₂ + cos φ₁ * cos φ₂ * cos (l₂ - l₁) := by
  rw [cos_angle, norm_onSphere, norm_onSphere, mul_one, div_one, inner_onSphere]

theorem haversine_eq : haversine realTrigonometry φ₁ l₁ φ₂ l₂ =
    (1 - cos (angle (onSphere φ₁ l₁) (onSphere φ₂ l₂))) / 2 := by
  have h (x : ℝ) : sin (x / 2) ^ 2 = (1 - cos x) / 2 := by
    rw [sin_sq_eq_half_sub, mul_div_cancel₀ x two_ne_zero]
    ring
  simp only [haversine, realTrigonometry]
  rw [h, h, cos_angle_onSphere, cos_sub φ₂ φ₁]
  ring

/-- **The formula gives the angle.** -/
theorem centralAngle_eq : centralAngle realTrigonometry φ₁ l₁ φ₂ l₂ =
    angle (onSphere φ₁ l₁) (onSphere φ₂ l₂) := by
  rw [centralAngle, haversine_eq]
  set δ := angle (onSphere φ₁ l₁) (onSphere φ₂ l₂)
  have hpi := pi_pos
  have hnonneg : 0 ≤ δ := angle_nonneg _ _
  have hle : δ ≤ π := angle_le_pi _ _
  have hsin : √((1 - cos δ) / 2) = sin (δ / 2) :=
    (sin_half_eq_sqrt hnonneg (by linarith)).symm
  have hcos : √(1 - (1 - cos δ) / 2) = cos (δ / 2) := by
    rw [cos_half (by linarith) hle]
    congr 1
    ring
  simp only [realTrigonometry]
  rw [hsin, hcos, Complex.mk_eq_add_mul_I, Complex.ofReal_cos, Complex.ofReal_sin,
    Complex.arg_cos_add_sin_mul_I ⟨by linarith, by linarith⟩]
  ring

/-! ### A metric -/

theorem centralAngle_nonneg : 0 ≤ centralAngle realTrigonometry φ₁ l₁ φ₂ l₂ := by
  rw [centralAngle_eq]
  exact angle_nonneg _ _

theorem centralAngle_le_pi : centralAngle realTrigonometry φ₁ l₁ φ₂ l₂ ≤ π := by
  rw [centralAngle_eq]
  exact angle_le_pi _ _

theorem centralAngle_comm : centralAngle realTrigonometry φ₁ l₁ φ₂ l₂ =
    centralAngle realTrigonometry φ₂ l₂ φ₁ l₁ := by
  rw [centralAngle_eq, centralAngle_eq, angle_comm]

theorem centralAngle_self : centralAngle realTrigonometry φ₁ l₁ φ₁ l₁ = 0 := by
  have hne : onSphere φ₁ l₁ ≠ 0 :=
    norm_ne_zero_iff.mp ((norm_onSphere φ₁ l₁).trans_ne one_ne_zero)
  rw [centralAngle_eq, angle_self hne]

/-- **The triangle inequality.** -/
theorem centralAngle_triangle : centralAngle realTrigonometry φ₁ l₁ φ₃ l₃ ≤
    centralAngle realTrigonometry φ₁ l₁ φ₂ l₂ + centralAngle realTrigonometry φ₂ l₂ φ₃ l₃ := by
  rw [centralAngle_eq, centralAngle_eq, centralAngle_eq]
  exact angle_le_angle_add_angle _ _ _

/-! ### Polar coordinates -/

theorem sin_centralAngle_mul_bearing :
    sin (centralAngle realTrigonometry φ₁ l₁ φ₂ l₂) *
        cos (bearing realTrigonometry φ₁ l₁ φ₂ l₂) =
        cos φ₁ * sin φ₂ - sin φ₁ * cos φ₂ * cos (l₂ - l₁) ∧
      sin (centralAngle realTrigonometry φ₁ l₁ φ₂ l₂) *
        sin (bearing realTrigonometry φ₁ l₁ φ₂ l₂) = sin (l₂ - l₁) * cos φ₂ := by
  rw [centralAngle_eq]
  set x := cos φ₁ * sin φ₂ - sin φ₁ * cos φ₂ * cos (l₂ - l₁) with hx
  set y := sin (l₂ - l₁) * cos φ₂ with hy
  have hnorm : ‖(⟨x, y⟩ : ℂ)‖ = sin (angle (onSphere φ₁ l₁) (onSphere φ₂ l₂)) := by
    rw [← sq_eq_sq₀ (norm_nonneg _) (sin_angle_nonneg _ _), Complex.sq_norm, Complex.normSq_mk,
      sin_sq, cos_angle_onSphere]
    linear_combination (sin φ₂ ^ 2 + cos φ₂ ^ 2 * cos (l₂ - l₁) ^ 2) * sin_sq_add_cos_sq φ₁ +
      cos φ₂ ^ 2 * sin_sq_add_cos_sq (l₂ - l₁) + sin_sq_add_cos_sq φ₂
  rw [← hnorm]
  exact ⟨Complex.norm_mul_cos_arg _, Complex.norm_mul_sin_arg _⟩

/-- **Angle and direction locate the other place.** -/
theorem onSphere_eq_polar : onSphere φ₂ l₂ =
    cos (centralAngle realTrigonometry φ₁ l₁ φ₂ l₂) • onSphere φ₁ l₁ +
      sin (centralAngle realTrigonometry φ₁ l₁ φ₂ l₂) •
        (cos (bearing realTrigonometry φ₁ l₁ φ₂ l₂) • north φ₁ l₁ +
          sin (bearing realTrigonometry φ₁ l₁ φ₂ l₂) • east l₁) := by
  obtain ⟨hx, hy⟩ := sin_centralAngle_mul_bearing φ₁ l₁ φ₂ l₂
  rw [smul_add, smul_smul, smul_smul, hx, hy, centralAngle_eq, cos_angle_onSphere, cos_sub, sin_sub]
  have h₁ := sin_sq_add_cos_sq φ₁
  have hl := sin_sq_add_cos_sq l₁
  ext i
  fin_cases i
  · simp [onSphere, north, east]
    linear_combination (-(cos l₁ * cos φ₂ * (cos l₂ * cos l₁ + sin l₂ * sin l₁))) * h₁ -
      cos φ₂ * cos l₂ * hl
  · simp [onSphere, north, east]
    linear_combination (-(sin l₁ * cos φ₂ * (cos l₂ * cos l₁ + sin l₂ * sin l₁))) * h₁ -
      cos φ₂ * sin l₂ * hl
  · simp [onSphere, north, east]
    linear_combination (-sin φ₂) * h₁

end Logix.Spec
