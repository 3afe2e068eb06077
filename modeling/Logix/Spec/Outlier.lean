import Mathlib.Algebra.BigOperators.Ring.List
import Mathlib.Analysis.Real.Sqrt
import Mathlib.Tactic.FieldSimp
import Mathlib.Tactic.Linarith
import Mathlib.Tactic.Ring

/-!
# One outlier

All entries of a list are equal but one, which enters the mean and the deviation as well. So its
distance to the mean, in standard deviations, depends on the length of the list only.

* `mean l`, `variance l`: of the list as the whole population;
* `Outlier a b l`: all entries are `a` but one, which is `b`;
* `Outlier.mean_eq`, `Outlier.variance_eq`: its mean and variance;
* **`Outlier.abs_score`**, `Outlier.abs_score_others`: for `n + 1` entries the outlier is `√n`
  standard deviations away from the mean, and the others are `1 / √n`.
-/

namespace Logix.Spec

section Field

variable {K : Type} [Field K] {a b : K} {l : List K}

/-- The mean of a list. -/
def mean (l : List K) : K := l.sum / l.length

/-- The variance of a list. -/
def variance (l : List K) : K := (l.map fun x => (x - mean l) ^ 2).sum / l.length

/-- **All entries are `a` but one**, which is `b`. -/
def Outlier (a b : K) (l : List K) : Prop :=
  ∃ pre post, l = pre ++ b :: post ∧ ∀ x ∈ pre ++ post, x = a

theorem Outlier.sum_map (h : Outlier a b l) (f : K → K) :
    (l.map f).sum = f b + (l.length - 1) * f a := by
  obtain ⟨pre, post, rfl, hothers⟩ := h
  have hconst : ∀ {l' : List K}, (∀ x ∈ l', x = a) → (l'.map f).sum = l'.length * f a := by
    intro l' h'
    rw [List.eq_replicate_of_mem h', List.map_replicate, List.sum_replicate, nsmul_eq_mul,
      List.length_replicate]
  rw [List.map_append, List.map_cons, List.sum_append, List.sum_cons,
    hconst fun x hx => hothers x (List.mem_append_left _ hx),
    hconst fun x hx => hothers x (List.mem_append_right _ hx), List.length_append, List.length_cons]
  push_cast
  ring

omit [Field K] in
theorem Outlier.length_pos (h : Outlier a b l) : 0 < l.length := by
  obtain ⟨pre, post, rfl, -⟩ := h
  simp

variable [CharZero K]

/-- The mean is off by the share of the outlier. -/
theorem Outlier.mean_eq (h : Outlier a b l) : mean l = a + (b - a) / l.length := by
  have hn : (l.length : K) ≠ 0 := Nat.cast_ne_zero.mpr h.length_pos.ne'
  have hsum := h.sum_map id
  rw [List.map_id, id, id] at hsum
  rw [mean, hsum]
  field_simp
  ring

theorem Outlier.sub_mean (h : Outlier a b l) :
    b - mean l = (l.length - 1) * (b - a) / l.length := by
  have hn : (l.length : K) ≠ 0 := Nat.cast_ne_zero.mpr h.length_pos.ne'
  rw [h.mean_eq]
  field_simp
  ring

theorem Outlier.others_sub_mean (h : Outlier a b l) : a - mean l = -1 * (b - a) / l.length := by
  rw [h.mean_eq]
  ring

theorem Outlier.variance_eq (h : Outlier a b l) :
    variance l = (b - a) ^ 2 * (l.length - 1) / l.length ^ 2 := by
  have hn : (l.length : K) ≠ 0 := Nat.cast_ne_zero.mpr h.length_pos.ne'
  rw [variance, h.sum_map fun x => (x - mean l) ^ 2, h.sub_mean, h.others_sub_mean]
  field_simp
  ring

end Field

variable {a b : ℝ} {l : List ℝ}

theorem Outlier.sqrt_variance (h : Outlier a b l) :
    √(variance l) = |b - a| * √(l.length - 1) / l.length := by
  rw [h.variance_eq, Real.sqrt_div' _ (sq_nonneg _), Real.sqrt_mul (sq_nonneg _),
    Real.sqrt_sq_eq_abs, Real.sqrt_sq (Nat.cast_nonneg _)]

theorem sqrt_length_sub_one_pos (hn : 2 ≤ l.length) : 0 < √((l.length : ℝ) - 1) := by
  have hcast : (2 : ℝ) ≤ l.length := by exact_mod_cast hn
  exact Real.sqrt_pos.mpr (by linarith)

theorem Outlier.sqrt_variance_pos (h : Outlier a b l) (hne : a ≠ b) (hn : 2 ≤ l.length) :
    0 < √(variance l) := by
  rw [h.sqrt_variance]
  have habs : 0 < |b - a| := abs_pos.mpr (sub_ne_zero.mpr hne.symm)
  exact div_pos (mul_pos habs (sqrt_length_sub_one_pos hn)) (Nat.cast_pos.mpr h.length_pos)

theorem Outlier.abs_score_of (h : Outlier a b l) (hne : a ≠ b) (hn : 2 ≤ l.length) (x : ℝ) :
    |x * (b - a) / l.length / √(variance l)| = |x| / √(l.length - 1) := by
  have habs : |b - a| ≠ 0 := abs_ne_zero.mpr (sub_ne_zero.mpr hne.symm)
  have hlength : (l.length : ℝ) ≠ 0 := Nat.cast_ne_zero.mpr h.length_pos.ne'
  have hsqrt : √((l.length : ℝ) - 1) ≠ 0 := (sqrt_length_sub_one_pos hn).ne'
  rw [abs_div, abs_of_nonneg (Real.sqrt_nonneg _), h.sqrt_variance, abs_div, abs_mul, Nat.abs_cast]
  field_simp

/-- **The score of the outlier** depends on the length only. -/
theorem Outlier.abs_score (h : Outlier a b l) (hne : a ≠ b) (hn : 2 ≤ l.length) :
    |(b - mean l) / √(variance l)| = √(l.length - 1) := by
  have hone : (1 : ℝ) ≤ l.length := by exact_mod_cast h.length_pos
  rw [h.sub_mean, h.abs_score_of hne hn, abs_of_nonneg (sub_nonneg.mpr hone), Real.div_sqrt]

/-- **The scores of the others.** -/
theorem Outlier.abs_score_others (h : Outlier a b l) (hne : a ≠ b) (hn : 2 ≤ l.length) :
    |(a - mean l) / √(variance l)| = 1 / √(l.length - 1) := by
  rw [h.others_sub_mean, h.abs_score_of hne hn, abs_neg, abs_one]

end Logix.Spec
