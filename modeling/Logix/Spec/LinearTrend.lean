import Mathlib.Algebra.BigOperators.Ring.List
import Mathlib.Algebra.Order.Field.Basic
import Mathlib.Tactic.FieldSimp
import Mathlib.Tactic.LinearCombination
import Mathlib.Tactic.Ring

/-!
# Linear trends

A list of numbers is linear when it goes up by the same amount from each entry to the next.

* `Linear a b l`: `l` is `a`, `a + b`, `a + 2 * b` and so on;
* `sum_indices`, `sum_sq_indices`: the sums of the first numbers and of their squares;
* `slope l`: the slope of the least squares;
* **`Linear.mean`**, **`Linear.slope`**: the mean of a linear list is the value in the middle, and
  its slope is `b`.
-/

namespace Logix.Spec

variable {K : Type} [Field K] {a b x : K} {l : List K}

/-- **The list goes up by `b`** from each entry to the next, from `a` on. -/
def Linear (a b : K) (l : List K) : Prop := ∀ i : ℕ, ∀ x ∈ l[i]?, x = a + b * i

theorem linear_nil : Linear a b ([] : List K) := fun _ _ h => nomatch h

theorem linear_cons : Linear a b (x :: l) ↔ x = a ∧ Linear (a + b) b l := by
  constructor
  · intro h
    refine ⟨(h 0 x rfl).trans (by simp), fun i y hy => (h (i + 1) y hy).trans ?_⟩
    push_cast
    ring
  · rintro ⟨rfl, h⟩ (_ | i) y hy
    · obtain rfl := Option.some.inj (Option.mem_def.mp hy)
      simp
    · refine (h i y hy).trans ?_
      push_cast
      ring

/-! ## Sums -/

/-- The numbers below `n` add up to the half of `n * (n - 1)`. -/
theorem sum_indices (n : ℕ) : 2 * ((List.range n).map fun i : ℕ => (i : K)).sum = n * (n - 1) := by
  induction n with
  | zero => simp
  | succ n ih =>
    rw [List.sum_range_succ, mul_add, ih]
    push_cast
    ring

/-- Their squares add up to a sixth of `(n - 1) * n * (2 * n - 1)`. -/
theorem sum_sq_indices (n : ℕ) :
    6 * ((List.range n).map fun i : ℕ => (i : K) * i).sum = (n - 1) * n * (2 * n - 1) := by
  induction n with
  | zero => simp
  | succ n ih =>
    rw [List.sum_range_succ, mul_add, ih]
    push_cast
    ring

theorem Linear.eq_map (h : Linear a b l) :
    l = (List.range l.length).map fun i : ℕ => a + b * (i : K) := by
  refine List.ext_getElem? fun i => ?_
  by_cases hi : i < l.length
  · rw [List.getElem?_map, List.getElem?_range hi, List.getElem?_eq_getElem hi]
    exact congrArg some (h i _ (List.getElem?_eq_getElem hi))
  · rw [List.getElem?_eq_none (not_lt.mp hi), List.getElem?_eq_none (by simpa using hi)]

theorem Linear.zipIdx_eq (h : Linear a b l) :
    l.zipIdx = (List.range l.length).map fun i : ℕ => (a + b * (i : K), i) := by
  refine List.ext_getElem (by simp) fun i h₁ h₂ => ?_
  rw [List.length_zipIdx] at h₁
  rw [List.getElem_zipIdx, List.getElem_map, List.getElem_range, zero_add,
    h i _ (List.getElem?_eq_getElem h₁)]

theorem Linear.sum (h : Linear a b l) :
    l.sum = l.length * a + b * ((List.range l.length).map fun i : ℕ => (i : K)).sum := by
  conv_lhs => rw [h.eq_map]
  rw [List.sum_map_add, List.sum_map_mul_left, List.map_const', List.sum_replicate,
    List.length_range, nsmul_eq_mul]

variable [CharZero K]

/-- **The mean of a linear list** is the value in the middle. -/
theorem Linear.mean (h : Linear a b l) (hl : l ≠ []) :
    l.sum / l.length = a + b * (l.length - 1) / 2 := by
  have hn : (l.length : K) ≠ 0 := Nat.cast_ne_zero.mpr (List.length_pos_iff.mpr hl).ne'
  have hindices := sum_indices (K := K) l.length
  rw [h.sum, div_eq_iff hn]
  linear_combination b / 2 * hindices

/-- The slope of the least squares through the entries at their indices. -/
def slope (l : List K) : K :=
  let n : K := l.length
  let sumX := (l.zipIdx.map fun e => (e.2 : K)).sum
  let sumY := (l.zipIdx.map fun e => e.1).sum
  let sumXY := (l.zipIdx.map fun e => (e.2 : K) * e.1).sum
  let sumX2 := (l.zipIdx.map fun e => (e.2 : K) * e.2).sum
  (n * sumXY - sumX * sumY) / (n * sumX2 - sumX * sumX)

/-- **The slope of a linear list** is the amount it goes up by. -/
theorem Linear.slope (h : Linear a b l) (hn : 2 ≤ l.length) : slope l = b := by
  have hindices := sum_indices (K := K) l.length
  have hsquares := sum_sq_indices (K := K) l.length
  have hsum : (l.zipIdx.map fun e => e.1).sum = l.sum := congrArg _ (List.zipIdx_map_fst 0 l)
  have hproducts : ∀ i : ℕ, (i : K) * (a + b * i) = a * i + b * (i * i) := fun i => by ring
  unfold Spec.slope
  rw [hsum, h.sum, h.zipIdx_eq]
  simp only [List.map_map, Function.comp_def, hproducts]
  rw [List.sum_map_add, List.sum_map_mul_left, List.sum_map_mul_left]
  generalize ((List.range l.length).map fun i : ℕ => (i : K)).sum = sumX at hindices ⊢
  generalize ((List.range l.length).map fun i : ℕ => (i : K) * i).sum = sumX2 at hsquares ⊢
  have hdenom : (l.length : K) * sumX2 - sumX * sumX ≠ 0 := by
    intro hzero
    have hprod : (l.length : K) * l.length * (l.length - 1) * (l.length + 1) = 0 := by
      linear_combination 12 * hzero - 2 * (l.length : K) * hsquares +
        3 * (2 * sumX + l.length * (l.length - 1)) * hindices
    have hn₀ : (l.length : K) ≠ 0 := Nat.cast_ne_zero.mpr (by omega)
    have hn₁ : (l.length : K) - 1 ≠ 0 := sub_ne_zero.mpr (Nat.cast_ne_one.mpr (by omega))
    have hn₂ : (l.length : K) + 1 ≠ 0 := Nat.cast_add_one_ne_zero l.length
    exact mul_ne_zero (mul_ne_zero (mul_ne_zero hn₀ hn₀) hn₁) hn₂ hprod
  rw [div_eq_iff hdenom]
  ring

end Logix.Spec
