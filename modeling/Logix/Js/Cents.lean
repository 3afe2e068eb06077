import Mathlib.Tactic.NormNum
import Logix.Js.Number

/-!
# Rounding to the nearest cent

* `toNearestCent`: `+x.toFixed(2)` as rounding to the nearest cent, for amounts of any size;
* `toFixed_two`: this is what `toFixed` computes below `10 ^ 21`;
* `abs_toNearestCent_sub_le`: rounding moves an amount by at most half a cent;
* **`toNearestCent_inCents`**: whole cents stay;
* `floor_add_half`: the nearest whole number is the one below, or the next one.
-/

namespace Logix

/-- The amount of `n` cents. -/
def inCents (n : ℤ) : ℚ := n / 100

/-- The nearest whole number of cents, the larger magnitude on a tie. -/
def nearestCents (x : ℚ) : ℤ :=
  let n := ⌊|x| * 100 + 1 / 2⌋
  if x < 0 then -n else n

/-- **`+x.toFixed(2)`**: the nearest cent. -/
def toNearestCent (x : ℚ) : ℚ := inCents (nearestCents x)

theorem toFixed_two {x : ℚ} (h : |x| < 10 ^ 21) : toFixed 2 x = toNearestCent x := by
  rw [toFixed, if_neg (not_le.mpr h), toNearestCent, nearestCents, inCents]
  norm_num
  split_ifs
  · ring
  · rfl

/-- **Rounding moves an amount by at most half a cent.** -/
theorem abs_toNearestCent_sub_le (x : ℚ) : |toNearestCent x - x| ≤ 1 / 200 := by
  have hround : ∀ y : ℚ, |inCents ⌊y * 100 + 1 / 2⌋ - y| ≤ 1 / 200 := fun y => by
    have h := abs_floor_div_sub_le 2 y
    norm_num at h
    exact h
  rw [toNearestCent, nearestCents]
  split_ifs with hneg
  · have h := hround |x|
    rw [abs_of_neg hneg] at h ⊢
    have hflip : inCents (-⌊-x * 100 + 1 / 2⌋) - x = -(inCents ⌊-x * 100 + 1 / 2⌋ - -x) := by
      rw [inCents, inCents]
      push_cast
      ring
    rwa [hflip, abs_neg]
  · have h := hround |x|
    rwa [abs_of_nonneg (not_lt.mp hneg)] at h ⊢

theorem inCents_zero : inCents 0 = 0 := by rw [inCents, Int.cast_zero, zero_div]

theorem inCents_add (m n : ℤ) : inCents (m + n) = inCents m + inCents n := by
  rw [inCents, inCents, inCents, Int.cast_add, add_div]

theorem inCents_sub (m n : ℤ) : inCents (m - n) = inCents m - inCents n := by
  rw [inCents, inCents, inCents, Int.cast_sub, sub_div]

theorem inCents_le {m n : ℤ} : inCents m ≤ inCents n ↔ m ≤ n := by
  rw [inCents, inCents, div_le_div_iff_of_pos_right (by norm_num), Int.cast_le]

theorem inCents_inj {m n : ℤ} : inCents m = inCents n ↔ m = n := by
  rw [le_antisymm_iff, inCents_le, inCents_le, ← le_antisymm_iff]

theorem inCents_nonneg {n : ℤ} : 0 ≤ inCents n ↔ 0 ≤ n := by
  rw [← inCents_zero, inCents_le]

theorem inCents_min (m n : ℤ) : inCents (min m n) = min (inCents m) (inCents n) := by
  rcases le_total m n with h | h
  · rw [min_eq_left h, min_eq_left (inCents_le.mpr h)]
  · rw [min_eq_right h, min_eq_right (inCents_le.mpr h)]

theorem inCents_sum (l : List ℤ) : inCents l.sum = (l.map inCents).sum := by
  induction l with
  | nil => exact inCents_zero
  | cons n l ih => rw [List.sum_cons, inCents_add, ih, List.map_cons, List.sum_cons]

theorem nearestCents_of_nonneg {x : ℚ} (h : 0 ≤ x) : nearestCents x = ⌊x * 100 + 1 / 2⌋ := by
  rw [nearestCents, if_neg (not_lt.mpr h), abs_of_nonneg h]

theorem nearestCents_nonneg {x : ℚ} (h : 0 ≤ x) : 0 ≤ nearestCents x := by
  rw [nearestCents_of_nonneg h]
  exact Int.floor_nonneg.mpr (by positivity)

theorem toNearestCent_nonneg {x : ℚ} (h : 0 ≤ x) : 0 ≤ toNearestCent x :=
  inCents_nonneg.mpr (nearestCents_nonneg h)

theorem nearestCents_neg (x : ℚ) : nearestCents (-x) = -nearestCents x := by
  rcases lt_trichotomy x 0 with h | rfl | h
  · rw [nearestCents, nearestCents, abs_neg, if_pos h, if_neg (by linarith), neg_neg]
  · decide +kernel
  · rw [nearestCents, nearestCents, abs_neg, if_neg (not_lt.mpr h.le), if_pos (by linarith)]

theorem nearestCents_inCents (n : ℤ) : nearestCents (inCents n) = n := by
  have hnat : ∀ m : ℕ, nearestCents (inCents m) = m := fun m => by
    have hm : (0 : ℚ) ≤ inCents m := inCents_nonneg.mpr (Int.natCast_nonneg m)
    rw [nearestCents_of_nonneg hm, inCents, div_mul_cancel₀ _ (by norm_num : (100 : ℚ) ≠ 0),
      Int.floor_intCast_add]
    norm_num
  obtain ⟨m, rfl | rfl⟩ := n.eq_nat_or_neg
  · exact hnat m
  · have hneg : inCents (-m) = -inCents m := by rw [inCents, inCents, Int.cast_neg, neg_div]
    rw [hneg, nearestCents_neg, hnat]

theorem toNearestCent_inCents (n : ℤ) : toNearestCent (inCents n) = inCents n := by
  rw [toNearestCent, nearestCents_inCents]

theorem toFixed_two_inCents (n : ℤ) : toFixed 2 (inCents n) = inCents n := by
  rcases lt_or_ge |inCents n| (10 ^ 21) with h | h
  · rw [toFixed_two h, toNearestCent_inCents]
  · rw [toFixed, if_pos h]

/-- The nearest whole number is the one below, or the next one. -/
theorem floor_add_half (x : ℚ) : ⌊x + 1 / 2⌋ = ⌊x⌋ + if 1 / 2 ≤ Int.fract x then 1 else 0 := by
  have hx := Int.self_sub_floor x
  have hlt := Int.fract_lt_one x
  have hnn := Int.fract_nonneg x
  rw [Int.floor_eq_iff]
  split_ifs with h
  · push_cast
    constructor <;> linarith
  · push_cast
    constructor <;> linarith [not_le.mp h]

theorem sum_floor_add_half (xs : List ℚ) : (((xs.map fun x => ⌊x + 1 / 2⌋).sum : ℤ) : ℚ) =
    xs.sum - (xs.map Int.fract).sum + (xs.countP fun x => 1 / 2 ≤ Int.fract x : ℕ) := by
  induction xs with
  | nil => simp
  | cons x xs ih =>
    have hx := Int.self_sub_floor x
    rw [List.map_cons, List.sum_cons, Int.cast_add, ih, floor_add_half, List.sum_cons,
      List.map_cons, List.sum_cons, List.countP_cons]
    by_cases hhalf : 1 / 2 ≤ Int.fract x
    · rw [if_pos hhalf, if_pos (decide_eq_true hhalf)]
      push_cast
      linarith
    · rw [if_neg hhalf, if_neg (by simpa using hhalf)]
      push_cast
      linarith

/-- **Parts of a whole number, each rounded on its own**, make it up exactly when as many are
rounded up as their fractions make up. -/
theorem sum_floor_add_half_eq_iff {xs : List ℚ} {n : ℤ} (hxs : xs.sum = n) :
    (xs.map fun x => ⌊x + 1 / 2⌋).sum = n ↔
      ((xs.countP fun x => 1 / 2 ≤ Int.fract x : ℕ) : ℚ) = (xs.map Int.fract).sum := by
  have hcast : (xs.map fun x => ⌊x + 1 / 2⌋).sum = n ↔
      (((xs.map fun x => ⌊x + 1 / 2⌋).sum : ℤ) : ℚ) = n := Int.cast_inj.symm
  rw [hcast, sum_floor_add_half, hxs]
  constructor <;> intro h <;> linarith

end Logix
