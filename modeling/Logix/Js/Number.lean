import Mathlib.Algebra.Order.Floor.Ring
import Mathlib.Data.Rat.Floor
import Mathlib.Tactic.FieldSimp
import Mathlib.Tactic.Linarith
import Mathlib.Tactic.Positivity
import Mathlib.Tactic.Ring

/-!
# Rounding of numbers

Numbers are rational. `toFixed d x` is `+x.toFixed(d)`, the number that the text of `d` decimals
denotes; `abs_toFixed_sub_le` bounds the distance to `x`, and `toFixed_mono` says that the order is
kept. `mathRound x` is `Math.round(x)`.
`toFixedIn` is `toFixed` for the numbers of any ordered field; `le_abs_toFixedIn_iff` says which of
them reach a bound.
-/

namespace Logix

/-- **`+x.toFixed(d)`**: the nearest decimal, the larger magnitude on a tie; from `10 ^ 21` on the
text is that of the number itself. -/
def toFixed (d : ℕ) (x : ℚ) : ℚ :=
  if 10 ^ 21 ≤ |x| then x
  else
    let m : ℚ := ⌊|x| * 10 ^ d + 1 / 2⌋ / 10 ^ d
    if x < 0 then -m else m

/-- **`Math.round(x)`**: the nearest integer, the greater one on a tie. -/
def mathRound (x : ℚ) : ℤ := ⌊x + 1 / 2⌋

theorem toFixed_neg (d : ℕ) (x : ℚ) : toFixed d (-x) = -toFixed d x := by
  rcases lt_trichotomy x 0 with hneg | rfl | hpos
  · simp only [toFixed, abs_neg, if_pos hneg, if_neg (neg_pos.mpr hneg).not_gt]
    split_ifs
    · rfl
    · rw [neg_neg]
  · rw [neg_zero, toFixed]
    norm_num
  · simp only [toFixed, abs_neg, if_pos (neg_neg_of_pos hpos), if_neg hpos.not_gt]
    split_ifs <;> rfl

theorem toFixed_of_nonneg {d : ℕ} {x : ℚ} (hx : 0 ≤ x) :
    toFixed d x = if 10 ^ 21 ≤ x then x else (⌊x * 10 ^ d + 1 / 2⌋ / 10 ^ d : ℚ) := by
  rw [toFixed, abs_of_nonneg hx, if_neg hx.not_gt]

theorem toFixed_nonneg {d : ℕ} {x : ℚ} (hx : 0 ≤ x) : 0 ≤ toFixed d x := by
  rw [toFixed_of_nonneg hx]
  split_ifs
  · exact hx
  · positivity

theorem toFixed_mono_of_nonneg {d : ℕ} {x y : ℚ} (hx : 0 ≤ x) (h : x ≤ y) :
    toFixed d x ≤ toFixed d y := by
  have hd : (0 : ℚ) < 10 ^ d := by positivity
  rw [toFixed_of_nonneg hx, toFixed_of_nonneg (hx.trans h)]
  split_ifs with hxbig hybig hybig
  · exact h
  · exact absurd (hxbig.trans h) hybig
  · -- below `10 ^ 21` the rounded number does not pass it
    refine le_trans ?_ hybig
    rw [div_le_iff₀ hd]
    have hlt := mul_lt_mul_of_pos_right (not_le.mp hxbig) hd
    have hfloor : ⌊x * 10 ^ d + 1 / 2⌋ < (10 ^ 21 * 10 ^ d : ℤ) + 1 := by
      rw [Int.floor_lt]
      push_cast
      linarith
    exact_mod_cast Int.lt_add_one_iff.mp hfloor
  · exact div_le_div_of_nonneg_right (Int.cast_le.mpr (Int.floor_mono (by gcongr))) hd.le

/-- **Rounding keeps the order.** -/
theorem toFixed_mono {d : ℕ} {x y : ℚ} (h : x ≤ y) : toFixed d x ≤ toFixed d y := by
  rcases le_total 0 x with hx | hx
  · exact toFixed_mono_of_nonneg hx h
  · rcases le_total 0 y with hy | hy
    · refine le_trans ?_ (toFixed_nonneg hy)
      rw [← neg_nonneg, ← toFixed_neg]
      exact toFixed_nonneg (neg_nonneg.mpr hx)
    · have hneg := toFixed_mono_of_nonneg (d := d) (neg_nonneg.mpr hy) (neg_le_neg h)
      rwa [toFixed_neg, toFixed_neg, neg_le_neg_iff] at hneg

/-! ## Other numbers -/

section OrderedField

variable {K : Type} [Field K] [LinearOrder K] [FloorRing K]

/-- `+x.toFixed(d)` in an ordered field. -/
def toFixedIn (d : ℕ) (x : K) : K :=
  if 10 ^ 21 ≤ |x| then x
  else
    let m : K := ⌊|x| * 10 ^ d + 1 / 2⌋ / 10 ^ d
    if x < 0 then -m else m

/-- `Math.round(x)` in an ordered field. -/
def mathRoundIn (x : K) : ℤ := ⌊x + 1 / 2⌋

variable [IsStrictOrderedRing K]

theorem abs_floor_div_sub_le (d : ℕ) (x : K) :
    |(⌊x * 10 ^ d + 1 / 2⌋ : K) / 10 ^ d - x| ≤ 1 / 2 / 10 ^ d := by
  have hd : (0 : K) < 10 ^ d := by positivity
  have hlo := Int.floor_le (x * 10 ^ d + 1 / 2)
  have hhi := Int.lt_floor_add_one (x * 10 ^ d + 1 / 2)
  have hsub : (⌊x * 10 ^ d + 1 / 2⌋ : K) / 10 ^ d - x =
      (⌊x * 10 ^ d + 1 / 2⌋ - x * 10 ^ d) / 10 ^ d := by field_simp
  rw [hsub, abs_div, abs_of_pos hd]
  refine div_le_div_of_nonneg_right (abs_le.mpr ⟨?_, ?_⟩) hd.le <;> linarith

theorem abs_toFixedIn {d : ℕ} {x : K} (h : ¬ 10 ^ 21 ≤ |x|) :
    |toFixedIn d x| = ⌊|x| * 10 ^ d + 1 / 2⌋ / 10 ^ d := by
  have hfloor : 0 ≤ ⌊|x| * 10 ^ d + 1 / 2⌋ := Int.floor_nonneg.mpr (by positivity)
  have hpos : (0 : K) ≤ ⌊|x| * 10 ^ d + 1 / 2⌋ / 10 ^ d :=
    div_nonneg (Int.cast_nonneg hfloor) (by positivity)
  rw [toFixedIn, if_neg h]
  dsimp only
  split_ifs
  · rw [abs_neg, abs_of_nonneg hpos]
  · exact abs_of_nonneg hpos

/-- **Rounding moves a number by at most half a unit of the last digit.** -/
theorem abs_toFixedIn_sub_le (d : ℕ) (x : K) : |toFixedIn d x - x| ≤ 1 / 2 / 10 ^ d := by
  rw [toFixedIn]
  split_ifs with hlarge hneg
  · rw [sub_self, abs_zero]
    positivity
  · have h := abs_floor_div_sub_le d |x|
    rw [abs_of_neg hneg] at h ⊢
    rw [abs_sub_comm]
    calc |x - -(⌊-x * 10 ^ d + 1 / 2⌋ / 10 ^ d : K)|
        = |(⌊-x * 10 ^ d + 1 / 2⌋ / 10 ^ d : K) - -x| := by ring_nf
      _ ≤ 1 / 2 / 10 ^ d := h
  · have h := abs_floor_div_sub_le d |x|
    rwa [abs_of_nonneg (not_lt.mp hneg)] at h ⊢

/-- **A bound of `d` decimals** is reached from half a unit of the last digit below it on. -/
theorem le_abs_toFixedIn_iff {d k : ℕ} (hk : k ≤ 10 ^ 21 * 10 ^ d) (x : K) :
    (k : K) / 10 ^ d ≤ |toFixedIn d x| ↔ ((k : K) - 1 / 2) / 10 ^ d ≤ |x| := by
  have hd : (0 : K) < 10 ^ d := by positivity
  by_cases hlarge : 10 ^ 21 ≤ |x|
  · have hcast : (k : K) ≤ 10 ^ 21 * 10 ^ d := by exact_mod_cast hk
    have hle : (k : K) / 10 ^ d ≤ |x| := ((div_le_iff₀ hd).mpr hcast).trans hlarge
    have hbelow : ((k : K) - 1 / 2) / 10 ^ d ≤ k / 10 ^ d :=
      div_le_div_of_nonneg_right (sub_le_self _ (by positivity)) hd.le
    rw [toFixedIn, if_pos hlarge]
    exact iff_of_true hle (hbelow.trans hle)
  · rw [abs_toFixedIn hlarge, div_le_div_iff_of_pos_right hd, div_le_iff₀ hd, sub_le_iff_le_add,
      ← Int.cast_natCast, Int.cast_le, Int.le_floor, Int.cast_natCast]

end OrderedField

theorem abs_toFixed_sub_le (d : ℕ) (x : ℚ) : |toFixed d x - x| ≤ 1 / 2 / 10 ^ d :=
  abs_toFixedIn_sub_le d x

end Logix
