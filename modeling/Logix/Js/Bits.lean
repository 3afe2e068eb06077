import Mathlib.Algebra.Order.Ring.Int
import Mathlib.Tactic.Positivity

/-!
# Bits of numbers

* `bitAnd x y`: `x & y` of two integers, on the last 32 bits of each, read as a signed number;
* **`bitAnd_two_pow_sub_one`**: with `2 ^ k - 1` it is the remainder of a natural number, up to
  `k = 31`;
* `increment n`: `n + 1` of a number, which is exact below `2 ^ 53`.
-/

namespace Logix

/-- **`x & y`**, of integers. -/
def bitAnd (x y : ℤ) : ℤ := (BitVec.ofInt 32 x &&& BitVec.ofInt 32 y).toInt

/-- **A mask of `k` bits** leaves the remainder, however long the number is. -/
theorem bitAnd_two_pow_sub_one {k : ℕ} (hk : k ≤ 31) (n : ℕ) :
    bitAnd n (2 ^ k - 1 : ℕ) = (n % 2 ^ k : ℕ) := by
  have hle : 2 ^ k ≤ 2 ^ 31 := Nat.pow_le_pow_right (by decide) hk
  have hmod : n % 2 ^ k < 2 ^ k := Nat.mod_lt n (Nat.two_pow_pos k)
  have hand : (BitVec.ofNat 32 n &&& BitVec.ofNat 32 (2 ^ k - 1)).toNat = n % 2 ^ k := by
    rw [BitVec.toNat_and, BitVec.toNat_ofNat, BitVec.toNat_ofNat,
      Nat.mod_eq_of_lt (a := 2 ^ k - 1) (by omega), Nat.and_two_pow_sub_one_eq_mod]
    exact Nat.mod_mod_of_dvd n (pow_dvd_pow 2 (by omega))
  rw [bitAnd, BitVec.ofInt_natCast, BitVec.ofInt_natCast, BitVec.toInt_eq_toNat_of_lt, hand]
  rw [hand]
  omega

/-- `n + 1`; from `2 ^ 53` on the next number is too far away, and the sum is rounded to `n`. -/
def increment (n : ℕ) : ℕ := if n < 2 ^ 53 then n + 1 else n

end Logix
