import Mathlib.Algebra.Order.Ring.Int
import Mathlib.Logic.Function.Iterate
import Mathlib.Tactic.Linarith
import Mathlib.Tactic.Ring

/-!
# Rolling over

A line is cut into blocks, and a place on it is a block with an offset. To advance by some blocks is
to keep the offset; where the block is too short for it, the place rolls over into the next one.

* `position`, `advance`: the place on the line, and the place some blocks on;
* `position_advance`: the line does not see the blocks;
* `iterate_advance`: a place that rolls over once is a block ahead for good;
* **`iterate_advance_fst_iff`**: after some steps the block is the one that counts exactly when
  every block on the way has room for the offset.
-/

namespace Logix.Spec

/-- The place on the line, where the block `i` starts at `start i`. -/
def position (start : ℤ → ℤ) (p : ℤ × ℤ) : ℤ := start p.1 + p.2

/-- The length of a block. -/
def blockLength (start : ℤ → ℤ) (i : ℤ) : ℤ := start (i + 1) - start i

/-- **The place `s` blocks on.** -/
def advance (start : ℤ → ℤ) (s : ℤ) (p : ℤ × ℤ) : ℤ × ℤ :=
  if p.2 < blockLength start (p.1 + s) then (p.1 + s, p.2)
  else (p.1 + s + 1, p.2 - blockLength start (p.1 + s))

variable {start : ℤ → ℤ} {s least : ℤ} {p : ℤ × ℤ}

theorem position_advance (start : ℤ → ℤ) (s : ℤ) (p : ℤ × ℤ) :
    position start (advance start s p) = start (p.1 + s) + p.2 := by
  rw [advance]
  split_ifs
  · rfl
  · rw [position, blockLength]
    ring

theorem position_le_advance (hmono : ∀ i j, i ≤ j → start i ≤ start j) (hs : 0 ≤ s) (p : ℤ × ℤ) :
    position start p ≤ position start (advance start s p) := by
  have hstart := hmono p.1 (p.1 + s) (by omega)
  rw [position_advance, position]
  omega

theorem advance_mem (hleast : ∀ i, least ≤ blockLength start i) (h₀ : 0 ≤ p.2)
    (h : p.2 < 2 * least) : 0 ≤ (advance start s p).2 ∧
      (advance start s p).2 < blockLength start (advance start s p).1 := by
  rw [advance]
  split_ifs with hfits
  · exact ⟨h₀, hfits⟩
  · have hthis := hleast (p.1 + s)
    have hnext := hleast (p.1 + s + 1)
    dsimp only
    omega

/-- The blocks on the way have room for the offset. -/
def Fits (start : ℤ → ℤ) (s : ℤ) (p : ℤ × ℤ) (n : ℕ) : Prop :=
  ∀ k : ℕ, 1 ≤ k → k ≤ n → p.2 < blockLength start (p.1 + s * k)

theorem fits_succ_iff {n : ℕ} : Fits start s p (n + 1) ↔
    Fits start s p n ∧ p.2 < blockLength start (p.1 + s * (n + 1 : ℕ)) := by
  constructor
  · exact fun h => ⟨fun k h₁ hk => h k h₁ (Nat.le_succ_of_le hk), h _ (Nat.succ_pos n) le_rfl⟩
  · rintro ⟨h, hlast⟩ k h₁ hk
    rcases Nat.lt_or_ge n k with hn | hn
    · rwa [Nat.le_antisymm hk hn]
    · exact h k h₁ hn

/-- **A place that rolls over once is a block ahead for good**: what is left of its offset fits
every block. -/
theorem iterate_advance (hleast : ∀ i, least ≤ blockLength start i) (h : p.2 < 2 * least) (n : ℕ) :
    (Fits start s p n ∧ (advance start s)^[n] p = (p.1 + s * n, p.2)) ∨
      (¬ Fits start s p n ∧ ((advance start s)^[n] p).1 = p.1 + s * n + 1 ∧
        ((advance start s)^[n] p).2 < least) := by
  induction n with
  | zero =>
    refine Or.inl ⟨fun k h₁ hk => ?_, ?_⟩
    · exact absurd (h₁.trans hk) (Nat.not_succ_le_zero 0)
    · rw [Function.iterate_zero_apply, Nat.cast_zero, mul_zero, add_zero]
  | succ n ih =>
    have hcount : p.1 + s * n + s = p.1 + s * (n + 1 : ℕ) := by
      push_cast
      ring
    rw [Function.iterate_succ_apply', fits_succ_iff]
    rcases ih with ⟨hfits, hplace⟩ | ⟨hnot, hblock, hoffset⟩
    · rw [hplace, advance]
      dsimp only
      rw [hcount]
      split_ifs with hlast
      · exact Or.inl ⟨⟨hfits, hlast⟩, rfl⟩
      · refine Or.inr ⟨fun hno => hlast hno.2, rfl, ?_⟩
        have hthis := hleast (p.1 + s * (n + 1 : ℕ))
        dsimp only
        omega
    · -- what is left of the offset fits
      have hroom := hoffset.trans_le (hleast (((advance start s)^[n] p).1 + s))
      rw [advance, if_pos hroom]
      refine Or.inr ⟨fun hno => hnot hno.1, ?_, hoffset⟩
      dsimp only
      rw [hblock, ← hcount]
      ring

/-- **The block is the one that counts exactly when every block on the way has room.** -/
theorem iterate_advance_fst_iff (hleast : ∀ i, least ≤ blockLength start i) (h : p.2 < 2 * least)
    (n : ℕ) : ((advance start s)^[n] p).1 = p.1 + s * n ↔ Fits start s p n := by
  rcases iterate_advance (s := s) hleast h n with ⟨hfits, hplace⟩ | ⟨hnot, hblock, -⟩
  · rw [hplace]
    exact iff_of_true rfl hfits
  · refine iff_of_false (fun heq => ?_) hnot
    omega

end Logix.Spec
