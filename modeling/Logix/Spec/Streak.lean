import Mathlib.Data.List.DropRight

/-!
# Streaks

* `LastAll p k l`: the last `k` entries of the list are there, and all of them have the property
  `p`;
* `streak p l`: the number of entries with the property at the end of the list;
* **`lastAll_iff`**: the last `k` entries have it exactly when the streak is that long.
-/

namespace Logix.Spec

variable {α : Type} {p : α → Bool} {l : List α} {a : α} {k : ℕ}

/-- **The last `k` entries** have the property. -/
def LastAll (p : α → Bool) (k : ℕ) (l : List α) : Prop := k ≤ l.length ∧ ∀ a ∈ l.rtake k, p a = true

instance (p : α → Bool) (k : ℕ) (l : List α) : Decidable (LastAll p k l) :=
  inferInstanceAs (Decidable (_ ∧ _))

/-- The entries with the property at the end of the list. -/
def streak (p : α → Bool) (l : List α) : ℕ := (l.rtakeWhile p).length

@[simp] theorem streak_nil : streak p [] = 0 := rfl

theorem streak_concat_of_pos (h : p a = true) : streak p (l ++ [a]) = streak p l + 1 := by
  rw [streak, List.rtakeWhile_concat_pos p l a h, List.length_append, List.length_singleton, streak]

theorem streak_concat_of_neg (h : ¬ p a = true) : streak p (l ++ [a]) = 0 := by
  rw [streak, List.rtakeWhile_concat_neg p l a h, List.length_nil]

theorem lastAll_zero : LastAll p 0 l := by
  simp [LastAll]

theorem lastAll_concat_succ : LastAll p (k + 1) (l ++ [a]) ↔ LastAll p k l ∧ p a = true := by
  rw [LastAll, List.rtake_concat_succ, LastAll]
  simp only [List.length_append, List.length_singleton, Nat.add_le_add_iff_right, List.mem_append,
    List.mem_singleton, or_imp, forall_and, forall_eq, and_assoc]

/-- **The last `k` entries have the property** exactly when the streak is that long. -/
theorem lastAll_iff : LastAll p k l ↔ k ≤ streak p l := by
  induction l using List.reverseRecOn generalizing k with
  | nil =>
    rw [streak_nil, Nat.le_zero, LastAll, List.length_nil, Nat.le_zero]
    exact and_iff_left fun a ha => by simp at ha
  | append_singleton l a ih =>
    cases k with
    | zero => exact iff_of_true lastAll_zero (Nat.zero_le _)
    | succ k =>
      rw [lastAll_concat_succ, ih]
      by_cases ha : p a = true
      · rw [and_iff_left ha, streak_concat_of_pos ha, Nat.add_le_add_iff_right]
      · rw [streak_concat_of_neg ha]
        exact iff_of_false (fun h => ha h.2) (Nat.not_succ_le_zero k)

end Logix.Spec
