import Mathlib.Data.List.TakeWhile

/-!
# Eviction from the front

A queue drops entries from its front as long as they are stale.

* **`dropWhile_append_dropWhile`**: dropping in rounds is dropping once, where what was stale stays
  so;
* `forall_dropWhile_iff`: nothing stale is left exactly when nothing stale stands behind a fresh
  entry;
* `countP_dropWhile_eq_iff`: what is left counts the fresh entries of a kind when none of this kind
  is stale.
-/

namespace Logix.Spec

variable {α : Type} {stale stale' kind : α → Bool} {l : List α}

/-- **Dropping in rounds** is dropping once. -/
theorem dropWhile_append_dropWhile (h : ∀ a, stale a = true → stale' a = true) (l l' : List α) :
    (l.dropWhile stale ++ l').dropWhile stale' = (l ++ l').dropWhile stale' := by
  induction l with
  | nil => rfl
  | cons a l ih =>
    by_cases ha : stale a = true
    · rw [List.dropWhile_cons_of_pos ha, ih, List.cons_append, List.dropWhile_cons_of_pos (h a ha)]
    · rw [List.dropWhile_cons_of_neg ha]

/-- **Nothing stale of a kind is left** exactly when none stands behind a fresh entry. -/
theorem forall_dropWhile_iff (kind : α → Prop) :
    (∀ a ∈ l.dropWhile stale, kind a → stale a = false) ↔
      l.Pairwise fun a b => stale a = false → kind b → stale b = false := by
  induction l with
  | nil => exact iff_of_true (fun a h => absurd h List.not_mem_nil) List.Pairwise.nil
  | cons a l ih =>
    rw [List.pairwise_cons]
    cases ha : stale a with
    | true =>
      rw [List.dropWhile_cons_of_pos ha, ih]
      exact (and_iff_right fun b _ h => absurd h (by simp)).symm
    | false =>
      rw [List.dropWhile_cons_of_neg (by simp [ha]), List.forall_mem_cons,
        and_iff_right fun _ => ha]
      constructor
      · intro h
        exact ⟨fun b hb _ => h b hb, List.pairwise_of_forall_mem_list fun _ _ b hb _ => h b hb⟩
      · exact fun h b hb => h.1 b hb rfl

theorem countP_fresh_dropWhile (stale kind : α → Bool) (l : List α) :
    (l.dropWhile stale).countP (fun a => !stale a && kind a) =
      l.countP (fun a => !stale a && kind a) := by
  have hdropped : (l.takeWhile stale).countP (fun a => !stale a && kind a) = 0 := by
    refine List.countP_eq_zero.mpr fun a ha => ?_
    simp [List.mem_takeWhile_imp ha]
  calc (l.dropWhile stale).countP _
      = (l.takeWhile stale).countP _ + (l.dropWhile stale).countP _ := by
        rw [hdropped, Nat.zero_add]
    _ = l.countP _ := by rw [← List.countP_append, List.takeWhile_append_dropWhile]

/-- **What is left counts the fresh entries of a kind** when none of them is stale. -/
theorem countP_dropWhile_eq_iff (stale kind : α → Bool) (l : List α) :
    (l.dropWhile stale).countP kind = l.countP (fun a => !stale a && kind a) ↔
      ∀ a ∈ l.dropWhile stale, kind a = true → stale a = false := by
  rw [← countP_fresh_dropWhile, ← List.countP_filter, List.countP_eq_length_filter (p := kind),
    eq_comm, List.countP_eq_length]
  simp only [List.mem_filter, Bool.not_eq_true', and_imp]

end Logix.Spec
