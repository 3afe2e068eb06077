import Mathlib.Algebra.Group.Basic
import Mathlib.Data.List.Rotate
import Mathlib.Tactic.Abel

/-!
# Sums along closed paths

Every step of a path has a weight.

* `pathSum f a l`: the sum along the path from `a` through the points of `l`;
* `cycleSum f l`: the sum along the points of `l` and back to the first one;
* **`cycleSum_rotate`**: it does not matter where a closed path starts;
* **`cycleSum_reverse`**: nor in which direction it goes, where steps weigh the same both ways;
* **`cycleSum_chord`**: a chord cuts a closed path in two, and is a step of both.
-/

namespace Logix.Spec

variable {α M : Type} [AddCommMonoid M] (f : α → α → M)

/-- The sum along the path from `a` through the points of a list. -/
def pathSum (a : α) : List α → M
  | [] => 0
  | b :: l => f a b + pathSum b l

/-- **The sum along a closed path.** -/
def cycleSum : List α → M
  | [] => 0
  | a :: l => pathSum f a (l ++ [a])

theorem pathSum_singleton (a b : α) : pathSum f a [b] = f a b := add_zero _

theorem pathSum_append_cons (a b : α) (l l' : List α) :
    pathSum f a (l ++ b :: l') = pathSum f a (l ++ [b]) + pathSum f b l' := by
  induction l generalizing a with
  | nil => rw [List.nil_append, List.nil_append, pathSum, pathSum_singleton]
  | cons c l ih => rw [List.cons_append, List.cons_append, pathSum, pathSum, ih, add_assoc]

theorem cycleSum_append_comm (l l' : List α) : cycleSum f (l ++ l') = cycleSum f (l' ++ l) := by
  cases l with
  | nil => rw [List.nil_append, List.append_nil]
  | cons a l =>
    cases l' with
    | nil => rw [List.nil_append, List.append_nil]
    | cons b l' =>
      calc cycleSum f (a :: l ++ b :: l')
          = pathSum f a (l ++ b :: (l' ++ [a])) := by simp [cycleSum]
        _ = pathSum f a (l ++ [b]) + pathSum f b (l' ++ [a]) := pathSum_append_cons f a b l _
        _ = pathSum f b (l' ++ [a]) + pathSum f a (l ++ [b]) := add_comm _ _
        _ = pathSum f b (l' ++ a :: (l ++ [b])) := (pathSum_append_cons f b a l' _).symm
        _ = cycleSum f (b :: l' ++ a :: l) := by simp [cycleSum]

/-- **It does not matter where a closed path starts.** -/
theorem cycleSum_rotate (l : List α) (n : ℕ) : cycleSum f (l.rotate n) = cycleSum f l := by
  rw [List.rotate_eq_drop_append_take_mod, cycleSum_append_comm, List.take_append_drop]

theorem cycleSum_concat (l : List α) (a : α) : cycleSum f (l ++ [a]) = pathSum f a (l ++ [a]) := by
  rw [cycleSum_append_comm]
  rfl

variable {f}

theorem pathSum_reverse (hf : ∀ a b, f a b = f b a) (a b : α) (l : List α) :
    pathSum f a (l ++ [b]) = pathSum f b (l.reverse ++ [a]) := by
  induction l generalizing a with
  | nil => rw [List.reverse_nil, List.nil_append, List.nil_append, pathSum_singleton,
      pathSum_singleton, hf]
  | cons c l ih =>
    rw [List.cons_append, pathSum, ih, List.reverse_cons, List.append_assoc,
      List.singleton_append, pathSum_append_cons f b c l.reverse [a], pathSum_singleton, hf a c,
      add_comm]

/-- **Nor in which direction it goes**, where steps weigh the same both ways. -/
theorem cycleSum_reverse (hf : ∀ a b, f a b = f b a) (l : List α) :
    cycleSum f l.reverse = cycleSum f l := by
  cases l with
  | nil => rfl
  | cons a l =>
    rw [List.reverse_cons, cycleSum_concat, cycleSum, pathSum_reverse hf a a l]

/-- **A chord cuts a closed path in two**, and is a step of both, there and back. -/
theorem cycleSum_chord (pre mid post : List α) (u w : α) :
    cycleSum f (pre ++ u :: mid ++ w :: post) + (f u w + f w u) =
      cycleSum f (u :: mid ++ [w]) + cycleSum f (pre ++ u :: w :: post) := by
  have hwhole : cycleSum f (pre ++ u :: mid ++ w :: post) =
      pathSum f u (mid ++ [w]) + pathSum f w (post ++ pre ++ [u]) := by
    rw [← pathSum_append_cons, List.append_assoc, cycleSum_append_comm, List.cons_append,
      List.cons_append, cycleSum]
    simp only [List.append_assoc, List.cons_append]
  have hcut : cycleSum f (u :: mid ++ [w]) = pathSum f u (mid ++ [w]) + f w u := by
    rw [List.cons_append, cycleSum, List.append_assoc, List.singleton_append,
      pathSum_append_cons f u w mid [u], pathSum_singleton]
  have hrest : cycleSum f (pre ++ u :: w :: post) = f u w + pathSum f w (post ++ pre ++ [u]) := by
    rw [cycleSum_append_comm, List.cons_append, List.cons_append, cycleSum, List.cons_append,
      pathSum]
  rw [hwhole, hcut, hrest]
  abel

end Logix.Spec
