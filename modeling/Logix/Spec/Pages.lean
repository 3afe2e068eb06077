import Mathlib.Data.List.Nodup
import Mathlib.Order.Monotone.Basic

/-!
# Pages of a list

* **`flatMap_pages`**: the pieces between positions that go up make up the list up to the last
  position;
* `reverse_ne_self`: a list without repetitions is not its own reverse, unless it is too short;
* `short_list`: a list that is too short for an order.
-/

namespace Logix.Spec

variable {α : Type} {l : List α}

/-- **The pages of a list** make up the list, as far as they go. -/
theorem flatMap_pages {pos : ℕ → ℕ} (hmono : Monotone pos) (hzero : pos 0 = 0) (l : List α)
    (n : ℕ) : (List.range n).flatMap (fun i => (l.take (pos (i + 1))).drop (pos i)) =
      l.take (pos n) := by
  induction n with
  | zero => rw [List.range_zero, List.flatMap_nil, hzero, List.take_zero]
  | succ n ih =>
    have htake : (l.take (pos (n + 1))).take (pos n) = l.take (pos n) := by
      rw [List.take_take, Nat.min_eq_left (hmono (Nat.le_succ n))]
    rw [List.range_succ, List.flatMap_append, ih, List.flatMap_singleton, ← htake,
      List.take_append_drop]

/-- **A list of distinct entries** is not its own reverse. -/
theorem reverse_ne_self (hnodup : l.Nodup) (hlength : 2 ≤ l.length) : l.reverse ≠ l := by
  intro h
  have hfirst : l.reverse[0]? = l[l.length - 1]? := by
    rw [List.getElem?_reverse (by omega), Nat.sub_zero]
  rw [h] at hfirst
  have hindex := (List.getElem?_inj (by omega) hnodup).mp hfirst
  omega

/-- **A list of at most one entry** is in every order, and no other list has its entries. -/
theorem short_list (hlength : l.length ≤ 1) (r : α → α → Prop) :
    l.Pairwise r ∧ ∀ l' : List α, l'.Perm l → l' = l := by
  match l with
  | [] => exact ⟨List.Pairwise.nil, fun l' h => h.eq_nil⟩
  | [a] => exact ⟨List.pairwise_singleton r a, fun l' h => h.eq_singleton⟩
  | a :: b :: l => simp at hlength

end Logix.Spec
