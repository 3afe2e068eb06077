import Mathlib.Algebra.BigOperators.Group.Finset.Piecewise
import Mathlib.Algebra.Order.BigOperators.Group.List

/-!
# Sums by key

* **`foldl_field_eq`**: what a loop adds to a field of its state;
* `sum_eq_sum_iff_of_le`: sums of smaller parts that agree;
* `sum_finsetSum`: a sum of sums over keys, key by key;
* `groupSum`: what the entries of one key add up to; **`sum_groupSum`**: all keys make up the whole.
-/

namespace Logix.Spec

section Groups

variable {α κ M : Type} [AddCommMonoid M]

/-- **A loop whose rounds add to a field** adds the sum. -/
theorem foldl_field_eq {σ : Type} {g : σ → M} {step : σ → α → σ} {f : α → M}
    (h : ∀ s a, g (step s a) = g s + f a) (l : List α) (s : σ) :
    g (l.foldl step s) = g s + (l.map f).sum := by
  induction l generalizing s with
  | nil => exact (add_zero _).symm
  | cons a l ih => rw [List.foldl_cons, ih, h, List.map_cons, List.sum_cons, add_assoc]

theorem foldl_add_eq (f : α → M) (l : List α) (x : M) :
    l.foldl (fun acc a => acc + f a) x = x + (l.map f).sum :=
  foldl_field_eq (g := id) (fun _ _ => rfl) l x

theorem sum_map_filter (p : α → Bool) (f : α → M) (l : List α) :
    ((l.filter p).map f).sum = (l.map fun a => if p a = true then f a else 0).sum := by
  induction l with
  | nil => rfl
  | cons a l ih =>
    rw [List.map_cons, List.sum_cons]
    split_ifs with hp
    · rw [List.filter_cons_of_pos hp, List.map_cons, List.sum_cons, ih]
    · rw [List.filter_cons_of_neg hp, ih, zero_add]

/-- The sum over a list of the sums over the keys. -/
theorem sum_finsetSum (s : Finset κ) (g : α → κ → M) (l : List α) :
    (l.map fun a => ∑ k ∈ s, g a k).sum = ∑ k ∈ s, (l.map fun a => g a k).sum := by
  induction l with
  | nil => exact Finset.sum_const_zero.symm
  | cons a l ih =>
    simp only [List.map_cons, List.sum_cons]
    rw [Finset.sum_add_distrib, ih]

variable [DecidableEq κ]

/-- What the entries of the key `k` add up to. -/
def groupSum (key : α → κ) (f : α → M) (l : List α) (k : κ) : M :=
  ((l.filter fun a => key a = k).map f).sum

theorem groupSum_eq (key : α → κ) (f : α → M) (l : List α) (k : κ) :
    groupSum key f l k = (l.map fun a => if key a = k then f a else 0).sum := by
  rw [groupSum, sum_map_filter]
  simp only [decide_eq_true_eq]

/-- **The keys make up the whole.** -/
theorem sum_groupSum {key : α → κ} {l : List α} {s : Finset κ} (f : α → M)
    (h : ∀ a ∈ l, key a ∈ s) : ∑ k ∈ s, groupSum key f l k = (l.map f).sum := by
  simp only [groupSum_eq]
  rw [← sum_finsetSum]
  refine congrArg List.sum (List.map_congr_left fun a ha => ?_)
  rw [Finset.sum_ite_eq, if_pos (h a ha)]

end Groups

section Parts

variable {α M : Type} [AddCommMonoid M] [PartialOrder M] [IsOrderedCancelAddMonoid M]

/-- The sum of smaller parts is the same exactly when all parts are. -/
theorem sum_eq_sum_iff_of_le {f g : α → M} {l : List α} (h : ∀ a ∈ l, f a ≤ g a) :
    (l.map f).sum = (l.map g).sum ↔ ∀ a ∈ l, f a = g a := by
  induction l with
  | nil => exact iff_of_true rfl fun _ ha => absurd ha List.not_mem_nil
  | cons a l ih =>
    obtain ⟨ha, hl⟩ := List.forall_mem_cons.mp h
    rw [List.map_cons, List.map_cons, List.sum_cons, List.sum_cons,
      add_eq_add_iff_eq_and_eq ha (List.sum_le_sum hl), ih hl, List.forall_mem_cons]

end Parts

end Logix.Spec
