import Mathlib.Data.List.Sort
import Mathlib.Order.Basic

/-!
# Sorting by a comparison

* `sortBy compare l`: `l.sort(compare)` with integer comparisons, which is stable;
* `perm_sortBy`: the same entries;
* **`pairwise_sortBy`**: in order, where the comparison decides a total preorder; `sortBy_first`:
  the first of them;
* `orElse`: `x || y` of two differences.
-/

namespace Logix

variable {α : Type} {compare : α → α → ℤ} {r : α → α → Prop}

/-- **`l.sort(compare)`**: `a` stays before `b` where `compare(a, b)` is not positive. -/
def sortBy (compare : α → α → ℤ) (l : List α) : List α :=
  l.insertionSort fun a b => compare a b ≤ 0

theorem perm_sortBy (compare : α → α → ℤ) (l : List α) : (sortBy compare l).Perm l :=
  List.perm_insertionSort _ l

/-- **The entries are in order.** -/
theorem pairwise_sortBy [Std.Total r] [IsTrans α r] (h : ∀ a b, compare a b ≤ 0 ↔ r a b)
    (l : List α) : (sortBy compare l).Pairwise r := by
  obtain rfl : (fun a b => compare a b ≤ 0) = r := funext fun a => funext fun b => propext (h a b)
  exact List.pairwise_insertionSort _ l

/-- **The first entry** comes before all others. -/
theorem sortBy_first [Std.Total r] [IsTrans α r] (h : ∀ a b, compare a b ≤ 0 ↔ r a b) {l : List α}
    {a : α} (ha : (sortBy compare l)[0]? = some a) : a ∈ l ∧ ∀ b ∈ l, r a b := by
  have hordered := pairwise_sortBy h l
  have hperm := perm_sortBy compare l
  cases hsort : sortBy compare l with
  | nil => simp [hsort] at ha
  | cons first others =>
    rw [hsort] at ha hordered hperm
    obtain rfl := Option.some.inj ha
    refine ⟨hperm.mem_iff.mp List.mem_cons_self, fun b hb => ?_⟩
    rcases List.mem_cons.mp (hperm.mem_iff.mpr hb) with rfl | hb
    · exact (Std.Total.total b b).elim id id
    · exact (List.pairwise_cons.mp hordered).1 b hb

/-- `x || y`. -/
def orElse (x y : ℤ) : ℤ := if x ≠ 0 then x else y

theorem orElse_sub_le_zero_iff {x x' y y' : ℤ} :
    orElse (x - x') (y - y') ≤ 0 ↔ x < x' ∨ (x = x' ∧ y ≤ y') := by
  rw [orElse]
  split_ifs <;> omega

end Logix
