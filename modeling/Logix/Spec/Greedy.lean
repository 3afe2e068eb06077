import Mathlib.Algebra.BigOperators.Group.List.Basic
import Mathlib.Algebra.Ring.Nat
import Mathlib.Data.List.Nodup

/-!
# Taking from sources in order

A demand is met from the sources of a list, each down to nothing before the next is touched.

* `takeInOrder`: the sources that are used, and how much is taken from each;
* `takeInOrder_append`: the sources behind get what is left of the demand;
* **`sum_takeInOrder`**: all that is there, up to the demand;
* `takeInOrder_bounds`, `takeInOrder_sublist`: what is taken from one source;
* **`takeInOrder_full`**: what stands before a source in use is used up.
-/

namespace Logix.Spec

variable {α : Type} (size : α → ℕ)

/-- **Take `demand` from the sources in order**; nothing is looked at once the demand is met. -/
def takeInOrder : ℕ → List α → List (α × ℕ)
  | _, [] => []
  | demand, a :: l =>
    if demand ≤ 0 then []
    else
      let take := min demand (size a)
      (a, take) :: takeInOrder (demand - take) l

variable {size} {demand n : ℕ} {a : α} {l : List α}

theorem takeInOrder_zero (l : List α) : takeInOrder size 0 l = [] := by
  cases l <;> rfl

theorem takeInOrder_cons (h : 0 < demand) : takeInOrder size demand (a :: l) =
    (a, min demand (size a)) :: takeInOrder size (demand - size a) l := by
  have hleft : demand - min demand (size a) = demand - size a := by omega
  simp only [takeInOrder, if_neg (Nat.not_le_of_lt h), hleft]

/-- The sources behind get what is left of the demand. -/
theorem takeInOrder_append (l₁ l₂ : List α) : takeInOrder size demand (l₁ ++ l₂) =
    takeInOrder size demand l₁ ++ takeInOrder size (demand - (l₁.map size).sum) l₂ := by
  induction l₁ generalizing demand with
  | nil => simp [takeInOrder]
  | cons a l₁ ih =>
    rcases Nat.eq_zero_or_pos demand with rfl | hpos
    · simp [takeInOrder_zero]
    · rw [List.cons_append, takeInOrder_cons hpos, takeInOrder_cons hpos, ih, List.map_cons,
        List.sum_cons, Nat.sub_add_eq, List.cons_append]

/-- **All that is there is taken, up to the demand.** -/
theorem sum_takeInOrder (l : List α) :
    ((takeInOrder size demand l).map Prod.snd).sum = min demand (l.map size).sum := by
  induction l generalizing demand with
  | nil => simp [takeInOrder]
  | cons a l ih =>
    rcases Nat.eq_zero_or_pos demand with rfl | hpos
    · simp [takeInOrder_zero]
    · rw [takeInOrder_cons hpos, List.map_cons, List.sum_cons, ih, List.map_cons, List.sum_cons]
      omega

/-- The sources in use, in their order. -/
theorem takeInOrder_sublist (l : List α) :
    ((takeInOrder size demand l).map Prod.fst).Sublist l := by
  induction l generalizing demand with
  | nil => exact List.Sublist.refl _
  | cons a l ih =>
    rcases Nat.eq_zero_or_pos demand with rfl | hpos
    · rw [takeInOrder_zero]
      exact List.nil_sublist _
    · rw [takeInOrder_cons hpos, List.map_cons]
      exact ih.cons_cons a

theorem mem_of_mem_takeInOrder (h : (a, n) ∈ takeInOrder size demand l) : a ∈ l :=
  (takeInOrder_sublist l).subset (List.mem_map_of_mem h)

/-- What is taken from a source. -/
theorem takeInOrder_bounds (h : (a, n) ∈ takeInOrder size demand l) (ha : 0 < size a) :
    1 ≤ n ∧ n ≤ size a := by
  induction l generalizing demand with
  | nil => cases h
  | cons b l ih =>
    rcases Nat.eq_zero_or_pos demand with rfl | hpos
    · rw [takeInOrder_zero] at h
      cases h
    · rw [takeInOrder_cons hpos] at h
      rcases List.mem_cons.mp h with h | h
      · obtain ⟨rfl, rfl⟩ := Prod.mk.inj h
        omega
      · exact ih h

theorem takeInOrder_eq_map (hsize : ∀ a ∈ l, 0 < size a) (h : (l.map size).sum ≤ demand) :
    takeInOrder size demand l = l.map fun a => (a, size a) := by
  induction l generalizing demand with
  | nil => rfl
  | cons a l ih =>
    obtain ⟨ha, hl⟩ := List.forall_mem_cons.mp hsize
    rw [List.map_cons, List.sum_cons] at h
    rw [takeInOrder_cons (by omega), ih hl (by omega), Nat.min_eq_right (by omega), List.map_cons]

/-- **What stands before a source in use is used up.** -/
theorem takeInOrder_full {pre post : List α} (hnodup : (pre ++ a :: post).Nodup)
    (hsize : ∀ b ∈ pre, 0 < size b) (h : (a, n) ∈ takeInOrder size demand (pre ++ a :: post)) :
    ∀ b ∈ pre, (b, size b) ∈ takeInOrder size demand (pre ++ a :: post) := by
  rw [takeInOrder_append] at h ⊢
  have hnot : a ∉ pre := fun ha => List.disjoint_of_nodup_append hnodup ha List.mem_cons_self
  rcases List.mem_append.mp h with h | h
  · exact absurd (mem_of_mem_takeInOrder h) hnot
  · -- there is demand left behind `pre`
    have hleft : (pre.map size).sum ≤ demand := by
      by_contra hlt
      rw [Nat.sub_eq_zero_of_le (not_le.mp hlt).le, takeInOrder_zero] at h
      cases h
    intro b hb
    rw [takeInOrder_eq_map hsize hleft]
    exact List.mem_append_left _ (List.mem_map_of_mem hb)

end Logix.Spec
