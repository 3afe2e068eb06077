import Mathlib.Data.List.Perm.Basic
import Mathlib.Data.List.Pairwise

/-!
# Admission one by one

Items are put in a place one after another, each checked against those that are in already.

* `admitsAll`: every item passes its check;
* **`admitsAll_iff`**: a check against every item inside decides all pairs;
* **`admitsAll_perm`**: by a symmetric relation, the order of the items does not matter.
-/

namespace Logix.Spec

variable {α : Type} {check : α → List α → Bool} {R : α → α → Prop} {l l' : List α}

/-- **Every item of the list passes the check**, with the items before it inside. -/
def admitsAll (check : α → List α → Bool) (inside : List α) : List α → Bool
  | [] => true
  | a :: l => check a inside && admitsAll check (inside ++ [a]) l

theorem admitsAll_iff_of_inside (hcheck : ∀ a inside, check a inside = true ↔ ∀ b ∈ inside, R b a)
    (inside l : List α) : admitsAll check inside l = true ↔
      l.Pairwise R ∧ ∀ b ∈ inside, ∀ a ∈ l, R b a := by
  induction l generalizing inside with
  | nil => simp [admitsAll]
  | cons a l ih =>
    rw [admitsAll, Bool.and_eq_true, hcheck, ih, List.pairwise_cons, List.forall_mem_append,
      List.forall_mem_singleton]
    constructor
    · rintro ⟨ha, hl, hinside, hal⟩
      exact ⟨⟨hal, hl⟩, fun b hb => List.forall_mem_cons.mpr ⟨ha b hb, hinside b hb⟩⟩
    · rintro ⟨⟨hal, hl⟩, hinside⟩
      exact ⟨fun b hb => hinside b hb a List.mem_cons_self, hl,
        fun b hb c hc => hinside b hb c (List.mem_cons_of_mem a hc), hal⟩

/-- **A check against every item inside decides all pairs.** -/
theorem admitsAll_iff (hcheck : ∀ a inside, check a inside = true ↔ ∀ b ∈ inside, R b a) :
    admitsAll check [] l = true ↔ l.Pairwise R := by
  rw [admitsAll_iff_of_inside hcheck]
  exact and_iff_left fun b hb => absurd hb List.not_mem_nil

/-- **The order of the items does not matter.** -/
theorem admitsAll_perm [Std.Symm R]
    (hcheck : ∀ a inside, check a inside = true ↔ ∀ b ∈ inside, R b a) (h : l.Perm l') :
    admitsAll check [] l = admitsAll check [] l' := by
  rw [Bool.eq_iff_iff, admitsAll_iff hcheck, admitsAll_iff hcheck]
  exact h.pairwise_iff fun {_ _} hr => Std.Symm.symm _ _ hr

end Logix.Spec
