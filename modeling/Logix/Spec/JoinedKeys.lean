import Mathlib.Data.List.Basic

/-!
# Keys that join two texts

* `joined sep a b`: the key of the pair `a`, `b`, with a separator between the two;
* `Regroups`: one pair read off the key of the other, cut at a separator inside its first text;
* **`joined_eq_joined_iff`**: two pairs with one key are equal, or one regroups the other.
-/

namespace Logix.Spec

variable {α : Type} {sep : α} {a b c d : List α}

/-- **The key of the pair** `a`, `b`. -/
def joined (sep : α) (a b : List α) : List α := a ++ sep :: b

/-- `c` ends at a separator inside `a`, and the rest of `a` is in front of `b` in `d`. -/
def Regroups (sep : α) (a b c d : List α) : Prop :=
  ∃ t, a = joined sep c t ∧ d = joined sep t b

theorem Regroups.joined_eq (h : Regroups sep a b c d) : joined sep a b = joined sep c d := by
  obtain ⟨t, rfl, rfl⟩ := h
  rw [joined, joined, joined, joined, List.append_assoc, List.cons_append]

theorem regroups_of_append_eq {t : List α} (ha : a = c ++ t) (ht : sep :: d = t ++ sep :: b) :
    (a = c ∧ b = d) ∨ Regroups sep a b c d := by
  cases t with
  | nil => exact Or.inl ⟨ha.trans (List.append_nil c), (List.cons.inj ht).2.symm⟩
  | cons x t =>
    obtain ⟨rfl, hd⟩ := List.cons.inj ht
    exact Or.inr ⟨t, ha, hd⟩

/-- **Pairs with one key** are equal, or a separator inside a text is read as the one between. -/
theorem joined_eq_joined_iff : joined sep a b = joined sep c d ↔
    (a = c ∧ b = d) ∨ Regroups sep a b c d ∨ Regroups sep c d a b := by
  constructor
  · intro h
    rcases List.append_eq_append_iff.mp h with ⟨t, hc, ht⟩ | ⟨t, ha, ht⟩
    · rcases regroups_of_append_eq hc ht with ⟨rfl, rfl⟩ | h
      · exact Or.inl ⟨rfl, rfl⟩
      · exact Or.inr (Or.inr h)
    · exact (regroups_of_append_eq ha ht).imp_right Or.inl
  · rintro (⟨rfl, rfl⟩ | h | h)
    · rfl
    · exact h.joined_eq
    · exact h.joined_eq.symm

end Logix.Spec
