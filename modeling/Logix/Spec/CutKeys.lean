import Mathlib.Data.List.Infix

/-!
# Keys that are cut at a doubled separator

A key joins two texts with two separators between them, and is cut again wherever there are two.

* `cut sep l`: the parts of a list; `Doubled sep l`: it has two separators in a row;
* `CutApart sep a b`: the first text does not let the cut come early, and the second one has none;
* **`cut_key`**: such a key is cut into its two texts;
* **`cutApart_of_cut`**: only such texts are read off any key.
-/

namespace Logix.Spec

variable {α : Type} [DecidableEq α] {sep a : α} {l p q : List α} {ps : List (List α)}

/-- Put an entry in front of the first part. -/
def glue (a : α) : List (List α) → List (List α)
  | [] => [[a]]
  | p :: ps => (a :: p) :: ps

/-- **The parts of a list**, cut at two separators in a row. -/
def cut (sep : α) : List α → List (List α)
  | [] => [[]]
  | [a] => [[a]]
  | a :: b :: l => if a = sep ∧ b = sep then [] :: cut sep l else glue a (cut sep (b :: l))

/-- The list has two separators in a row. -/
def Doubled (sep : α) (l : List α) : Prop := [sep, sep] <:+: l

instance (sep : α) (l : List α) : Decidable (Doubled sep l) :=
  inferInstanceAs (Decidable ([sep, sep] <:+: l))

omit [DecidableEq α] in
theorem doubled_cons_iff :
    Doubled sep (a :: l) ↔ (a = sep ∧ l.head? = some sep) ∨ Doubled sep l := by
  rw [Doubled, List.infix_cons_iff, ← Doubled, List.cons_prefix_cons]
  cases l with
  | nil => simp
  | cons b l => simp [List.cons_prefix_cons, eq_comm]

theorem cut_cons_cons (h : ¬ (a = sep ∧ l.head? = some sep)) (hl : l ≠ []) :
    cut sep (a :: l) = glue a (cut sep l) := by
  cases l with
  | nil => exact absurd rfl hl
  | cons b l => rw [cut, if_neg fun hab => h ⟨hab.1, congrArg some hab.2⟩]

/-! ## What is cut -/

/-- **The first text** is cut off, where it does not let the cut come early. -/
theorem cut_append (h : ¬ Doubled sep (p ++ [sep])) (l : List α) :
    cut sep (p ++ sep :: sep :: l) = p :: cut sep l := by
  induction p with
  | nil => rw [List.nil_append, cut, if_pos ⟨rfl, rfl⟩]
  | cons a p ih =>
    rw [List.cons_append, doubled_cons_iff, not_or] at h
    have hhead : (p ++ sep :: sep :: l).head? = (p ++ [sep]).head? := by
      cases p <;> rfl
    rw [List.cons_append, cut_cons_cons (by rw [hhead]; exact h.1) (by simp), ih h.2, glue]

theorem cut_of_not_doubled (h : ¬ Doubled sep l) : cut sep l = [l] := by
  induction l with
  | nil => rfl
  | cons a l ih =>
    rw [doubled_cons_iff, not_or] at h
    cases l with
    | nil => rfl
    | cons b l => rw [cut_cons_cons h.1 (List.cons_ne_nil b l), ih h.2, glue]

/-! ## What is read -/

theorem prefix_of_cut (h : cut sep l = p :: ps) : p <+: l ∧ (ps ≠ [] → p ++ [sep, sep] <+: l) := by
  fun_induction cut sep l generalizing p ps with
  | case1 => simp_all
  | case2 a => simp_all
  | case3 a b l hsep ih =>
    obtain ⟨rfl, rfl⟩ := hsep
    obtain ⟨rfl, -⟩ := List.cons.inj h
    simp
  | case4 a b l hsep ih =>
    cases hcut : cut sep (b :: l) with
    | nil =>
      rw [hcut] at h
      obtain ⟨rfl, rfl⟩ := List.cons.inj h
      simp
    | cons p' ps' =>
      rw [hcut] at h
      obtain ⟨rfl, rfl⟩ := List.cons.inj h
      obtain ⟨hpre, hmore⟩ := ih hcut
      exact ⟨List.cons_prefix_cons.mpr ⟨rfl, hpre⟩,
        fun hne => List.cons_prefix_cons.mpr ⟨rfl, hmore hne⟩⟩

omit [DecidableEq α] in
theorem not_starts_in_front {b : α} (hsep : ¬ (a = sep ∧ b = sep)) (h : p <+: b :: l) :
    ¬ (a = sep ∧ p.head? = some sep) := by
  rintro ⟨ha, hhead⟩
  cases p with
  | nil => cases hhead
  | cons c p =>
    obtain rfl := Option.some.inj hhead
    exact hsep ⟨ha, (List.cons_prefix_cons.mp h).1.symm⟩

theorem not_doubled_of_mem_cut (h : p ∈ cut sep l) : ¬ Doubled sep p := by
  fun_induction cut sep l generalizing p with
  | case1 => simp_all [Doubled]
  | case2 a => simp_all [Doubled, List.infix_cons_iff, List.cons_prefix_cons]
  | case3 a b l hsep ih =>
    rcases List.mem_cons.mp h with rfl | h
    · simp [Doubled]
    · exact ih h
  | case4 a b l hsep ih =>
    cases hcut : cut sep (b :: l) with
    | nil =>
      rw [hcut] at h
      obtain rfl := List.mem_singleton.mp h
      simp [Doubled, List.infix_cons_iff, List.cons_prefix_cons]
    | cons p' ps' =>
      rw [hcut] at h ih
      rcases List.mem_cons.mp h with rfl | h
      · rw [doubled_cons_iff, not_or]
        exact ⟨not_starts_in_front hsep (prefix_of_cut hcut).1, ih List.mem_cons_self⟩
      · exact ih (List.mem_cons_of_mem _ h)

theorem first_not_doubled (h : cut sep l = p :: q :: ps) : ¬ Doubled sep (p ++ [sep]) := by
  fun_induction cut sep l generalizing p with
  | case1 => simp_all
  | case2 a => simp_all
  | case3 a b l hsep ih =>
    obtain rfl := (List.cons.inj h).1
    simp [Doubled, List.infix_cons_iff, List.cons_prefix_cons]
  | case4 a b l hsep ih =>
    cases hcut : cut sep (b :: l) with
    | nil =>
      rw [hcut] at h
      simp [glue] at h
    | cons p' ps' =>
      rw [hcut] at h
      obtain ⟨rfl, rfl⟩ := List.cons.inj h
      have hpre : p' ++ [sep] <+: b :: l := by
        refine List.IsPrefix.trans ?_ ((prefix_of_cut hcut).2 (List.cons_ne_nil q ps))
        exact (List.prefix_append_right_inj p').mpr (by simp)
      rw [List.cons_append, doubled_cons_iff, not_or]
      exact ⟨not_starts_in_front hsep hpre, ih hcut⟩

/-! ## Keys -/

/-- **The key of two texts is cut apart again.** -/
def CutApart (sep : α) (p q : List α) : Prop := ¬ Doubled sep (p ++ [sep]) ∧ ¬ Doubled sep q

instance (sep : α) (p q : List α) : Decidable (CutApart sep p q) :=
  inferInstanceAs (Decidable (_ ∧ _))

/-- **The key of two texts** is cut into them. -/
theorem cut_key (h : CutApart sep p q) : cut sep (p ++ sep :: sep :: q) = [p, q] := by
  rw [cut_append h.1, cut_of_not_doubled h.2]

/-- **What is read off a key** can be cut apart. -/
theorem cutApart_of_cut (h : cut sep l = p :: q :: ps) : CutApart sep p q := by
  have hq : q ∈ cut sep l := h.symm ▸ List.mem_cons_of_mem p List.mem_cons_self
  exact ⟨first_not_doubled h, not_doubled_of_mem_cut hq⟩

end Logix.Spec
