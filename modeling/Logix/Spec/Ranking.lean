import Mathlib.Algebra.BigOperators.Group.List.Basic
import Mathlib.Algebra.Order.Monoid.Defs
import Mathlib.Data.List.Sort

/-!
# Rankings

Entries arrive one after another and are ranked by a total preorder `r`; entries that tie keep the
order of their arrival.

* `RanksBefore`, `Ranked`: the list holds what has arrived, in this order;
* `insertionSort_stable`, `ranked_insertionSort`: sorting keeps the order of ties;
* **`Ranked.insert`**: appending an entry to a ranked list and sorting ranks it with the others;
* `sum_le_sum_take`: the first entries have the greatest sum.
-/

namespace Logix.Spec

variable {α : Type} {r s : α → α → Prop} {arrived l : List α}

/-- `a` ranks before `b`, or they tie and `a` arrived before `b`. -/
def RanksBefore (r : α → α → Prop) (arrived : List α) (a b : α) : Prop :=
  r a b ∧ (r b a → List.Sublist [a, b] arrived)

/-- **The list ranks what has arrived.** -/
structure Ranked (r : α → α → Prop) (arrived l : List α) : Prop where
  perm : l.Perm arrived
  ordered : l.Pairwise (RanksBefore r arrived)

section Sorting

variable [DecidableRel r] [Std.Total r] [IsTrans α r]

theorem orderedInsert_stable {a : α} (h : l.Pairwise fun b c => r b c ∧ (r c b → s b c))
    (ha : ∀ b ∈ l, s a b) :
    (l.orderedInsert r a).Pairwise fun b c => r b c ∧ (r c b → s b c) := by
  induction l with
  | nil => exact List.pairwise_singleton _ _
  | cons b l ih =>
    obtain ⟨hb, hl⟩ := List.pairwise_cons.mp h
    rw [List.orderedInsert_cons]
    split_ifs with hab
    · refine List.pairwise_cons.mpr ⟨fun c hc => ⟨?_, fun _ => ha c hc⟩, h⟩
      rcases List.mem_cons.mp hc with rfl | hc
      · exact hab
      · exact IsTrans.trans _ _ _ hab (hb c hc).1
    · refine List.pairwise_cons.mpr ⟨fun c hc => ?_, ih hl fun c hc => ha c (.tail _ hc)⟩
      rcases (List.mem_orderedInsert r).mp hc with rfl | hc
      · exact ⟨(Std.Total.total c b).resolve_left hab, fun h => absurd h hab⟩
      · exact hb c hc

/-- **Sorting is stable**: what is tied stays in its order. -/
theorem insertionSort_stable (h : l.Pairwise s) :
    (l.insertionSort r).Pairwise fun a b => r a b ∧ (r b a → s a b) := by
  induction l with
  | nil => exact List.Pairwise.nil
  | cons a l ih =>
    obtain ⟨ha, hl⟩ := List.pairwise_cons.mp h
    rw [List.insertionSort_cons]
    exact orderedInsert_stable (ih hl) fun b hb => ha b ((List.mem_insertionSort r).mp hb)

/-- **A list is ranked** by sorting it. -/
theorem ranked_insertionSort (l : List α) : Ranked r l (l.insertionSort r) := by
  have hsublist : l.Pairwise fun a b => List.Sublist [a, b] l :=
    List.pairwise_iff_forall_sublist.mpr id
  exact ⟨List.perm_insertionSort r l, insertionSort_stable hsublist⟩

/-- **The next arrival**: it is appended, and the list is sorted. -/
theorem Ranked.insert (h : Ranked r arrived l) (b : α) :
    Ranked r (arrived ++ [b]) ((l ++ [b]).insertionSort r) := by
  refine ⟨(List.perm_insertionSort r _).trans (h.perm.append_right [b]), ?_⟩
  have htied : (l ++ [b]).Pairwise fun a c => r c a → List.Sublist [a, c] (arrived ++ [b]) := by
    refine List.pairwise_append.mpr ⟨?_, List.pairwise_singleton _ _, fun a ha c hc _ => ?_⟩
    · exact h.ordered.imp fun hac hca => (hac.2 hca).trans (List.sublist_append_left _ _)
    · -- whatever is in the list arrived before `b`
      obtain rfl := List.mem_singleton.mp hc
      exact (List.singleton_sublist.mpr (h.perm.mem_iff.mp ha)).append (List.Sublist.refl [c])
  exact (insertionSort_stable htied).imp fun hac => ⟨hac.1, fun hca => hac.2 hca hca⟩

end Sorting

theorem Ranked.first {w b : α} (h : Ranked r arrived (w :: l)) (hb : b ∈ arrived) :
    b = w ∨ RanksBefore r arrived w b := by
  rcases List.mem_cons.mp (h.perm.mem_iff.mpr hb) with hbw | hb
  · exact Or.inl hbw
  · exact Or.inr ((List.pairwise_cons.mp h.ordered).1 b hb)

theorem ranked_nil : Ranked r [] [] := ⟨List.Perm.refl _, List.Pairwise.nil⟩

/-! ## The first of a ranking -/

section Sums

variable {K : Type} [AddCommMonoid K] [LinearOrder K] [IsOrderedAddMonoid K] {f : α → K}

theorem sum_take_le_cons {a : α} (h : (a :: l).Pairwise fun b c => f c ≤ f b) {n : ℕ}
    (hn : n ≤ l.length) : ((l.take n).map f).sum ≤ (((a :: l).take n).map f).sum := by
  cases n with
  | zero => exact le_rfl
  | succ n =>
    rw [List.take_succ_cons, List.take_succ_eq_append_getElem hn, List.map_append, List.sum_append,
      List.map_singleton, List.sum_singleton, List.map_cons, List.sum_cons, add_comm]
    exact add_le_add_left ((List.pairwise_cons.mp h).1 _ (List.getElem_mem hn)) _

/-- **The first entries of a falling list have the greatest sum** among as many entries. -/
theorem sum_le_sum_take {s : List α} (h : l.Pairwise fun b c => f c ≤ f b)
    (hs : s.Sublist l) : (s.map f).sum ≤ ((l.take s.length).map f).sum := by
  induction hs with
  | slnil => exact le_rfl
  | cons a hs ih => exact (ih h.of_cons).trans (sum_take_le_cons h hs.length_le)
  | cons_cons a hs ih =>
    rw [List.length_cons, List.take_succ_cons, List.map_cons, List.map_cons, List.sum_cons,
      List.sum_cons]
    exact add_le_add_right (ih h.of_cons) (f a)

end Sums

end Logix.Spec
