import Mathlib.Algebra.BigOperators.Group.List.Basic
import Mathlib.Algebra.Order.Field.Basic
import Mathlib.Algebra.Order.Ring.Defs
import Mathlib.Tactic.Ring

/-!
# The length of a walk

A walk is a list of places; its length sums a distance over the steps from each place to the next.

* `walk`: the length, and `walk_cons_cons`;
* **`walk_reverse`**: it is the same backwards if the distance is symmetric;
* **`walk_sublist`**: by the triangle inequality, leaving places out does not lengthen a walk;
* `dist_le_walk`: so no walk is shorter than the distance of its ends;
* `walk_le_walk`: bounds of the steps bound the length; `walk_sub`: steps that telescope.
-/

namespace Logix.Spec

variable {α K : Type} [Field K] {dist : α → α → K} {a b : α} {l l' : List α}

/-- **The length of a walk.** -/
def walk (dist : α → α → K) (l : List α) : K := (l.zipWith dist l.tail).sum

@[simp] theorem walk_nil : walk dist [] = 0 := rfl

@[simp] theorem walk_singleton : walk dist [a] = 0 := rfl

@[simp] theorem walk_cons_cons : walk dist (a :: b :: l) = dist a b + walk dist (b :: l) := by
  rw [walk, List.tail_cons, List.zipWith_cons_cons, List.sum_cons]
  rfl

/-- Steps between the values of a function add to the difference of the ends. -/
theorem walk_sub (f : α → K) (ha : l.head? = some a) (hb : l.getLast? = some b) :
    walk (fun x y => f y - f x) l = f b - f a := by
  induction l generalizing a with
  | nil => cases ha
  | cons x l ih =>
    obtain rfl := Option.some.inj ha
    cases l with
    | nil =>
      obtain rfl : x = b := Option.some.inj hb
      rw [walk_singleton, sub_self]
    | cons y l =>
      rw [List.getLast?_cons_cons] at hb
      rw [walk_cons_cons, ih rfl hb]
      exact sub_add_sub_cancel' _ _ _

theorem walk_const (c : K) (l : List α) :
    walk (fun _ _ => c) l = (l.length - 1 : ℕ) * c := by
  induction l with
  | nil => simp
  | cons x l ih =>
    cases l with
    | nil => simp
    | cons y l =>
      rw [walk_cons_cons, ih]
      simp only [List.length_cons, Nat.add_sub_cancel]
      push_cast
      ring

theorem walk_add (f g : α → α → K) (l : List α) :
    walk (fun x y => f x y + g x y) l = walk f l + walk g l := by
  induction l with
  | nil => simp
  | cons x l ih =>
    cases l with
    | nil => simp
    | cons y l =>
      rw [walk_cons_cons, walk_cons_cons, walk_cons_cons, ih]
      ring

theorem walk_concat (hb : l.getLast? = some b) (a : α) :
    walk dist (l ++ [a]) = walk dist l + dist b a := by
  induction l with
  | nil => cases hb
  | cons x l ih =>
    cases l with
    | nil =>
      obtain rfl : x = b := Option.some.inj hb
      simp
    | cons y l =>
      rw [List.getLast?_cons_cons] at hb
      rw [List.cons_append, List.cons_append, walk_cons_cons, ← List.cons_append, ih hb,
        walk_cons_cons, add_assoc]

/-- **A walk is as long backwards.** -/
theorem walk_reverse (hcomm : ∀ x y, dist x y = dist y x) (l : List α) :
    walk dist l.reverse = walk dist l := by
  induction l with
  | nil => rfl
  | cons x l ih =>
    cases l with
    | nil => rfl
    | cons y l =>
      rw [List.reverse_cons, walk_concat (List.getLast?_reverse.trans rfl), ih, walk_cons_cons,
        hcomm, add_comm]

section Ordered

variable [LinearOrder K] [IsStrictOrderedRing K]

theorem walk_nonneg (hdist : ∀ x y, 0 ≤ dist x y) (l : List α) : 0 ≤ walk dist l := by
  induction l with
  | nil => exact le_rfl
  | cons x l ih =>
    cases l with
    | nil => exact le_rfl
    | cons y l =>
      rw [walk_cons_cons]
      exact add_nonneg (hdist x y) ih

/-- Bounds of the steps bound the length. -/
theorem walk_le_walk {f : α → α → K} (h : l.IsChain fun x y => dist x y ≤ f x y) :
    walk dist l ≤ walk f l := by
  induction h with
  | nil => exact le_rfl
  | singleton => exact le_rfl
  | cons_cons hstep _ ih =>
    rw [walk_cons_cons, walk_cons_cons]
    exact add_le_add hstep ih

variable (hdist : ∀ x y, 0 ≤ dist x y) (htri : ∀ x y z, dist x z ≤ dist x y + dist y z)

include hdist htri

theorem walk_cons_sublist (h : List.Sublist l l') :
    ∀ a, walk dist (a :: l) ≤ walk dist (a :: l') := by
  induction h with
  | slnil => exact fun a => le_rfl
  | cons b h ih =>
    rename_i l l'
    intro a
    rw [walk_cons_cons]
    refine le_trans ?_ (add_le_add_right (ih b) (dist a b))
    -- the step from `a` is the only one that changes when `b` is left out
    cases l with
    | nil => exact add_nonneg (hdist a b) (walk_nonneg hdist _)
    | cons c l =>
      rw [walk_cons_cons, walk_cons_cons, ← add_assoc]
      exact add_le_add_left (htri a b c) _
  | cons_cons b h ih =>
    intro a
    rw [walk_cons_cons, walk_cons_cons]
    exact add_le_add_right (ih b) (dist a b)

/-- **Leaving places out does not lengthen a walk.** -/
theorem walk_sublist (h : List.Sublist l l') : walk dist l ≤ walk dist l' := by
  induction h with
  | slnil => exact le_rfl
  | cons b h ih =>
    rename_i l l'
    refine ih.trans ?_
    cases l' with
    | nil => exact walk_nonneg hdist _
    | cons c l' =>
      rw [walk_cons_cons]
      exact le_add_of_nonneg_left (hdist b c)
  | cons_cons b h => exact walk_cons_sublist hdist htri h b

/-- **No walk is shorter than the way from its first to its last place.** -/
theorem dist_le_walk (hself : ∀ x, dist x x = 0) (ha : l.head? = some a)
    (hb : l.getLast? = some b) : dist a b ≤ walk dist l := by
  cases l with
  | nil => cases ha
  | cons x l =>
    obtain rfl := Option.some.inj ha
    cases l with
    | nil =>
      obtain rfl : x = b := Option.some.inj hb
      rw [hself, walk_singleton]
    | cons y l =>
      have hmem : b ∈ y :: l := by
        rw [List.getLast?_cons_cons] at hb
        exact List.mem_of_getLast? hb
      calc dist x b = walk dist [x, b] := by rw [walk_cons_cons, walk_singleton, add_zero]
        _ ≤ walk dist (x :: y :: l) :=
            walk_sublist hdist htri (.cons_cons x (List.singleton_sublist.mpr hmem))

end Ordered

end Logix.Spec
