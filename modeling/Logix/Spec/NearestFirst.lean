import Mathlib.Data.List.Induction
import Mathlib.Data.List.Perm.Basic
import Mathlib.Order.WithBot

/-!
# Nearest first

A tour goes from where it stands to a nearest place among those that are left, as long as some are.

* `minIdx f l`: the scan for the place where `f` is least; **`minIdx_spec`**: it finds one;
* `NearestFirst d a left tour`: from `a`, the tour visits the places that are left, nearest first;
* `NearestFirst.perm`: it visits each of them once;
* **`NearestFirst.nearest`**: every place is nearest to the one before it among those not visited.
-/

namespace Logix.Spec

variable {α K : Type} [LinearOrder K]

/-! ## The scan -/

/-- One round of the scan: the least value so far and its index. -/
def scanMin (f : α → K) (st : WithTop K × ℕ) (x : α × ℕ) : WithTop K × ℕ :=
  if (f x.1 : WithTop K) < st.1 then (f x.1, x.2) else st

/-- **The index of the first least value**, found by a scan that starts with infinity. -/
def minIdx (f : α → K) (l : List α) : ℕ := (l.zipIdx.foldl (scanMin f) (⊤, 0)).2

variable {f : α → K} {l : List α}

theorem scanMin_top (f : α → K) (n : ℕ) (a : α) (i : ℕ) :
    scanMin f (⊤, n) (a, i) = (↑(f a), i) := if_pos (WithTop.coe_lt_top (f a))

theorem scanMin_coe (f : α → K) (b : K) (n : ℕ) (a : α) (i : ℕ) :
    scanMin f (↑b, n) (a, i) = if f a < b then (↑(f a), i) else (↑b, n) := by
  rw [scanMin]
  simp only [WithTop.coe_lt_coe]

theorem foldl_scanMin (f : α → K) (l : List α) :
    (l = [] ∧ l.zipIdx.foldl (scanMin f) (⊤, 0) = (⊤, 0)) ∨
    ∃ x i, l.zipIdx.foldl (scanMin f) (⊤, 0) = (↑(f x), i) ∧ l[i]? = some x ∧
      ∀ y ∈ l, f x ≤ f y := by
  induction l using List.reverseRecOn with
  | nil => exact Or.inl ⟨rfl, rfl⟩
  | append_singleton l a ih =>
    have hlast : (l ++ [a])[l.length]? = some a := List.getElem?_concat_length
    rw [List.zipIdx_append, List.foldl_append, Nat.zero_add]
    rcases ih with ⟨rfl, ih⟩ | ⟨x, i, ih, hx, hmin⟩
    · rw [ih]
      refine Or.inr ⟨a, 0, scanMin_top f 0 a 0, hlast, fun y hy => ?_⟩
      obtain rfl := List.mem_singleton.mp hy
      exact le_rfl
    · have hi := (List.getElem?_eq_some_iff.mp hx).1
      have hstep : [a].zipIdx l.length = [(a, l.length)] := rfl
      rw [ih, hstep, List.foldl_cons, List.foldl_nil, scanMin_coe]
      split_ifs with hlt
      · refine Or.inr ⟨a, l.length, rfl, hlast, ?_⟩
        exact List.forall_mem_append.mpr ⟨fun y hy => hlt.le.trans (hmin y hy),
          List.forall_mem_singleton.mpr le_rfl⟩
      · refine Or.inr ⟨x, i, rfl, ?_, ?_⟩
        · rwa [List.getElem?_append_left hi]
        · exact List.forall_mem_append.mpr ⟨hmin, List.forall_mem_singleton.mpr (not_lt.mp hlt)⟩

/-- **The scan finds a least value.** -/
theorem minIdx_spec (f : α → K) (h : l ≠ []) :
    ∃ x, l[minIdx f l]? = some x ∧ ∀ y ∈ l, f x ≤ f y := by
  rcases foldl_scanMin f l with ⟨hnil, -⟩ | ⟨x, i, hscan, hx, hmin⟩
  · exact absurd hnil h
  · exact ⟨x, by rw [minIdx, hscan]; exact hx, hmin⟩

/-! ## Tours -/

/-- **From `a`, the tour visits the places that are left, nearest first.** -/
inductive NearestFirst (d : α → α → K) : α → List α → List α → Prop where
  | stop (a) : NearestFirst d a [] []
  | visit {a b : α} {left left' tour : List α} (hperm : left.Perm (b :: left'))
      (hnearest : ∀ c ∈ left, d a b ≤ d a c) (htour : NearestFirst d b left' tour) :
      NearestFirst d a left (b :: tour)

namespace NearestFirst

variable {d : α → α → K} {a b : α} {left tour : List α}

/-- **The tour visits each place once.** -/
theorem perm (h : NearestFirst d a left tour) : tour.Perm left := by
  induction h with
  | stop => exact List.Perm.refl _
  | visit hperm _ _ ih => exact (ih.cons _).trans hperm.symm

/-- **Every place is nearest** to the one before it, among those that are not visited before. -/
theorem nearest (h : NearestFirst d a left tour) {pre post : List α}
    (ht : tour = pre ++ b :: post) : ∀ c ∈ b :: post, d (pre.getLastD a) b ≤ d (pre.getLastD a) c := by
  induction h generalizing pre with
  | stop => simp at ht
  | @visit a b' left left' tour hperm hnearest htour ih =>
    cases pre with
    | nil =>
      obtain ⟨rfl, rfl⟩ := List.cons.inj ht
      intro c hc
      exact hnearest c (hperm.mem_iff.mpr ((htour.perm.cons b').mem_iff.mp hc))
    | cons x pre =>
      obtain ⟨rfl, htail⟩ := List.cons.inj ht
      rw [List.getLastD_cons]
      exact ih htail

end NearestFirst

end Logix.Spec
