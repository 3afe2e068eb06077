import Mathlib.Data.List.Nodup

/-!
# Insertion-ordered sets

`JsSet A` is the ECMAScript `Set`: its elements in insertion order, each of them once.
-/

namespace Logix

/-- **An ECMAScript `Set`.** -/
structure JsSet (A : Type) where
  elements : List A
  nodup : elements.Nodup
  deriving DecidableEq

namespace JsSet

variable {A : Type}

/-- The empty set. -/
def empty : JsSet A := ⟨[], List.nodup_nil⟩

variable [DecidableEq A]

/-- `has(a)`. -/
def has (s : JsSet A) (a : A) : Bool := decide (a ∈ s.elements)

/-- Append an element that is not there. -/
def append (s : JsSet A) (a : A) (h : a ∉ s.elements) : JsSet A where
  elements := s.elements ++ [a]
  nodup := s.nodup.append (List.nodup_singleton a) (List.disjoint_singleton.mpr h)

/-- `add(a)`. -/
def add (s : JsSet A) (a : A) : JsSet A := if h : a ∈ s.elements then s else s.append a h

/-- `delete(a)`. -/
def delete (s : JsSet A) (a : A) : JsSet A := ⟨s.elements.erase a, s.nodup.erase a⟩

theorem has_iff {s : JsSet A} {a : A} : s.has a = true ↔ a ∈ s.elements := decide_eq_true_iff

theorem elements_add (s : JsSet A) (a : A) :
    (s.add a).elements = if a ∈ s.elements then s.elements else s.elements ++ [a] := by
  unfold add
  split_ifs <;> rfl

@[simp] theorem has_empty (a : A) : (empty : JsSet A).has a = false := rfl

theorem has_add (s : JsSet A) (a b : A) : (s.add a).has b = true ↔ b = a ∨ s.has b = true := by
  unfold add
  split_ifs with h
  · refine ⟨Or.inr, ?_⟩
    rintro (rfl | hb)
    · exact decide_eq_true h
    · exact hb
  · simp [has, append, or_comm]

theorem has_foldl_add (as : List A) (s : JsSet A) (b : A) :
    (as.foldl add s).has b = true ↔ b ∈ as ∨ s.has b = true := by
  induction as generalizing s with
  | nil => simp
  | cons a as ih =>
    rw [List.foldl_cons, ih, has_add, List.mem_cons, or_left_comm, or_assoc]

end JsSet

end Logix
