import Mathlib.Data.List.Basic
import Mathlib.Data.List.Nodup

/-!
# Linked lists

Cells with a reference of their own and a `next` reference.

* `Segment s cells e`: from `s`, the links lead through `cells` and then to `e`;
* `Relinks l l'`: the cells `l'` lead from where and to where `l` does;
* `follow heap`: following the links from cell to cell; **`follow_of_segment`**: it visits the
  cells of a segment that ends.
-/

namespace Logix.Spec

variable {R α : Type}

/-- **A segment**: from `s`, the links lead through the cells and then to `e`. -/
def Segment : Option R → List (R × Option R) → Option R → Prop
  | s, [], e => s = e
  | s, (r, next) :: cells, e => s = some r ∧ Segment next cells e

variable {s e : Option R} {as bs cells l l' l'' : List (R × Option R)}

theorem segment_append :
    Segment s (as ++ bs) e ↔ ∃ m, Segment s as m ∧ Segment m bs e := by
  induction as generalizing s with
  | nil => simp [Segment]
  | cons a as ih => simp [Segment, ih, and_assoc]

theorem Segment.start (h : Segment s cells none) : s = cells.head?.map Prod.fst := by
  cases cells with
  | nil => exact h
  | cons cell cells => exact h.1

/-- **The cells `l'` in the place of `l`** lead from where and to where `l` does. -/
def Relinks (l l' : List (R × Option R)) : Prop := ∀ s e, Segment s l e → Segment s l' e

theorem Relinks.refl (l : List (R × Option R)) : Relinks l l := fun _ _ h => h

theorem Relinks.trans (h : Relinks l l') (h' : Relinks l' l'') : Relinks l l'' :=
  fun s e hs => h' s e (h s e hs)

theorem Relinks.between (h : Relinks l l') (f g : List (R × Option R)) :
    Relinks (f ++ l ++ g) (f ++ l' ++ g) := by
  intro s e hs
  obtain ⟨m, hs, hg⟩ := segment_append.mp hs
  obtain ⟨m', hf, hl⟩ := segment_append.mp hs
  exact segment_append.mpr ⟨m, segment_append.mpr ⟨m', hf, h m' m hl⟩, hg⟩

theorem Relinks.cut (r z : R) (next : Option R) :
    Relinks [(r, next)] [(r, some z), (z, next)] :=
  fun _ _ ⟨hs, he⟩ => ⟨hs, rfl, he⟩

/-! ## Following the links -/

section Follow

variable [DecidableEq R] (ref : α → R) (next : α → Option R)

/-- **Following the links** from `s`, at most a given number of cells. -/
def follow (heap : List α) : ℕ → Option R → Option (List α)
  | _, none => some []
  | 0, some _ => none
  | steps + 1, some r =>
    match heap.find? fun a => ref a = r with
    | none => none
    | some a => (follow heap steps (next a)).map (a :: ·)

variable {ref next} {heap : List α}

theorem find_ref (hnd : (heap.map ref).Nodup) {a : α} (ha : a ∈ heap) :
    heap.find? (fun b => ref b = ref a) = some a := by
  induction heap with
  | nil => exact absurd ha List.not_mem_nil
  | cons b heap ih =>
    obtain ⟨hb, hnd⟩ := List.nodup_cons.mp hnd
    rcases List.mem_cons.mp ha with rfl | ha
    · simp
    · have hne : ref b ≠ ref a := fun h => hb (h ▸ List.mem_map_of_mem ha)
      simp [hne, ih hnd ha]

/-- **The links of a segment that ends** visit its cells, one after the other. -/
theorem follow_of_segment (hnd : (heap.map ref).Nodup) {as : List α} (has : as ⊆ heap)
    {s : Option R} (h : Segment s (as.map fun a => (ref a, next a)) none) {steps : ℕ}
    (hsteps : as.length ≤ steps) : follow ref next heap steps s = some as := by
  induction as generalizing s steps with
  | nil =>
    obtain rfl := h
    cases steps <;> rfl
  | cons a as ih =>
    obtain ⟨rfl, hrest⟩ := h
    obtain ⟨ha, has⟩ := List.cons_subset.mp has
    obtain ⟨steps, rfl⟩ : ∃ m, steps = m + 1 := ⟨steps - 1, by simp at hsteps; omega⟩
    rw [follow, find_ref hnd ha]
    simp only [ih has hrest (Nat.le_of_succ_le_succ hsteps), Option.map_some]

end Follow

end Logix.Spec
