import Mathlib.Algebra.Order.Ring.Rat
import Mathlib.Data.List.Induction
import Logix.Js.Map
import Logix.Js.Sort
import Logix.Spec.Buckets

/-!
# Pick paths

The items of a pick list are grouped by their aisle, the aisles are visited in ascending order, and
the bays of every second aisle are walked backwards.

* `WarehousePickListOptimizer.optimizePickPath`: the code;
* `get_aisleMap`: its map holds the items of every aisle;
* `optimizePickPath_eq_flatMap`: the path is one visit after another;
* `Serpentine`: what a path promises;
* **`optimizePickPath_serpentine`**: every path keeps it.
-/

namespace Logix.Inventory

open Spec

/-- `IPickItemLocation`. -/
structure IPickItemLocation where
  sku : String
  quantity : ℚ
  aisle : ℤ
  bay : ℤ
  shelfTier : ℤ
  weightKg : ℚ
  deriving DecidableEq, Repr

namespace WarehousePickListOptimizer

/-- `a.bay - b.bay || a.shelfTier - b.shelfTier`. -/
def ascending (a b : IPickItemLocation) : ℤ :=
  orElse (a.bay - b.bay) (a.shelfTier - b.shelfTier)

/-- `b.bay - a.bay || a.shelfTier - b.shelfTier`. -/
def descending (a b : IPickItemLocation) : ℤ :=
  orElse (b.bay - a.bay) (a.shelfTier - b.shelfTier)

/-- One round of the grouping. -/
def groupItem (aisleMap : JsMap ℤ (List IPickItemLocation)) (item : IPickItemLocation) :
    JsMap ℤ (List IPickItemLocation) :=
  let aisleMap := if aisleMap.has item.aisle then aisleMap else aisleMap.set item.aisle []
  aisleMap.modify item.aisle (· ++ [item])

/-- `aisleMap`, after the grouping. -/
def aisleMap (items : List IPickItemLocation) : JsMap ℤ (List IPickItemLocation) :=
  items.foldl groupItem .empty

/-- `Array.from(aisleMap.keys()).sort((a, b) => a - b)`. -/
def sortedAisles (items : List IPickItemLocation) : List ℤ :=
  sortBy (fun a b => a - b) (aisleMap items).keys

/-- `aisleItems` of the aisle with the index `idx`, after its `sort`. -/
def aisleItems (items : List IPickItemLocation) (aisle : ℤ) (idx : ℕ) : List IPickItemLocation :=
  let aisleItems := ((aisleMap items).get aisle).getD []
  if idx % 2 = 0 then sortBy ascending aisleItems else sortBy descending aisleItems

/-- **`optimizePickPath(items)`.** -/
def optimizePickPath (items : List IPickItemLocation) : List IPickItemLocation :=
  (sortedAisles items).zipIdx.foldl
    (fun optimizedPath (aisle, idx) => optimizedPath ++ aisleItems items aisle idx) []

end WarehousePickListOptimizer

/-! ## What a path promises -/

/-- The order of an aisle, which is walked forwards or backwards: by the bay, then by the tier. -/
def WalkOrder (forwards : Prop) (a b : IPickItemLocation) : Prop :=
  (forwards ∧ a.bay < b.bay) ∨ (¬ forwards ∧ b.bay < a.bay) ∨
    (a.bay = b.bay ∧ a.shelfTier ≤ b.shelfTier)

theorem walkOrder_true {a b : IPickItemLocation} :
    WalkOrder True a b ↔ a.bay < b.bay ∨ (a.bay = b.bay ∧ a.shelfTier ≤ b.shelfTier) := by
  rw [WalkOrder, true_and, not_true, false_and, false_or]

theorem walkOrder_false {a b : IPickItemLocation} :
    WalkOrder False a b ↔ b.bay < a.bay ∨ (b.bay = a.bay ∧ a.shelfTier ≤ b.shelfTier) := by
  rw [WalkOrder, false_and, false_or, not_false_iff, true_and, eq_comm]

instance (forwards : Prop) : Std.Total (WalkOrder forwards) where
  total a b := by
    by_cases h : forwards
    · rw [eq_true h, walkOrder_true, walkOrder_true]
      omega
    · rw [eq_false h, walkOrder_false, walkOrder_false]
      omega

instance (forwards : Prop) : IsTrans IPickItemLocation (WalkOrder forwards) where
  trans a b c := by
    by_cases h : forwards
    · rw [eq_true h, walkOrder_true, walkOrder_true, walkOrder_true]
      omega
    · rw [eq_false h, walkOrder_false, walkOrder_false, walkOrder_false]
      omega

/-- A visit of an aisle: its number, and the items in the order of their picks. -/
structure AisleVisit where
  aisle : ℤ
  items : List IPickItemLocation

/-- **A serpentine**: all items, aisle by aisle in ascending order, the aisles of even index
walked forwards and the others backwards. -/
structure Serpentine (items path : List IPickItemLocation) (visits : List AisleVisit) : Prop where
  perm : path.Perm items
  contiguous : path = visits.flatMap AisleVisit.items
  aisles : ∀ v ∈ visits, v.items ≠ [] ∧ ∀ item ∈ v.items, item.aisle = v.aisle
  ascending : visits.Pairwise fun v w => v.aisle < w.aisle
  walked : ∀ (k : ℕ) (h : k < visits.length),
    visits[k].items.Pairwise (WalkOrder (k % 2 = 0))

namespace WarehousePickListOptimizer

variable {items : List IPickItemLocation} {aisle : ℤ} {idx : ℕ}

/-! ## The grouping -/

theorem get_groupItem (m : JsMap ℤ (List IPickItemLocation)) (item : IPickItemLocation)
    (aisle : ℤ) : (groupItem m item).get aisle =
      if aisle = item.aisle then some ((m.get aisle).getD [] ++ [item]) else m.get aisle := by
  simp only [groupItem, JsMap.has, decide_eq_true_eq]
  by_cases hmem : item.aisle ∈ m.keys
  · rw [if_pos hmem, JsMap.get_modify]
    split_ifs with haisle
    · subst haisle
      obtain ⟨here, hhere⟩ := JsMap.mem_keys.mp hmem
      rw [JsMap.get_eq_some_iff.mpr hhere]
      rfl
    · rfl
  · rw [if_neg hmem, JsMap.get_modify, JsMap.get_set_self, JsMap.get_set]
    split_ifs with haisle
    · subst haisle
      rw [JsMap.get_eq_none_iff.mpr hmem]
      rfl
    · rfl

/-- **The map holds the items of every aisle**, in their order. -/
theorem get_aisleMap (items : List IPickItemLocation) (aisle : ℤ) :
    ((aisleMap items).get aisle).getD [] = bucket (·.aisle) items aisle := by
  induction items using List.reverseRecOn with
  | nil => rfl
  | append_singleton items item ih =>
    rw [aisleMap, List.foldl_concat, ← aisleMap, get_groupItem, bucket_append, ← ih]
    split_ifs with haisle
    · rw [bucket_singleton_self haisle.symm]
      rfl
    · rw [bucket_singleton_ne (Ne.symm haisle), List.append_nil]

theorem mem_keys_groupItem {m : JsMap ℤ (List IPickItemLocation)} {item : IPickItemLocation} :
    aisle ∈ (groupItem m item).keys ↔ aisle ∈ m.keys ∨ item.aisle = aisle := by
  rw [← not_iff_not, ← JsMap.get_eq_none_iff, get_groupItem, not_or, ← JsMap.get_eq_none_iff]
  split_ifs with haisle
  · exact iff_of_false not_false fun h => h.2 haisle.symm
  · exact (and_iff_left (Ne.symm haisle)).symm

theorem mem_keys_aisleMap :
    aisle ∈ (aisleMap items).keys ↔ ∃ item ∈ items, item.aisle = aisle := by
  induction items using List.reverseRecOn with
  | nil => exact iff_of_false List.not_mem_nil fun ⟨_, h, _⟩ => List.not_mem_nil h
  | append_singleton items item ih =>
    rw [aisleMap, List.foldl_concat, ← aisleMap, mem_keys_groupItem, ih]
    simp only [List.mem_append, List.mem_singleton, or_and_right, exists_or, exists_eq_left]

/-! ## The visits -/

theorem sortedAisles_perm (items : List IPickItemLocation) :
    (sortedAisles items).Perm (aisleMap items).keys := perm_sortBy _ _

theorem mem_sortedAisles : aisle ∈ sortedAisles items ↔ ∃ item ∈ items, item.aisle = aisle :=
  (sortedAisles_perm items).mem_iff.trans mem_keys_aisleMap

theorem sortedAisles_pairwise (items : List IPickItemLocation) :
    (sortedAisles items).Pairwise (· < ·) := by
  have hle : (sortedAisles items).Pairwise (· ≤ ·) :=
    pairwise_sortBy (fun a b => sub_nonpos) _
  have hnodup : (sortedAisles items).Nodup :=
    (sortedAisles_perm items).nodup_iff.mpr (aisleMap items).nodup
  exact hle.imp₂ (fun a b hab hne => lt_of_le_of_ne hab hne) hnodup

theorem aisleItems_perm (items : List IPickItemLocation) (aisle : ℤ) (idx : ℕ) :
    (aisleItems items aisle idx).Perm (bucket (·.aisle) items aisle) := by
  rw [aisleItems, get_aisleMap]
  split_ifs <;> exact perm_sortBy _ _

theorem mem_aisleItems {item : IPickItemLocation} :
    item ∈ aisleItems items aisle idx ↔ item ∈ items ∧ item.aisle = aisle :=
  (aisleItems_perm items aisle idx).mem_iff.trans mem_bucket

theorem aisleItems_pairwise (items : List IPickItemLocation) (aisle : ℤ) (idx : ℕ) :
    (aisleItems items aisle idx).Pairwise (WalkOrder (idx % 2 = 0)) := by
  rw [aisleItems]
  split_ifs with heven
  · rw [eq_true heven]
    exact pairwise_sortBy (fun a b => orElse_sub_le_zero_iff.trans walkOrder_true.symm) _
  · rw [eq_false heven]
    exact pairwise_sortBy (fun a b => orElse_sub_le_zero_iff.trans walkOrder_false.symm) _

/-- The visit of the aisle with the index `idx`. -/
def visit (items : List IPickItemLocation) (entry : ℤ × ℕ) : AisleVisit :=
  ⟨entry.1, aisleItems items entry.1 entry.2⟩

/-- All visits, in their order. -/
def visits (items : List IPickItemLocation) : List AisleVisit :=
  (sortedAisles items).zipIdx.map (visit items)

/-- **The path is one visit after another.** -/
theorem optimizePickPath_eq_flatMap (items : List IPickItemLocation) :
    optimizePickPath items = (visits items).flatMap AisleVisit.items := by
  rw [visits, List.flatMap_map, List.flatMap_eq_foldl]
  rfl

theorem mem_visits {v : AisleVisit} (h : v ∈ visits items) :
    ∃ aisle ∈ sortedAisles items, ∃ idx, v = visit items (aisle, idx) := by
  obtain ⟨⟨aisle, idx⟩, hentry, rfl⟩ := List.mem_map.mp h
  exact ⟨aisle, List.fst_mem_of_mem_zipIdx hentry, idx, rfl⟩

theorem getElem_visits {k : ℕ} (h : k < (visits items).length) :
    ∃ aisle, (visits items)[k] = visit items (aisle, k) := by
  simp only [visits, List.getElem_map, List.getElem_zipIdx, Nat.zero_add]
  exact ⟨_, rfl⟩

theorem visits_perm (items : List IPickItemLocation) :
    ((visits items).flatMap AisleVisit.items).Perm items := by
  have hbuckets : ((visits items).flatMap AisleVisit.items).Perm
      ((sortedAisles items).flatMap (bucket (·.aisle) items)) := by
    rw [visits, List.flatMap_map]
    conv_rhs => rw [← List.zipIdx_map_fst 0 (sortedAisles items), List.flatMap_map]
    exact List.Perm.flatMap_left _ fun entry _ => aisleItems_perm items entry.1 entry.2
  refine hbuckets.trans (flatMap_bucket_perm ?_ fun item hitem => ?_)
  · exact (sortedAisles_pairwise items).imp ne_of_lt
  · exact mem_sortedAisles.mpr ⟨item, hitem, rfl⟩

theorem visits_pairwise (items : List IPickItemLocation) :
    (visits items).Pairwise fun v w => v.aisle < w.aisle := by
  have haisles := sortedAisles_pairwise items
  rw [← List.zipIdx_map_fst 0 (sortedAisles items), List.pairwise_map] at haisles
  exact List.pairwise_map.mpr haisles

end WarehousePickListOptimizer

open WarehousePickListOptimizer

/-- **Every path is a serpentine.** -/
theorem optimizePickPath_serpentine (items : List IPickItemLocation) :
    ∃ visits, Serpentine items (optimizePickPath items) visits := by
  refine ⟨visits items, ?_⟩
  have hpath := optimizePickPath_eq_flatMap items
  refine ⟨hpath ▸ visits_perm items, hpath, ?_, visits_pairwise items, fun k h => ?_⟩
  · intro v hv
    obtain ⟨aisle, haisle, idx, rfl⟩ := mem_visits hv
    obtain ⟨item, hitem⟩ := mem_sortedAisles.mp haisle
    exact ⟨List.ne_nil_of_mem (mem_aisleItems.mpr hitem), fun _ h => (mem_aisleItems.mp h).2⟩
  · obtain ⟨aisle, hvisit⟩ := getElem_visits h
    rw [hvisit]
    exact aisleItems_pairwise items aisle k

/-- The second aisle is walked backwards. -/
example : (optimizePickPath [⟨"A", 1, 7, 2, 0, 1⟩, ⟨"B", 1, 4, 3, 1, 1⟩, ⟨"C", 1, 7, 5, 0, 1⟩,
    ⟨"D", 1, 4, 3, 0, 1⟩]).map IPickItemLocation.sku = ["D", "B", "C", "A"] := by
  decide +kernel

end Logix.Inventory
