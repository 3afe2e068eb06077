import Logix.Inventory.Lots

/-!
# Lot numbers of different products and sites

Lots are stored under their numbers alone. A number that is used again, for another product or at
another site, replaces the lot that had it.

* `Independent`: a registration leaves the allocations of all other products and sites alone;
* `KeepsOthers`: the lot that it replaces, if any, is of its own product and site, or can never be
  allocated;
* **`registerLots_independent_iff`**: the first holds along a run exactly when the second does.
-/

namespace Logix.Inventory

open Spec LotBatchExpirationTracker

/-- **The registration of `lot` leaves all others alone.** -/
def Independent (t : LotBatchExpirationTracker) (lot : LotBatchRecord) : Prop :=
  ∀ sku warehouseId, ¬ (lot.sku = sku ∧ lot.warehouseId = warehouseId) →
    ∀ requestedQuantity now,
      (t.registerLot lot).getNextFefoAllocation sku warehouseId requestedQuantity now =
        t.getNextFefoAllocation sku warehouseId requestedQuantity now

/-- A lot that is allocated before its expiration. -/
structure Allocatable (lot : LotBatchRecord) : Prop where
  released : lot.quarantineStatus = .released
  inStock : 0 < lot.quantityOnHand
  dated : lot.expirationDate ≠ none

/-- **The lot that is replaced** is of the same product and site, or of no use. -/
def KeepsOthers (t : LotBatchExpirationTracker) (lot : LotBatchRecord) : Prop :=
  ∀ old, t.lots.get lot.lotNumber = some old → Allocatable old →
    lot.sku = old.sku ∧ lot.warehouseId = old.warehouseId

theorem allocatable_of_matches {sku warehouseId : String} {now : String → JsDate}
    {lot : LotBatchRecord} (h : lot.matches sku warehouseId now = true) : Allocatable lot := by
  obtain ⟨helig, hpos⟩ := matches_iff.mp h
  obtain ⟨_, _, -, hdate, -⟩ := dateLt_iff.mp helig.unexpired
  exact ⟨helig.released, hpos, hdate ▸ Option.some_ne_none _⟩

theorem Allocatable.exists_matches {lot : LotBatchRecord} (h : Allocatable lot) :
    ∃ now, lot.matches lot.sku lot.warehouseId now = true := by
  obtain ⟨date, hdate⟩ := Option.ne_none_iff_exists'.mp h.dated
  have hlt : dateLt (some (date - 1)) lot.expirationDate = true :=
    dateLt_iff.mpr ⟨date - 1, date, rfl, hdate, sub_one_lt date⟩
  exact ⟨fun _ => date - 1, matches_iff.mpr ⟨⟨rfl, rfl, h.released, hlt⟩, h.inStock⟩⟩

theorem independent_of_keepsOthers {t : LotBatchExpirationTracker} {lot : LotBatchRecord}
    (h : KeepsOthers t lot) : Independent t lot := by
  intro sku warehouseId hother requestedQuantity now
  have hnew : lot.matches sku warehouseId now = false := by
    refine Bool.eq_false_iff.mpr fun hmatch => hother ?_
    have helig := (matches_iff.mp hmatch).1
    exact ⟨helig.sku, helig.warehouseId⟩
  have hold : ∀ old, t.lots.get lot.lotNumber = some old →
      old.matches sku warehouseId now = false := by
    refine fun old hget => Bool.eq_false_iff.mpr fun hmatch => hother ?_
    have helig := (matches_iff.mp hmatch).1
    obtain ⟨hsku, hwarehouse⟩ := h old hget (allocatable_of_matches hmatch)
    exact ⟨hsku.trans helig.sku, hwarehouse.trans helig.warehouseId⟩
  rw [getNextFefoAllocation, matchingLots, registerLot, JsMap.filter_values_set hnew hold]
  rfl

theorem mem_getNextFefoAllocation_of_all {t : LotBatchExpirationTracker} {sku warehouseId : String}
    {now : String → JsDate} {lot : LotBatchRecord} (h : lot ∈ t.matchingLots sku warehouseId now) :
    ⟨lot.lotNumber, lot.quantityOnHand⟩ ∈ t.getNextFefoAllocation sku warehouseId
      ((t.matchingLots sku warehouseId now).map LotBatchRecord.quantityOnHand).sum now := by
  refine List.mem_map.mpr ⟨(lot, lot.quantityOnHand), ?_, rfl⟩
  rw [takeInOrder_eq_map (fun other hother => (mem_matchingLots.mp hother).2.2) le_rfl]
  exact List.mem_map_of_mem h

theorem keepsOthers_of_independent {t : LotBatchExpirationTracker} (hkeyed : t.Keyed)
    {lot : LotBatchRecord} (h : Independent t lot) : KeepsOthers t lot := by
  intro old hget hold
  by_contra hother
  obtain ⟨now, hmatch⟩ := hold.exists_matches
  obtain ⟨helig, hpos⟩ := matches_iff.mp hmatch
  -- before the registration, a demand for all allocates from the old lot
  have hbefore := mem_getNextFefoAllocation_of_all
    (mem_matchingLots.mpr ⟨JsMap.mem_values_of_get hget, helig, hpos⟩)
  rw [← h old.sku old.warehouseId hother] at hbefore
  -- afterwards its number is that of the new lot
  have hkeyed' := keyed_registerLot hkeyed lot
  obtain ⟨used, hused, helig', hnumber, -⟩ :=
    (hkeyed'.fefo old.sku old.warehouseId _ now).uses _ hbefore
  have hlot : lot ∈ (t.registerLot lot).lots.values :=
    JsMap.mem_values_of_get (JsMap.get_set_self _ _ _)
  obtain rfl : used = lot := hkeyed'.eq hused hlot (hnumber.trans (hkeyed _ _ hget))
  exact hother ⟨helig'.sku, helig'.warehouseId⟩

/-- **Lots of different products and sites are independent along a run exactly when no registration
replaces an allocatable lot of another product or site.** -/
theorem registerLots_independent_iff (lots : List LotBatchRecord) :
    (∀ done lot todo, lots = done ++ lot :: todo → Independent (registerLots done) lot) ↔
      ∀ done lot todo, lots = done ++ lot :: todo → KeepsOthers (registerLots done) lot := by
  refine forall₃_congr fun done lot todo => imp_congr_right fun _ => ?_
  exact ⟨keepsOthers_of_independent (keyed_registerLots done), independent_of_keepsOthers⟩

/-- **A number that is used again takes a lot from another product.** -/
theorem registerLots_not_independent :
    ¬ ∀ (lots : List LotBatchRecord) (done : List LotBatchRecord) (lot : LotBatchRecord)
      (todo : List LotBatchRecord), lots = done ++ lot :: todo →
        Independent (registerLots done) lot := by
  intro h
  have hsame := h _ [⟨"L1", "milk", "w", none, some 9, 5, .released⟩]
    ⟨"L1", "bread", "w", none, some 9, 7, .released⟩ [] rfl "milk" "w" (by decide) 5 fun _ => 0
  exact absurd hsame (by decide)

end Logix.Inventory
