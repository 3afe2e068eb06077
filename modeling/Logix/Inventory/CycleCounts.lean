import Mathlib.Tactic.Linarith
import Logix.Js.Cents
import Logix.Js.Map
import Logix.Spec.Grouping

/-!
# Cycle counts

Every counted bin is compared with the book quantity of its SKU. The book is kept by SKU, so a SKU
that lies in several bins is compared with the whole of it in each.

* `PhysicalInventoryAuditReconciliation.reconcileAuditCounts`: the code;
* `records_eq`: one record for each count;
* **`sum_varianceUnits`**: the book quantity goes off the counted one as often as there are bins;
* **`reconciles_iff`**: once exactly for one bin, or when there is nothing in the book.
-/

namespace Logix.Inventory

open Spec

/-- An entry of `bookInventory`. -/
structure BookEntry where
  qty : ℚ
  unitCost : ℚ
  deriving DecidableEq, Repr

/-- An entry of `physicalCounts`. -/
structure PhysicalCount where
  sku : String
  warehouseId : String
  bin : String
  count : ℚ
  deriving DecidableEq, Repr

/-- `IInventoryDiscrepancyRecord`. -/
structure IInventoryDiscrepancyRecord where
  sku : String
  warehouseId : String
  binLocation : String
  perpetualBookQuantity : ℚ
  physicalCountedQuantity : ℚ
  varianceUnits : ℚ
  variancePct : ℚ
  unitCostUSD : ℚ
  financialImpactUSD : ℚ
  requiresSupervisorSignoff : Bool
  deriving DecidableEq, Repr

/-- What `reconcileAuditCounts` returns. -/
structure AuditReconciliation where
  itemsAudited : ℕ
  totalDiscrepancies : ℕ
  netFinancialVarianceUSD : ℚ
  records : List IInventoryDiscrepancyRecord
  deriving DecidableEq, Repr

namespace PhysicalInventoryAuditReconciliation

variable (bookInventory : JsMap String BookEntry)

/-- `book`. -/
def bookOf (sku : String) : BookEntry := (bookInventory.get sku).getD ⟨0, 25⟩

/-- The record of a count. -/
def recordOf (pc : PhysicalCount) : IInventoryDiscrepancyRecord :=
  let book := bookOf bookInventory pc.sku
  let variance := pc.count - book.qty
  let variancePct := if 0 < book.qty then toFixed 1 (variance / book.qty * 100) else 0
  let financialImpact := toFixed 2 (variance * book.unitCost)
  { sku := pc.sku
    warehouseId := pc.warehouseId
    binLocation := pc.bin
    perpetualBookQuantity := book.qty
    physicalCountedQuantity := pc.count
    varianceUnits := variance
    variancePct := variancePct
    unitCostUSD := book.unitCost
    financialImpactUSD := financialImpact
    requiresSupervisorSignoff := decide (500 < |financialImpact|) || decide (10 < |variancePct|) }

/-- One round of the loop: `records` and `netFinancialVariance`. -/
def auditCount (st : List IInventoryDiscrepancyRecord × ℚ) (pc : PhysicalCount) :
    List IInventoryDiscrepancyRecord × ℚ :=
  let record := recordOf bookInventory pc
  (st.1 ++ [record], st.2 + record.financialImpactUSD)

/-- **`reconcileAuditCounts(bookInventory, physicalCounts)`.** -/
def reconcileAuditCounts (physicalCounts : List PhysicalCount) : AuditReconciliation :=
  let (records, netFinancialVariance) := physicalCounts.foldl (auditCount bookInventory) ([], 0)
  { itemsAudited := physicalCounts.length
    totalDiscrepancies := (records.filter fun r => r.varianceUnits ≠ 0).length
    netFinancialVarianceUSD := toFixed 2 netFinancialVariance
    records := records }

end PhysicalInventoryAuditReconciliation

open PhysicalInventoryAuditReconciliation

variable {bookInventory : JsMap String BookEntry} {physicalCounts : List PhysicalCount}
  {sku : String}

theorem foldl_auditCount (physicalCounts : List PhysicalCount)
    (records : List IInventoryDiscrepancyRecord) (x : ℚ) :
    (physicalCounts.foldl (auditCount bookInventory) (records, x)).1 =
      records ++ physicalCounts.map (recordOf bookInventory) := by
  induction physicalCounts generalizing records x with
  | nil => exact (List.append_nil _).symm
  | cons pc physicalCounts ih =>
    rw [List.foldl_cons, auditCount, ih, List.append_assoc]
    rfl

/-- **There is one record for each count**, in order. -/
theorem records_eq (bookInventory : JsMap String BookEntry) (physicalCounts : List PhysicalCount) :
    (reconcileAuditCounts bookInventory physicalCounts).records =
      physicalCounts.map (recordOf bookInventory) :=
  foldl_auditCount physicalCounts [] 0

/-- The number of counts of a SKU: its bins. -/
def binCount (physicalCounts : List PhysicalCount) (sku : String) : ℕ :=
  physicalCounts.countP fun pc => pc.sku = sku

/-- **The variances of a SKU** make up its counted quantity without the book quantity of every
bin. -/
theorem sum_varianceUnits (bookInventory : JsMap String BookEntry)
    (physicalCounts : List PhysicalCount) (sku : String) :
    groupSum IInventoryDiscrepancyRecord.sku IInventoryDiscrepancyRecord.varianceUnits
        (reconcileAuditCounts bookInventory physicalCounts).records sku =
      groupSum PhysicalCount.sku PhysicalCount.count physicalCounts sku -
        binCount physicalCounts sku * (bookOf bookInventory sku).qty := by
  rw [records_eq, groupSum_eq, groupSum_eq, List.map_map, binCount]
  induction physicalCounts with
  | nil => simp
  | cons pc physicalCounts ih =>
    rw [List.map_cons, List.sum_cons, ih, List.map_cons, List.sum_cons, List.countP_cons]
    have hsku : (recordOf bookInventory pc).sku = pc.sku := rfl
    have hunits : (recordOf bookInventory pc).varianceUnits =
        pc.count - (bookOf bookInventory pc.sku).qty := rfl
    rw [Function.comp_apply, hsku, hunits]
    by_cases h : pc.sku = sku
    · rw [if_pos h, if_pos h, if_pos (decide_eq_true h), h]
      push_cast
      ring
    · rw [if_neg h, if_neg h, if_neg (by simpa using h)]
      push_cast
      ring

/-- **The records of a SKU reconcile it**: their variances make up its counted quantity without its
book quantity. -/
def Reconciles (bookInventory : JsMap String BookEntry) (physicalCounts : List PhysicalCount)
    (sku : String) : Prop :=
  groupSum IInventoryDiscrepancyRecord.sku IInventoryDiscrepancyRecord.varianceUnits
      (reconcileAuditCounts bookInventory physicalCounts).records sku =
    groupSum PhysicalCount.sku PhysicalCount.count physicalCounts sku -
      (bookOf bookInventory sku).qty

/-- **A SKU is reconciled exactly when** it was counted in one bin, or the book has none of it. -/
theorem reconciles_iff (bookInventory : JsMap String BookEntry)
    (physicalCounts : List PhysicalCount) (sku : String) :
    Reconciles bookInventory physicalCounts sku ↔
      binCount physicalCounts sku = 1 ∨ (bookOf bookInventory sku).qty = 0 := by
  rw [Reconciles, sum_varianceUnits, sub_right_inj, mul_left_eq_self₀, Nat.cast_eq_one]

/-- Ten pieces in the book. -/
def tenInBook : JsMap String BookEntry := JsMap.empty.set "SKU-1" ⟨10, 1⟩

/-- Five pieces in each of two bins. -/
def twoBins : List PhysicalCount := [⟨"SKU-1", "WH-1", "A", 5⟩, ⟨"SKU-1", "WH-1", "B", 5⟩]

/-- **Ten pieces are missing of the ten that were counted.** -/
theorem twoBins_not_reconciled : ¬ ∀ (bookInventory : JsMap String BookEntry)
    (physicalCounts : List PhysicalCount) (sku : String),
      Reconciles bookInventory physicalCounts sku := fun h =>
  absurd (h tenInBook twoBins "SKU-1") (by unfold Reconciles; decide +kernel)

end Logix.Inventory
