import Mathlib.Data.Rat.Defs
import Logix.Js.Date
import Logix.Spec.Registry

/-!
# Transfers between warehouses

`InterWarehouseTransferCoordinator` files a manifest for each transfer that it creates.

* `createTransfer`, `transferMachine`: the code;
* `transferRegistry`, `transferStamped`: the manifests as records whose ids are made of the clock.
-/

namespace Logix.Inventory

open Spec

/-- `status` of a transfer. -/
inductive TransferStatus where
  | DRAFT | PICKED | IN_TRANSIT | RECEIVED | DISCREPANCY
  deriving DecidableEq, Repr

/-- An item of a transfer. -/
structure TransferItem where
  sku : String
  transferQuantity : ℚ
  deriving DecidableEq, Repr

/-- `ITransferManifest`. -/
structure ITransferManifest where
  transferId : JsString
  originWarehouseId : String
  destinationWarehouseId : String
  items : List TransferItem
  status : TransferStatus
  createdDate : JsDate
  deriving DecidableEq, Repr

/-- **`InterWarehouseTransferCoordinator`.** -/
structure InterWarehouseTransferCoordinator where
  transfers : JsMap JsString ITransferManifest

/-- A call of `createTransfer`: its arguments, and the clock that it reads for the id and for the
date. -/
structure CreateTransfer where
  origin : String
  destination : String
  items : List TransferItem
  idNow : JsDate
  createdNow : JsDate
  deriving DecidableEq, Repr

namespace InterWarehouseTransferCoordinator

/-- `new InterWarehouseTransferCoordinator()`. -/
def new : InterWarehouseTransferCoordinator := ⟨.empty⟩

/-- **`createTransfer(origin, destination, items)`.** -/
def createTransfer (t : InterWarehouseTransferCoordinator) (c : CreateTransfer) :
    InterWarehouseTransferCoordinator × ITransferManifest :=
  let transferId := stampId "TRF-" c.idNow
  let manifest : ITransferManifest :=
    { transferId := transferId
      originWarehouseId := c.origin
      destinationWarehouseId := c.destination
      items := c.items
      status := .DRAFT
      createdDate := c.createdNow }
  (⟨t.transfers.set transferId manifest⟩, manifest)

end InterWarehouseTransferCoordinator

open InterWarehouseTransferCoordinator

/-- The clock readings of a call, in their order. -/
def CreateTransfer.clocks (c : CreateTransfer) : List JsDate := [c.idNow, c.createdNow]

/-- The calls of `createTransfer`, one after another. -/
def transferMachine :
    Machine InterWarehouseTransferCoordinator CreateTransfer ITransferManifest where
  call c t := t.createTransfer c

/-- The manifests as a registry. -/
def transferRegistry : Registry transferMachine JsString ITransferManifest where
  table := transfers
  returned := some
  idOf := ITransferManifest.transferId
  table_next _ _ := rfl

/-- The ids are made of the clock. -/
def transferStamped : Stamped transferRegistry JsDate where
  succeeds _ _ := true
  stamp c := some c.idNow
  key := stampId "TRF-"
  key_injective := stampId_injective "TRF-"
  isSome_returned _ _ := rfl
  idOf_returned _ _ manifest h := by
    cases h
    rfl

end Logix.Inventory
