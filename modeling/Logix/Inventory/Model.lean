import Logix.Async.Program
import Logix.Common.Errors
import Logix.Js.Date
import Logix.Js.Uuid

/-!
# The stock repository

`StockLevelRepository`: stock records, reservations and audit movements in memory.

* Entities and the repository; its two tables are keyed by drawn UUIDs.
* A repository method returns references to stored objects. A reference is the key of the
  object, and a field is read through it at the moment of the read.
* `upsertStock`, `reserveStock` and `releaseReservation` each await `getStock` once. The part
  before the await is `getStock` with its checks, the part after it is `upsertStockFound`,
  `reserveStockFound`, `releaseReservationFound`.
* `repositoryProgram`: the three methods as a program of segments; `upsertStock` and `reserveStock`
  are the methods without interruption.

* `Surroundings`: the ids that the repository draws and the clock that it reads.

Of the time stamps only `updatedAt` of the stock records is here; no method reads any.
-/

namespace Logix.Inventory

open Async

/-! ## Entities -/

/-- `StockMovementType`. -/
inductive StockMovementType where
  | INBOUND_RECEIPT | OUTBOUND_DISPATCH | ORDER_RESERVATION | RESERVATION_RELEASE | BIN_TRANSFER
  | DAMAGE_SCRAP | CYCLE_COUNT_ADJUSTMENT | RETURN_RESTOCK
  deriving DecidableEq, Repr

/-- `StockReservationEntity.status`. -/
inductive ReservationStatus where
  | ACTIVE | FULFILLED | RELEASED | EXPIRED
  deriving DecidableEq, Repr

/-- `StockLevelEntity`. -/
structure StockLevelEntity where
  id : String
  tenantId : String
  warehouseId : String
  binLocationId : String
  sku : String
  quantityOnHand : ℤ
  quantityReserved : ℤ
  quantityAvailable : ℤ
  updatedAt : JsDate
  deriving DecidableEq, Repr

/-- Add `qty` units on hand to a record. -/
def StockLevelEntity.addOnHand (qty : ℤ) (now : JsDate) (e : StockLevelEntity) :
    StockLevelEntity :=
  { e with
    quantityOnHand := e.quantityOnHand + qty
    quantityAvailable := e.quantityOnHand + qty - e.quantityReserved
    updatedAt := now }

/-- Move `qty` more units of a record to the reserved ones. -/
def StockLevelEntity.reserve (qty : ℤ) (now : JsDate) (e : StockLevelEntity) : StockLevelEntity :=
  { e with
    quantityReserved := e.quantityReserved + qty
    quantityAvailable := e.quantityOnHand - (e.quantityReserved + qty)
    updatedAt := now }

/-- Give `qty` reserved units of a record back, clamping at zero. -/
def StockLevelEntity.release (qty : ℤ) (now : JsDate) (e : StockLevelEntity) : StockLevelEntity :=
  { e with
    quantityReserved := max 0 (e.quantityReserved - qty)
    quantityAvailable := e.quantityOnHand - max 0 (e.quantityReserved - qty)
    updatedAt := now }

/-- `StockReservationEntity`. -/
structure StockReservationEntity where
  id : String
  tenantId : String
  orderId : String
  warehouseId : String
  sku : String
  reservedQty : ℤ
  binLocationId : String
  status : ReservationStatus
  deriving DecidableEq, Repr

/-- Set the status of a reservation to RELEASED. -/
def StockReservationEntity.markReleased (s : StockReservationEntity) : StockReservationEntity :=
  { s with status := .RELEASED }

/-- `StockAuditMovementEntity`. -/
structure StockAuditMovementEntity where
  id : String
  tenantId : String
  warehouseId : String
  sku : String
  movementType : StockMovementType
  quantityDelta : ℤ
  referenceId : Option String
  performedByUserId : String
  notes : Option String
  deriving DecidableEq, Repr

/-- The argument of `upsertStock`: a stock level without its computed fields. -/
structure StockInput where
  tenantId : String
  warehouseId : String
  binLocationId : String
  sku : String
  quantityOnHand : ℤ
  quantityReserved : ℤ
  deriving DecidableEq, Repr

/-- The arguments of `reserveStock`. -/
structure ReserveInput where
  orderId : String
  warehouseId : String
  sku : String
  qty : ℤ
  tenantId : String
  deriving DecidableEq, Repr

/-- **The surroundings of the service**: the UUIDs that it draws, and the clock that it reads. -/
structure Surroundings extends UuidSource where
  clock : ℕ → JsDate

/-- The supply `unary`, and a clock that a reading moves on by a millisecond. -/
def Surroundings.unary : Surroundings where
  toUuidSource := .unary
  clock n := n

/-- **The repository.** `draws` counts the UUIDs drawn so far, and every key is one of them; `reads`
counts the readings of the clock. -/
structure StockLevelRepository (u : Surroundings) where
  stock : JsMap String StockLevelEntity
  reservations : JsMap String StockReservationEntity
  movements : List StockAuditMovementEntity
  draws : ℕ
  reads : ℕ
  stock_issued : u.Issued draws stock
  reservations_issued : u.Issued draws reservations
  deriving DecidableEq

namespace StockLevelRepository

variable {u : Surroundings}

/-- `new StockLevelRepository()`. -/
def new (u : Surroundings) : StockLevelRepository u where
  stock := .empty
  reservations := .empty
  movements := []
  draws := 0
  reads := 0
  stock_issued := .empty u.toUuidSource 0
  reservations_issued := .empty u.toUuidSource 0

/-- `new Date()`. -/
def now (r : StockLevelRepository u) : JsDate := u.clock r.reads

/-! ## Writes -/

/-- Mutate the stock record behind `ref`, reading the clock once. -/
def mutateStock (r : StockLevelRepository u) (ref : String)
    (f : StockLevelEntity → StockLevelEntity) : StockLevelRepository u where
  stock := r.stock.modify ref f
  reservations := r.reservations
  movements := r.movements
  draws := r.draws
  reads := r.reads + 1
  stock_issued := r.stock_issued.modify ref f
  reservations_issued := r.reservations_issued

/-- Mutate the reservation behind `ref`. -/
def mutateReservation (r : StockLevelRepository u) (ref : String)
    (f : StockReservationEntity → StockReservationEntity) : StockLevelRepository u where
  stock := r.stock
  reservations := r.reservations.modify ref f
  movements := r.movements
  draws := r.draws
  reads := r.reads
  stock_issued := r.stock_issued
  reservations_issued := r.reservations_issued.modify ref f

/-- Store a stock record under a newly drawn id, reading the clock once. -/
def insertStock (r : StockLevelRepository u) (entity : String → StockLevelEntity) :
    StockLevelRepository u where
  stock := r.stock.set (u.draw r.draws) (entity (u.draw r.draws))
  reservations := r.reservations
  movements := r.movements
  draws := r.draws + 1
  reads := r.reads + 1
  stock_issued := r.stock_issued.set_draw _
  reservations_issued := r.reservations_issued.mono (Nat.le_succ _)

/-- Store a reservation under a newly drawn id. -/
def insertReservation (r : StockLevelRepository u) (entity : String → StockReservationEntity) :
    StockLevelRepository u where
  stock := r.stock
  reservations := r.reservations.set (u.draw r.draws) (entity (u.draw r.draws))
  movements := r.movements
  draws := r.draws + 1
  reads := r.reads
  stock_issued := r.stock_issued.mono (Nat.le_succ _)
  reservations_issued := r.reservations_issued.set_draw _

/-! ## The methods -/

/-- `getStock`: the first record of the pair in insertion order. -/
def getStock (r : StockLevelRepository u) (warehouseId sku : String) : Option String :=
  (r.stock.entries.find? fun e => e.2.warehouseId = warehouseId ∧ e.2.sku = sku).map Prod.fst

/-- `upsertStock` after its await; the reference of the record it returns. -/
def upsertStockFound (r : StockLevelRepository u) (item : StockInput) :
    Option String → StockLevelRepository u × String
  | some existing =>
    (r.mutateStock existing (StockLevelEntity.addOnHand item.quantityOnHand r.now), existing)
  | none =>
    (r.insertStock fun id =>
      { id := id
        tenantId := item.tenantId
        warehouseId := item.warehouseId
        binLocationId := item.binLocationId
        sku := item.sku
        quantityOnHand := item.quantityOnHand
        quantityReserved := item.quantityReserved
        quantityAvailable := item.quantityOnHand - item.quantityReserved
        updatedAt := r.now },
      u.draw r.draws)

/-- The reservation that `reserveStock` creates on `stock`. -/
def newReservation (a : ReserveInput) (stock : StockLevelEntity) (id : String) :
    StockReservationEntity where
  id := id
  tenantId := a.tenantId
  orderId := a.orderId
  warehouseId := a.warehouseId
  sku := a.sku
  reservedQty := a.qty
  binLocationId := stock.binLocationId
  status := .ACTIVE

/-- `reserveStock` after its await. -/
def reserveStockFound (r : StockLevelRepository u) (a : ReserveInput) (stock : Option String) :
    StockLevelRepository u × Except DomainException StockReservationEntity :=
  let insufficient := DomainException.error s!"Insufficient stock for SKU {a.sku}"
  match stock with
  | none => (r, .error insufficient)
  | some ref =>
    match r.stock.get ref with
    | none => (r, .error insufficient)
    | some e =>
      if e.quantityAvailable < a.qty then (r, .error insufficient)
      else
        ((r.mutateStock ref (StockLevelEntity.reserve a.qty r.now)).insertReservation
          (newReservation a e), .ok (newReservation a e (u.draw r.draws)))

/-- `releaseReservation` up to its await: the record to wait for, unless the call is over. -/
def releaseReservationCheck (r : StockLevelRepository u) (reservationId : String) :
    Option (Option String) :=
  match r.reservations.get reservationId with
  | none => none
  | some res => if res.status ≠ .ACTIVE then none else some (r.getStock res.warehouseId res.sku)

/-- `releaseReservation` after its await. -/
def releaseReservationFound (r : StockLevelRepository u) (reservationId : String)
    (stock : Option String) : StockLevelRepository u :=
  match r.reservations.get reservationId with
  | none => r
  | some res =>
    let r' := match stock with
      | none => r
      | some ref => r.mutateStock ref (StockLevelEntity.release res.reservedQty r.now)
    r'.mutateReservation reservationId StockReservationEntity.markReleased

/-- `upsertStock` without interruption. -/
def upsertStock (r : StockLevelRepository u) (item : StockInput) :
    StockLevelRepository u × String :=
  r.upsertStockFound item (r.getStock item.warehouseId item.sku)

/-- `reserveStock` without interruption. -/
def reserveStock (r : StockLevelRepository u) (a : ReserveInput) :
    StockLevelRepository u × Except DomainException StockReservationEntity :=
  r.reserveStockFound a (r.getStock a.warehouseId a.sku)

end StockLevelRepository

/-! ## The methods as a program -/

/-- The repository calls, before and after their await. -/
inductive RepoCall where
  | upsertStock (item : StockInput)
  | upsertStockFound (item : StockInput) (existing : Option String)
  | reserveStock (a : ReserveInput)
  | reserveStockFound (a : ReserveInput) (stock : Option String)
  | releaseReservation (reservationId : String)
  | releaseReservationFound (reservationId : String) (stock : Option String)
  deriving DecidableEq, Repr

/-- How a repository call settles. -/
inductive RepoOutcome where
  | upserted (ref : String)
  | reserved (reservation : StockReservationEntity)
  | released (reservationId : String)
  | rejected (e : DomainException)
  deriving DecidableEq, Repr

/-- **The repository methods, cut at their awaits.** -/
def repositoryProgram (u : Surroundings) :
    Program (StockLevelRepository u) RepoCall Unit RepoOutcome where
  run k _ r :=
    match k with
    | .upsertStock item =>
      { heap := r, waiting := [.upsertStockFound item (r.getStock item.warehouseId item.sku)] }
    | .upsertStockFound item existing =>
      let (r', ref) := r.upsertStockFound item existing
      { heap := r', settled := [.upserted ref] }
    | .reserveStock a =>
      { heap := r, waiting := [.reserveStockFound a (r.getStock a.warehouseId a.sku)] }
    | .reserveStockFound a stock =>
      match r.reserveStockFound a stock with
      | (r', .ok reservation) => { heap := r', settled := [.reserved reservation] }
      | (r', .error e) => { heap := r', settled := [.rejected e] }
    | .releaseReservation reservationId =>
      match r.releaseReservationCheck reservationId with
      | none => { heap := r, settled := [.released reservationId] }
      | some stock => { heap := r, waiting := [.releaseReservationFound reservationId stock] }
    | .releaseReservationFound reservationId stock =>
      { heap := r.releaseReservationFound reservationId stock, settled := [.released reservationId] }

end Logix.Inventory
