import Logix.Async.Program
import Logix.Common.Errors
import Logix.Js.Date
import Logix.Js.Uuid
import Logix.Order.Model

/-!
# Shipments

`LogisticsService` on its repository. `LogisticsRepository.updateShipment` stores a new object, so a
shipment that a call has read stays as it was; vehicles are mutated in place.

* Entities; `LogisticsStores`: the repository, the keys of its shipments drawn UUIDs;
* `newShipment`, `ShipmentEntity.deliver`, `newTelemetry`: what the methods store;
* `LogisticsCall`: the requests, and what is left of them after each await; `logisticsProgram`: the
  segments.
-/

namespace Logix.Logistics

open Async

/-! ## Entities -/

/-- `ShipmentStatus`. -/
inductive ShipmentStatus where
  | DRAFT | MANIFESTED | CARRIER_ASSIGNED | LOADING | DISPATCHED | IN_TRANSIT | OUT_FOR_DELIVERY
  | FAILED_ATTEMPT | DELIVERED | RETURNED_TO_HUB | CANCELLED
  deriving DecidableEq, Repr

/-- `VehicleStatus`. -/
inductive VehicleStatus where
  | AVAILABLE | EN_ROUTE | LOADING | UNLOADING | MAINTENANCE | OUT_OF_SERVICE
  deriving DecidableEq, Repr

/-- `VehicleEntity`: what telemetry writes. -/
structure VehicleEntity where
  id : String
  status : VehicleStatus
  currentLatitude : Option ℚ
  currentLongitude : Option ℚ
  lastTelemetryAt : Option JsDate
  deriving DecidableEq, Repr

/-- `status` of a waypoint. -/
inductive WaypointStatus where
  | PENDING | ARRIVED | DEPARTED
  deriving DecidableEq, Repr

/-- `RouteWaypointEntity`. -/
structure RouteWaypointEntity where
  id : String
  shipmentId : String
  sequenceOrder : ℕ
  locationName : String
  latitude : ℚ
  longitude : ℚ
  status : WaypointStatus
  estimatedArrival : Option JsDate := none
  actualArrival : Option JsDate := none
  deriving DecidableEq, Repr

/-- `proofOfDelivery`. -/
structure ProofOfDelivery where
  recipientName : String
  signatureUrl : Option String
  photoUrl : Option String
  notes : Option String
  signedAt : JsDate
  deriving DecidableEq, Repr

/-- `ShipmentEntity`. -/
structure ShipmentEntity where
  id : String
  tenantId : String
  orderId : String
  trackingNumber : JsString
  status : ShipmentStatus
  originWarehouseId : String
  destinationAddress : Order.Address
  assignedVehicleId : Option String
  assignedDriverId : Option String
  waypoints : List RouteWaypointEntity
  dispatchedAt : Option JsDate
  deliveredAt : Option JsDate := none
  proofOfDelivery : Option ProofOfDelivery := none
  createdAt : JsDate
  updatedAt : JsDate
  deriving DecidableEq, Repr

/-- `TelemetryLogEntity` with its `location`. -/
structure TelemetryLogEntity where
  id : String
  vehicleId : String
  shipmentId : Option String
  latitude : ℚ
  longitude : ℚ
  speedKmh : ℚ
  heading : ℚ
  timestamp : JsString
  createdAt : JsDate
  deriving DecidableEq, Repr

/-- `CreateShipmentDTO`. -/
structure CreateShipmentDTO where
  tenantId : String
  orderId : String
  originWarehouseId : String
  destinationAddress : Order.Address
  assignedVehicleId : Option String
  assignedDriverId : Option String
  deriving DecidableEq, Repr

/-- `RecordTelemetryDTO`. -/
structure RecordTelemetryDTO where
  vehicleId : String
  shipmentId : Option String
  latitude : ℚ
  longitude : ℚ
  speedKmh : Option ℚ
  heading : Option ℚ
  deriving DecidableEq, Repr

/-- `SubmitPODDTO`. -/
structure SubmitPODDTO where
  recipientName : String
  signatureUrl : Option String
  photoUrl : Option String
  notes : Option String
  deriving DecidableEq, Repr

/-- What a segment reads from outside: the clock, time after time, and the random bytes of a
tracking number as hexadecimal digits. -/
structure Readings where
  now : ℕ → JsDate
  randomHex : JsString

/-- **`LogisticsRepository`**. `draws` counts the UUIDs drawn so far, and every key of a shipment is
one of them. -/
structure LogisticsStores (u : UuidSource) where
  vehicles : JsMap String VehicleEntity
  shipments : JsMap String ShipmentEntity
  telemetry : List TelemetryLogEntity
  draws : ℕ
  issued : u.Issued draws shipments

/-! ## What is stored -/

/-- `CryptoUtils.generateTrackingNumber('LOGIX')`. -/
def generateTrackingNumber (i : Readings) : JsString :=
  js "LOGIX-" ++ toUpperCase (intToBase 36 (i.now 0)) ++ js "-" ++ toUpperCase i.randomHex

/-- The shipment that `createShipment` stores; the waypoints have drawn their ids before. -/
def newShipment (dto : CreateShipmentDTO) (i : Readings) (originId destinationId id : String) :
    ShipmentEntity where
  id := id
  tenantId := dto.tenantId
  orderId := dto.orderId
  trackingNumber := generateTrackingNumber i
  status := .DISPATCHED
  originWarehouseId := dto.originWarehouseId
  destinationAddress := dto.destinationAddress
  assignedVehicleId := dto.assignedVehicleId
  assignedDriverId := dto.assignedDriverId
  waypoints := [
    { id := originId, shipmentId := "", sequenceOrder := 1, locationName := "Origin Logistics Hub"
      latitude := 377749 / 10000, longitude := -1224194 / 10000, status := .DEPARTED
      actualArrival := some (i.now 1) },
    { id := destinationId, shipmentId := "", sequenceOrder := 2
      locationName := "Destination: " ++ dto.destinationAddress.city
      latitude := 373382 / 10000, longitude := -1218863 / 10000, status := .PENDING
      estimatedArrival := some (i.now 2 + 4 * 60 * 60 * 1000) }]
  dispatchedAt := some (i.now 3)
  createdAt := i.now 4
  updatedAt := i.now 5

/-- The proof that `submitProofOfDelivery` stores. -/
def SubmitPODDTO.proof (dto : SubmitPODDTO) (i : Readings) : ProofOfDelivery where
  recipientName := dto.recipientName
  signatureUrl := dto.signatureUrl
  photoUrl := dto.photoUrl
  notes := dto.notes
  signedAt := i.now 1

/-- `updateShipment` with the updates of `submitProofOfDelivery`. -/
def ShipmentEntity.deliver (dto : SubmitPODDTO) (i : Readings) (existing : ShipmentEntity) :
    ShipmentEntity :=
  { existing with
    status := .DELIVERED
    deliveredAt := some (i.now 0)
    proofOfDelivery := some (dto.proof i)
    updatedAt := i.now 2 }

/-- `v || d`: an absent number and 0 are replaced. -/
def orElseNumber (v : Option ℚ) (d : ℚ) : ℚ := if v.getD 0 = 0 then d else v.getD 0

/-- The log entry that `recordTelemetry` stores. -/
def newTelemetry (dto : RecordTelemetryDTO) (i : Readings) (id : String) : TelemetryLogEntity where
  id := id
  vehicleId := dto.vehicleId
  shipmentId := dto.shipmentId
  latitude := dto.latitude
  longitude := dto.longitude
  speedKmh := orElseNumber dto.speedKmh 65
  heading := orElseNumber dto.heading 180
  timestamp := toISOString (i.now 0)
  createdAt := i.now 1

/-- `updateVehicleTelemetry`, on a vehicle that is there. -/
def VehicleEntity.track (dto : RecordTelemetryDTO) (i : Readings) (v : VehicleEntity) :
    VehicleEntity :=
  { v with
    currentLatitude := some dto.latitude
    currentLongitude := some dto.longitude
    lastTelemetryAt := some (i.now 0)
    status := .EN_ROUTE }

namespace LogisticsStores

variable {u : UuidSource}

/-- A repository with vehicles, and no shipments yet. -/
def new (u : UuidSource) (vehicles : JsMap String VehicleEntity) : LogisticsStores u where
  vehicles := vehicles
  shipments := .empty
  telemetry := []
  draws := 0
  issued := .empty u 0

/-- Draw `n` UUIDs. -/
def draw (h : LogisticsStores u) (n : ℕ) : LogisticsStores u where
  vehicles := h.vehicles
  shipments := h.shipments
  telemetry := h.telemetry
  draws := h.draws + n
  issued := h.issued.mono (Nat.le_add_right _ _)

/-- `createShipment`. -/
def insertShipment (h : LogisticsStores u) (entity : String → ShipmentEntity) :
    LogisticsStores u where
  vehicles := h.vehicles
  shipments := h.shipments.set (u.draw h.draws) (entity (u.draw h.draws))
  telemetry := h.telemetry
  draws := h.draws + 1
  issued := h.issued.set_draw _

/-- `updateShipment`: nothing when there is no shipment `id`. -/
def updateShipment (h : LogisticsStores u) (id : String) (f : ShipmentEntity → ShipmentEntity) :
    LogisticsStores u where
  vehicles := h.vehicles
  shipments := h.shipments.modify id f
  telemetry := h.telemetry
  draws := h.draws
  issued := h.issued.modify id f

/-- `updateVehicleTelemetry`. -/
def updateVehicle (h : LogisticsStores u) (id : String) (f : VehicleEntity → VehicleEntity) :
    LogisticsStores u :=
  { h with vehicles := h.vehicles.modify id f }

/-- `recordTelemetry`. -/
def pushTelemetry (h : LogisticsStores u) (entity : String → TelemetryLogEntity) :
    LogisticsStores u where
  vehicles := h.vehicles
  shipments := h.shipments
  telemetry := h.telemetry ++ [entity (u.draw h.draws)]
  draws := h.draws + 1
  issued := h.issued.mono (Nat.le_succ _)

end LogisticsStores

/-! ## The requests as a program -/

/-- **The requests**, at their start and after each await. -/
inductive LogisticsCall where
  | createShipment (dto : CreateShipmentDTO)
  /-- `createShipment` after the repository has stored the shipment. -/
  | shipmentStored (shipment : ShipmentEntity)
  | recordTelemetry (dto : RecordTelemetryDTO)
  /-- `recordTelemetry` after `updateVehicleTelemetry`. -/
  | vehicleUpdated (dto : RecordTelemetryDTO)
  | submitProofOfDelivery (shipmentId : String) (dto : SubmitPODDTO)
  /-- `submitProofOfDelivery` after `findShipmentById`. -/
  | shipmentFound (shipmentId : String) (dto : SubmitPODDTO) (shipment : Option ShipmentEntity)
  deriving DecidableEq, Repr

/-- How a request settles. -/
inductive LogisticsOutcome where
  | shipment (shipment : Option ShipmentEntity)
  | telemetry (log : TelemetryLogEntity)
  | rejected (e : DomainException)
  deriving DecidableEq, Repr

/-- **The segments of the requests.** -/
def logisticsProgram (u : UuidSource) :
    Program (LogisticsStores u) LogisticsCall Readings LogisticsOutcome where
  run
    | .createShipment dto, i, h =>
      let entity := newShipment dto i (u.draw h.draws) (u.draw (h.draws + 1))
      { heap := (h.draw 2).insertShipment entity
        waiting := [.shipmentStored (entity (u.draw (h.draws + 2)))] }
    | .shipmentStored shipment, _, h => { heap := h, settled := [.shipment (some shipment)] }
    | .recordTelemetry dto, i, h =>
      { heap := h.updateVehicle dto.vehicleId (.track dto i), waiting := [.vehicleUpdated dto] }
    | .vehicleUpdated dto, i, h =>
      { heap := h.pushTelemetry (newTelemetry dto i)
        settled := [.telemetry (newTelemetry dto i (u.draw h.draws))] }
    | .submitProofOfDelivery shipmentId dto, _, h =>
      { heap := h, waiting := [.shipmentFound shipmentId dto (h.shipments.get shipmentId)] }
    | .shipmentFound shipmentId _ none, _, h =>
      { heap := h, settled := [.rejected (.notFound "Shipment" shipmentId)] }
    | .shipmentFound shipmentId dto (some _), i, h =>
      let h' := h.updateShipment shipmentId (.deliver dto i)
      { heap := h', settled := [.shipment (h'.shipments.get shipmentId)] }

end Logix.Logistics
