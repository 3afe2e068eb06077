import Logix.Async.Program
import Logix.Common.Errors
import Logix.Js.Uuid

/-!
# Orders and their sagas

`OrderService` with `OrderSagaOrchestrator`, on the order and saga repositories.

* Entities; `OrderStores`: both repositories, their keys drawn UUIDs. `OrderRepository.update`
  stores a new object, so an order that a call has read stays as it was; the steps of a saga are
  one array that all versions of the saga share, and are mutated in place.
* `newOrder`: what `createOrder` stores.
* `OrderCall`: the requests, and what is left of them and of the saga after each await;
  `orderProgram`: the segments.

The time stamps of the entities are left out: no method reads them.
-/

namespace Logix.Order

open Async

/-! ## Entities -/

/-- `OrderStatus`. -/
inductive OrderStatus where
  | PENDING_VALIDATION | VALIDATED | INVENTORY_RESERVING | INVENTORY_RESERVED | INVENTORY_FAILED
  | PAYMENT_PROCESSING | PAYMENT_CAPTURED | PAYMENT_FAILED | AWAITING_FULFILLMENT
  | DISPATCH_SCHEDULED | IN_TRANSIT | OUT_FOR_DELIVERY | DELIVERED | CANCELLED | REFUNDED | FAILED
  deriving DecidableEq, Repr

/-- The text of a status. -/
def OrderStatus.text : OrderStatus → String
  | .PENDING_VALIDATION => "PENDING_VALIDATION"
  | .VALIDATED => "VALIDATED"
  | .INVENTORY_RESERVING => "INVENTORY_RESERVING"
  | .INVENTORY_RESERVED => "INVENTORY_RESERVED"
  | .INVENTORY_FAILED => "INVENTORY_FAILED"
  | .PAYMENT_PROCESSING => "PAYMENT_PROCESSING"
  | .PAYMENT_CAPTURED => "PAYMENT_CAPTURED"
  | .PAYMENT_FAILED => "PAYMENT_FAILED"
  | .AWAITING_FULFILLMENT => "AWAITING_FULFILLMENT"
  | .DISPATCH_SCHEDULED => "DISPATCH_SCHEDULED"
  | .IN_TRANSIT => "IN_TRANSIT"
  | .OUT_FOR_DELIVERY => "OUT_FOR_DELIVERY"
  | .DELIVERED => "DELIVERED"
  | .CANCELLED => "CANCELLED"
  | .REFUNDED => "REFUNDED"
  | .FAILED => "FAILED"

/-- `OrderPriority`. -/
inductive OrderPriority where
  | LOW | STANDARD | HIGH | CRITICAL | EMERGENCY
  deriving DecidableEq, Repr

/-- `SagaStatus`. -/
inductive SagaStatus where
  | STARTED | IN_PROGRESS | COMPLETED | COMPENSATING | COMPENSATED | FAILED
  deriving DecidableEq, Repr

/-- `Address`. -/
structure Address where
  streetLine1 : String
  streetLine2 : Option String
  city : String
  stateOrProvince : String
  postalCode : String
  countryCode : String
  contactName : String
  contactPhone : String
  contactEmail : Option String
  instructions : Option String
  deriving DecidableEq, Repr

/-- `Money`: minor units of a currency. -/
structure Money where
  amount : ℤ
  currency : String
  deriving DecidableEq, Repr

/-- `OrderItemEntity`. -/
structure OrderItemEntity where
  id : String
  orderId : String
  sku : String
  productName : String
  quantity : ℤ
  unitPriceCents : ℤ
  totalPriceCents : ℤ
  deriving DecidableEq, Repr

/-- `OrderEntity`. -/
structure OrderEntity where
  id : String
  tenantId : String
  orderNumber : String
  customerId : String
  customerEmail : String
  warehouseId : String
  status : OrderStatus
  priority : OrderPriority
  items : List OrderItemEntity
  subtotalCents : ℤ
  taxCents : ℤ
  shippingCents : ℤ
  totalAmount : Money
  shippingAddress : Address
  billingAddress : Address
  notes : Option String
  cancellationReason : Option String
  sagaInstanceId : Option String
  deriving DecidableEq, Repr

/-- `SagaStepRecord.status`. -/
inductive SagaStepStatus where
  | PENDING | SUCCESS | FAILED | COMPENSATED
  deriving DecidableEq, Repr

/-- `SagaStepRecord`. -/
structure SagaStepRecord where
  stepName : String
  status : SagaStepStatus
  deriving DecidableEq, Repr

/-- `SagaInstanceEntity`. -/
structure SagaInstanceEntity where
  id : String
  orderId : String
  tenantId : String
  status : SagaStatus
  currentStep : String
  steps : List SagaStepRecord
  deriving DecidableEq, Repr

/-- A line of a `CreateOrderDTO`. -/
structure CreateOrderItem where
  sku : String
  productName : String
  quantity : ℤ
  unitPriceCents : ℤ
  deriving DecidableEq, Repr

/-- `CreateOrderDTO`. -/
structure CreateOrderDTO where
  tenantId : String
  customerId : String
  customerEmail : String
  warehouseId : String
  priority : OrderPriority
  items : List CreateOrderItem
  shippingAddress : Address
  billingAddress : Address
  notes : Option String
  deriving DecidableEq, Repr

/-- **The order and the saga repository.** `draws` counts the UUIDs drawn so far, and every key is
one of them. -/
structure OrderStores (u : UuidSource) where
  orders : JsMap String OrderEntity
  sagas : JsMap String SagaInstanceEntity
  draws : ℕ
  orders_issued : u.Issued draws orders
  sagas_issued : u.Issued draws sagas

/-! ## Changes of an order and of a saga -/

/-- `orderRepo.update(orderId, { sagaInstanceId, status: INVENTORY_RESERVING })`. -/
def OrderEntity.startSaga (sagaId : String) (o : OrderEntity) : OrderEntity :=
  { o with sagaInstanceId := some sagaId, status := .INVENTORY_RESERVING }

/-- `orderRepo.update(orderId, { status })`. -/
def OrderEntity.withStatus (status : OrderStatus) (o : OrderEntity) : OrderEntity :=
  { o with status := status }

/-- `orderRepo.update(id, { status: CANCELLED, cancellationReason })`. -/
def OrderEntity.cancel (reason : String) (o : OrderEntity) : OrderEntity :=
  { o with status := .CANCELLED, cancellationReason := some reason }

/-- `sagaRepo.update(sagaId, { status, currentStep })`. -/
def SagaInstanceEntity.progress (status : SagaStatus) (currentStep : String)
    (s : SagaInstanceEntity) : SagaInstanceEntity :=
  { s with status := status, currentStep := currentStep }

/-- Set the first step of that name to SUCCESS. -/
def succeed (stepName : String) : List SagaStepRecord → List SagaStepRecord
  | [] => []
  | step :: steps =>
    if step.stepName = stepName then { step with status := .SUCCESS } :: steps
    else step :: succeed stepName steps

/-- Mark a step of a saga as done. -/
def SagaInstanceEntity.markSuccess (stepName : String) (s : SagaInstanceEntity) :
    SagaInstanceEntity :=
  { s with steps := succeed stepName s.steps }

/-- The saga that `startOrderSaga` creates. -/
def newSaga (orderId tenantId id : String) : SagaInstanceEntity where
  id := id
  orderId := orderId
  tenantId := tenantId
  status := .STARTED
  currentStep := "RESERVE_INVENTORY"
  steps := [⟨"VALIDATE_ORDER", .SUCCESS⟩, ⟨"RESERVE_INVENTORY", .PENDING⟩,
    ⟨"AUTHORIZE_PAYMENT", .PENDING⟩, ⟨"SCHEDULE_DISPATCH", .PENDING⟩]

namespace OrderStores

variable {u : UuidSource}

/-- Empty repositories. -/
def new (u : UuidSource) : OrderStores u where
  orders := .empty
  sagas := .empty
  draws := 0
  orders_issued := .empty u 0
  sagas_issued := .empty u 0

/-! ## Writes -/

/-- Draw `n` UUIDs. -/
def draw (h : OrderStores u) (n : ℕ) : OrderStores u where
  orders := h.orders
  sagas := h.sagas
  draws := h.draws + n
  orders_issued := h.orders_issued.mono (Nat.le_add_right _ _)
  sagas_issued := h.sagas_issued.mono (Nat.le_add_right _ _)

/-- `orderRepo.create(order)`. -/
def insertOrder (h : OrderStores u) (entity : String → OrderEntity) : OrderStores u where
  orders := h.orders.set (u.draw h.draws) (entity (u.draw h.draws))
  sagas := h.sagas
  draws := h.draws + 1
  orders_issued := h.orders_issued.set_draw _
  sagas_issued := h.sagas_issued.mono (Nat.le_succ _)

/-- `sagaRepo.create(saga)`. -/
def insertSaga (h : OrderStores u) (entity : String → SagaInstanceEntity) : OrderStores u where
  orders := h.orders
  sagas := h.sagas.set (u.draw h.draws) (entity (u.draw h.draws))
  draws := h.draws + 1
  orders_issued := h.orders_issued.mono (Nat.le_succ _)
  sagas_issued := h.sagas_issued.set_draw _

/-- `orderRepo.update(id, updates)`: nothing when there is no order `id`. -/
def updateOrder (h : OrderStores u) (id : String) (f : OrderEntity → OrderEntity) :
    OrderStores u where
  orders := h.orders.modify id f
  sagas := h.sagas
  draws := h.draws
  orders_issued := h.orders_issued.modify id f
  sagas_issued := h.sagas_issued

/-- `sagaRepo.update(id, updates)`, and a mutation of the steps of saga `id`. -/
def updateSaga (h : OrderStores u) (id : String) (f : SagaInstanceEntity → SagaInstanceEntity) :
    OrderStores u where
  orders := h.orders
  sagas := h.sagas.modify id f
  draws := h.draws
  orders_issued := h.orders_issued
  sagas_issued := h.sagas_issued.modify id f

/-- `Math.round(subtotalCents * 0.08)`; no integer subtotal is at a tie. -/
def taxCents (subtotalCents : ℤ) : ℤ := (8 * subtotalCents + 50) / 100

/-- The order that `createOrder` stores; `itemIds` numbers the UUIDs of its lines. -/
def newOrder (dto : CreateOrderDTO) (orderNumber : String) (itemIds : ℕ → String) (id : String) :
    OrderEntity :=
  let subtotalCents := (dto.items.map fun item => item.quantity * item.unitPriceCents).sum
  let shippingCents := 1500
  { id := id
    tenantId := dto.tenantId
    orderNumber := orderNumber
    customerId := dto.customerId
    customerEmail := dto.customerEmail
    warehouseId := dto.warehouseId
    status := .PENDING_VALIDATION
    priority := dto.priority
    items := dto.items.mapIdx fun i item =>
      { id := itemIds i
        orderId := ""
        sku := item.sku
        productName := item.productName
        quantity := item.quantity
        unitPriceCents := item.unitPriceCents
        totalPriceCents := item.quantity * item.unitPriceCents }
    subtotalCents := subtotalCents
    taxCents := taxCents subtotalCents
    shippingCents := shippingCents
    totalAmount := ⟨subtotalCents + taxCents subtotalCents + shippingCents, "USD"⟩
    shippingAddress := dto.shippingAddress
    billingAddress := dto.billingAddress
    notes := dto.notes
    cancellationReason := none
    sagaInstanceId := none }

end OrderStores

/-! ## The requests as a program -/

/-- **The requests and the saga**, at their start and after each await. -/
inductive OrderCall where
  | createOrder (dto : CreateOrderDTO)
  /-- `createOrder` after `orderRepo.create`. -/
  | createOrderStored (order : OrderEntity)
  /-- `startOrderSaga` after `sagaRepo.create`. -/
  | sagaCreated (orderId sagaId : String)
  /-- `startOrderSaga` after `orderRepo.update`. -/
  | sagaStarted (orderId sagaId : String)
  /-- `executeStepInventory` after `sagaRepo.findById`. -/
  | inventorySagaFound (orderId sagaId : String) (found : Bool)
  /-- `executeStepInventory` after `sagaRepo.update`. -/
  | inventoryRecorded (orderId sagaId : String)
  /-- `executeStepInventory` after `orderRepo.update`. -/
  | inventoryDone (orderId sagaId : String)
  /-- `executeStepPayment` after `sagaRepo.findById`. -/
  | paymentSagaFound (orderId sagaId : String) (found : Bool)
  /-- `executeStepPayment` after `sagaRepo.update`. -/
  | paymentRecorded (orderId sagaId : String)
  /-- `executeStepPayment` after `orderRepo.update`. -/
  | paymentDone (orderId sagaId : String)
  | cancelOrder (id reason : String)
  /-- `cancelOrder` after `orderRepo.findById`. -/
  | cancelOrderFound (id reason : String) (order : Option OrderEntity)
  /-- `cancelOrder` after `orderRepo.update`, with the promise it returns. -/
  | cancelOrderUpdated (id : String) (updated : Option OrderEntity)
  deriving DecidableEq, Repr

/-- How a request settles. -/
inductive OrderOutcome where
  | created (order : OrderEntity)
  | cancelled (id : String) (updated : Option OrderEntity)
  | rejected (e : DomainException)
  deriving DecidableEq, Repr

/-- The check of `cancelOrder` on the order it has read. -/
def cancelOrderCheck (id : String) : Option OrderEntity → Option DomainException
  | none => some (.notFound "Order" id)
  | some order =>
    if order.status = .DELIVERED ∨ order.status = .CANCELLED then
      some (.conflict s!"Cannot cancel order in status '{order.status.text}'.")
    else none

/-- **The requests and the saga, cut at their awaits.** The input of a segment is the number that
`CryptoUtils.generateOrderNumber` gives. -/
def orderProgram (u : UuidSource) : Program (OrderStores u) OrderCall String OrderOutcome where
  run k orderNumber h :=
    match k with
    | .createOrder dto =>
      let h' := h.draw dto.items.length
      let entity := OrderStores.newOrder dto orderNumber fun i => u.draw (h.draws + i)
      { heap := h'.insertOrder entity
        waiting := [.createOrderStored (entity (u.draw h'.draws))] }
    | .createOrderStored order =>
      { heap := h.insertSaga (newSaga order.id order.tenantId)
        waiting := [.sagaCreated order.id (u.draw h.draws)]
        settled := [.created order] }
    | .sagaCreated orderId sagaId =>
      { heap := h.updateOrder orderId (OrderEntity.startSaga sagaId)
        waiting := [.sagaStarted orderId sagaId] }
    | .sagaStarted orderId sagaId =>
      { heap := h
        waiting := [.inventorySagaFound orderId sagaId (h.sagas.get sagaId).isSome] }
    | .inventorySagaFound orderId sagaId found =>
      if found then
        { heap := h.updateSaga sagaId fun s =>
            (s.markSuccess "RESERVE_INVENTORY").progress .IN_PROGRESS "AUTHORIZE_PAYMENT"
          waiting := [.inventoryRecorded orderId sagaId] }
      else { heap := h }
    | .inventoryRecorded orderId sagaId =>
      { heap := h.updateOrder orderId (OrderEntity.withStatus .PAYMENT_PROCESSING)
        waiting := [.inventoryDone orderId sagaId] }
    | .inventoryDone orderId sagaId =>
      { heap := h
        waiting := [.paymentSagaFound orderId sagaId (h.sagas.get sagaId).isSome] }
    | .paymentSagaFound orderId sagaId found =>
      if found then
        { heap := h.updateSaga sagaId fun s =>
            ((s.markSuccess "AUTHORIZE_PAYMENT").markSuccess "SCHEDULE_DISPATCH").progress
              .COMPLETED "COMPLETED"
          waiting := [.paymentRecorded orderId sagaId] }
      else { heap := h }
    | .paymentRecorded orderId sagaId =>
      { heap := h.updateOrder orderId (OrderEntity.withStatus .DISPATCH_SCHEDULED)
        waiting := [.paymentDone orderId sagaId] }
    | .paymentDone _ _ => { heap := h }
    | .cancelOrder id reason =>
      { heap := h, waiting := [.cancelOrderFound id reason (h.orders.get id)] }
    | .cancelOrderFound id reason order =>
      match cancelOrderCheck id order with
      | some e => { heap := h, settled := [.rejected e] }
      | none =>
        let h' := h.updateOrder id (OrderEntity.cancel reason)
        { heap := h', waiting := [.cancelOrderUpdated id (h'.orders.get id)] }
    | .cancelOrderUpdated id updated => { heap := h, settled := [.cancelled id updated] }

end Logix.Order
