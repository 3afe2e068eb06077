import Logix.Async.Outline
import Logix.Order.Model

/-!
# The order API

`OrderController` on top of `OrderService`, as the gateway calls it.

* `OrderSchemas`: what the schemas make of a request body, a parameter;
* `OrderApiCall`: the four requests, and what is left of them after each await; `orderApi`: the
  segments of the requests that carry a given `x-tenant-id`;
* `apiProgram`: the requests of all tenants.

The messages of a rejected body are kept by field path, as `ValidationUtils.validate` collects
them.
-/

namespace Logix.Order

open Async

/-- The validation messages by field path. -/
abbrev FieldErrors : Type := List (String × List String)

/-- `CancelOrderDTO`. -/
structure CancelOrderDTO where
  reason : String
  deriving DecidableEq, Repr

/-- **The schemas**, on request bodies of type `B`. -/
structure OrderSchemas (B : Type) where
  /-- `req.body.tenantId`. -/
  bodyTenantId : B → String
  /-- `validate(CreateOrderSchema, { ...req.body, tenantId })`. -/
  createOrder : B → String → Except FieldErrors CreateOrderDTO
  /-- `validate(CancelOrderSchema, req.body)`. -/
  cancelOrder : B → Except FieldErrors CancelOrderDTO
  /-- The schema checks the tenant and passes it on. -/
  createOrder_tenantId : ∀ body tenantId dto, createOrder body tenantId = .ok dto →
    dto.tenantId = tenantId

/-- `header || fallback`; an absent header counts as an empty one, and both are falsy. -/
def headerOr (header fallback : String) : String := if header = "" then fallback else header

theorem headerOr_of_ne {header : String} (h : header ≠ "") (fallback : String) :
    headerOr header fallback = header := if_neg h

/-- `orderRepo.listByTenant(tenantId)`. -/
def OrderStores.listByTenant {u : UuidSource} (h : OrderStores u) (tenantId : String) :
    List OrderEntity :=
  h.orders.values.filter fun o => o.tenantId = tenantId

/-- **A response of the API.** -/
inductive OrderResponse where
  /-- `{ success: true, data: order }`. -/
  | order (statusCode : ℕ) (data : Option OrderEntity)
  /-- `{ success: true, data: orders }`. -/
  | orders (data : List OrderEntity)
  /-- `next(err)` with an exception of the service. -/
  | failed (e : DomainException)
  /-- `next(err)` with the `ValidationError` of a rejected body. -/
  | invalid (errors : FieldErrors)
  deriving DecidableEq, Repr

/-- The orders in a response. -/
def OrderResponse.returned : OrderResponse → List OrderEntity
  | .order _ data => data.toList
  | .orders data => data
  | .failed _ | .invalid _ => []

/-- The response to a call of the service. -/
def OrderOutcome.response : OrderOutcome → OrderResponse
  | .created order => .order 201 (some order)
  | .cancelled _ updated => .order 200 updated
  | .rejected e => .failed e

/-- **The requests of the API**, at their start and after each await. -/
inductive OrderApiCall (B : Type) where
  | createOrder (body : B)
  | getOrder (id : String)
  | listOrders (queryTenantId : String)
  | cancelOrder (id : String) (body : B)
  /-- `getOrder` after `orderRepo.findById`. -/
  | getOrderFound (id : String) (order : Option OrderEntity)
  /-- `listOrders` after `orderRepo.listByTenant`. -/
  | listOrdersFound (orders : List OrderEntity)
  /-- A call of the service, or its saga, after an await. -/
  | service (k : OrderCall)

variable {B : Type} (u : UuidSource) (S : OrderSchemas B)

/-- **The requests that carry an `x-tenant-id`, cut at their awaits.** -/
def orderApi (tenantHeader : String) :
    Program (OrderStores u) (OrderApiCall B) String OrderResponse where
  run k orderNumber h :=
    let service (k : OrderCall) :=
      ((orderProgram u).run k orderNumber h).map OrderApiCall.service OrderOutcome.response
    match k with
    | .createOrder body =>
      match S.createOrder body (headerOr tenantHeader (S.bodyTenantId body)) with
      | .error errors => { heap := h, settled := [.invalid errors] }
      | .ok dto => service (.createOrder dto)
    | .getOrder id => { heap := h, waiting := [.getOrderFound id (h.orders.get id)] }
    | .getOrderFound id none => { heap := h, settled := [.failed (.notFound "Order" id)] }
    | .getOrderFound _ (some order) => { heap := h, settled := [.order 200 (some order)] }
    | .listOrders queryTenantId =>
      { heap := h
        waiting := [.listOrdersFound (h.listByTenant (headerOr tenantHeader queryTenantId))] }
    | .listOrdersFound orders => { heap := h, settled := [.orders orders] }
    | .cancelOrder id body =>
      match S.cancelOrder body with
      | .error errors => { heap := h, settled := [.invalid errors] }
      | .ok dto => service (.cancelOrder id dto.reason)
    | .service k => service k

/-- **The API**, each request with its `x-tenant-id`. -/
def apiProgram :
    Program (OrderStores u) (String × OrderApiCall B) String (String × OrderResponse) :=
  .onBehalf (orderApi u S)

end Logix.Order
