import Logix.Order.Api
import Logix.Order.Cancellation
import Logix.Spec.Ownership

/-!
# Are the orders of a tenant its own?

`getOrder` and `cancelOrder` look an order up by its id, whatever tenant it belongs to.

* `Carried`: the requests that a run starts; `OwnOrders`: none of them reads or cancels an order
  of another tenant;
* `TenantsIsolated`: no response has an order of another tenant, and no step changes one;
* `tenantOutline`: what a call that acts for a tenant relies on, and may do;
* **`orders_isolated`**: in every run on own orders the tenants are isolated, and the first request
  that is not leads to a response with an order of another tenant;
* `foreign_order_returned`: a tenant reads and cancels an order of another one.
-/

namespace Logix.Order

open Async Spec

variable {u : UuidSource} {B : Type} {S : OrderSchemas B}

/-- The configurations of the API. -/
abbrev ApiConfig (u : UuidSource) (B : Type) : Type :=
  Config (OrderStores u) (String × OrderApiCall B) (String × OrderResponse)

/-- The API without any order. -/
def apiStart (u : UuidSource) (B : Type) : ApiConfig u B := ⟨.new u, [], []⟩

/-- One of the four requests. -/
def OrderApiCall.IsRequest : OrderApiCall B → Prop
  | .createOrder _ | .getOrder _ | .listOrders _ | .cancelOrder _ _ => True
  | .getOrderFound _ _ | .listOrdersFound _ | .service _ => False

/-- A run starts requests that carry a tenant, and continues anything. -/
def Carried (_ : ApiConfig u B) : Act (String × OrderApiCall B) String → Prop
  | .call (tenantId, k) _ => tenantId ≠ "" ∧ k.IsRequest
  | .resume _ _ => True

/-- **No request is on an order of another tenant**: `getOrder` finds none, and `cancelOrder` finds
none that it goes on to cancel. -/
def OwnOrders (S : OrderSchemas B) (c : ApiConfig u B) :
    Act (String × OrderApiCall B) String → Prop
  | .call (tenantId, .getOrder id) _ => ∀ o ∈ c.heap.orders.get id, o.tenantId = tenantId
  | .call (tenantId, .cancelOrder id body) _ => ∀ o ∈ c.heap.orders.get id,
      (S.cancelOrder body).isOk ∧ cancelOrderCheck id (some o) = none → o.tenantId = tenantId
  | _ => True

/-- A step of a run on own orders. -/
def OwnStep (S : OrderSchemas B) (c : ApiConfig u B)
    (a : Act (String × OrderApiCall B) String) : Prop := Carried c a ∧ OwnOrders S c a

/-- **The tenants are isolated**: no tenant was sent an order of another one, and whatever call
runs next, it changes no order of another tenant than its own. -/
structure TenantsIsolated (S : OrderSchemas B) (c : ApiConfig u B) : Prop where
  returned : ∀ tenantId response, (tenantId, response) ∈ c.settled →
    ∀ o ∈ response.returned, o.tenantId = tenantId
  unchanged : ∀ a tenantId k orderNumber rest, Carried c a →
    Runs c a (tenantId, k) orderNumber rest →
    SparesOthers OrderEntity.tenantId tenantId c.heap.orders
      (c.after ((apiProgram u S).run (tenantId, k) orderNumber c.heap) rest).heap.orders

instance : ∀ k : OrderApiCall B, Decidable k.IsRequest
  | .createOrder _ | .getOrder _ | .listOrders _ | .cancelOrder _ _ => .isTrue trivial
  | .getOrderFound _ _ | .listOrdersFound _ | .service _ => .isFalse id

instance : ∀ (c : ApiConfig u B) (a : Act (String × OrderApiCall B) String),
    Decidable (Carried c a)
  | _, .call (_, _) _ => inferInstanceAs (Decidable (_ ∧ _))
  | _, .resume _ _ => .isTrue trivial

instance : ∀ (c : ApiConfig u B) (a : Act (String × OrderApiCall B) String),
    Decidable (OwnOrders S c a)
  | _, .call (_, .getOrder _) _ => inferInstanceAs (Decidable (∀ o ∈ _, _))
  | _, .call (_, .cancelOrder _ _) _ => inferInstanceAs (Decidable (∀ o ∈ _, _ ∧ _ → _))
  | _, .call (_, .createOrder _) _ | _, .call (_, .listOrders _) _
  | _, .call (_, .getOrderFound _ _) _ | _, .call (_, .listOrdersFound _) _
  | _, .call (_, .service _) _ | _, .resume _ _ => .isTrue trivial

instance (c : ApiConfig u B) (a : Act (String × OrderApiCall B) String) :
    Decidable (OwnStep S c a) := inferInstanceAs (Decidable (_ ∧ _))

/-! ## The outline -/

/-- What a suspended call of the service relies on when it acts for tenant `tenantId`. -/
def OrderCall.ActsOn (tenantId : String) (h : OrderStores u) : OrderCall → Prop
  | .createOrder dto => dto.tenantId = tenantId
  | .createOrderStored order =>
    order.tenantId = tenantId ∧ Owned OrderEntity.tenantId h.orders tenantId order.id
  | .sagaCreated orderId _ | .sagaStarted orderId _ | .inventorySagaFound orderId _ _
  | .inventoryRecorded orderId _ | .inventoryDone orderId _ | .paymentSagaFound orderId _ _
  | .paymentRecorded orderId _ | .paymentDone orderId _ =>
    Owned OrderEntity.tenantId h.orders tenantId orderId
  | .cancelOrder _ _ => False
  | .cancelOrderFound id _ order =>
    cancelOrderCheck id order = none → Owned OrderEntity.tenantId h.orders tenantId id
  | .cancelOrderUpdated _ updated => ∀ o ∈ updated, o.tenantId = tenantId

/-- What a suspended request relies on. -/
def OrderApiCall.ActsOn (tenantId : String) (h : OrderStores u) : OrderApiCall B → Prop
  | .getOrderFound _ order => ∀ o ∈ order, o.tenantId = tenantId
  | .listOrdersFound orders => ∀ o ∈ orders, o.tenantId = tenantId
  | .service k => k.ActsOn tenantId h
  | .createOrder _ | .getOrder _ | .listOrders _ | .cancelOrder _ _ => False

theorem OrderCall.ActsOn.mono {tenantId : String} {h h' : OrderStores u} {k : OrderCall}
    (hm : KeepsOwners OrderEntity.tenantId h.orders h'.orders) (hk : k.ActsOn tenantId h) :
    k.ActsOn tenantId h' := by
  cases k with
  | createOrderStored order => exact ⟨hk.1, hk.2.mono hm⟩
  | cancelOrderFound id reason order => exact fun hc => (hk hc).mono hm
  | createOrder dto => exact hk
  | cancelOrder id reason => exact hk
  | cancelOrderUpdated id updated => exact hk
  | _ => exact Owned.mono hm hk

/-- **The outline of the API.** -/
def tenantOutline (u : UuidSource) (B : Type) :
    Outline (OrderStores u) (String × OrderApiCall B) (String × OrderResponse) where
  guarantee k h h' := ActsFor OrderEntity.tenantId k.1 h.orders h'.orders
  inv _ := True
  assertion k h := k.2.ActsOn k.1 h
  outcome r := ∀ o ∈ r.2.returned, o.tenantId = r.1
  stable k k' h h' hg hk := by
    obtain ⟨tenantId, k⟩ := k
    cases k with
    | service k => exact OrderCall.ActsOn.mono hg.keeps hk
    | _ => exact hk

/-- The part of the outline that the service follows for a tenant. -/
def serviceOutline (u : UuidSource) (B : Type) (tenantId : String) :
    Outline (OrderStores u) OrderCall OrderOutcome :=
  (tenantOutline u B).comap (fun k => (tenantId, OrderApiCall.service k))
    fun o => (tenantId, o.response)

/-! ## Segments -/

section Segments

variable {tenantId : String} {h : OrderStores u}

theorem segment_createOrder {dto : CreateOrderDTO} (hdto : dto.tenantId = tenantId)
    (orderNumber : String) : (serviceOutline u B tenantId).Segment (.createOrder dto) h
      ((orderProgram u).run (.createOrder dto) orderNumber h) := by
  subst hdto
  have hfresh := (h.draw dto.items.length).orders_issued.fresh le_rfl
  exact .waits (.set hfresh _) trivial ⟨rfl, owned_set _ _ _⟩

theorem actsFor_updateOrder {orderId : String}
    (hown : Owned OrderEntity.tenantId h.orders tenantId orderId) {f : OrderEntity → OrderEntity}
    (hf : ∀ o, (f o).tenantId = o.tenantId) :
    ActsFor OrderEntity.tenantId tenantId h.orders (h.updateOrder orderId f).orders :=
  .modify hown hf

theorem segment_cancelOrder {id : String} (reason orderNumber : String)
    (hown : ∀ o ∈ h.orders.get id, cancelOrderCheck id (some o) = none → o.tenantId = tenantId) :
    (serviceOutline u B tenantId).Segment (.cancelOrder id reason) h
      ((orderProgram u).run (.cancelOrder id reason) orderNumber h) := by
  refine .waits (.refl _ _ _) trivial fun hc => ?_
  cases ho : h.orders.get id with
  | none =>
    rw [ho] at hc
    cases hc
  | some o =>
    rw [ho] at hc
    exact ⟨o, ho, hown o ho hc⟩

theorem segment_service {k : OrderCall} (hk : k.ActsOn tenantId h) (orderNumber : String) :
    (serviceOutline u B tenantId).Segment k h ((orderProgram u).run k orderNumber h) := by
  have hsame : ActsFor OrderEntity.tenantId tenantId h.orders h.orders := .refl _ _ _
  cases k with
  | createOrder dto => exact segment_createOrder hk orderNumber
  | createOrderStored order =>
    refine ⟨hsame, trivial, fun k' hk' => ?_, fun o ho => ?_⟩
    · rw [List.mem_singleton.mp hk']
      exact hk.2
    · rw [List.mem_singleton.mp ho]
      exact fun o' ho' => List.mem_singleton.mp ho' ▸ hk.1
  | sagaCreated orderId sagaId =>
    have hact := actsFor_updateOrder hk (f := OrderEntity.startSaga sagaId) fun _ => rfl
    exact .waits hact trivial (Owned.mono hact.keeps hk)
  | inventoryRecorded orderId sagaId =>
    have hact := actsFor_updateOrder hk (f := OrderEntity.withStatus .PAYMENT_PROCESSING)
      fun _ => rfl
    exact .waits hact trivial (Owned.mono hact.keeps hk)
  | paymentRecorded orderId sagaId =>
    have hact := actsFor_updateOrder hk (f := OrderEntity.withStatus .DISPATCH_SCHEDULED)
      fun _ => rfl
    exact .waits hact trivial (Owned.mono hact.keeps hk)
  | sagaStarted orderId sagaId => exact .waits hsame trivial hk
  | inventoryDone orderId sagaId => exact .waits hsame trivial hk
  | inventorySagaFound orderId sagaId found =>
    cases found with
    | true => exact .waits hsame trivial hk
    | false => exact .ends hsame trivial
  | paymentSagaFound orderId sagaId found =>
    cases found with
    | true => exact .waits hsame trivial hk
    | false => exact .ends hsame trivial
  | paymentDone orderId sagaId => exact .ends hsame trivial
  | cancelOrder id reason => exact hk.elim
  | cancelOrderFound id reason order =>
    simp only [orderProgram]
    cases hc : cancelOrderCheck id order with
    | some e => exact .settles hsame trivial fun o ho => absurd ho List.not_mem_nil
    | none =>
      have hact := actsFor_updateOrder (hk hc) (f := OrderEntity.cancel reason) fun _ => rfl
      have hown := (hk hc).mono hact.keeps
      exact .waits hact trivial fun o ho => hown.owner_eq ho
  | cancelOrderUpdated id updated =>
    exact .settles hsame trivial fun o ho => hk o (Option.mem_toList.mp ho)

theorem segment_lift {k : OrderCall} {s : Segment (OrderStores u) OrderCall OrderOutcome}
    (hs : (serviceOutline u B tenantId).Segment k h s) (k' : OrderApiCall B) :
    (tenantOutline u B).Segment (tenantId, k') h
      ((s.map OrderApiCall.service OrderOutcome.response).map (Prod.mk tenantId)
        (Prod.mk tenantId)) := by
  have hmap : ((tenantOutline u B).comap (Prod.mk tenantId) (Prod.mk tenantId)).Segment
      (.service k) h (s.map OrderApiCall.service OrderOutcome.response) := Outline.Segment.map hs
  exact ⟨hmap.map.guarantee, trivial, hmap.map.waiting, hmap.map.settled⟩

theorem segment_request {c : ApiConfig u B} {k : OrderApiCall B} {orderNumber : String}
    (hok : OwnStep S c (.call (tenantId, k) orderNumber)) :
    (tenantOutline u B).Segment (tenantId, k) c.heap
      ((apiProgram u S).run (tenantId, k) orderNumber c.heap) := by
  have hsame : ActsFor OrderEntity.tenantId tenantId c.heap.orders c.heap.orders := .refl _ _ _
  obtain ⟨⟨hne, hreq⟩, hown⟩ := hok
  cases k with
  | createOrder body =>
    simp only [apiProgram, Program.onBehalf, orderApi, headerOr_of_ne hne]
    cases hv : S.createOrder body tenantId with
    | error errors => exact .settles hsame trivial fun _ ho => absurd ho List.not_mem_nil
    | ok dto =>
      have hdto := S.createOrder_tenantId body tenantId dto hv
      exact segment_lift (segment_createOrder hdto orderNumber) _
  | getOrder id => exact .waits hsame trivial hown
  | listOrders queryTenantId =>
    refine .waits hsame trivial fun o ho => ?_
    rw [headerOr_of_ne hne] at ho
    exact of_decide_eq_true (List.mem_filter.mp ho).2
  | cancelOrder id body =>
    simp only [apiProgram, Program.onBehalf, orderApi]
    cases hv : S.cancelOrder body with
    | error errors => exact .settles hsame trivial fun _ ho => absurd ho List.not_mem_nil
    | ok dto =>
      refine segment_lift (segment_cancelOrder dto.reason orderNumber fun o ho hc => ?_) _
      exact hown o ho ⟨by rw [hv]; rfl, hc⟩
  | getOrderFound id order => exact hreq.elim
  | listOrdersFound orders => exact hreq.elim
  | service k => exact hreq.elim

theorem segment_continued {k : OrderApiCall B} (hk : k.ActsOn tenantId h) (orderNumber : String) :
    (tenantOutline u B).Segment (tenantId, k) h
      ((apiProgram u S).run (tenantId, k) orderNumber h) := by
  have hsame : ActsFor OrderEntity.tenantId tenantId h.orders h.orders := .refl _ _ _
  cases k with
  | getOrderFound id order =>
    cases order with
    | none => exact .settles hsame trivial fun _ ho => absurd ho List.not_mem_nil
    | some o => exact .settles hsame trivial fun o' ho => hk o' (Option.mem_toList.mp ho)
  | listOrdersFound orders => exact .settles hsame trivial hk
  | service k => exact segment_lift (segment_service hk orderNumber) _
  | createOrder body => exact hk.elim
  | getOrder id => exact hk.elim
  | listOrders queryTenantId => exact hk.elim
  | cancelOrder id body => exact hk.elim

end Segments

/-! ## Runs -/

/-- **The API follows the outline** when no request is on an order of another tenant. -/
theorem keeps_tenantOutline (u : UuidSource) (S : OrderSchemas B) :
    (tenantOutline u B).Keeps (apiProgram u S) (OwnStep S) where
  call _ _ _ hok _ := segment_request hok
  resume _ _ orderNumber _ hk := segment_continued hk orderNumber

theorem holds_apiStart (u : UuidSource) (B : Type) : (tenantOutline u B).Holds (apiStart u B) where
  inv := trivial
  inFlight _ hk := absurd hk List.not_mem_nil
  settled _ ho := absurd ho List.not_mem_nil

theorem heap_of_not_ownOrders {c : ApiConfig u B} {tenantId : String} {k : OrderApiCall B}
    {orderNumber : String} (h : ¬ OwnOrders S c (.call (tenantId, k) orderNumber)) :
    ((apiProgram u S).run (tenantId, k) orderNumber c.heap).heap = c.heap := by
  cases k with
  | getOrder id => rfl
  | cancelOrder id body =>
    simp only [apiProgram, Program.onBehalf, orderApi]
    cases S.cancelOrder body <;> rfl
  | _ => exact absurd trivial h

theorem isolated_of_holds {c : ApiConfig u B} (h : (tenantOutline u B).Holds c) :
    TenantsIsolated S c where
  returned tenantId response hmem := h.settled (tenantId, response) hmem
  unchanged a tenantId k orderNumber rest hc hr := by
    by_cases hown : OwnOrders S c a
    · exact ((keeps_tenantOutline u S).guarantee h ⟨hc, hown⟩ hr).spares
    · change SparesOthers _ _ _ ((apiProgram u S).run (tenantId, k) orderNumber c.heap).heap.orders
      cases hr with
      | call =>
        rw [heap_of_not_ownOrders hown]
        exact fun _ _ hv _ => hv
      | resume i hn => exact absurd trivial hown

theorem reach_tenantOutline {c : ApiConfig u B}
    (h : Reach (apiProgram u S) (OwnStep S) (apiStart u B) c) : (tenantOutline u B).Holds c :=
  (keeps_tenantOutline u S).holds (holds_apiStart u B) h

/-- **Orders outlast the requests of others**: in a run on own orders, as long as no call of a
tenant is started or continued, its orders stay as they are. -/
theorem order_unchanged_of_absent {c c' : ApiConfig u B} {tenantId : String}
    (h : Reach (apiProgram u S) (OwnStep S) (apiStart u B) c)
    (hrun : Reach (apiProgram u S) (fun c a => OwnStep S c a ∧
      ∀ k orderNumber rest, Runs c a k orderNumber rest → k.1 ≠ tenantId) c c')
    {id : String} {o : OrderEntity} (ho : c.heap.orders.get id = some o)
    (howner : o.tenantId = tenantId) : c'.heap.orders.get id = some o :=
  (keeps_tenantOutline u S).preserves (J := fun h => h.orders.get id = some o)
    (reach_tenantOutline h) ho
    (fun _ _ _ hne hact hget => hact.spares id o hget fun he => hne (he.symm.trans howner)) hrun

/-! ## Orders of other tenants -/

section Foreign

variable {c : ApiConfig u B} {tenantId : String} {o : OrderEntity}

theorem carried_resume (c : ApiConfig u B) (n : ℕ) (orderNumber : String) :
    Carried c (.resume n orderNumber) := trivial

theorem not_isolated_of_returns {k : OrderApiCall B} (response : OrderResponse)
    (hk : (tenantId, k) ∈ c.inFlight) (ho : o ∈ response.returned) (hforeign : o.tenantId ≠ tenantId)
    (hsettled : (tenantId, response) ∈ ((apiProgram u S).run (tenantId, k) "" c.heap).settled) :
    ∃ d, Reach (apiProgram u S) Carried c d ∧ ¬ TenantsIsolated S d := by
  obtain ⟨d, hd, -, -, hout⟩ := Reach.exists_resumed (P := apiProgram u S) carried_resume hk ""
  exact ⟨d, hd, fun hiso => hforeign (hiso.returned tenantId response (hout _ hsettled) o ho)⟩

theorem not_isolated_of_cancels (id reason : String)
    (hk : (tenantId, .service (.cancelOrderFound id reason (some o))) ∈ c.inFlight)
    (ho : c.heap.orders.get id = some o) (hc : cancelOrderCheck id (some o) = none)
    (hforeign : o.tenantId ≠ tenantId) :
    ∃ d, Reach (apiProgram u S) Carried c d ∧ ¬ TenantsIsolated S d := by
  obtain ⟨d, hd, -, hwait, -⟩ := Reach.exists_resumed (P := apiProgram u S) carried_resume hk ""
  have hupdated : (tenantId, .service (.cancelOrderUpdated id (some (o.cancel reason)))) ∈
      d.inFlight := by
    refine hwait _ ?_
    simp [apiProgram, Program.onBehalf, orderApi, orderProgram, Segment.map, hc,
      OrderStores.updateOrder, JsMap.get_modify_self ho]
  obtain ⟨e, he, hn⟩ := not_isolated_of_returns (S := S) (o := o.cancel reason)
    (.order 200 (some (o.cancel reason))) hupdated List.mem_cons_self hforeign List.mem_cons_self
  exact ⟨e, hd.trans he, hn⟩

/-- **The first request on an order of another tenant** gets that order in its response. -/
theorem exists_not_isolated {c' : ApiConfig u B} {a : Act (String × OrderApiCall B) String}
    (hown : ¬ OwnOrders S c a) (hs : (apiProgram u S).step c a = some c') :
    ∃ d, Reach (apiProgram u S) Carried c' d ∧ ¬ TenantsIsolated S d := by
  cases a with
  | resume n orderNumber => exact absurd trivial hown
  | call caller orderNumber =>
    obtain ⟨tenantId, k⟩ := caller
    cases hs
    cases k with
    | getOrder id =>
      simp only [OwnOrders, not_forall] at hown
      obtain ⟨o, ho, hforeign⟩ := hown
      refine not_isolated_of_returns (k := .getOrderFound id (some o)) (.order 200 (some o))
        (List.mem_append_right _ ?_) List.mem_cons_self hforeign List.mem_cons_self
      simp [apiProgram, Program.onBehalf, orderApi, Segment.map, Option.mem_def.mp ho]
    | cancelOrder id body =>
      simp only [OwnOrders, not_forall] at hown
      obtain ⟨o, ho, ⟨hv, hc⟩, hforeign⟩ := hown
      cases hb : S.cancelOrder body with
      | error errors =>
        rw [hb] at hv
        cases hv
      | ok dto =>
        refine not_isolated_of_cancels id dto.reason (List.mem_append_right _ ?_) ?_ hc hforeign
        · simp [apiProgram, Program.onBehalf, orderApi, orderProgram, Segment.map, hb,
            Option.mem_def.mp ho]
        · rw [Config.after, ← Option.mem_def.mp ho]
          simp [apiProgram, Program.onBehalf, orderApi, orderProgram, Segment.map, hb]
    | _ => exact absurd trivial hown

end Foreign

/-- **The tenants are isolated in runs on own orders.** In every run of the API in which no request
is on an order of another tenant, no response has an order of another tenant and no step changes
one. The condition cannot be weakened: a request on an order of another tenant leads to a
response with that order. -/
theorem orders_isolated (u : UuidSource) (S : OrderSchemas B) :
    (∀ c, Reach (apiProgram u S) (OwnStep S) (apiStart u B) c → TenantsIsolated S c) ∧
      ∀ c a c', Reach (apiProgram u S) (OwnStep S) (apiStart u B) c → Carried c a →
        ¬ OwnOrders S c a → (apiProgram u S).step c a = some c' →
        ∃ d, Reach (apiProgram u S) Carried c' d ∧ ¬ TenantsIsolated S d :=
  ⟨fun _ h => isolated_of_holds (reach_tenantOutline h),
    fun _ _ _ _ _ hown hs => exists_not_isolated hown hs⟩

/-! ## Two tenants -/

section TwoTenants

/-- A body is an order or a cancellation; the schemas accept it where it belongs. -/
def plainSchemas : OrderSchemas (CreateOrderDTO ⊕ CancelOrderDTO) where
  bodyTenantId
    | .inl dto => dto.tenantId
    | .inr _ => ""
  createOrder
    | .inl dto, tenantId => .ok { dto with tenantId := tenantId }
    | .inr _, _ => .error [("items", ["Required"])]
  cancelOrder
    | .inl _ => .error [("reason", ["Required"])]
    | .inr dto => .ok dto
  createOrder_tenantId body tenantId dto h := by
    cases body <;> cases h
    rfl

/-- A tenant. -/
def acme : String := "11111111-1111-4111-8111-111111111111"

/-- Another tenant. -/
def globex : String := "22222222-2222-4222-8222-222222222222"

/-- An order as a tenant sends it. -/
def palletOrder : CreateOrderDTO :=
  { twoPallets with
    tenantId := globex
    customerId := "33333333-3333-4333-8333-333333333333"
    warehouseId := "44444444-4444-4444-8444-444444444444" }

/-- **A tenant reads and cancels the order of another one**: `globex` orders, and `acme` sends the
id of that order to `getOrder` and to `cancelOrder`. -/
theorem foreign_order_returned :
    ∃ c, Reach (apiProgram .unary plainSchemas) Carried (apiStart .unary _) c ∧
      IsCancelled c.heap "idx" ∧ ¬ TenantsIsolated plainSchemas c := by
  have hrun : ((apiProgram .unary plainSchemas).exec Carried (apiStart .unary _)
      [.call (globex, .createOrder (.inl palletOrder)) "ORD-1", .resume 0 "",
        .call (acme, .getOrder "idx") "", .resume 1 "",
        .call (acme, .cancelOrder "idx" (.inr ⟨"mistake"⟩)) "", .resume 1 "", .resume 1 ""]).any
      fun c => decide (IsCancelled c.heap "idx" ∧ ∃ r ∈ c.settled, ∃ o ∈ r.2.returned,
        r.1 = acme ∧ o.tenantId = globex) := by decide
  obtain ⟨c, hc, hcancelled, ⟨_, response⟩, hr, o, ho, rfl, hforeign⟩ := Reach.exists_of_exec hrun
  refine ⟨c, hc, hcancelled, fun hiso => ?_⟩
  have hown := hiso.returned acme response hr o ho
  exact absurd (hforeign.symm.trans hown) (by decide)

/-- Both tenants order; each reads and cancels its own order. -/
theorem orders_isolated_twoTenants :
    ∃ c, Reach (apiProgram .unary plainSchemas) (OwnStep plainSchemas) (apiStart .unary _) c ∧
      c.settled.length = 6 ∧ TenantsIsolated plainSchemas c := by
  have hrun : ((apiProgram .unary plainSchemas).exec (OwnStep plainSchemas) (apiStart .unary _)
      [.call (globex, .createOrder (.inl palletOrder)) "ORD-1", .resume 0 "",
        .call (acme, .createOrder (.inl palletOrder)) "ORD-2", .resume 1 "",
        .call (globex, .getOrder "idx") "", .resume 2 "",
        .call (acme, .cancelOrder "idxxxx" (.inr ⟨"mistake"⟩)) "", .resume 2 "", .resume 2 "",
        .call (acme, .listOrders "") "", .resume 2 "",
        .call (globex, .getOrder "idxxx") "", .resume 2 ""]).any
      fun c => decide (c.settled.length = 6) := by decide
  obtain ⟨c, hc, hl⟩ := Reach.exists_of_exec hrun
  exact ⟨c, hc, hl, (orders_isolated .unary plainSchemas).1 c hc⟩

end TwoTenants

end Logix.Order
