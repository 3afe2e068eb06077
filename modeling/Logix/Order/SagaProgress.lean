import Logix.Order.Cancellation

/-!
# Is an order ever ahead of its saga?

The saga of `createOrder` writes itself and its order in turn, and awaits each write. Its steps are
one array that all versions of the saga share.

* `CreatesOnly`: a run of `createOrder` requests; `NeverAhead`: what the status of an order says
  about its saga;
* `SagaStage`: how far a saga has come; `Tracks`: an order in a status, its saga at a stage;
* `OrderCall.Knows`: what a suspended call knows of its order and its saga;
* `Advances`: what a segment does for one order, and leaves alone of the others;
* **`orders_neverAhead`**: no order is ahead of its saga, in any interleaving.
-/

namespace Logix.Order

open Async

variable {u : UuidSource}

/-- A run starts `createOrder` requests, and continues anything. -/
def CreatesOnly (_ : OrderConfig u) : Act OrderCall String → Prop
  | .call (.createOrder _) _ => True
  | .call _ _ => False
  | .resume _ _ => True

/-- The SUCCESS steps are the first ones. -/
def SuccessFirst (steps : List SagaStepRecord) : Prop :=
  ∃ done todo, steps = done ++ todo ∧ (∀ step ∈ done, step.status = .SUCCESS) ∧
    ∀ step ∈ todo, step.status ≠ .SUCCESS

/-- `s` is the saga of the order `o` with that id. -/
def IsSagaOf (h : OrderStores u) (id : String) (o : OrderEntity) (s : SagaInstanceEntity) : Prop :=
  ∃ sagaId, o.sagaInstanceId = some sagaId ∧ h.sagas.get sagaId = some s ∧ s.orderId = id

/-- The names of the steps of a saga. -/
def stepNames : List String :=
  ["VALIDATE_ORDER", "RESERVE_INVENTORY", "AUTHORIZE_PAYMENT", "SCHEDULE_DISPATCH"]

/-- **No order is ahead of its saga**, and every order is scheduled when nothing is left to do. -/
structure NeverAhead (c : OrderConfig u) : Prop where
  successFirst : ∀ sagaId s, c.heap.sagas.get sagaId = some s → SuccessFirst s.steps
  paymentProcessing : ∀ id o, c.heap.orders.get id = some o → o.status = .PAYMENT_PROCESSING →
    ∃ s, IsSagaOf c.heap id o s ∧ ⟨"RESERVE_INVENTORY", .SUCCESS⟩ ∈ s.steps
  dispatchScheduled : ∀ id o, c.heap.orders.get id = some o → o.status = .DISPATCH_SCHEDULED →
    ∃ s, IsSagaOf c.heap id o s ∧ s.status = .COMPLETED ∧
      s.steps.map SagaStepRecord.stepName = stepNames ∧ ∀ step ∈ s.steps, step.status = .SUCCESS
  finished : c.inFlight = [] → ∀ id o, c.heap.orders.get id = some o →
    o.status = .DISPATCH_SCHEDULED

instance : ∀ (c : OrderConfig u) (a : Act OrderCall String), Decidable (CreatesOnly c a)
  | _, .call (.createOrder _) _ => .isTrue trivial
  | _, .call (.createOrderStored _) _ | _, .call (.sagaCreated ..) _ | _, .call (.sagaStarted ..) _
  | _, .call (.inventorySagaFound ..) _ | _, .call (.inventoryRecorded ..) _
  | _, .call (.inventoryDone ..) _ | _, .call (.paymentSagaFound ..) _
  | _, .call (.paymentRecorded ..) _ | _, .call (.paymentDone ..) _
  | _, .call (.cancelOrder ..) _ | _, .call (.cancelOrderFound ..) _
  | _, .call (.cancelOrderUpdated ..) _ => .isFalse id
  | _, .resume _ _ => .isTrue trivial

/-! ## Stages of a saga -/

/-- **How far a saga has come**: its writes leave no other states. -/
inductive SagaStage where
  | created | reserved | completed

/-- The status of a saga at a stage. -/
def SagaStage.status : SagaStage → SagaStatus
  | .created => .STARTED
  | .reserved => .IN_PROGRESS
  | .completed => .COMPLETED

/-- The number of steps that are done. -/
def SagaStage.done : SagaStage → ℕ
  | .created => 1
  | .reserved => 2
  | .completed => 4

/-- The steps of a saga whose first `n` are done. -/
def sagaSteps (n : ℕ) : List SagaStepRecord :=
  stepNames.mapIdx fun i name => ⟨name, if i < n then .SUCCESS else .PENDING⟩

/-- The saga is at a stage. -/
structure SagaInstanceEntity.At (stage : SagaStage) (s : SagaInstanceEntity) : Prop where
  status : s.status = stage.status
  steps : s.steps = sagaSteps stage.done

namespace SagaInstanceEntity

variable {s : SagaInstanceEntity} {stage : SagaStage}

theorem newSaga_at (orderId tenantId id : String) : (newSaga orderId tenantId id).At .created :=
  ⟨rfl, rfl⟩

theorem At.reserve (h : s.At .created) (currentStep : String) :
    ((s.markSuccess "RESERVE_INVENTORY").progress .IN_PROGRESS currentStep).At .reserved := by
  refine ⟨rfl, ?_⟩
  change succeed "RESERVE_INVENTORY" s.steps = _
  rw [h.steps]
  decide

theorem At.complete (h : s.At .reserved) (currentStep : String) :
    (((s.markSuccess "AUTHORIZE_PAYMENT").markSuccess "SCHEDULE_DISPATCH").progress
      .COMPLETED currentStep).At .completed := by
  refine ⟨rfl, ?_⟩
  change succeed "SCHEDULE_DISPATCH" (succeed "AUTHORIZE_PAYMENT" s.steps) = _
  rw [h.steps]
  decide

theorem At.successFirst (h : s.At stage) : SuccessFirst s.steps := by
  refine ⟨s.steps.take stage.done, s.steps.drop stage.done, (List.take_append_drop _ _).symm, ?_⟩
  rw [h.steps]
  cases stage <;> decide

theorem At.reserveInventory (h : s.At stage) (hstage : stage ≠ .created) :
    ⟨"RESERVE_INVENTORY", .SUCCESS⟩ ∈ s.steps := by
  rw [h.steps]
  cases stage with
  | created => exact absurd rfl hstage
  | reserved => decide
  | completed => decide

theorem At.allDone (h : s.At .completed) :
    s.steps.map SagaStepRecord.stepName = stepNames ∧ ∀ step ∈ s.steps, step.status = .SUCCESS := by
  rw [h.steps]
  decide

end SagaInstanceEntity

/-! ## Orders and their sagas -/

section Tracks

variable {h h' : OrderStores u} {id id' orderId sagaId : String} {status : OrderStatus}
  {stage : SagaStage}

/-- Saga `sagaId` belongs to order `orderId` and is at a stage. -/
def HasSaga (h : OrderStores u) (orderId sagaId : String) (stage : SagaStage) : Prop :=
  ∃ s, h.sagas.get sagaId = some s ∧ s.orderId = orderId ∧ s.At stage

/-- Order `orderId` is in a status. -/
def HasStatus (h : OrderStores u) (orderId : String) (status : OrderStatus) : Prop :=
  ∃ o, h.orders.get orderId = some o ∧ o.status = status

/-- **Order and saga together**: the order refers to the saga. -/
structure Tracks (h : OrderStores u) (orderId sagaId : String) (status : OrderStatus)
    (stage : SagaStage) : Prop where
  order : ∃ o, h.orders.get orderId = some o ∧ o.status = status ∧ o.sagaInstanceId = some sagaId
  saga : HasSaga h orderId sagaId stage

/-- The statuses that are not ahead of a stage. -/
inductive Behind : OrderStatus → SagaStage → Prop
  | reserving (stage : SagaStage) : Behind .INVENTORY_RESERVING stage
  | processing {stage : SagaStage} (h : stage ≠ .created) : Behind .PAYMENT_PROCESSING stage
  | scheduled : Behind .DISPATCH_SCHEDULED .completed

/-- The order in that status has no saga yet, or is behind it. -/
def Followed (h : OrderStores u) (id : String) (status : OrderStatus) : Prop :=
  status = .PENDING_VALIDATION ∨
    ∃ sagaId stage, Tracks h id sagaId status stage ∧ Behind status stage

/-- **The writes for order `id`** leave the other orders, and their sagas, alone. -/
structure SparesOthersOf (id : String) (h h' : OrderStores u) : Prop where
  orders : ∀ id', id' ≠ id → h'.orders.get id' = h.orders.get id'
  sagas : ∀ sagaId s, h.sagas.get sagaId = some s → s.orderId ≠ id → h'.sagas.get sagaId = some s

theorem HasSaga.mono (hs : SparesOthersOf id h h') (hne : orderId ≠ id)
    (ht : HasSaga h orderId sagaId stage) : HasSaga h' orderId sagaId stage := by
  obtain ⟨s, hget, rfl, hstage⟩ := ht
  exact ⟨s, hs.sagas sagaId s hget hne, rfl, hstage⟩

theorem HasStatus.mono (hs : SparesOthersOf id h h') (hne : orderId ≠ id)
    (ho : HasStatus h orderId status) : HasStatus h' orderId status := by
  unfold HasStatus
  rw [hs.orders orderId hne]
  exact ho

theorem Tracks.mono (hs : SparesOthersOf id h h') (hne : orderId ≠ id)
    (ht : Tracks h orderId sagaId status stage) : Tracks h' orderId sagaId status stage := by
  refine ⟨?_, ht.saga.mono hs hne⟩
  rw [hs.orders orderId hne]
  exact ht.order

theorem Followed.mono (hs : SparesOthersOf id h h') (hne : orderId ≠ id)
    (hf : Followed h orderId status) : Followed h' orderId status :=
  hf.imp_right fun ⟨sagaId, stage, ht, hb⟩ => ⟨sagaId, stage, ht.mono hs hne, hb⟩

theorem Tracks.followed (ht : Tracks h orderId sagaId status stage) (hb : Behind status stage) :
    ∃ o, h.orders.get orderId = some o ∧ Followed h orderId o.status := by
  obtain ⟨o, ho, rfl, -⟩ := ht.order
  exact ⟨o, ho, Or.inr ⟨sagaId, stage, ht, hb⟩⟩

/-! ## Writes -/

theorem sparesOthersOf_updateOrder (h : OrderStores u) (id : String)
    (f : OrderEntity → OrderEntity) : SparesOthersOf id h (h.updateOrder id f) where
  orders _ hne := JsMap.get_modify_ne hne f
  sagas _ _ hs _ := hs

theorem sparesOthersOf_updateSaga {f : SagaInstanceEntity → SagaInstanceEntity}
    (ht : HasSaga h orderId sagaId stage) :
    SparesOthersOf orderId h (h.updateSaga sagaId f) where
  orders _ _ := rfl
  sagas id s hs hne := by
    refine (JsMap.get_modify_ne ?_ f).trans hs
    rintro rfl
    obtain ⟨s', hs', rfl, -⟩ := ht
    exact hne (congrArg _ (Option.some.inj (hs.symm.trans hs')))

theorem Tracks.start (ho : HasStatus h orderId status) (ht : HasSaga h orderId sagaId stage) :
    Tracks (h.updateOrder orderId (OrderEntity.startSaga sagaId)) orderId sagaId
      .INVENTORY_RESERVING stage := by
  obtain ⟨o, ho, -⟩ := ho
  exact ⟨⟨_, JsMap.get_modify_self ho _, rfl, rfl⟩, ht⟩

theorem Tracks.withStatus (ht : Tracks h orderId sagaId status stage) (status' : OrderStatus) :
    Tracks (h.updateOrder orderId (OrderEntity.withStatus status')) orderId sagaId status'
      stage := by
  obtain ⟨⟨o, ho, -, hsaga⟩, hs⟩ := ht
  exact ⟨⟨_, JsMap.get_modify_self ho _, rfl, hsaga⟩, hs⟩

theorem Tracks.withSaga (ht : Tracks h orderId sagaId status stage)
    {f : SagaInstanceEntity → SagaInstanceEntity} {stage' : SagaStage}
    (hf : ∀ s, s.At stage → (f s).At stage') (hid : ∀ s, (f s).orderId = s.orderId) :
    Tracks (h.updateSaga sagaId f) orderId sagaId status stage' := by
  obtain ⟨ho, s, hs, rfl, hstage⟩ := ht
  exact ⟨ho, f s, JsMap.get_modify_self hs _, hid s, hf s hstage⟩

end Tracks

/-! ## What a suspended call knows -/

/-- The order that a call of a `createOrder` request works on. -/
def OrderCall.worksOn : OrderCall → Option String
  | .createOrderStored order => some order.id
  | .sagaCreated orderId _ | .sagaStarted orderId _ | .inventorySagaFound orderId _ _
  | .inventoryRecorded orderId _ | .inventoryDone orderId _ | .paymentSagaFound orderId _ _
  | .paymentRecorded orderId _ | .paymentDone orderId _ => some orderId
  | .createOrder _ | .cancelOrder _ _ | .cancelOrderFound _ _ _ | .cancelOrderUpdated _ _ => none

/-- **What a suspended call knows** of its order and its saga. -/
def OrderCall.Knows (h : OrderStores u) : OrderCall → Prop
  | .createOrderStored order => HasStatus h order.id .PENDING_VALIDATION
  | .sagaCreated orderId sagaId =>
    HasStatus h orderId .PENDING_VALIDATION ∧ HasSaga h orderId sagaId .created
  | .sagaStarted orderId sagaId => Tracks h orderId sagaId .INVENTORY_RESERVING .created
  | .inventorySagaFound orderId sagaId found =>
    found = true ∧ Tracks h orderId sagaId .INVENTORY_RESERVING .created
  | .inventoryRecorded orderId sagaId => Tracks h orderId sagaId .INVENTORY_RESERVING .reserved
  | .inventoryDone orderId sagaId => Tracks h orderId sagaId .PAYMENT_PROCESSING .reserved
  | .paymentSagaFound orderId sagaId found =>
    found = true ∧ Tracks h orderId sagaId .PAYMENT_PROCESSING .reserved
  | .paymentRecorded orderId sagaId => Tracks h orderId sagaId .PAYMENT_PROCESSING .completed
  | .paymentDone orderId sagaId => Tracks h orderId sagaId .DISPATCH_SCHEDULED .completed
  | .createOrder _ | .cancelOrder _ _ | .cancelOrderFound _ _ _ | .cancelOrderUpdated _ _ => False

namespace OrderCall

variable {h h' : OrderStores u} {id : String} {k : OrderCall}

theorem Knows.exists_worksOn (hk : k.Knows h) : ∃ id, k.worksOn = some id := by
  cases k <;> first | exact hk.elim | exact ⟨_, rfl⟩

theorem Knows.mono (hs : SparesOthersOf id h h') (hne : k.worksOn ≠ some id) (hk : k.Knows h) :
    k.Knows h' := by
  have hid : ∀ {orderId}, k.worksOn = some orderId → orderId ≠ id := by
    rintro orderId hw rfl
    exact hne hw
  cases k with
  | createOrderStored order => exact HasStatus.mono hs (hid rfl) hk
  | sagaCreated orderId sagaId => exact ⟨hk.1.mono hs (hid rfl), hk.2.mono hs (hid rfl)⟩
  | inventorySagaFound orderId sagaId found => exact ⟨hk.1, hk.2.mono hs (hid rfl)⟩
  | paymentSagaFound orderId sagaId found => exact ⟨hk.1, hk.2.mono hs (hid rfl)⟩
  | sagaStarted orderId sagaId => exact Tracks.mono hs (hid rfl) hk
  | inventoryRecorded orderId sagaId => exact Tracks.mono hs (hid rfl) hk
  | inventoryDone orderId sagaId => exact Tracks.mono hs (hid rfl) hk
  | paymentRecorded orderId sagaId => exact Tracks.mono hs (hid rfl) hk
  | paymentDone orderId sagaId => exact Tracks.mono hs (hid rfl) hk
  | createOrder dto => exact hk.elim
  | cancelOrder id reason => exact hk.elim
  | cancelOrderFound id reason order => exact hk.elim
  | cancelOrderUpdated id updated => exact hk.elim

theorem Knows.followed (hk : k.Knows h) (hw : k.worksOn = some id) :
    ∃ o, h.orders.get id = some o ∧ Followed h id o.status := by
  have hpending : HasStatus h id .PENDING_VALIDATION →
      ∃ o, h.orders.get id = some o ∧ Followed h id o.status :=
    fun ⟨o, ho, hst⟩ => ⟨o, ho, Or.inl hst⟩
  cases k with
  | createOrderStored order => cases hw; exact hpending hk
  | sagaCreated orderId sagaId => cases hw; exact hpending hk.1
  | inventorySagaFound orderId sagaId found => cases hw; exact hk.2.followed (.reserving _)
  | paymentSagaFound orderId sagaId found => cases hw; exact hk.2.followed (.processing nofun)
  | sagaStarted orderId sagaId => cases hw; exact Tracks.followed hk (.reserving _)
  | inventoryRecorded orderId sagaId => cases hw; exact Tracks.followed hk (.reserving _)
  | inventoryDone orderId sagaId => cases hw; exact Tracks.followed hk (.processing nofun)
  | paymentRecorded orderId sagaId => cases hw; exact Tracks.followed hk (.processing nofun)
  | paymentDone orderId sagaId => cases hw; exact Tracks.followed hk .scheduled
  | createOrder dto => cases hw
  | cancelOrder id reason => cases hw
  | cancelOrderFound id reason order => cases hw
  | cancelOrderUpdated id updated => cases hw

end OrderCall

/-! ## Segments -/

/-- **What a segment does for order `id`.** -/
structure Advances (id : String) (h h' : OrderStores u) (waiting : List OrderCall) : Prop where
  spares : SparesOthersOf id h h'
  sagas : ∀ sagaId s, h'.sagas.get sagaId = some s →
    h.sagas.get sagaId = some s ∨ ∃ stage, s.At stage
  order : ∃ o, h'.orders.get id = some o ∧ Followed h' id o.status ∧
    (waiting = [] → o.status = .DISPATCH_SCHEDULED)
  atMostOne : waiting.length ≤ 1
  knows : ∀ k ∈ waiting, k.worksOn = some id ∧ k.Knows h'

section Segments

variable {h h' : OrderStores u} {id orderId sagaId : String} {k : OrderCall}
  {status : OrderStatus} {stage : SagaStage}

theorem Advances.waits (hs : SparesOthersOf id h h')
    (hsagas : ∀ sagaId s, h'.sagas.get sagaId = some s →
      h.sagas.get sagaId = some s ∨ ∃ stage, s.At stage)
    (hw : k.worksOn = some id) (hk : k.Knows h') : Advances id h h' [k] where
  spares := hs
  sagas := hsagas
  order := by
    obtain ⟨o, ho, hf⟩ := hk.followed hw
    exact ⟨o, ho, hf, nofun⟩
  atMostOne := le_rfl
  knows k' hk' := by
    obtain rfl := List.mem_singleton.mp hk'
    exact ⟨hw, hk⟩

theorem SparesOthersOf.refl (id : String) (h : OrderStores u) : SparesOthersOf id h h where
  orders _ _ := rfl
  sagas _ _ hs _ := hs

theorem Advances.reads (hw : k.worksOn = some id) (hk : k.Knows h) : Advances id h h [k] :=
  .waits (.refl id h) (fun _ _ hs => Or.inl hs) hw hk

theorem Advances.writesOrder {f : OrderEntity → OrderEntity} (hw : k.worksOn = some id)
    (hk : k.Knows (h.updateOrder id f)) : Advances id h (h.updateOrder id f) [k] :=
  .waits (sparesOthersOf_updateOrder h id f) (fun _ _ hs => Or.inl hs) hw hk

theorem Advances.writesSaga (ht : Tracks h orderId sagaId status stage)
    {f : SagaInstanceEntity → SagaInstanceEntity} {stage' : SagaStage}
    (hf : ∀ s, s.At stage → (f s).At stage') (hw : k.worksOn = some orderId)
    (hk : k.Knows (h.updateSaga sagaId f)) : Advances orderId h (h.updateSaga sagaId f) [k] := by
  refine .waits (sparesOthersOf_updateSaga ht.saga) (fun id s hs => ?_) hw hk
  obtain ⟨s', hs', rfl⟩ := JsMap.exists_of_get_modify hs
  split_ifs with hid
  · subst hid
    obtain ⟨s, hget, -, hstage⟩ := ht.saga
    obtain rfl := Option.some.inj (hget.symm.trans hs')
    exact Or.inr ⟨stage', hf s hstage⟩
  · exact Or.inl hs'

theorem Advances.ends (ht : Tracks h orderId sagaId .DISPATCH_SCHEDULED .completed) :
    Advances orderId h h [] where
  spares := .refl orderId h
  sagas _ _ hs := Or.inl hs
  order := by
    obtain ⟨o, ho, hst, -⟩ := ht.order
    refine ⟨o, ho, ?_, fun _ => hst⟩
    rw [hst]
    exact Or.inr ⟨sagaId, .completed, ht, .scheduled⟩
  atMostOne := Nat.zero_le 1
  knows _ hk := absurd hk List.not_mem_nil

theorem advances_createOrder (h : OrderStores u) (dto : CreateOrderDTO) (orderNumber : String) :
    Advances (u.draw (h.draws + dto.items.length)) h
      ((orderProgram u).run (.createOrder dto) orderNumber h).heap
      ((orderProgram u).run (.createOrder dto) orderNumber h).waiting := by
  refine .waits ⟨fun id hne => JsMap.get_set_ne hne _, fun _ _ hs _ => hs⟩
    (fun _ _ hs => Or.inl hs) rfl ?_
  exact ⟨_, JsMap.get_set_self _ _ _, rfl⟩

theorem advances_createOrderStored {order : OrderEntity}
    (ho : HasStatus h order.id .PENDING_VALIDATION) (orderNumber : String) :
    Advances order.id h ((orderProgram u).run (.createOrderStored order) orderNumber h).heap
      ((orderProgram u).run (.createOrderStored order) orderNumber h).waiting := by
  have hfresh := h.sagas_issued.fresh le_rfl
  refine .waits ⟨fun _ _ => rfl, fun sagaId s hs _ => JsMap.get_set_of_get hfresh hs _⟩
    (fun sagaId s hs => ?_) rfl ⟨ho, _, JsMap.get_set_self _ _ _, rfl,
      SagaInstanceEntity.newSaga_at _ _ _⟩
  replace hs := (JsMap.get_set _ _ _ _).symm.trans hs
  split_ifs at hs
  · cases hs
    exact Or.inr ⟨.created, SagaInstanceEntity.newSaga_at _ _ _⟩
  · exact Or.inl hs

theorem OrderCall.Knows.advances (hk : k.Knows h) (hw : k.worksOn = some id)
    (orderNumber : String) : Advances id h ((orderProgram u).run k orderNumber h).heap
      ((orderProgram u).run k orderNumber h).waiting := by
  have hfound : ∀ {orderId sagaId status stage}, Tracks h orderId sagaId status stage →
      (h.sagas.get sagaId).isSome = true := by
    intro orderId sagaId status stage ht
    obtain ⟨s, hs, -⟩ := ht.saga
    exact Option.isSome_iff_exists.mpr ⟨s, hs⟩
  cases k with
  | createOrderStored order => cases hw; exact advances_createOrderStored hk orderNumber
  | sagaCreated orderId sagaId =>
    cases hw
    exact .writesOrder rfl (Tracks.start hk.1 hk.2)
  | sagaStarted orderId sagaId =>
    cases hw
    exact .reads rfl ⟨hfound hk, hk⟩
  | inventorySagaFound orderId sagaId found =>
    cases hw
    obtain ⟨rfl, ht⟩ := hk
    exact .writesSaga ht (fun _ hs => hs.reserve _) rfl
      (ht.withSaga (fun _ hs => hs.reserve _) fun _ => rfl)
  | inventoryRecorded orderId sagaId =>
    cases hw
    exact .writesOrder rfl (Tracks.withStatus hk _)
  | inventoryDone orderId sagaId =>
    cases hw
    exact .reads rfl ⟨hfound hk, hk⟩
  | paymentSagaFound orderId sagaId found =>
    cases hw
    obtain ⟨rfl, ht⟩ := hk
    exact .writesSaga ht (fun _ hs => hs.complete _) rfl
      (ht.withSaga (fun _ hs => hs.complete _) fun _ => rfl)
  | paymentRecorded orderId sagaId =>
    cases hw
    exact .writesOrder rfl (Tracks.withStatus hk _)
  | paymentDone orderId sagaId =>
    cases hw
    exact .ends hk
  | createOrder dto => cases hw
  | cancelOrder id reason => cases hw
  | cancelOrderFound id reason order => cases hw
  | cancelOrderUpdated id updated => cases hw

end Segments

/-! ## Runs -/

/-- **The invariant**: every order has its own call until it is scheduled. -/
structure SagaConsistent (c : OrderConfig u) : Prop where
  sagas : ∀ sagaId s, c.heap.sagas.get sagaId = some s → ∃ stage, s.At stage
  orders : ∀ id o, c.heap.orders.get id = some o → Followed c.heap id o.status
  knows : ∀ k ∈ c.inFlight, k.Knows c.heap
  apart : (c.inFlight.map OrderCall.worksOn).Nodup
  working : ∀ id o, c.heap.orders.get id = some o →
    o.status = .DISPATCH_SCHEDULED ∨ some id ∈ c.inFlight.map OrderCall.worksOn

theorem sagaConsistent_start (u : UuidSource) : SagaConsistent (startConfig u) where
  sagas _ _ hs := by cases hs
  orders _ _ ho := by cases ho
  knows _ hk := absurd hk List.not_mem_nil
  apart := List.nodup_nil
  working _ _ ho := by cases ho

theorem SagaConsistent.advance {c : OrderConfig u} (h : SagaConsistent c) {id : String}
    {rest : List OrderCall} {s : Segment (OrderStores u) OrderCall OrderOutcome}
    (hadv : Advances id c.heap s.heap s.waiting)
    (hrest : ∀ k ∈ rest, k.Knows c.heap ∧ k.worksOn ≠ some id)
    (hnodup : (rest.map OrderCall.worksOn).Nodup)
    (hothers : ∀ id', id' ≠ id → some id' ∈ c.inFlight.map OrderCall.worksOn →
      some id' ∈ rest.map OrderCall.worksOn) : SagaConsistent (c.after s rest) where
  sagas sagaId t ht := (hadv.sagas sagaId t ht).elim (h.sagas sagaId t) fun hstage => hstage
  orders id' o ho := by
    by_cases hid : id' = id
    · subst hid
      obtain ⟨o', ho', hf, -⟩ := hadv.order
      obtain rfl := Option.some.inj (ho'.symm.trans ho)
      exact hf
    · have hsame := hadv.spares.orders id' hid
      exact (h.orders id' o (hsame.symm.trans ho)).mono hadv.spares hid
  knows k hk := by
    rcases List.mem_append.mp hk with hk | hk
    · exact (hrest k hk).1.mono hadv.spares (hrest k hk).2
    · exact (hadv.knows k hk).2
  apart := by
    have hwaiting : (s.waiting.map OrderCall.worksOn).Nodup := by
      have hlen := hadv.atMostOne
      match hw : s.waiting with
      | [] => exact List.nodup_nil
      | [k] => exact List.nodup_singleton _
      | k :: k' :: ks => simp [hw] at hlen
    rw [Config.after, List.map_append]
    refine hnodup.append hwaiting fun w hw hw' => ?_
    obtain ⟨k, hk, rfl⟩ := List.mem_map.mp hw
    obtain ⟨k', hk', hsame⟩ := List.mem_map.mp hw'
    exact (hrest k hk).2 (hsame.symm.trans (hadv.knows k' hk').1)
  working id' o ho := by
    rw [Config.after, List.map_append]
    by_cases hid : id' = id
    · subst hid
      obtain ⟨o', ho', -, hlast⟩ := hadv.order
      obtain rfl := Option.some.inj (ho'.symm.trans ho)
      cases hw : s.waiting with
      | nil => exact Or.inl (hlast hw)
      | cons k ks =>
        have hk := hadv.knows k (hw ▸ List.mem_cons_self)
        exact Or.inr (List.mem_append_right _ (hk.1 ▸ List.mem_map_of_mem List.mem_cons_self))
    · have hsame := hadv.spares.orders id' hid
      exact (h.working id' o (hsame.symm.trans ho)).imp_right fun hmem =>
        List.mem_append_left _ (hothers id' hid hmem)

theorem SagaConsistent.after {c : OrderConfig u} {a : Act OrderCall String} {k : OrderCall}
    {i : String} {rest : List OrderCall} (h : SagaConsistent c) (hok : CreatesOnly c a)
    (hr : Runs c a k i rest) :
    SagaConsistent (c.after ((orderProgram u).run k i c.heap) rest) := by
  rcases hr.call_or_perm with ⟨rfl, rfl⟩ | hperm
  · cases k with
    | createOrder dto =>
      have hfresh : u.draw (c.heap.draws + dto.items.length) ∉ c.heap.orders.keys :=
        c.heap.orders_issued.fresh (Nat.le_add_right _ _)
      refine h.advance (advances_createOrder c.heap dto i) (fun k hk => ⟨h.knows k hk, ?_⟩)
        h.apart fun _ _ hmem => hmem
      -- a call that works on the new order would know it
      intro hw
      obtain ⟨o, ho, -⟩ := (h.knows k hk).followed hw
      exact hfresh (JsMap.mem_keys_of_get ho)
    | _ => exact hok.elim
  · have hknows : ∀ k' ∈ k :: rest, k'.Knows c.heap :=
      fun k' hk' => h.knows k' (hperm.mem_iff.mp hk')
    obtain ⟨id, hw⟩ := (hknows k List.mem_cons_self).exists_worksOn
    have happart := ((hperm.map OrderCall.worksOn).nodup_iff).mpr h.apart
    rw [List.map_cons, List.nodup_cons] at happart
    refine h.advance ((hknows k List.mem_cons_self).advances hw i) (fun k' hk' => ⟨?_, ?_⟩)
      happart.2 fun id' hne hmem => ?_
    · exact hknows k' (List.mem_cons_of_mem _ hk')
    · exact fun hw' => happart.1 (hw.trans hw'.symm ▸ List.mem_map_of_mem hk')
    · rw [← (hperm.map OrderCall.worksOn).mem_iff, List.map_cons, hw] at hmem
      exact (List.mem_cons.mp hmem).resolve_left fun he => hne (Option.some.inj he)

theorem reach_sagaConsistent {c : OrderConfig u}
    (h : Reach (orderProgram u) CreatesOnly (startConfig u) c) : SagaConsistent c :=
  h.invariant (sagaConsistent_start u) fun _ _ _ _ _ hI hok hr => hI.after hok hr

theorem SagaConsistent.exists_saga {c : OrderConfig u} (h : SagaConsistent c) {id : String}
    {o : OrderEntity} (ho : c.heap.orders.get id = some o) (hst : o.status ≠ .PENDING_VALIDATION) :
    ∃ s stage, IsSagaOf c.heap id o s ∧ s.At stage ∧ Behind o.status stage := by
  obtain ⟨sagaId, stage, ⟨⟨o', ho', -, hsaga⟩, s, hs, hid, hstage⟩, hb⟩ :=
    (h.orders id o ho).resolve_left hst
  obtain rfl := Option.some.inj (ho'.symm.trans ho)
  exact ⟨s, stage, ⟨sagaId, hsaga, hs, hid⟩, hstage, hb⟩

theorem SagaConsistent.neverAhead {c : OrderConfig u} (h : SagaConsistent c) : NeverAhead c where
  successFirst sagaId s hs := by
    obtain ⟨stage, hstage⟩ := h.sagas sagaId s hs
    exact hstage.successFirst
  paymentProcessing id o ho hst := by
    obtain ⟨s, stage, hsaga, hstage, hb⟩ := h.exists_saga ho (by rw [hst]; nofun)
    rw [hst] at hb
    cases hb with
    | processing hne => exact ⟨s, hsaga, hstage.reserveInventory hne⟩
  dispatchScheduled id o ho hst := by
    obtain ⟨s, stage, hsaga, hstage, hb⟩ := h.exists_saga ho (by rw [hst]; nofun)
    rw [hst] at hb
    cases hb with
    | scheduled => exact ⟨s, hsaga, hstage.status, hstage.allDone⟩
  finished hidle id o ho := by
    refine (h.working id o ho).resolve_right ?_
    rw [hidle]
    exact List.not_mem_nil

/-- **No order is ahead of its saga.** In every state of every interleaved run of `createOrder`
requests the SUCCESS steps of a saga come first, an order in PAYMENT_PROCESSING has its inventory
reserved, one in DISPATCH_SCHEDULED has a COMPLETED saga with all steps done, and when nothing is in
flight every order is DISPATCH_SCHEDULED. -/
theorem orders_neverAhead (u : UuidSource) {c : OrderConfig u}
    (h : Reach (orderProgram u) CreatesOnly (startConfig u) c) : NeverAhead c :=
  (reach_sagaConsistent h).neverAhead

/-- Two orders, the first of which is scheduled first. -/
theorem orders_neverAhead_two :
    ∃ c, Reach (orderProgram .unary) CreatesOnly (startConfig .unary) c ∧
      c.heap.orders.values.map OrderEntity.status = [.DISPATCH_SCHEDULED, .PAYMENT_PROCESSING] ∧
      NeverAhead c := by
  have hrun : ((orderProgram .unary).exec CreatesOnly (startConfig .unary)
      ([.call (.createOrder twoPallets) "ORD-1", .resume 0 "",
        .call (.createOrder twoPallets) "ORD-2"] ++ List.replicate 13 (.resume 0 ""))).any
      fun c => decide (c.heap.orders.values.map OrderEntity.status =
        [.DISPATCH_SCHEDULED, .PAYMENT_PROCESSING]) := by decide
  obtain ⟨c, hc, hstatus⟩ := Reach.exists_of_exec hrun
  exact ⟨c, hc, hstatus, orders_neverAhead .unary hc⟩

end Logix.Order
