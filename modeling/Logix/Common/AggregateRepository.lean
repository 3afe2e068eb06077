import Mathlib.Data.Rat.Init
import Logix.Js.Date
import Logix.Spec.Noninterference
import Logix.Spec.Ownership

/-!
# Is a tenant hidden from the others?

`OrderAggregateRepository` and `WarehouseInventoryRepository` are one text over two record types.

* `RecordType`: what this text uses of its record type; `orderAggregate`, `warehouseInventory`;
* `repository`: the class, one call at a time, each on behalf of the tenant that it carries;
* `Confined`: the calls that neither meet a record of another tenant under the id they insert nor
  give a record away;
* **`orderAggregates_isolated`**: in every run of confined calls no tenant is seen by another, and
  the first call that is not confined betrays one;
* `order_given_away`: an update of one tenant shows in the count of another.

All methods run without an interruption; a date is an object, with its identity.
-/

namespace Logix.Common

open Spec

/-! ## Values -/

/-- A `Date` object. -/
structure DateObject where
  ref : ℕ
  time : JsDate
  deriving DecidableEq, Repr

/-- A value, as `===` compares it: an object is its reference. -/
inductive JsValue where
  | undefined | null
  | string (s : String)
  | number (n : ℚ)
  | object (ref : ℕ)
  deriving DecidableEq, Repr

/-- The position that an argument of `slice` stands for: cut towards zero, from the end if it is
negative. -/
def slicePosition (length : ℕ) (n : ℚ) : ℕ :=
  let i := n.num.tdiv n.den
  if i < 0 then (length + i).toNat else min i.toNat length

/-- `xs.slice(start, end)`. -/
def slice {α : Type} (xs : List α) (start stop : ℚ) : List α :=
  (xs.take (slicePosition xs.length stop)).drop (slicePosition xs.length start)

example : slice [1, 2, 3, 4, 5] (-2) 4 = [4] := by decide

/-! ## Record types -/

/-- **What the repository uses of a record type** `R` with updates `U`. -/
structure RecordType (R U : Type) where
  id : R → String
  tenantId : R → String
  /-- `updates.tenantId`. -/
  newTenantId : U → Option String
  /-- `{ ...record, ...updates, updatedAt }`. -/
  updated : R → U → DateObject → R
  /-- `record[key]`. -/
  field : R → String → JsValue
  tenantId_updated : ∀ r updates updatedAt,
    tenantId (updated r updates updatedAt) = (newTenantId updates).getD (tenantId r)

/-- `IOrderAggregate.status`. -/
inductive OrderAggregateStatus where
  | PENDING | VALIDATED | RESERVED | PAID | DISPATCHED | DELIVERED | CANCELLED
  deriving DecidableEq, Repr

/-- The text of a status. -/
def OrderAggregateStatus.text : OrderAggregateStatus → String
  | .PENDING => "PENDING"
  | .VALIDATED => "VALIDATED"
  | .RESERVED => "RESERVED"
  | .PAID => "PAID"
  | .DISPATCHED => "DISPATCHED"
  | .DELIVERED => "DELIVERED"
  | .CANCELLED => "CANCELLED"

/-- `IOrderAggregate`. -/
structure IOrderAggregate where
  orderId : String
  tenantId : String
  customerId : String
  status : OrderAggregateStatus
  totalAmountUSD : ℚ
  taxAmountUSD : ℚ
  shippingAmountUSD : ℚ
  currency : String
  lineItemCount : ℚ
  sagaCorrelationId : String
  createdAt : DateObject
  updatedAt : DateObject
  deriving DecidableEq, Repr

/-- `Partial<IOrderAggregate>`. -/
structure OrderAggregateUpdates where
  orderId : Option String := none
  tenantId : Option String := none
  customerId : Option String := none
  status : Option OrderAggregateStatus := none
  totalAmountUSD : Option ℚ := none
  taxAmountUSD : Option ℚ := none
  shippingAmountUSD : Option ℚ := none
  currency : Option String := none
  lineItemCount : Option ℚ := none
  sagaCorrelationId : Option String := none
  createdAt : Option DateObject := none
  updatedAt : Option DateObject := none
  deriving DecidableEq, Repr

/-- The records of `OrderAggregateRepository`. -/
def orderAggregate : RecordType IOrderAggregate OrderAggregateUpdates where
  id := IOrderAggregate.orderId
  tenantId := IOrderAggregate.tenantId
  newTenantId := OrderAggregateUpdates.tenantId
  updated record updates updatedAt :=
    { orderId := updates.orderId.getD record.orderId
      tenantId := updates.tenantId.getD record.tenantId
      customerId := updates.customerId.getD record.customerId
      status := updates.status.getD record.status
      totalAmountUSD := updates.totalAmountUSD.getD record.totalAmountUSD
      taxAmountUSD := updates.taxAmountUSD.getD record.taxAmountUSD
      shippingAmountUSD := updates.shippingAmountUSD.getD record.shippingAmountUSD
      currency := updates.currency.getD record.currency
      lineItemCount := updates.lineItemCount.getD record.lineItemCount
      sagaCorrelationId := updates.sagaCorrelationId.getD record.sagaCorrelationId
      createdAt := updates.createdAt.getD record.createdAt
      updatedAt := updatedAt }
  field record
    | "orderId" => .string record.orderId
    | "tenantId" => .string record.tenantId
    | "customerId" => .string record.customerId
    | "status" => .string record.status.text
    | "totalAmountUSD" => .number record.totalAmountUSD
    | "taxAmountUSD" => .number record.taxAmountUSD
    | "shippingAmountUSD" => .number record.shippingAmountUSD
    | "currency" => .string record.currency
    | "lineItemCount" => .number record.lineItemCount
    | "sagaCorrelationId" => .string record.sagaCorrelationId
    | "createdAt" => .object record.createdAt.ref
    | "updatedAt" => .object record.updatedAt.ref
    | _ => .undefined
  tenantId_updated _ _ _ := rfl

/-- `IWarehouseInventoryRecord`, with the `updatedAt` that an update adds. -/
structure IWarehouseInventoryRecord where
  inventoryId : String
  tenantId : String
  sku : String
  warehouseCode : String
  zoneCode : String
  binLocation : String
  quantityOnHand : ℚ
  quantityAllocated : ℚ
  quantityAvailable : ℚ
  reorderThreshold : ℚ
  lastCycleCountAt : DateObject
  createdAt : DateObject
  updatedAt : Option DateObject
  deriving DecidableEq, Repr

/-- `Partial<IWarehouseInventoryRecord>`. -/
structure WarehouseInventoryUpdates where
  inventoryId : Option String := none
  tenantId : Option String := none
  sku : Option String := none
  warehouseCode : Option String := none
  zoneCode : Option String := none
  binLocation : Option String := none
  quantityOnHand : Option ℚ := none
  quantityAllocated : Option ℚ := none
  quantityAvailable : Option ℚ := none
  reorderThreshold : Option ℚ := none
  lastCycleCountAt : Option DateObject := none
  createdAt : Option DateObject := none
  deriving DecidableEq, Repr

/-- The records of `WarehouseInventoryRepository`. -/
def warehouseInventory : RecordType IWarehouseInventoryRecord WarehouseInventoryUpdates where
  id := IWarehouseInventoryRecord.inventoryId
  tenantId := IWarehouseInventoryRecord.tenantId
  newTenantId := WarehouseInventoryUpdates.tenantId
  updated record updates updatedAt :=
    { inventoryId := updates.inventoryId.getD record.inventoryId
      tenantId := updates.tenantId.getD record.tenantId
      sku := updates.sku.getD record.sku
      warehouseCode := updates.warehouseCode.getD record.warehouseCode
      zoneCode := updates.zoneCode.getD record.zoneCode
      binLocation := updates.binLocation.getD record.binLocation
      quantityOnHand := updates.quantityOnHand.getD record.quantityOnHand
      quantityAllocated := updates.quantityAllocated.getD record.quantityAllocated
      quantityAvailable := updates.quantityAvailable.getD record.quantityAvailable
      reorderThreshold := updates.reorderThreshold.getD record.reorderThreshold
      lastCycleCountAt := updates.lastCycleCountAt.getD record.lastCycleCountAt
      createdAt := updates.createdAt.getD record.createdAt
      updatedAt := some updatedAt }
  field record
    | "inventoryId" => .string record.inventoryId
    | "tenantId" => .string record.tenantId
    | "sku" => .string record.sku
    | "warehouseCode" => .string record.warehouseCode
    | "zoneCode" => .string record.zoneCode
    | "binLocation" => .string record.binLocation
    | "quantityOnHand" => .number record.quantityOnHand
    | "quantityAllocated" => .number record.quantityAllocated
    | "quantityAvailable" => .number record.quantityAvailable
    | "reorderThreshold" => .number record.reorderThreshold
    | "lastCycleCountAt" => .object record.lastCycleCountAt.ref
    | "createdAt" => .object record.createdAt.ref
    | "updatedAt" => (record.updatedAt.map fun date => .object date.ref).getD .undefined
    | _ => .undefined
  tenantId_updated _ _ _ := rfl

/-! ## The repository -/

/-- `IQueryOptions`; `query` does not look at the order it is asked for. -/
structure IQueryOptions where
  page : Option ℚ := none
  limit : Option ℚ := none
  sortBy : Option String := none
  sortOrder : Option String := none
  filter : JsMap String JsValue := .empty
  deriving DecidableEq

/-- A call of the repository; `now` is the `new Date()` of an update. -/
inductive RepositoryCall (R U : Type) where
  | insert (record : R)
  | findById (id tenantId : String)
  | update (id tenantId : String) (updates : U) (now : DateObject)
  | delete (id tenantId : String)
  | query (tenantId : String) (options : IQueryOptions)
  | countByTenant (tenantId : String)

/-- What a call returns or throws. -/
inductive RepositoryResult (R : Type) where
  | record (record : R)
  | found (record : Option R)
  | deleted (done : Bool)
  | page (records : List R) (totalCount : ℕ) (page limit : ℚ)
  | count (n : ℕ)
  | error (message : String)
  deriving DecidableEq

section Repository

variable {R U : Type} (T : RecordType R U)

/-- `storage`. -/
abbrev Storage (R : Type) : Type := JsMap String R

/-- The records of a tenant, in insertion order. -/
def recordsOf (s : Storage R) (tenantId : String) : List R :=
  s.values.filter fun r => T.tenantId r = tenantId

/-- The record, in the scope of the tenant. -/
def inScope (s : Storage R) (id tenantId : String) : Option R :=
  (s.get id).filter fun r => T.tenantId r = tenantId

/-- The filters of a query. -/
def applyFilters (filter : JsMap String JsValue) (records : List R) : List R :=
  filter.entries.foldl (fun all e =>
    if e.2 ≠ .undefined ∧ e.2 ≠ .null then all.filter fun r => T.field r e.1 = e.2 else all) records

/-- `query(tenantId, options)`, from the records of the tenant. -/
def query (records : List R) (options : IQueryOptions) : RepositoryResult R :=
  let page := options.page.getD 1
  let limit := options.limit.getD 20
  let all := applyFilters T options.filter records
  let startIndex := (page - 1) * limit
  .page (slice all startIndex (startIndex + limit)) all.length page limit

/-- **The repository.** -/
def repository : Machine (Storage R) (RepositoryCall R U) (RepositoryResult R) where
  call
    | .insert record, s =>
      if s.has (T.id record) then
        (s, .error s!"Duplicate record identified with ID {T.id record}")
      else (s.set (T.id record) record, .record record)
    | .findById id tenantId, s => (s, .found (inScope T s id tenantId))
    | .update id tenantId updates now, s =>
      match inScope T s id tenantId with
      | none => (s, .error s!"Record {id} not found in tenant scope")
      | some record =>
        let updated := T.updated record updates now
        (s.set id updated, .record updated)
    | .delete id tenantId, s =>
      match inScope T s id tenantId with
      | none => (s, .deleted false)
      | some _ => (s.delete id, .deleted true)
    | .query tenantId options, s => (s, query T (recordsOf T s tenantId) options)
    | .countByTenant tenantId, s => (s, .count (recordsOf T s tenantId).length)

/-! ## Isolation -/

variable {T} {s : Storage R} {tenantId tenantId' : String} {id : String}

/-- The tenant that a call carries: that of the record, or the one that is passed. -/
def RepositoryCall.caller (T : RecordType R U) : RepositoryCall R U → String
  | .insert record => T.tenantId record
  | .findById _ tenantId | .update _ tenantId _ _ | .delete _ tenantId | .query tenantId _
  | .countByTenant tenantId => tenantId

/-- The calls of a tenant. -/
def RepositoryCall.isBy (T : RecordType R U) (tenantId : String) (call : RepositoryCall R U) :
    Bool := decide (call.caller T = tenantId)

/-- **No tenant is seen by another**: without its calls the others have the same results. -/
def Isolated (T : RecordType R U) (calls : List (RepositoryCall R U)) : Prop :=
  ∀ tenantId, (repository T).Undisturbed .empty (RepositoryCall.isBy T tenantId) calls

/-- **The call is confined to its tenant**: an insert meets no record of another tenant under its
id, and an update gives no record away. -/
def Confined (T : RecordType R U) (s : Storage R) : RepositoryCall R U → Prop
  | .insert record => ∀ r ∈ s.get (T.id record), T.tenantId r = T.tenantId record
  | .update id tenantId updates _ => ∀ r ∈ inScope T s id tenantId,
      ∀ tenantId' ∈ T.newTenantId updates, tenantId' = tenantId
  | _ => True

instance (s : Storage R) : ∀ call : RepositoryCall R U, Decidable (Confined T s call)
  | .insert _ => inferInstanceAs (Decidable (∀ r ∈ _, _))
  | .update _ _ _ _ => inferInstanceAs (Decidable (∀ r ∈ _, ∀ tenantId' ∈ _, _))
  | .findById _ _ | .delete _ _ | .query _ _ | .countByTenant _ => .isTrue trivial

theorem inScope_eq_some {r : R} :
    inScope T s id tenantId = some r ↔ s.get id = some r ∧ T.tenantId r = tenantId := by
  simp [inScope, Option.filter_eq_some_iff]

theorem inScope_hide (hne : tenantId ≠ tenantId') :
    inScope T (hide T.tenantId tenantId' s) id tenantId = inScope T s id tenantId := by
  ext r
  rw [inScope_eq_some, inScope_eq_some, get_hide, Option.filter_eq_some_iff]
  constructor
  · rintro ⟨⟨hget, -⟩, hown⟩
    exact ⟨hget, hown⟩
  · rintro ⟨hget, rfl⟩
    exact ⟨⟨hget, decide_eq_true hne⟩, rfl⟩

theorem recordsOf_hide (hne : tenantId ≠ tenantId') :
    recordsOf T (hide T.tenantId tenantId' s) tenantId = recordsOf T s tenantId :=
  filter_values_hide hne

theorem forall_get_of_inScope {r : R} (hr : inScope T s id tenantId = some r) :
    ∀ r' ∈ s.get id, T.tenantId r' = tenantId := by
  obtain ⟨hget, hown⟩ := inScope_eq_some.mp hr
  intro r' hr'
  rwa [Option.some.inj ((Option.mem_def.mp hr').symm.trans hget)]

theorem tenantId_updated_of_confined {updates : U} {now : DateObject} {r : R}
    (hconf : Confined T s (.update id tenantId updates now))
    (hr : inScope T s id tenantId = some r) :
    T.tenantId (T.updated r updates now) = tenantId := by
  rw [T.tenantId_updated]
  cases hnew : T.newTenantId updates with
  | none => exact (inScope_eq_some.mp hr).2
  | some tenantId' => exact hconf r hr tenantId' hnew

theorem hide_next {call : RepositoryCall R U} (hconf : Confined T s call)
    (hby : call.caller T = tenantId) :
    hide T.tenantId tenantId ((repository T).next s call) = hide T.tenantId tenantId s := by
  unfold Machine.next repository
  cases call with
  | insert record =>
    by_cases hmem : T.id record ∈ s.keys
    · simp [JsMap.has, hmem]
    · have hset : hide T.tenantId tenantId (s.set (T.id record) record) =
          hide T.tenantId tenantId s :=
        hide_set_own hby (by simp [JsMap.get_eq_none_iff.mpr hmem])
      simp [JsMap.has, hmem, hset]
  | update id caller updates now =>
    obtain rfl : caller = tenantId := hby
    cases hr : inScope T s id caller with
    | none => simp [hr]
    | some r =>
      simpa [hr] using hide_set_own (tenantId_updated_of_confined hconf hr)
        (forall_get_of_inScope hr)
  | delete id caller =>
    obtain rfl : caller = tenantId := hby
    cases hr : inScope T s id caller with
    | none => simp [hr]
    | some r => simpa [hr] using hide_delete_own (forall_get_of_inScope hr)
  | findById id caller => rfl
  | query caller options => rfl
  | countByTenant caller => rfl

/-- **The calls of the others** do the same without the records of a tenant. -/
theorem call_hide {call : RepositoryCall R U} (hconf : Confined T s call)
    (hby : call.caller T ≠ tenantId) :
    (repository T).call call (hide T.tenantId tenantId s) =
      (hide T.tenantId tenantId ((repository T).next s call), ((repository T).call call s).2) := by
  unfold Machine.next repository
  cases call with
  | insert record =>
    replace hby : T.tenantId record ≠ tenantId := hby
    have hothers : ∀ r ∈ s.get (T.id record), T.tenantId r ≠ tenantId :=
      fun r hr => (hconf r hr).trans_ne hby
    have hmem := mem_keys_hide hothers
    by_cases hin : T.id record ∈ s.keys
    · simp [JsMap.has, hin, hmem.mpr hin]
    · simp [JsMap.has, hin, mt hmem.mp hin, hide_set hby hothers]
  | findById id caller =>
    replace hby : caller ≠ tenantId := hby
    simp [inScope_hide hby]
  | update id caller updates now =>
    replace hby : caller ≠ tenantId := hby
    cases hr : inScope T s id caller with
    | none => simp [inScope_hide hby, hr]
    | some r =>
      have hown := tenantId_updated_of_confined hconf hr
      have hset := hide_set (hown.trans_ne hby) fun r' hr' =>
        (forall_get_of_inScope hr r' hr').trans_ne hby
      simp [inScope_hide hby, hr, hset]
  | delete id caller =>
    replace hby : caller ≠ tenantId := hby
    cases hr : inScope T s id caller with
    | none => simp [inScope_hide hby, hr]
    | some r => simp [inScope_hide hby, hr, hide_delete]
  | query caller options =>
    replace hby : caller ≠ tenantId := hby
    simp [recordsOf_hide hby]
  | countByTenant caller =>
    replace hby : caller ≠ tenantId := hby
    simp [recordsOf_hide hby]

/-- **The repository unwinds**: what is left is the table without the records of the tenant. -/
theorem repository_unwinding (T : RecordType R U) (tenantId : String) :
    (repository T).Unwinding (RepositoryCall.isBy T tenantId)
      (fun e => Confined T e.before e.input) (hide T.tenantId tenantId) where
  erased _ _ hconf hby := hide_next hconf (of_decide_eq_true hby)
  kept _ _ hconf hby := call_hide hconf (of_decide_eq_false hby)

theorem not_isolated_insert {calls : List (RepositoryCall R U)}
    (hconf : ∀ e ∈ (repository T).history .empty calls, Confined T e.before e.input) {record r : R}
    (hr : ((repository T).run .empty calls).get (T.id record) = some r)
    (hne : T.tenantId r ≠ T.tenantId record) : ¬ Isolated T (calls ++ [.insert record]) := by
  intro hiso
  refine (repository_unwinding T (T.tenantId r)).not_undisturbed rfl hconf ?_ (hiso _)
  generalize (repository T).run .empty calls = s at hr ⊢
  have hin := JsMap.mem_keys_of_get hr
  have hhidden : T.id record ∉ (hide T.tenantId (T.tenantId r) s).keys := by
    rw [← JsMap.get_eq_none_iff]
    exact get_hide_of_forall fun r' hr' =>
      congrArg T.tenantId (Option.some.inj ((Option.mem_def.mp hr').symm.trans hr))
  have hseen : ((repository T).call (.insert record) s).2 =
      .error s!"Duplicate record identified with ID {T.id record}" := by
    simp [repository, JsMap.has, hin]
  have hwithout : ((repository T).call (.insert record) (hide T.tenantId (T.tenantId r) s)).2 =
      .record record := by
    simp [repository, JsMap.has, hhidden]
  simp [Machine.seen, Machine.without, Machine.history, Machine.event, RepositoryCall.isBy,
    RepositoryCall.caller, hne.symm, hseen, hwithout]

theorem not_isolated_update {calls : List (RepositoryCall R U)}
    (hconf : ∀ e ∈ (repository T).history .empty calls, Confined T e.before e.input) {r : R}
    (hr : inScope T ((repository T).run .empty calls) id tenantId = some r) {updates : U}
    (hnew : T.newTenantId updates = some tenantId') (hne : tenantId' ≠ tenantId)
    (now : DateObject) : ¬ Isolated T (calls ++
      [.update id tenantId updates now, .findById id tenantId']) := by
  intro hiso
  refine (repository_unwinding T tenantId).not_undisturbed rfl hconf ?_ (hiso _)
  generalize (repository T).run .empty calls = s at hr ⊢
  have hown : T.tenantId (T.updated r updates now) = tenantId' := by
    rw [T.tenantId_updated, hnew, Option.getD_some]
  have hnext : (repository T).next s (.update id tenantId updates now) =
      s.set id (T.updated r updates now) := by
    simp [Machine.next, repository, hr]
  have hseen : ((repository T).call (.findById id tenantId')
      (s.set id (T.updated r updates now))).2 = .found (some (T.updated r updates now)) := by
    simp [repository, inScope, JsMap.get_set_self, hown]
  have hwithout : ((repository T).call (.findById id tenantId') (hide T.tenantId tenantId s)).2 =
      .found none := by
    simp [repository, inScope, get_hide_of_forall (forall_get_of_inScope hr)]
  simp [Machine.seen, Machine.without, Machine.history, Machine.event, RepositoryCall.isBy,
    RepositoryCall.caller, hne, hnext, hseen, hwithout]

theorem exists_not_isolated {calls : List (RepositoryCall R U)}
    (hconf : ∀ e ∈ (repository T).history .empty calls, Confined T e.before e.input)
    {call : RepositoryCall R U} (hcall : ¬ Confined T ((repository T).run .empty calls) call) :
    ∃ later, ¬ Isolated T (calls ++ call :: later) := by
  cases call with
  | insert record =>
    simp only [Confined, not_forall] at hcall
    obtain ⟨r, hr, hne⟩ := hcall
    exact ⟨[], not_isolated_insert hconf hr hne⟩
  | update id tenantId updates now =>
    simp only [Confined, not_forall] at hcall
    obtain ⟨r, hr, tenantId', hnew, hne⟩ := hcall
    exact ⟨[.findById id tenantId'], not_isolated_update hconf hr hnew hne now⟩
  | findById id tenantId => exact absurd trivial hcall
  | delete id tenantId => exact absurd trivial hcall
  | query tenantId options => exact absurd trivial hcall
  | countByTenant tenantId => exact absurd trivial hcall

theorem isolated_of_confined (T : RecordType R U) (calls : List (RepositoryCall R U))
    (hconf : ∀ e ∈ (repository T).history .empty calls, Confined T e.before e.input) :
    Isolated T calls :=
  fun tenantId => (repository_unwinding T tenantId).undisturbed rfl calls hconf

end Repository

/-! ## The two repositories -/

/-- `OrderAggregateRepository`. -/
abbrev OrderAggregateRepository : Machine (Storage IOrderAggregate)
    (RepositoryCall IOrderAggregate OrderAggregateUpdates) (RepositoryResult IOrderAggregate) :=
  repository orderAggregate

/-- `WarehouseInventoryRepository`. -/
abbrev WarehouseInventoryRepository : Machine (Storage IWarehouseInventoryRecord)
    (RepositoryCall IWarehouseInventoryRecord WarehouseInventoryUpdates)
    (RepositoryResult IWarehouseInventoryRecord) :=
  repository warehouseInventory

/-- **The tenants of `OrderAggregateRepository` are isolated** in every run of confined calls. The
condition cannot be weakened: after the first call that is not confined, some calls betray a
tenant. -/
theorem orderAggregates_isolated
    (calls : List (RepositoryCall IOrderAggregate OrderAggregateUpdates))
    (hconf : ∀ e ∈ OrderAggregateRepository.history .empty calls,
      Confined orderAggregate e.before e.input) :
    Isolated orderAggregate calls ∧
      ∀ call, ¬ Confined orderAggregate (OrderAggregateRepository.run .empty calls) call →
        ∃ later, ¬ Isolated orderAggregate (calls ++ call :: later) :=
  ⟨isolated_of_confined orderAggregate calls hconf, fun _ => exists_not_isolated hconf⟩

theorem warehouseInventory_isolated
    (calls : List (RepositoryCall IWarehouseInventoryRecord WarehouseInventoryUpdates))
    (hconf : ∀ e ∈ WarehouseInventoryRepository.history .empty calls,
      Confined warehouseInventory e.before e.input) :
    Isolated warehouseInventory calls ∧
      ∀ call, ¬ Confined warehouseInventory (WarehouseInventoryRepository.run .empty calls) call →
        ∃ later, ¬ Isolated warehouseInventory (calls ++ call :: later) :=
  ⟨isolated_of_confined warehouseInventory calls hconf, fun _ => exists_not_isolated hconf⟩

section TwoTenants

/-- The first of January 2024. -/
def newYear : DateObject := ⟨0, 1704067200000⟩

/-- An order of a tenant. -/
def aggregateOf (tenantId orderId : String) : IOrderAggregate where
  orderId := orderId
  tenantId := tenantId
  customerId := "C-1"
  status := .PENDING
  totalAmountUSD := 120
  taxAmountUSD := 10
  shippingAmountUSD := 15
  currency := "USD"
  lineItemCount := 2
  sagaCorrelationId := "S-1"
  createdAt := newYear
  updatedAt := newYear

/-- **An update gives an order away**: `T-2` counts the order of `T-1`. -/
theorem order_given_away : ¬ Isolated orderAggregate
    [.insert (aggregateOf "T-1" "O-1"), .update "O-1" "T-1" { tenantId := some "T-2" } newYear,
      .countByTenant "T-2"] := by
  intro h
  have hund := h "T-1"
  unfold Machine.Undisturbed at hund
  revert hund
  decide

/-- Two tenants with an order each. -/
theorem orderAggregates_isolated_two : Isolated orderAggregate
    [.insert (aggregateOf "T-1" "O-1"), .insert (aggregateOf "T-2" "O-2"),
      .update "O-1" "T-1" { status := some .PAID } newYear, .findById "O-1" "T-2",
      .query "T-2" { filter := JsMap.empty.set "status" (.string "PENDING") },
      .delete "O-2" "T-1", .countByTenant "T-2"] :=
  (orderAggregates_isolated _ (by decide)).1

end TwoTenants

end Logix.Common
