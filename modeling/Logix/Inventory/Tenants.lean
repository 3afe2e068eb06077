import Logix.Async.Outline
import Logix.Inventory.AdjustRaces
import Logix.Spec.Ownership

/-!
# Is the stock of a tenant its own?

`getStock` looks a record up by its warehouse and its sku, whatever tenant it belongs to.

* `stockProgram`: `adjustStock`, `reserveItemsForOrder` and `releaseReservation`, cut at their
  awaits; `tenantStockProgram`: each call with the tenant that makes it;
* **`alone_inventoryCall`**: a call that is not interrupted does what the service does in sequence;
* `StockRun`: the runs of several tenants; `IsolatesTenants`: a step changes no record of another
  tenant;
* `OnOwnStock`: the record that a segment is about to change belongs to its tenant;
* `Regular`: the invariant of the repository;
* **`stock_isolated_iff`**: a run isolates the tenants exactly when each of its steps is on own
  stock;
* `foreign_stock_scrapped`: a tenant scraps stock of another one.
-/

namespace Logix.Inventory

open Async Spec StockLevelRepository

variable {u : Surroundings}

/-! ## The service as a program -/

/-- The service calls, and what is left of them after an await. -/
inductive StockCall where
  | adjust (k : AdjustCall)
  | reserveItemsForOrder (dto : ReserveStockDTO)
  /-- The first loop, after `getStock`. -/
  | lineChecked (dto : ReserveStockDTO) (item : ReserveLine) (items : List ReserveLine)
      (stock : Option String)
  /-- The second loop: `reserveStock` after `getStock`. -/
  | lineFound (dto : ReserveStockDTO) (reservations : List StockReservationEntity)
      (item : ReserveLine) (items : List ReserveLine) (stock : Option String)
  /-- The second loop, after `reserveStock`. -/
  | lineReserved (dto : ReserveStockDTO) (reservations : List StockReservationEntity)
      (items : List ReserveLine)
  | releaseReservation (reservationId : String)
  /-- `releaseReservation` after `getStock`. -/
  | releaseReservationFound (reservationId : String) (stock : Option String)

/-- What a segment of the service leaves behind. -/
abbrev StockSegment (u : Surroundings) : Type :=
  Segment (StockLevelRepository u) StockCall InventoryResult

/-- The second loop, up to its next await. -/
def reserveFrom (r : StockLevelRepository u) (dto : ReserveStockDTO)
    (reservations : List StockReservationEntity) : List ReserveLine → StockSegment u
  | [] => { heap := r, settled := [.reserved reservations] }
  | item :: items =>
    let stock := r.getStock dto.warehouseId item.sku
    { heap := r, waiting := [.lineFound dto reservations item items stock] }

/-- The first loop, up to the next await. -/
def checkFrom (r : StockLevelRepository u) (dto : ReserveStockDTO) :
    List ReserveLine → StockSegment u
  | [] => reserveFrom r dto [] dto.items
  | item :: items =>
    { heap := r, waiting := [.lineChecked dto item items (r.getStock dto.warehouseId item.sku)] }

/-- **The service, cut at its awaits.** -/
def stockProgram (u : Surroundings) :
    Program (StockLevelRepository u) StockCall Unit InventoryResult where
  run k i r :=
    match k with
    | .adjust k => ((adjustProgram u).run k i r).map .adjust fun o => .adjusted o.stock
    | .reserveItemsForOrder dto => checkFrom r dto dto.items
    | .lineChecked dto item items stock =>
      let rejected (availableQty : ℤ) : InventoryResult :=
        .rejected (.insufficientInventory item.sku item.quantity availableQty)
      match stock.bind r.stock.get with
      | none => { heap := r, settled := [rejected 0] }
      | some e =>
        if e.quantityAvailable < item.quantity then
          { heap := r, settled := [rejected e.quantityAvailable] }
        else checkFrom r dto items
    | .lineFound dto reservations item items stock =>
      match r.reserveStockFound (dto.input item) stock with
      | (r', .error e) => { heap := r', settled := [.rejected e] }
      | (r', .ok res) =>
        { heap := r', waiting := [.lineReserved dto (reservations ++ [res]) items] }
    | .lineReserved dto reservations items => reserveFrom r dto reservations items
    | .releaseReservation reservationId =>
      match r.releaseReservationCheck reservationId with
      | none => { heap := r, settled := [.released] }
      | some stock => { heap := r, waiting := [.releaseReservationFound reservationId stock] }
    | .releaseReservationFound reservationId stock =>
      { heap := r.releaseReservationFound reservationId stock, settled := [.released] }

/-- The service, with the tenant of every call. -/
def tenantStockProgram (u : Surroundings) : Program (StockLevelRepository u) (String × StockCall)
    Unit (String × InventoryResult) :=
  .onBehalf fun _ => stockProgram u

/-- The configurations of the service. -/
abbrev StockConfig (u : Surroundings) : Type :=
  Config (StockLevelRepository u) (String × StockCall) (String × InventoryResult)

abbrev StockAct : Type := Act (String × StockCall) Unit

/-- A run starts the three calls, each with the `tenantId` of the tenant that makes it, and
continues anything. -/
def StockRequest (_ : StockConfig u) : StockAct → Prop
  | .call (tenantId, .adjust (.adjustStock dto)) _ => dto.tenantId = tenantId
  | .call (tenantId, .reserveItemsForOrder dto) _ => dto.tenantId = tenantId
  | .call (_, .releaseReservation _) _ => True
  | .call _ _ => False
  | .resume _ _ => True

/-- **A run of the service** by several tenants, from an empty repository. -/
structure StockRun (u : Surroundings) where
  schedule : List StockAct
  requests : (tenantStockProgram u).Always StockRequest ⟨new u, [], []⟩ schedule

/-- The step changes no stock record of another tenant than the one whose call runs. -/
def IsolatesTenants (c : StockConfig u) (a : StockAct) : Prop :=
  ∀ k ∈ c.running a, SparesOthers StockLevelEntity.tenantId k.1 c.heap.stock
    ((tenantStockProgram u).run k () c.heap).heap.stock

/-- **The record that the segment is about to change**, if any, belongs to the tenant: the one that
an adjustment has found, the one that a line has found with enough available, or the one that a
release has found. An adjustment by `0` and a release where nothing is reserved change `updatedAt`
only, and nothing in the millisecond that is there. -/
def StockCall.OnOwnStock (tenantId : String) (r : StockLevelRepository u) : StockCall → Prop
  | .adjust (.adjustStockFound dto (some ref)) =>
    ∀ e ∈ r.stock.get ref, dto.quantityDelta ≠ 0 ∨ e.updatedAt ≠ r.now → e.tenantId = tenantId
  | .lineFound _ _ item _ (some ref) =>
    ∀ e ∈ r.stock.get ref, item.quantity ≤ e.quantityAvailable → e.tenantId = tenantId
  | .releaseReservationFound reservationId (some ref) =>
    ∀ e ∈ r.stock.get ref, (r.reservations.get reservationId).isSome →
      0 < e.quantityReserved ∨ e.updatedAt ≠ r.now → e.tenantId = tenantId
  | _ => True

/-- The step is on own stock. -/
def OwnStock (c : StockConfig u) (a : StockAct) : Prop :=
  ∀ k ∈ c.running a, k.2.OnOwnStock k.1 c.heap

/-! ## Without interruption -/

/-- The result of `reserveItemsForOrder`. -/
def reserveResult : Except DomainException (List StockReservationEntity) → InventoryResult
  | .ok reservations => .reserved reservations
  | .error e => .rejected e

theorem run_lineFound (r : StockLevelRepository u) (dto : ReserveStockDTO)
    (reservations : List StockReservationEntity) (item : ReserveLine) (items : List ReserveLine) :
    (stockProgram u).run (.lineFound dto reservations item items
        (r.getStock dto.warehouseId item.sku)) () r =
      match r.reserveStock (dto.input item) with
      | (r', .error e) => ⟨r', [], [.rejected e]⟩
      | (r', .ok res) => ⟨r', [.lineReserved dto (reservations ++ [res]) items], []⟩ := rfl

theorem run_lineChecked (r : StockLevelRepository u) (dto : ReserveStockDTO) (item : ReserveLine)
    (items : List ReserveLine) : (stockProgram u).run (.lineChecked dto item items
        (r.getStock dto.warehouseId item.sku)) () r =
      match r.recordOf dto.warehouseId item.sku with
      | none => ⟨r, [], [.rejected (.insufficientInventory item.sku item.quantity 0)]⟩
      | some e =>
        if e.quantityAvailable < item.quantity then
          ⟨r, [], [.rejected (.insufficientInventory item.sku item.quantity e.quantityAvailable)]⟩
        else checkFrom r dto items := rfl

theorem alone_lines (dto : ReserveStockDTO) (items : List ReserveLine)
    (reservations : List StockReservationEntity) (r : StockLevelRepository u) (k : StockCall)
    (hk : (stockProgram u).run k () r = reserveFrom r dto reservations items) :
    (stockProgram u).Alone k r (reserveLines dto items r).1
      (reserveResult ((reserveLines dto items r).2.map (reservations ++ ·))) := by
  induction items generalizing reservations r k with
  | nil =>
    refine .settles (hk.trans ?_)
    simp [reserveFrom, reserveLines, reserveResult, Except.map]
  | cons item items ih =>
    refine .waits hk ?_
    have hrun := run_lineFound r dto reservations item items
    cases hres : r.reserveStock (dto.input item) with
    | mk r' res =>
      rw [hres] at hrun
      cases res with
      | error e =>
        refine .settles (hrun.trans ?_)
        simp [reserveLines, hres, reserveResult, Except.map]
      | ok res =>
        refine .waits hrun ?_
        have hrest := ih (reservations ++ [res]) r'
          (.lineReserved dto (reservations ++ [res]) items) rfl
        cases hlines : reserveLines dto items r' with
        | mk r'' rs =>
          rw [hlines] at hrest
          cases rs with
          | error e => simpa [reserveLines, hres, hlines, Except.map] using hrest
          | ok rs => simpa [reserveLines, hres, hlines, Except.map] using hrest

theorem alone_checks (dto : ReserveStockDTO) (items : List ReserveLine)
    (r : StockLevelRepository u) (k : StockCall)
    (hk : (stockProgram u).run k () r = checkFrom r dto items) :
    match checkLines r dto.warehouseId items with
    | .error e => (stockProgram u).Alone k r r (.rejected e)
    | .ok () => (stockProgram u).Alone k r (reserveLines dto dto.items r).1
        (reserveResult (reserveLines dto dto.items r).2) := by
  induction items generalizing k with
  | nil =>
    have hlines := alone_lines dto dto.items [] r k hk
    have hmap : ∀ res : Except DomainException (List StockReservationEntity),
        res.map ([] ++ ·) = res := fun res => by cases res <;> rfl
    rwa [hmap] at hlines
  | cons item items ih =>
    have hrun := run_lineChecked r dto item items
    rw [checkLines]
    cases hstock : r.recordOf dto.warehouseId item.sku with
    | none =>
      rw [hstock] at hrun
      exact .waits hk (.settles hrun)
    | some e =>
      rw [hstock] at hrun
      dsimp only at hrun ⊢
      split_ifs at hrun ⊢ with hq
      · exact .waits hk (.settles hrun)
      · have hrest := ih _ hrun
        cases hcheck : checkLines r dto.warehouseId items with
        | error ex =>
          rw [hcheck] at hrest
          exact .waits hk hrest
        | ok =>
          rw [hcheck] at hrest
          exact .waits hk hrest

/-- A call of the service, as one of the program. -/
def InventoryCall.start : InventoryCall → StockCall
  | .adjustStock dto => .adjust (.adjustStock dto)
  | .reserveItemsForOrder dto => .reserveItemsForOrder dto
  | .releaseReservation reservationId => .releaseReservation reservationId

/-- **A call that is not interrupted** does what the service does in sequence. -/
theorem alone_inventoryCall (r : StockLevelRepository u) (call : InventoryCall) :
    (stockProgram u).Alone call.start r ((inventoryMachine u).call call r).1
      ((inventoryMachine u).call call r).2 := by
  cases call with
  | adjustStock dto =>
    exact .waits (i := ()) rfl (.waits (i := ()) rfl (.waits (i := ()) rfl
      (.settles (i := ()) rfl)))
  | reserveItemsForOrder dto =>
    have hchecks := alone_checks dto dto.items r (.reserveItemsForOrder dto) rfl
    simp only [inventoryMachine, Inventory.reserveItemsForOrder]
    cases hcheck : checkLines r dto.warehouseId dto.items with
    | error e =>
      rw [hcheck] at hchecks
      exact hchecks
    | ok =>
      rw [hcheck] at hchecks
      cases hlines : reserveLines dto dto.items r with
      | mk r' res =>
        rw [hlines] at hchecks
        cases res <;> exact hchecks
  | releaseReservation id =>
    change (stockProgram u).Alone (.releaseReservation id) r (r.releaseReservation id) .released
    have hrun : (stockProgram u).run (.releaseReservation id) () r =
        match r.releaseReservationCheck id with
        | none => ⟨r, [], [.released]⟩
        | some stock => ⟨r, [.releaseReservationFound id stock], []⟩ := rfl
    unfold StockLevelRepository.releaseReservation
    cases hcheck : r.releaseReservationCheck id with
    | none =>
      rw [hcheck] at hrun
      exact .settles hrun
    | some stock =>
      rw [hcheck] at hrun
      exact .waits hrun (.settles (i := ()) rfl)

/-! ## The invariant -/

namespace StockLevelRepository

variable {r : StockLevelRepository u}

/-- **The invariant of the repository**: the available quantities are computed, no reserved one is
negative, and every reservation is of something. -/
structure Regular (r : StockLevelRepository u) : Prop where
  computed : r.Computed
  reserved : ∀ k e, r.stock.get k = some e → 0 ≤ e.quantityReserved
  positive : ∀ k s, r.reservations.get k = some s → 0 < s.reservedQty

theorem regular_new (u : Surroundings) : (new u).Regular where
  computed _ _ h := nomatch h
  reserved _ _ h := nomatch h
  positive _ _ h := nomatch h

theorem Regular.mutateStock (h : r.Regular) {f : StockLevelEntity → StockLevelEntity}
    (hf : ∀ e, (f e).quantityAvailable = (f e).quantityOnHand - (f e).quantityReserved)
    (hreserved : ∀ e, 0 ≤ e.quantityReserved → 0 ≤ (f e).quantityReserved) (ref : String) :
    (r.mutateStock ref f).Regular where
  computed := h.computed.mutateStock hf ref
  reserved k e he := by
    obtain ⟨e', he', rfl⟩ := get_mutateStock he
    split_ifs
    · exact hreserved e' (h.reserved k e' he')
    · exact h.reserved k e' he'
  positive := h.positive

theorem Regular.newRecord (h : r.Regular) (dto : AdjustStockDTO) :
    (r.insertStock (newRecord dto r.now)).Regular where
  computed := h.computed.insertStock fun _ => rfl
  reserved k e he := by
    rcases get_insertStock he with ⟨-, rfl⟩ | he
    · exact le_rfl
    · exact h.reserved k e he
  positive := h.positive

theorem Regular.newReservation (h : r.Regular) {a : ReserveInput} (ha : 0 < a.qty)
    (e : StockLevelEntity) : (r.insertReservation (newReservation a e)).Regular where
  computed := h.computed
  reserved := h.reserved
  positive k s hs := by
    rcases get_insertReservation hs with rfl | hs
    · exact ha
    · exact h.positive k s hs

theorem Regular.markReleased (h : r.Regular) (id : String) :
    (r.mutateReservation id StockReservationEntity.markReleased).Regular where
  computed := h.computed
  reserved := h.reserved
  positive k s hs := by
    obtain ⟨s', hs', rfl⟩ := JsMap.exists_of_get_modify hs
    split_ifs
    · exact h.positive k s' hs'
    · exact h.positive k s' hs'

end StockLevelRepository

/-! ## Segments -/

section Segments

variable {r : StockLevelRepository u}

@[simp] theorem heap_reserveFrom (r : StockLevelRepository u) (dto : ReserveStockDTO)
    (reservations : List StockReservationEntity) (items : List ReserveLine) :
    (reserveFrom r dto reservations items).heap = r := by
  cases items <;> rfl

@[simp] theorem heap_checkFrom (r : StockLevelRepository u) (dto : ReserveStockDTO)
    (items : List ReserveLine) : (checkFrom r dto items).heap = r := by
  cases items with
  | nil => exact heap_reserveFrom r dto [] dto.items
  | cons item items => rfl

/-- The heap after a segment. -/
abbrev stockHeap (r : StockLevelRepository u) (k : StockCall) : StockLevelRepository u :=
  ((stockProgram u).run k () r).heap

theorem stockHeap_lineChecked (r : StockLevelRepository u) (dto : ReserveStockDTO)
    (item : ReserveLine) (items : List ReserveLine) (stock : Option String) :
    stockHeap r (.lineChecked dto item items stock) = r := by
  simp only [stockHeap, stockProgram]
  split
  · rfl
  · split_ifs
    · rfl
    · exact heap_checkFrom r dto items

theorem stockHeap_lineFound (r : StockLevelRepository u) (dto : ReserveStockDTO)
    (reservations : List StockReservationEntity) (item : ReserveLine) (items : List ReserveLine)
    (stock : Option String) : stockHeap r (.lineFound dto reservations item items stock) =
      (r.reserveStockFound (dto.input item) stock).1 := by
  simp only [stockHeap, stockProgram]
  split <;> simp [*]

theorem stockHeap_releaseReservation (r : StockLevelRepository u) (id : String) :
    stockHeap r (.releaseReservation id) = r := by
  simp only [stockHeap, stockProgram]
  split <;> rfl

theorem StockLevelRepository.Regular.next (h : r.Regular) (k : StockCall) :
    (stockHeap r k).Regular := by
  cases k with
  | adjust k =>
    cases k with
    | adjustStock dto => exact h
    | adjustStockFound dto existing =>
      cases existing with
      | none => exact h.newRecord dto
      | some ref =>
        exact h.mutateStock (f := StockLevelEntity.addOnHand dto.quantityDelta r.now)
          (fun _ => rfl) (fun _ => id) ref
    | adjustStockUpserted dto stock => exact ⟨h.computed, h.reserved, h.positive⟩
    | adjustStockRecorded dto stock => exact h
  | reserveItemsForOrder dto =>
    change (checkFrom r dto dto.items).heap.Regular
    rwa [heap_checkFrom]
  | lineChecked dto item items stock => rwa [stockHeap_lineChecked]
  | lineFound dto reservations item items stock =>
    rw [stockHeap_lineFound]
    rcases reserveStockFound_cases r (dto.input item) stock with heq | ⟨ref, e, -, -, -, heq⟩
    · rwa [heq]
    · rw [heq]
      have hreserve : (r.mutateStock ref (StockLevelEntity.reserve item.quantity r.now)).Regular :=
        h.mutateStock (fun _ => rfl) (fun e he => add_nonneg he item.quantity_pos.le) ref
      exact hreserve.newReservation item.quantity_pos e
  | lineReserved dto reservations items =>
    change (reserveFrom r dto reservations items).heap.Regular
    rwa [heap_reserveFrom]
  | releaseReservation id => rwa [stockHeap_releaseReservation]
  | releaseReservationFound id stock =>
    change (r.releaseReservationFound id stock).Regular
    unfold StockLevelRepository.releaseReservationFound
    cases r.reservations.get id with
    | none => exact h
    | some res =>
      cases stock with
      | none => exact h.markReleased id
      | some ref =>
        have hrelease :
            (r.mutateStock ref (StockLevelEntity.release res.reservedQty r.now)).Regular :=
          h.mutateStock (fun _ => rfl) (fun _ _ => le_max_left _ _) ref
        exact hrelease.markReleased id

/-! ## What a segment changes -/

theorem addOnHand_ne_iff {e : StockLevelEntity}
    (he : e.quantityAvailable = e.quantityOnHand - e.quantityReserved) (qty : ℤ) (now : JsDate) :
    e.addOnHand qty now ≠ e ↔ qty ≠ 0 ∨ e.updatedAt ≠ now := by
  rw [← not_and_or]
  refine not_congr ⟨fun h => ?_, ?_⟩
  · have honHand : e.quantityOnHand + qty = e.quantityOnHand :=
      congrArg StockLevelEntity.quantityOnHand h
    exact ⟨by omega, (congrArg StockLevelEntity.updatedAt h).symm⟩
  · rintro ⟨rfl, rfl⟩
    cases e
    simp_all [StockLevelEntity.addOnHand]

theorem reserve_ne {qty : ℤ} (hqty : 0 < qty) (now : JsDate) (e : StockLevelEntity) :
    e.reserve qty now ≠ e := by
  intro h
  have hreserved : e.quantityReserved + qty = e.quantityReserved :=
    congrArg StockLevelEntity.quantityReserved h
  omega

theorem release_ne_iff {e : StockLevelEntity}
    (he : e.quantityAvailable = e.quantityOnHand - e.quantityReserved)
    (hreserved : 0 ≤ e.quantityReserved) {qty : ℤ} (hqty : 0 < qty) (now : JsDate) :
    e.release qty now ≠ e ↔ 0 < e.quantityReserved ∨ e.updatedAt ≠ now := by
  constructor
  · intro h
    by_contra hnone
    obtain ⟨hzero, hnow⟩ := not_or.mp hnone
    obtain rfl := not_not.mp hnow
    refine h ?_
    cases e
    simp_all [StockLevelEntity.release]
    omega
  · rintro hor h
    have hrel : max 0 (e.quantityReserved - qty) = e.quantityReserved :=
      congrArg StockLevelEntity.quantityReserved h
    rcases hor with hpos | hnow
    · omega
    · exact hnow (congrArg StockLevelEntity.updatedAt h).symm

theorem stock_reserveStockFound {a : ReserveInput} {ref : String} {e : StockLevelEntity}
    (he : r.stock.get ref = some e) : (r.reserveStockFound a (some ref)).1.stock =
      if e.quantityAvailable < a.qty then r.stock
      else r.stock.modify ref (StockLevelEntity.reserve a.qty r.now) := by
  simp only [StockLevelRepository.reserveStockFound, he]
  split_ifs <;> rfl

theorem sparesOthers_reserveStockFound_iff (tenantId : String) {a : ReserveInput} (ha : 0 < a.qty)
    (ref : String) : SparesOthers StockLevelEntity.tenantId tenantId r.stock
        (r.reserveStockFound a (some ref)).1.stock ↔
      ∀ e ∈ r.stock.get ref, a.qty ≤ e.quantityAvailable → e.tenantId = tenantId := by
  cases he : r.stock.get ref with
  | none =>
    simp only [StockLevelRepository.reserveStockFound, he]
    exact iff_of_true (.refl _ tenantId r.stock) fun e h => absurd h (Option.not_mem_none e)
  | some e =>
    rw [stock_reserveStockFound he]
    split_ifs with hq
    · refine iff_of_true (.refl _ tenantId r.stock) fun e' he' hle => ?_
      obtain rfl := Option.some.inj he'
      exact absurd hle (not_le.mpr hq)
    · refine sparesOthers_modify_iff.trans ?_
      rw [he]
      refine forall₂_congr fun e' he' => ?_
      obtain rfl := Option.some.inj he'
      rw [imp_iff_right (reserve_ne ha r.now e), imp_iff_right (not_lt.mp hq)]

/-- **A segment spares the records of the other tenants** exactly when it is on own stock. -/
theorem sparesOthers_stockHeap_iff (h : r.Regular) (tenantId : String) (k : StockCall) :
    SparesOthers StockLevelEntity.tenantId tenantId r.stock (stockHeap r k).stock ↔
      k.OnOwnStock tenantId r := by
  have hsame := SparesOthers.refl StockLevelEntity.tenantId tenantId r.stock
  cases k with
  | adjust k =>
    cases k with
    | adjustStock dto => exact iff_of_true hsame trivial
    | adjustStockFound dto existing =>
      cases existing with
      | none => exact iff_of_true (ActsFor.set (r.stock_issued.fresh le_rfl) _).spares trivial
      | some ref =>
        refine sparesOthers_modify_iff.trans (forall₂_congr fun e he => ?_)
        rw [addOnHand_ne_iff (h.computed ref e he)]
        exact Iff.rfl
    | adjustStockUpserted dto stock => exact iff_of_true hsame trivial
    | adjustStockRecorded dto stock => exact iff_of_true hsame trivial
  | reserveItemsForOrder dto =>
    refine iff_of_true ?_ trivial
    change SparesOthers _ tenantId r.stock (checkFrom r dto dto.items).heap.stock
    rwa [heap_checkFrom]
  | lineChecked dto item items stock =>
    rw [stockHeap_lineChecked]
    exact iff_of_true hsame trivial
  | lineFound dto reservations item items stock =>
    rw [stockHeap_lineFound]
    cases stock with
    | none => exact iff_of_true hsame trivial
    | some ref =>
      refine (sparesOthers_reserveStockFound_iff tenantId (a := dto.input item)
        item.quantity_pos ref).trans ?_
      exact Iff.rfl
  | lineReserved dto reservations items =>
    refine iff_of_true ?_ trivial
    change SparesOthers _ tenantId r.stock (reserveFrom r dto reservations items).heap.stock
    rwa [heap_reserveFrom]
  | releaseReservation id =>
    rw [stockHeap_releaseReservation]
    exact iff_of_true hsame trivial
  | releaseReservationFound id stock =>
    change SparesOthers _ tenantId r.stock (r.releaseReservationFound id stock).stock ↔ _
    unfold StockLevelRepository.releaseReservationFound
    cases hres : r.reservations.get id with
    | none =>
      refine iff_of_true hsame ?_
      cases stock with
      | none => trivial
      | some ref => simp [StockCall.OnOwnStock, hres]
    | some res =>
      cases stock with
      | none => exact iff_of_true hsame trivial
      | some ref =>
        refine sparesOthers_modify_iff.trans (forall₂_congr fun e he => ?_)
        rw [release_ne_iff (h.computed ref e he) (h.reserved ref e he) (h.positive id res hres),
          hres]
        simp

end Segments

/-! ## Runs -/

/-- **A run isolates the tenants**: no call of one changes a stock record of another. -/
def StockRun.Isolates (run : StockRun u) : Prop :=
  (tenantStockProgram u).Always IsolatesTenants ⟨new u, [], []⟩ run.schedule

/-- Every step of the run is on own stock. -/
def StockRun.OnOwnStock (run : StockRun u) : Prop :=
  (tenantStockProgram u).Always OwnStock ⟨new u, [], []⟩ run.schedule

theorem always_isolatesTenants_iff {c : StockConfig u} (h : c.heap.Regular)
    (schedule : List StockAct) :
    (tenantStockProgram u).Always IsolatesTenants c schedule ↔
      (tenantStockProgram u).Always OwnStock c schedule := by
  refine Program.always_congr (fun k _ _ h => h.next k.2) (fun c a h => ?_) h schedule
  exact forall₂_congr fun k _ => sparesOthers_stockHeap_iff h k.1 k.2

/-- **A run isolates the tenants** exactly when each of its steps is on own stock. -/
theorem stock_isolated_iff (run : StockRun u) : run.Isolates ↔ run.OnOwnStock :=
  always_isolatesTenants_iff (regular_new u) run.schedule

/-! ## Two tenants -/

section TwoTenants

instance : ∀ (c : StockConfig u) (a : StockAct), Decidable (StockRequest c a)
  | _, .call (_, .adjust (.adjustStock dto)) _ => inferInstanceAs (Decidable (dto.tenantId = _))
  | _, .call (_, .reserveItemsForOrder dto) _ => inferInstanceAs (Decidable (dto.tenantId = _))
  | _, .call (_, .releaseReservation _) _ | _, .resume _ _ => .isTrue trivial
  | _, .call (_, .adjust (.adjustStockFound ..)) _
  | _, .call (_, .adjust (.adjustStockUpserted ..)) _
  | _, .call (_, .adjust (.adjustStockRecorded ..)) _ | _, .call (_, .lineChecked ..) _
  | _, .call (_, .lineFound ..) _ | _, .call (_, .lineReserved ..) _
  | _, .call (_, .releaseReservationFound ..) _ => .isFalse id

instance (tenantId : String) (r : StockLevelRepository u) :
    DecidablePred (StockCall.OnOwnStock tenantId r)
  | .adjust (.adjustStockFound _ (some _)) => inferInstanceAs (Decidable (∀ e ∈ _, _ → _))
  | .lineFound _ _ _ _ (some _) => inferInstanceAs (Decidable (∀ e ∈ _, _ → _))
  | .releaseReservationFound _ (some _) => inferInstanceAs (Decidable (∀ e ∈ _, _ → _ → _))
  | .adjust (.adjustStock _) | .adjust (.adjustStockFound _ none)
  | .adjust (.adjustStockUpserted ..) | .adjust (.adjustStockRecorded ..)
  | .reserveItemsForOrder _ | .lineChecked .. | .lineFound _ _ _ _ none | .lineReserved ..
  | .releaseReservation _ | .releaseReservationFound _ none => .isTrue trivial

instance (c : StockConfig u) (a : StockAct) : Decidable (OwnStock c a) :=
  inferInstanceAs (Decidable (∀ k ∈ c.running a, StockCall.OnOwnStock _ _ _))

/-- Tenant T-2 scraps four units of the same pair. -/
def scrapT2 : AdjustStockDTO :=
  { receipt (-4) with
    tenantId := "T-2"
    movementType := .DAMAGE_SCRAP }

/-- Ten units of T-1, and an adjustment of T-2. -/
def foreignAdjustment (dto : AdjustStockDTO) : List StockAct :=
  [.call ("T-1", .adjust (.adjustStock (receipt 10))) (), .resume 0 (), .resume 0 (), .resume 0 (),
    .call ("T-2", .adjust (.adjustStock dto)) (), .resume 0 ()]

/-- Ten units of T-1, and T-2 on the same warehouse and sku. -/
def foreignScrap : StockRun .unary where
  schedule := foreignAdjustment scrapT2
  requests := by decide

/-- The same, with nothing to scrap. -/
def foreignTouch : StockRun .unary where
  schedule := foreignAdjustment { scrapT2 with quantityDelta := 0 }
  requests := by decide

/-- **A tenant scraps stock of another one**: the adjustment of T-2 is booked on the record of
T-1. By nothing, it still writes the time of the record. -/
theorem foreign_stock_scrapped : ¬ foreignScrap.Isolates ∧ ¬ foreignTouch.Isolates := by
  unfold StockRun.Isolates
  rw [always_isolatesTenants_iff (regular_new _), always_isolatesTenants_iff (regular_new _)]
  decide

end TwoTenants

end Logix.Inventory
