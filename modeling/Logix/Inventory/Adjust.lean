import Logix.Inventory.OrderLines
import Logix.Spec.Machine

/-!
# Adjustments, reservations and releases in sequence

`InventoryService` with its repository, one call after another: `adjustStock` changes what is on
hand and records a movement, `reserveItemsForOrder` and `releaseReservation` change what is
reserved.

* `adjustStock`, `releaseReservation`, `inventoryMachine`: the calls;
* `Posted`: the quantities on hand are the sums of a list of postings; `Audited`: the invariant, on
  the records, the reservations and the movements;
* **`stock_reconciles`**: in every run the quantities on hand are the sums of the movements, and the
  reserved ones those of the ACTIVE reservations;
* **`stock_sane_iff`**: the runs in which no record has more reserved than on hand.
-/

namespace Logix.Inventory

open Spec StockLevelRepository

variable {u : Surroundings}

/-! ## The calls -/

/-- `AdjustStockDTO`, as `AdjustStockSchema` admits it (any strings as ids). -/
structure AdjustStockDTO where
  tenantId : String
  warehouseId : String
  binLocationId : String
  sku : String
  movementType : StockMovementType
  quantityDelta : ℤ
  referenceId : Option String
  userId : String
  notes : Option String
  sku_min : 3 ≤ jsLength sku
  deriving DecidableEq

namespace AdjustStockDTO

/-- The argument of `upsertStock`. -/
def item (dto : AdjustStockDTO) : StockInput where
  tenantId := dto.tenantId
  warehouseId := dto.warehouseId
  binLocationId := dto.binLocationId
  sku := dto.sku
  quantityOnHand := dto.quantityDelta
  quantityReserved := 0

/-- The movement that `recordMovement` stores. -/
def movement (dto : AdjustStockDTO) (id : String) : StockAuditMovementEntity where
  id := id
  tenantId := dto.tenantId
  warehouseId := dto.warehouseId
  sku := dto.sku
  movementType := dto.movementType
  quantityDelta := dto.quantityDelta
  referenceId := dto.referenceId
  performedByUserId := dto.userId
  notes := dto.notes

end AdjustStockDTO

namespace StockLevelRepository

theorem stock_issued_succ (r : StockLevelRepository u) : u.Issued (r.draws + 1) r.stock :=
  r.stock_issued.mono (Nat.le_succ _)

theorem reservations_issued_succ (r : StockLevelRepository u) :
    u.Issued (r.draws + 1) r.reservations :=
  r.reservations_issued.mono (Nat.le_succ _)

/-- `recordMovement`. -/
def recordMovement (r : StockLevelRepository u) (movement : String → StockAuditMovementEntity) :
    StockLevelRepository u where
  stock := r.stock
  reservations := r.reservations
  movements := r.movements ++ [movement (u.draw r.draws)]
  draws := r.draws + 1
  reads := r.reads
  stock_issued := r.stock_issued_succ
  reservations_issued := r.reservations_issued_succ

/-- `releaseReservation` without interruption. -/
def releaseReservation (r : StockLevelRepository u) (reservationId : String) :
    StockLevelRepository u :=
  match r.releaseReservationCheck reservationId with
  | none => r
  | some stock => r.releaseReservationFound reservationId stock

end StockLevelRepository

/-- `adjustStock`; the reference of the record that it returns. -/
def adjustStock (r : StockLevelRepository u) (dto : AdjustStockDTO) :
    StockLevelRepository u × String :=
  let (r', stock) := r.upsertStock dto.item
  (r'.recordMovement dto.movement, stock)

/-- The calls of a run. -/
inductive InventoryCall where
  | adjustStock (dto : AdjustStockDTO)
  | reserveItemsForOrder (dto : ReserveStockDTO)
  | releaseReservation (reservationId : String)

/-- What a call returns or throws. -/
inductive InventoryResult where
  | adjusted (stock : String)
  | reserved (reservations : List StockReservationEntity)
  | released
  | rejected (e : DomainException)
  deriving DecidableEq

/-- The service under its calls, one after another. -/
def inventoryMachine (u : Surroundings) :
    Machine (StockLevelRepository u) InventoryCall InventoryResult where
  call
    | .adjustStock dto, r =>
      let (r', stock) := Inventory.adjustStock r dto
      (r', .adjusted stock)
    | .reserveItemsForOrder dto, r =>
      match Inventory.reserveItemsForOrder r dto with
      | (r', .ok reservations) => (r', .reserved reservations)
      | (r', .error e) => (r', .rejected e)
    | .releaseReservation reservationId, r => (r.releaseReservation reservationId, .released)

/-! ## What is on hand -/

/-- A change of what a pair has on hand. -/
structure StockPosting where
  warehouseId : String
  sku : String
  delta : ℤ

/-- A posting counts for its pair. -/
def StockPosting.amountFor (warehouseId sku : String) (p : StockPosting) : ℤ :=
  if p.warehouseId = warehouseId ∧ p.sku = sku then p.delta else 0

/-- The sum of the postings of a pair. -/
def postedQty (ps : List StockPosting) (warehouseId sku : String) : ℤ :=
  (ps.map (StockPosting.amountFor warehouseId sku)).sum

/-- What an adjustment posts. -/
def AdjustStockDTO.posting (dto : AdjustStockDTO) : StockPosting :=
  ⟨dto.warehouseId, dto.sku, dto.quantityDelta⟩

/-- What a movement records. -/
def StockAuditMovementEntity.posting (m : StockAuditMovementEntity) : StockPosting :=
  ⟨m.warehouseId, m.sku, m.quantityDelta⟩

/-- The record that `adjustStock` stores for a pair that has none. -/
def newRecord (dto : AdjustStockDTO) (now : JsDate) (id : String) : StockLevelEntity where
  id := id
  tenantId := dto.tenantId
  warehouseId := dto.warehouseId
  binLocationId := dto.binLocationId
  sku := dto.sku
  quantityOnHand := dto.quantityDelta
  quantityReserved := 0
  quantityAvailable := dto.quantityDelta - 0
  updatedAt := now

namespace StockLevelRepository

/-- **The postings make up the stock**: one record for each pair posted to, with the sum of its
postings on hand. -/
structure Posted (r : StockLevelRepository u) (ps : List StockPosting) : Prop where
  pairs : r.OnePerPair
  onHand : ∀ k e, r.stock.get k = some e → e.quantityOnHand = postedQty ps e.warehouseId e.sku
  recorded : ∀ p ∈ ps, ∃ k e, r.stock.get k = some e ∧
    e.warehouseId = p.warehouseId ∧ e.sku = p.sku

variable {r : StockLevelRepository u} {ps ps' : List StockPosting} {dto : AdjustStockDTO}

theorem postedQty_concat (ps : List StockPosting) (p : StockPosting) (wh sku : String) :
    postedQty (ps ++ [p]) wh sku = postedQty ps wh sku + p.amountFor wh sku := by
  simp [postedQty]

theorem postedQty_eq_zero {wh sku : String}
    (h : ∀ p ∈ ps, ¬ (p.warehouseId = wh ∧ p.sku = sku)) : postedQty ps wh sku = 0 := by
  refine List.sum_eq_zero fun x hx => ?_
  obtain ⟨p, hp, rfl⟩ := List.mem_map.mp hx
  exact if_neg (h p hp)

theorem Posted.perm (h : r.Posted ps) (hps : ps.Perm ps') : r.Posted ps' where
  pairs := h.pairs
  onHand k e he := by
    rw [h.onHand k e he]
    exact (hps.map _).sum_eq
  recorded p hp := h.recorded p (hps.mem_iff.mpr hp)

theorem Posted.keep {r' : StockLevelRepository u} (h : r.Posted ps) (hpairs : r'.OnePerPair)
    (hold : ∀ k e, r'.stock.get k = some e → ∃ e₀, r.stock.get k = some e₀ ∧
      e.warehouseId = e₀.warehouseId ∧ e.sku = e₀.sku ∧ e.quantityOnHand = e₀.quantityOnHand)
    (hkept : ∀ k e, r.stock.get k = some e → ∃ e', r'.stock.get k = some e' ∧
      e'.warehouseId = e.warehouseId ∧ e'.sku = e.sku) : r'.Posted ps where
  pairs := hpairs
  onHand k e he := by
    obtain ⟨e₀, he₀, hw, hs, hq⟩ := hold k e he
    rw [hw, hs, hq]
    exact h.onHand k e₀ he₀
  recorded p hp := by
    obtain ⟨k, e, he, hw, hs⟩ := h.recorded p hp
    obtain ⟨e', he', hw', hs'⟩ := hkept k e he
    exact ⟨k, e', he', hw'.trans hw, hs'.trans hs⟩

theorem Posted.addOnHand (h : r.Posted ps) {ref : String} {e : StockLevelEntity}
    (he : r.stock.get ref = some e) (hw : e.warehouseId = dto.warehouseId)
    (hs : e.sku = dto.sku) :
    (r.mutateStock ref (StockLevelEntity.addOnHand dto.quantityDelta r.now)).Posted
      (ps ++ [dto.posting]) where
  pairs := h.pairs.mutateStock (keepsPair_addOnHand _ _) ref
  onHand k e' he' := by
    obtain ⟨e₀, he₀, rfl⟩ := get_mutateStock he'
    have honHand := h.onHand k e₀ he₀
    rw [postedQty_concat]
    by_cases hk : k = ref
    · subst hk
      rw [he] at he₀; cases he₀
      rw [if_pos rfl, StockPosting.amountFor, if_pos ⟨hw.symm, hs.symm⟩]
      exact congrArg (· + dto.quantityDelta) honHand
    · rw [if_neg hk, StockPosting.amountFor, if_neg, add_zero]
      · exact honHand
      · rintro ⟨hw', hs'⟩
        exact hk (h.pairs k e₀ ref e he₀ he (hw'.symm.trans hw.symm) (hs'.symm.trans hs.symm))
  recorded p hp := by
    have hpair := (keepsPair_addOnHand dto.quantityDelta r.now).ite
    rcases List.mem_append.mp hp with hp | hp
    · obtain ⟨k, e', he', hw', hs'⟩ := h.recorded p hp
      exact ⟨k, _, mutateStock_get he' ref _, (hpair k ref e').1.trans hw',
        (hpair k ref e').2.trans hs'⟩
    · obtain rfl := List.mem_singleton.mp hp
      exact ⟨ref, _, mutateStock_get he ref _, (hpair ref ref e).1.trans hw,
        (hpair ref ref e).2.trans hs⟩

theorem Posted.newRecord (h : r.Posted ps)
    (hg : r.getStock dto.warehouseId dto.sku = none) :
    (r.insertStock (newRecord dto r.now)).Posted (ps ++ [dto.posting]) where
  pairs := h.pairs.insertStock hg fun _ => ⟨rfl, rfl⟩
  onHand k e he := by
    rw [postedQty_concat]
    rcases get_insertStock he with ⟨-, rfl⟩ | he
    · have hzero : postedQty ps (Inventory.newRecord dto r.now (u.draw r.draws)).warehouseId
          (Inventory.newRecord dto r.now (u.draw r.draws)).sku = 0 := by
        refine postedQty_eq_zero fun p hp hpair => ?_
        obtain ⟨k, e, he, hw, hs⟩ := h.recorded p hp
        exact getStock_none hg he ⟨hw.trans hpair.1, hs.trans hpair.2⟩
      rw [hzero, zero_add, StockPosting.amountFor, if_pos ⟨rfl, rfl⟩]
      rfl
    · have hne := getStock_none hg he
      rw [StockPosting.amountFor, if_neg fun hc => hne ⟨hc.1.symm, hc.2.symm⟩, add_zero]
      exact h.onHand k e he
  recorded p hp := by
    rcases List.mem_append.mp hp with hp | hp
    · obtain ⟨k, e, he, hpair⟩ := h.recorded p hp
      exact ⟨k, e, insertStock_get he _, hpair⟩
    · obtain rfl := List.mem_singleton.mp hp
      exact ⟨_, _, JsMap.get_set_self _ _ _, rfl, rfl⟩

theorem posted_new (u : Surroundings) : (new u).Posted [] where
  pairs := (stocked_new u).pairs
  onHand k e he := by cases he
  recorded p hp := absurd hp List.not_mem_nil

/-! ## The invariant -/

/-- The sum of `quantityDelta` over the movements of a pair. -/
def movedQty (r : StockLevelRepository u) (warehouseId sku : String) : ℤ :=
  postedQty (r.movements.map StockAuditMovementEntity.posting) warehouseId sku

/-- **The invariant**: the records agree with the reservations and with the movements. -/
structure Audited (r : StockLevelRepository u) : Prop where
  reconciled : r.Reconciled
  posted : r.Posted (r.movements.map StockAuditMovementEntity.posting)

theorem audited_new (u : Surroundings) : (new u).Audited where
  reconciled := (stocked_new u).balanced.reconciled
  posted := posted_new u

theorem Audited.recordMovement (hr : r.Reconciled)
    (hp : r.Posted (r.movements.map StockAuditMovementEntity.posting ++ [dto.posting])) :
    (r.recordMovement dto.movement).Audited where
  reconciled := ⟨hr.pairs, hr.computed, hr.active, hr.backed, hr.positive⟩
  posted := by
    have hmovements : (r.recordMovement dto.movement).movements.map
        StockAuditMovementEntity.posting =
          r.movements.map StockAuditMovementEntity.posting ++ [dto.posting] := List.map_append
    rw [hmovements]
    exact ⟨hp.pairs, hp.onHand, hp.recorded⟩

theorem Reconciled.newRecord (h : r.Reconciled)
    (hg : r.getStock dto.warehouseId dto.sku = none) :
    (r.insertStock (newRecord dto r.now)).Reconciled :=
  h.insertStock hg (fun _ => ⟨rfl, rfl⟩) (fun _ => rfl) fun _ => rfl

/-! ## Every call keeps the invariant -/

theorem adjustStock_some {ref : String}
    (hg : r.getStock dto.warehouseId dto.sku = some ref) : (adjustStock r dto).1 =
      (r.mutateStock ref (StockLevelEntity.addOnHand dto.quantityDelta r.now)).recordMovement
        dto.movement := by
  rw [adjustStock, upsertStock, AdjustStockDTO.item, hg]
  rfl

theorem adjustStock_none
    (hg : r.getStock dto.warehouseId dto.sku = none) : (adjustStock r dto).1 =
      (r.insertStock (newRecord dto r.now)).recordMovement dto.movement := by
  rw [adjustStock, upsertStock, AdjustStockDTO.item, hg]
  rfl

/-- **An adjustment** posts what it records. -/
theorem Audited.adjustStock (h : r.Audited) (dto : AdjustStockDTO) :
    (adjustStock r dto).1.Audited := by
  cases hg : r.getStock dto.warehouseId dto.sku with
  | none =>
    rw [adjustStock_none hg]
    exact .recordMovement (h.reconciled.newRecord hg) (h.posted.newRecord hg)
  | some ref =>
    obtain ⟨e, he, hw, hs⟩ := getStock_some hg
    rw [adjustStock_some hg]
    exact .recordMovement (h.reconciled.upsert dto.item ref) (h.posted.addOnHand he hw hs)

theorem Audited.afterReserve (h : r.Audited) {a : ReserveInput} (hq : 0 < a.qty) {ref : String}
    {e : StockLevelEntity} (hg : r.getStock a.warehouseId a.sku = some ref)
    (he : r.stock.get ref = some e) : (afterReserve r a ref e).Audited := by
  obtain ⟨e', he', hw, hs⟩ := getStock_some hg
  rw [he] at he'; cases he'
  have hr' := h.reconciled.reserve hq he hw hs
  refine ⟨hr', h.posted.keep hr'.pairs (fun k e₁ he₁ => ?_) fun k e₀ he₀ => ?_⟩
  · obtain ⟨e₀, he₀, rfl⟩ := get_mutateStock he₁
    refine ⟨e₀, he₀, ?_⟩
    split_ifs
    · exact ⟨rfl, rfl, rfl⟩
    · exact ⟨rfl, rfl, rfl⟩
  · exact ⟨_, mutateStock_get he₀ ref _, (keepsPair_reserve a.qty r.now).ite k ref e₀⟩

/-- **The rule of the second loop**, whether it runs through or throws: what every reservation
keeps. -/
theorem reserveLines_induction {P : StockLevelRepository u → Prop} {dto : ReserveStockDTO}
    (hstep : ∀ r (item : ReserveLine) ref e, P r →
      r.getStock dto.warehouseId item.sku = some ref → r.stock.get ref = some e →
      item.quantity ≤ e.quantityAvailable → P (afterReserve r (dto.input item) ref e)) :
    ∀ (items : List ReserveLine) {r : StockLevelRepository u}, P r → P (reserveLines dto items r).1
  | [], _, h => h
  | item :: items, r, h => by
    rcases reserveStock_cases r (dto.input item) with ⟨-, ex, hres⟩ | ⟨ref, e, hg, he, hle, hres⟩
    · rw [reserveLines, hres]
      exact h
    · have ih := reserveLines_induction hstep items (hstep r item ref e h hg he hle)
      rw [reserveLines, hres]
      simp only
      split <;> rename_i hrec <;> rw [hrec] at ih <;> exact ih

theorem reserveItemsForOrder_induction {P : StockLevelRepository u → Prop} {dto : ReserveStockDTO}
    (hstep : ∀ r (item : ReserveLine) ref e, P r →
      r.getStock dto.warehouseId item.sku = some ref → r.stock.get ref = some e →
      item.quantity ≤ e.quantityAvailable → P (afterReserve r (dto.input item) ref e)) (h : P r) :
    P (reserveItemsForOrder r dto).1 := by
  unfold reserveItemsForOrder
  cases checkLines r dto.warehouseId dto.items with
  | error e => exact h
  | ok _ => exact reserveLines_induction hstep dto.items h

/-- **What a release does**: nothing, or it gives an ACTIVE reservation back to its record. -/
theorem releaseReservation_cases (h : r.Reconciled) (id : String) :
    r.releaseReservation id = r ∨ ∃ s ref e, r.reservations.get id = some s ∧ s.status = .ACTIVE ∧
      r.stock.get ref = some e ∧ e.warehouseId = s.warehouseId ∧ e.sku = s.sku ∧
      r.releaseReservation id = r.releaseReservationFound id (some ref) := by
  unfold releaseReservation
  cases hc : r.releaseReservationCheck id with
  | none => exact Or.inl rfl
  | some stock =>
    obtain ⟨s, hs, rfl⟩ := releaseReservationCheck_some hc
    have hactive : s.status = .ACTIVE := by
      by_contra hne
      simp [releaseReservationCheck, hs, hne] at hc
    obtain ⟨k, e₀, he₀, hw₀, hs₀⟩ := h.backed id s hs
    obtain ⟨ref, hg⟩ := Option.isSome_iff_exists.mp (isSome_getStock he₀ hw₀ hs₀)
    obtain ⟨e, he, hw, hsku⟩ := getStock_some hg
    exact Or.inr ⟨s, ref, e, hs, hactive, he, hw, hsku, by rw [hg]⟩

theorem Audited.releaseReservation (h : r.Audited) (id : String) :
    (r.releaseReservation id).Audited := by
  rcases releaseReservation_cases h.reconciled id with
    hr | ⟨s, ref, e, hs, hactive, he, hw, hsku, hr⟩
  · rw [hr]
    exact h
  · rw [hr]
    have hr' := h.reconciled.release hs he hw hsku (Or.inl hactive)
    have hmovements : (r.releaseReservationFound id (some ref)).movements = r.movements := by
      rw [releaseReservationFound_eq hs]
      rfl
    refine ⟨hr', ?_⟩
    rw [hmovements]
    refine h.posted.keep hr'.pairs (fun k e' he' => ?_) fun k e₀ he₀ => ?_
    · obtain ⟨e₀, he₀, rfl⟩ := get_stock_release hs he'
      refine ⟨e₀, he₀, ?_⟩
      split_ifs
      · exact ⟨rfl, rfl, rfl⟩
      · exact ⟨rfl, rfl, rfl⟩
    · rw [releaseReservationFound_eq hs]
      exact ⟨_, mutateStock_get he₀ ref _, (keepsPair_release s.reservedQty r.now).ite k ref e₀⟩

end StockLevelRepository

/-! ## Runs -/

theorem inventory_next (r : StockLevelRepository u) (c : InventoryCall) :
    (inventoryMachine u).next r c = match c with
      | .adjustStock dto => (adjustStock r dto).1
      | .reserveItemsForOrder dto => (reserveItemsForOrder r dto).1
      | .releaseReservation id => r.releaseReservation id := by
  cases c with
  | adjustStock dto => rfl
  | reserveItemsForOrder dto =>
    simp only [Machine.next, inventoryMachine]
    cases reserveItemsForOrder r dto with
    | mk r' res => cases res <;> rfl
  | releaseReservation id => rfl

theorem StockLevelRepository.Audited.next {r : StockLevelRepository u} (h : r.Audited)
    (c : InventoryCall) : ((inventoryMachine u).next r c).Audited := by
  rw [inventory_next]
  cases c with
  | adjustStock dto => exact h.adjustStock dto
  | reserveItemsForOrder dto =>
    exact reserveItemsForOrder_induction
      (fun r item ref e h hg he _ => h.afterReserve item.quantity_pos hg he) h
  | releaseReservation id => exact h.releaseReservation id

theorem audited_run (u : Surroundings) (calls : List InventoryCall) :
    ((inventoryMachine u).run (new u) calls).Audited :=
  Machine.history_induction (J := fun _ => Audited) (audited_new u) (fun _ _ c h => h.next c)
    calls

/-- **The stock reconciles.** In every run there is at most one record for each pair, its quantity
on hand is the sum of the movements of the pair, and its reserved quantity that of the ACTIVE
reservations; and every movement is of a pair with a record. -/
theorem stock_reconciles (u : Surroundings) (calls : List InventoryCall) :
    ((inventoryMachine u).run (new u) calls).OnePerPair ∧
    (∀ k e, ((inventoryMachine u).run (new u) calls).stock.get k = some e →
      e.quantityOnHand =
        ((inventoryMachine u).run (new u) calls).movedQty e.warehouseId e.sku ∧
      e.quantityReserved =
        ((inventoryMachine u).run (new u) calls).activeQty e.warehouseId e.sku) ∧
    ∀ m ∈ ((inventoryMachine u).run (new u) calls).movements, ∃ k e,
      ((inventoryMachine u).run (new u) calls).stock.get k = some e ∧
        e.warehouseId = m.warehouseId ∧ e.sku = m.sku := by
  have h := audited_run u calls
  exact ⟨h.reconciled.pairs, fun k e he =>
    ⟨h.posted.onHand k e he, (h.reconciled.active k e he).symm⟩,
    fun m hm => h.posted.recorded m.posting (List.mem_map_of_mem hm)⟩

/-! ## Adjustments below what is reserved -/

abbrev InventoryEvent (u : Surroundings) :=
  Event (StockLevelRepository u) InventoryCall InventoryResult

namespace StockLevelRepository

/-- The quantities of every record make sense. -/
def Sane (r : StockLevelRepository u) : Prop :=
  ∀ k e, r.stock.get k = some e → 0 ≤ e.quantityReserved ∧ e.quantityReserved ≤ e.quantityOnHand ∧
    e.quantityAvailable = e.quantityOnHand - e.quantityReserved ∧ 0 ≤ e.quantityAvailable

/-- What a pair has available; nothing without a record. -/
def availableOf (r : StockLevelRepository u) (warehouseId sku : String) : ℤ :=
  ((r.recordOf warehouseId sku).map StockLevelEntity.quantityAvailable).getD 0

end StockLevelRepository

/-- An adjustment takes no more than its pair has available. -/
def Affordable (e : InventoryEvent u) : Prop :=
  ∀ dto, e.input = .adjustStock dto →
    0 ≤ e.before.availableOf dto.warehouseId dto.sku + dto.quantityDelta

section Sane

variable {r : StockLevelRepository u} {dto : AdjustStockDTO}

theorem StockLevelRepository.Balanced.sane (h : r.Balanced) : r.Sane := by
  intro k e he
  have hactive := h.active k e he
  have hnonneg := h.reconciled.activeQty_nonneg e.warehouseId e.sku
  have hbound := h.bound k e he
  have hcomputed := h.computed k e he
  omega

theorem availableOf_none (hg : r.getStock dto.warehouseId dto.sku = none) :
    r.availableOf dto.warehouseId dto.sku = 0 := by
  rw [availableOf, recordOf, hg]
  rfl

theorem availableOf_some {ref : String} {e : StockLevelEntity}
    (hg : r.getStock dto.warehouseId dto.sku = some ref) (he : r.stock.get ref = some e) :
    r.availableOf dto.warehouseId dto.sku = e.quantityAvailable := by
  rw [availableOf, recordOf, hg, Option.bind_some, he]
  rfl

/-- **An affordable adjustment** leaves no more reserved than on hand. -/
theorem StockLevelRepository.Balanced.adjustStock (h : r.Balanced) (ha : r.Audited)
    (hafford : 0 ≤ r.availableOf dto.warehouseId dto.sku + dto.quantityDelta) :
    (adjustStock r dto).1.Balanced := by
  refine (ha.adjustStock dto).reconciled.balanced fun k e he => ?_
  cases hg : r.getStock dto.warehouseId dto.sku with
  | none =>
    rw [availableOf_none hg] at hafford
    rw [adjustStock_none hg] at he
    rcases get_insertStock he with ⟨-, rfl⟩ | he
    · change 0 ≤ dto.quantityDelta
      omega
    · exact h.bound k e he
  | some ref =>
    obtain ⟨e₁, he₁, -⟩ := getStock_some hg
    have hcomputed := h.computed ref e₁ he₁
    rw [availableOf_some hg he₁] at hafford
    rw [adjustStock_some hg] at he
    obtain ⟨e₀, he₀, rfl⟩ := get_mutateStock he
    have hbound := h.bound k e₀ he₀
    split_ifs with hk
    · subst hk
      rw [he₁] at he₀; cases he₀
      change e₁.quantityReserved ≤ e₁.quantityOnHand + dto.quantityDelta
      omega
    · exact hbound

/-- **An adjustment that takes more than is available** leaves a record with more reserved than on
hand. -/
theorem not_sane_adjustStock (h : r.Computed)
    (hafford : ¬ 0 ≤ r.availableOf dto.warehouseId dto.sku + dto.quantityDelta) :
    ¬ (adjustStock r dto).1.Sane := by
  intro hsane
  cases hg : r.getStock dto.warehouseId dto.sku with
  | none =>
    rw [availableOf_none hg] at hafford
    rw [adjustStock_none hg] at hsane
    have hle := (hsane _ _ (JsMap.get_set_self _ _ _)).2.1
    change 0 ≤ dto.quantityDelta at hle
    omega
  | some ref =>
    obtain ⟨e, he, -⟩ := getStock_some hg
    have hcomputed := h ref e he
    rw [availableOf_some hg he] at hafford
    rw [adjustStock_some hg] at hsane
    have hle := (hsane ref _ (mutateStock_get he ref _)).2.1
    rw [if_pos rfl] at hle
    change e.quantityReserved ≤ e.quantityOnHand + dto.quantityDelta at hle
    omega

theorem StockLevelRepository.Balanced.next (h : r.Balanced) (ha : r.Audited) {c : InventoryCall}
    (hafford : Affordable ((inventoryMachine u).event r c)) :
    ((inventoryMachine u).next r c).Balanced := by
  rw [inventory_next]
  cases c with
  | adjustStock dto => exact h.adjustStock ha (hafford dto rfl)
  | reserveItemsForOrder dto =>
    refine reserveItemsForOrder_induction (fun r item ref e h hg he hle => ?_) h
    obtain ⟨e', he', hw, hs⟩ := getStock_some hg
    rw [he] at he'; cases he'
    exact h.reserve item.quantity_pos he hw hs hle
  | releaseReservation id =>
    rcases releaseReservation_cases h.reconciled id with
      hr | ⟨s, ref, e, hs, hactive, he, hw, hsku, hr⟩
    · change (r.releaseReservation id).Balanced
      rw [hr]
      exact h
    · change (r.releaseReservation id).Balanced
      rw [hr]
      exact h.release hs he hw hsku (Or.inl hactive)

end Sane

/-- **The runs in which the quantities stay sane** are those in which no adjustment takes more than
its pair has available. -/
theorem stock_sane_iff (u : Surroundings) (calls : List InventoryCall) :
    (∀ e ∈ (inventoryMachine u).history (new u) calls, e.after.Sane) ↔
      ∀ e ∈ (inventoryMachine u).history (new u) calls, Affordable e := by
  constructor
  · intro hsane e he dto hdto
    have hafter := hsane e he
    obtain ⟨js, c, ks, rfl, rfl⟩ := Machine.mem_history_iff.mp he
    obtain rfl : c = .adjustStock dto := hdto
    by_contra hafford
    exact not_sane_adjustStock (audited_run u js).reconciled.computed hafford hafter
  · intro hafford
    have hrun : (∀ e ∈ (inventoryMachine u).history (new u) calls, e.after.Sane) ∧
        ((inventoryMachine u).run (new u) calls).Balanced ∧
        ((inventoryMachine u).run (new u) calls).Audited := by
      refine Machine.history_invariant
        (J := fun es r => (∀ e ∈ es, e.after.Sane) ∧ r.Balanced ∧ r.Audited) ?_ ?_ calls hafford
      · exact ⟨fun _ he => absurd he List.not_mem_nil, (stocked_new u).balanced, audited_new u⟩
      · intro es r c ⟨hes, hb, ha⟩ hok
        have hnext := hb.next ha hok
        refine ⟨fun e he => ?_, hnext, ha.next c⟩
        rcases List.mem_append.mp he with he | he
        · exact hes e he
        · obtain rfl := List.mem_singleton.mp he
          exact hnext.sane
    exact hrun.1

section Counterexample

theorem three_le_sku : 3 ≤ jsLength "SKU-1" := by decide

/-- A change of `delta` units of one sku. -/
def adjustBy (movementType : StockMovementType) (delta : ℤ) : InventoryCall :=
  .adjustStock ⟨"T-1", "WH-1", "BIN-1", "SKU-1", movementType, delta, none, "U-1", none,
    three_le_sku⟩

/-- **More reserved than on hand**: of ten units eight are reserved, then five are scrapped. -/
theorem scrap_below_reserved :
    ¬ ∀ calls, ((inventoryMachine .unary).run (new .unary) calls).Sane := by
  intro h
  have hrec : (((inventoryMachine .unary).run (new .unary) [adjustBy .INBOUND_RECEIPT 10,
      .reserveItemsForOrder ⟨"T-1", "O-1", "WH-1", [⟨"SKU-1", 8, by decide, by decide⟩], by decide⟩,
      adjustBy .DAMAGE_SCRAP (-5)]).recordOf "WH-1" "SKU-1").any fun e =>
        decide (e.quantityOnHand < e.quantityReserved) := by decide
  obtain ⟨e, he, hlt⟩ := (Option.any_eq_true _ _).mp hrec
  obtain ⟨ref, -, hget, -⟩ := recordOf_some he
  exact absurd (h _ ref e hget).2.1 (not_le.mpr (of_decide_eq_true hlt))

end Counterexample

end Logix.Inventory
