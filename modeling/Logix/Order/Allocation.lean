import Logix.Js.Date
import Logix.Js.Map
import Logix.Spec.Stable

/-!
# The two-phase reservations of the allocation saga

`InventoryAllocationSagaCoordinator` keeps the status of the reservation of each saga. The clock and
the random number that a call reads are arguments.

* `initiateReservation`, `commitReservation`, `rollbackReservation`, `allocationMachine`: the code;
* `Decided`: a saga is committed, or rolled back; `Respects`: a call that overwrites no decision;
* `decided_next_iff`: what one call does to the decisions;
* **`decisions_final_iff`**: the decisions of a run are final exactly when all its calls respect
  them;
* `committed_then_reserved`: a committed saga is initiated again.
-/

namespace Logix.Order

open Spec

/-- `status` of a reservation. -/
inductive ReservationStatus where
  | RESERVED | COMMITTED | ROLLED_BACK
  deriving DecidableEq, Repr

/-- An entry of `reservations`. -/
structure Reservation where
  status : ReservationStatus
  expiresAt : Option JsDate
  deriving DecidableEq, Repr

/-- An item of `skuAllocations`. -/
structure SkuAllocation where
  sku : String
  quantity : ℚ
  warehouseId : String
  deriving DecidableEq, Repr

/-- `IReservationRequest`. -/
structure IReservationRequest where
  sagaId : String
  orderId : String
  tenantId : String
  skuAllocations : List SkuAllocation
  timeoutDurationMs : ℚ
  deriving DecidableEq, Repr

/-- What `initiateReservation` returns. -/
structure ReservationReceipt where
  sagaId : String
  isReserved : Bool
  reservationToken : JsString
  deriving DecidableEq, Repr

/-- **`InventoryAllocationSagaCoordinator`.** -/
structure InventoryAllocationSagaCoordinator where
  reservations : JsMap String Reservation

/-- The calls. `initiateReservation` reads the clock twice and a random number, in base 36;
`now` of a commit is the clock at its check of the expiry. -/
inductive AllocationCall where
  | initiateReservation (req : IReservationRequest) (tokenNow now : JsDate) (random : JsString)
  | commitReservation (sagaId : String) (now : JsDate)
  | rollbackReservation (sagaId : String)
  deriving DecidableEq, Repr

/-- The receipt of `initiateReservation`, and the `boolean` of the other calls. -/
inductive AllocationResult where
  | receipt (r : ReservationReceipt)
  | done (isDone : Bool)
  deriving DecidableEq, Repr

namespace InventoryAllocationSagaCoordinator

/-- `new InventoryAllocationSagaCoordinator()`. -/
def new : InventoryAllocationSagaCoordinator := ⟨.empty⟩

/-- **`initiateReservation(req)`.** -/
def initiateReservation (c : InventoryAllocationSagaCoordinator) (req : IReservationRequest)
    (tokenNow now : JsDate) (random : JsString) :
    InventoryAllocationSagaCoordinator × ReservationReceipt :=
  let token := js "res_tok_" ++ intToBase 36 tokenNow ++ substring random 2 6
  (⟨c.reservations.set req.sagaId
      { status := .RESERVED
        expiresAt := dateOf (now + req.timeoutDurationMs) }⟩,
    { sagaId := req.sagaId
      isReserved := true
      reservationToken := token })

/-- **`commitReservation(sagaId)`.** -/
def commitReservation (c : InventoryAllocationSagaCoordinator) (sagaId : String) (now : JsDate) :
    InventoryAllocationSagaCoordinator × Bool :=
  match c.reservations.get sagaId with
  | none => (c, false)
  | some r =>
    if r.status ≠ .RESERVED ∨ dateLt r.expiresAt (some now) then (c, false)
    else (⟨c.reservations.modify sagaId fun r => { r with status := .COMMITTED }⟩, true)

/-- **`rollbackReservation(sagaId)`.** -/
def rollbackReservation (c : InventoryAllocationSagaCoordinator) (sagaId : String) :
    InventoryAllocationSagaCoordinator × Bool :=
  match c.reservations.get sagaId with
  | none => (c, false)
  | some _ => (⟨c.reservations.modify sagaId fun r => { r with status := .ROLLED_BACK }⟩, true)

/-- The status of the reservation of a saga. -/
def statusOf (c : InventoryAllocationSagaCoordinator) (sagaId : String) :
    Option ReservationStatus := (c.reservations.get sagaId).map Reservation.status

end InventoryAllocationSagaCoordinator

open InventoryAllocationSagaCoordinator

/-- The coordinator under its calls. -/
def allocationMachine :
    Machine InventoryAllocationSagaCoordinator AllocationCall AllocationResult where
  call
    | .initiateReservation req tokenNow now random, c =>
      let (c', r) := c.initiateReservation req tokenNow now random
      (c', .receipt r)
    | .commitReservation sagaId now, c =>
      let (c', isDone) := c.commitReservation sagaId now
      (c', .done isDone)
    | .rollbackReservation sagaId, c =>
      let (c', isDone) := c.rollbackReservation sagaId
      (c', .done isDone)

/-- The clock readings of a call, in their order. -/
def AllocationCall.clocks : AllocationCall → List JsDate
  | .initiateReservation _ tokenNow now _ => [tokenNow, now]
  | .commitReservation _ now => [now]
  | .rollbackReservation _ => []

/-! ## Decisions -/

/-- A decision: committed, or rolled back. -/
def ReservationStatus.IsDecision : ReservationStatus → Prop
  | .RESERVED => False
  | .COMMITTED | .ROLLED_BACK => True

/-- **The saga is decided** as `d.2`. -/
def Decided (d : String × ReservationStatus) (c : InventoryAllocationSagaCoordinator) : Prop :=
  d.2.IsDecision ∧ c.statusOf d.1 = some d.2

/-- **The call overwrites no decision**: no initiation of a decided saga, and no rollback of a
committed one. -/
def Respects (c : InventoryAllocationSagaCoordinator) : AllocationCall → Prop
  | .initiateReservation req _ _ _ =>
    c.statusOf req.sagaId ≠ some .COMMITTED ∧ c.statusOf req.sagaId ≠ some .ROLLED_BACK
  | .commitReservation _ _ => True
  | .rollbackReservation sagaId => c.statusOf sagaId ≠ some .COMMITTED

section Step

variable {c : InventoryAllocationSagaCoordinator}

theorem statusOf_initiateReservation (c : InventoryAllocationSagaCoordinator)
    (req : IReservationRequest) (tokenNow now : JsDate) (random : JsString) (sagaId : String) :
    (c.initiateReservation req tokenNow now random).1.statusOf sagaId =
      if sagaId = req.sagaId then some .RESERVED else c.statusOf sagaId := by
  simp only [initiateReservation, statusOf, JsMap.get_set]
  split_ifs <;> rfl

theorem statusOf_commitReservation (c : InventoryAllocationSagaCoordinator) (committed : String)
    (now : JsDate) {sagaId : String} (h : c.statusOf sagaId ≠ some .RESERVED) :
    (c.commitReservation committed now).1.statusOf sagaId = c.statusOf sagaId := by
  unfold commitReservation
  cases hg : c.reservations.get committed with
  | none => rfl
  | some r =>
    simp only
    split_ifs with hrefused
    · rfl
    · have hne : sagaId ≠ committed := by
        rintro rfl
        refine h ?_
        rw [statusOf, hg]
        exact congrArg some (not_not.mp (not_or.mp hrefused).1)
      simp only [statusOf, JsMap.get_modify_ne hne]

theorem statusOf_rollbackReservation (c : InventoryAllocationSagaCoordinator)
    (rolledBack sagaId : String) : (c.rollbackReservation rolledBack).1.statusOf sagaId =
      if sagaId = rolledBack then (c.statusOf sagaId).map fun _ => .ROLLED_BACK
      else c.statusOf sagaId := by
  unfold rollbackReservation
  cases hg : c.reservations.get rolledBack with
  | none =>
    split_ifs with hkey
    · rw [hkey, statusOf, hg]
      rfl
    · rfl
  | some r =>
    simp only [statusOf, JsMap.get_modify]
    split_ifs with hkey
    · rw [hkey, hg]
      rfl
    · rfl

/-- **One call** keeps all decisions exactly when it respects them. -/
theorem decided_next_iff (c : InventoryAllocationSagaCoordinator) (i : AllocationCall) :
    (∀ d, Decided d c → Decided d (allocationMachine.next c i)) ↔ Respects c i := by
  cases i with
  | initiateReservation req tokenNow now random =>
    have hnext : allocationMachine.next c (.initiateReservation req tokenNow now random) =
        (c.initiateReservation req tokenNow now random).1 := rfl
    simp only [hnext, Decided, statusOf_initiateReservation]
    constructor
    · intro h
      constructor
      · intro hs
        have hlost := (h (req.sagaId, .COMMITTED) ⟨trivial, hs⟩).2
        rw [if_pos rfl] at hlost
        cases hlost
      · intro hs
        have hlost := (h (req.sagaId, .ROLLED_BACK) ⟨trivial, hs⟩).2
        rw [if_pos rfl] at hlost
        cases hlost
    · rintro ⟨hcommitted, hrolled⟩ ⟨sagaId, status⟩ ⟨hdecision, hs⟩
      refine ⟨hdecision, ?_⟩
      rw [if_neg, hs]
      rintro rfl
      cases status with
      | RESERVED => exact hdecision
      | COMMITTED => exact hcommitted hs
      | ROLLED_BACK => exact hrolled hs
  | commitReservation committed now =>
    refine iff_of_true (fun d hd => ⟨hd.1, ?_⟩) trivial
    refine (statusOf_commitReservation c committed now fun hs => ?_).trans hd.2
    have hreserved := Option.some.inj (hs.symm.trans hd.2)
    exact (hreserved ▸ hd.1 : ReservationStatus.IsDecision .RESERVED)
  | rollbackReservation rolledBack =>
    have hnext : allocationMachine.next c (.rollbackReservation rolledBack) =
        (c.rollbackReservation rolledBack).1 := rfl
    simp only [hnext, Decided, statusOf_rollbackReservation]
    constructor
    · intro h hs
      have hlost := (h (rolledBack, .COMMITTED) ⟨trivial, hs⟩).2
      rw [if_pos rfl, hs] at hlost
      cases hlost
    · rintro hcommitted ⟨sagaId, status⟩ ⟨hdecision, hs⟩
      refine ⟨hdecision, ?_⟩
      split_ifs with hkey
      · subst hkey
        rw [hs]
        cases status with
        | RESERVED => exact hdecision.elim
        | COMMITTED => exact absurd hs hcommitted
        | ROLLED_BACK => rfl
      · exact hs

end Step

/-! ## Runs -/

/-- **When are decisions final?** In a run from a new coordinator every decided saga keeps its
status in all later states exactly when no call initiates a decided saga or rolls a committed one
back. -/
theorem decisions_final_iff (calls : List AllocationCall) :
    allocationMachine.Stable new Decided calls ↔
      ∀ e ∈ allocationMachine.history new calls, Respects e.before e.input := by
  rw [Machine.stable_iff]
  refine forall₂_congr fun e he => ?_
  obtain ⟨js, i, -, -, rfl⟩ := Machine.mem_history_iff.mp he
  exact decided_next_iff _ i

/-- A request without items. -/
def emptyRequest : IReservationRequest where
  sagaId := "saga-1"
  orderId := "O-1"
  tenantId := "T-1"
  skuAllocations := []
  timeoutDurationMs := 60000

/-- **A committed saga is initiated again**, and is reserved then. -/
theorem committed_then_reserved :
    ¬ ∀ calls : List AllocationCall, (calls.flatMap AllocationCall.clocks).Pairwise (· ≤ ·) →
      allocationMachine.Stable new Decided calls := by
  intro h
  have hfinal := h [.initiateReservation emptyRequest 0 0 [], .commitReservation "saga-1" 1,
    .initiateReservation emptyRequest 2 2 []] (by decide)
  have hcommitted : Decided ("saga-1", .COMMITTED) (allocationMachine.run new
      [.initiateReservation emptyRequest 0 0 [], .commitReservation "saga-1" 1]) :=
    ⟨trivial, by decide +kernel⟩
  have hlost := (hfinal _ [.initiateReservation emptyRequest 2 2 []] [] rfl _ hcommitted).2
  exact absurd hlost (by decide +kernel)

end Logix.Order
