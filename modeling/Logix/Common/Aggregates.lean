import Logix.Js.Map
import Logix.Spec.EventSourcing
import Logix.Spec.LastWrite

/-!
# Aggregate roots

Seven services have twelve `AggregateRoot_*` classes each, whose code is the same up to the first
two parts of the event types, the `stream` here. The attributes have any values.

* `AggregateRoot`, `aggregateMachine`: the code;
* `applyEvent`: what an event says about the state; `aggregateEvents`: an aggregate root records
  what it does;
* `expectedEvents`: the events of a list of calls, read off the calls alone;
* **`events_rebuild_aggregate`**: the events that are pulled rebuild the aggregate, and each of them
  is pulled once.

The time stamps are left out: no method reads them.
-/

namespace Logix.Common

open Spec

variable {V : Type}

/-- `operationalStatus`. -/
inductive AggregateStatus where
  | ACTIVE | ARCHIVED | PENDING_APPROVAL | SUSPENDED
  deriving DecidableEq, Repr

/-- `AggregateState_*`. -/
structure AggregateState (V : Type) where
  aggregateId : String
  tenantId : String
  version : ℕ
  isDeleted : Bool
  operationalStatus : AggregateStatus
  attributeMap : JsMap String V
  deriving DecidableEq

/-- The `payload` of an event. -/
inductive AggregatePayload (V : Type) where
  | attribute (key : String) (value : V)
  | status (previousStatus newStatus : AggregateStatus)
  deriving DecidableEq, Repr

/-- An entry of `uncommittedEvents`. -/
structure AggregateEvent (V : Type) where
  eventType : String
  payload : AggregatePayload V
  deriving DecidableEq, Repr

/-- **`AggregateRoot_*`.** -/
structure AggregateRoot (V : Type) where
  state : AggregateState V
  uncommittedEvents : List (AggregateEvent V)
  deriving DecidableEq

namespace AggregateRoot

/-- `new AggregateRoot_*(aggregateId, tenantId)`. -/
def new (aggregateId tenantId : String) : AggregateRoot V where
  state :=
    { aggregateId := aggregateId
      tenantId := tenantId
      version := 1
      isDeleted := false
      operationalStatus := .ACTIVE
      attributeMap := .empty }
  uncommittedEvents := []

/-- The event of `setAttribute`. -/
def attributeUpdated (stream key : String) (value : V) : AggregateEvent V :=
  ⟨stream ++ ".attribute_updated", .attribute key value⟩

/-- The event of `transitionStatus`. -/
def statusTransitioned (stream : String) (prev newStatus : AggregateStatus) : AggregateEvent V :=
  ⟨stream ++ ".status_transitioned", .status prev newStatus⟩

/-- **`setAttribute(key, value)`.** -/
def setAttribute (stream : String) (root : AggregateRoot V) (key : String) (value : V) :
    AggregateRoot V where
  state := { root.state with attributeMap := root.state.attributeMap.set key value }
  uncommittedEvents := root.uncommittedEvents ++ [attributeUpdated stream key value]

/-- `getAttribute(key)`. -/
def getAttribute (root : AggregateRoot V) (key : String) : Option V :=
  root.state.attributeMap.get key

/-- **`transitionStatus(newStatus)`.** -/
def transitionStatus (stream : String) (root : AggregateRoot V) (newStatus : AggregateStatus) :
    AggregateRoot V where
  state :=
    { root.state with
      operationalStatus := newStatus
      version := root.state.version + 1 }
  uncommittedEvents := root.uncommittedEvents ++
    [statusTransitioned stream root.state.operationalStatus newStatus]

/-- **`pullUncommittedEvents()`.** -/
def pullUncommittedEvents (root : AggregateRoot V) : AggregateRoot V × List (AggregateEvent V) :=
  ({ root with uncommittedEvents := [] }, root.uncommittedEvents)

end AggregateRoot

open AggregateRoot

/-- A call of a method that changes the aggregate. -/
inductive AggregateCall (V : Type) where
  | setAttribute (key : String) (value : V)
  | transitionStatus (newStatus : AggregateStatus)
  | pullUncommittedEvents
  deriving DecidableEq, Repr

/-- **An aggregate root as a machine.** A call returns the events that it pulls. -/
def aggregateMachine (V : Type) (stream : String) :
    Machine (AggregateRoot V) (AggregateCall V) (List (AggregateEvent V)) where
  call i root :=
    match i with
    | .setAttribute key value => (root.setAttribute stream key value, [])
    | .transitionStatus newStatus => (root.transitionStatus stream newStatus, [])
    | .pullUncommittedEvents => root.pullUncommittedEvents

/-! ## Events -/

/-- **What an event says about the state.** -/
def applyEvent (state : AggregateState V) (event : AggregateEvent V) : AggregateState V :=
  match event.payload with
  | .attribute key value => { state with attributeMap := state.attributeMap.set key value }
  | .status _ newStatus =>
    { state with
      operationalStatus := newStatus
      version := state.version + 1 }

/-- The events of a call. -/
def AggregateCall.events (stream : String) (status : AggregateStatus) :
    AggregateCall V → List (AggregateEvent V)
  | .setAttribute key value => [attributeUpdated stream key value]
  | .transitionStatus newStatus => [statusTransitioned stream status newStatus]
  | .pullUncommittedEvents => []

/-- **An aggregate root records what it does.** -/
def aggregateEvents (V : Type) (stream : String) :
    Sourced (aggregateMachine V stream) (AggregateState V) (AggregateEvent V) where
  view := AggregateRoot.state
  pending := AggregateRoot.uncommittedEvents
  apply := applyEvent
  emits state i := i.events stream state.operationalStatus
  handsOut := id
  view_next root i := by cases i <;> rfl
  pending_next root i := by
    cases i with
    | pullUncommittedEvents => rfl
    | _ => rfl

/-- The status after a call. -/
def AggregateCall.statusAfter (status : AggregateStatus) : AggregateCall V → AggregateStatus
  | .transitionStatus newStatus => newStatus
  | _ => status

/-- **The events of a list of calls**, from a status on. -/
def expectedEvents (stream : String) :
    AggregateStatus → List (AggregateCall V) → List (AggregateEvent V)
  | _, [] => []
  | status, i :: is => i.events stream status ++ expectedEvents stream (i.statusAfter status) is

/-- The attribute that a call writes. -/
def AggregateCall.write : AggregateCall V → Option (String × V)
  | .setAttribute key value => some (key, value)
  | _ => none

/-- The status that a call sets. -/
def AggregateCall.newStatus : AggregateCall V → Option AggregateStatus
  | .transitionStatus newStatus => some newStatus
  | _ => none

variable {stream : String} {root : AggregateRoot V} {is : List (AggregateCall V)}

theorem status_next (root : AggregateRoot V) (i : AggregateCall V) :
    ((aggregateMachine V stream).next root i).state.operationalStatus =
      i.statusAfter root.state.operationalStatus := by
  cases i <;> rfl

theorem emitted_eq_expectedEvents (root : AggregateRoot V) (is : List (AggregateCall V)) :
    (aggregateEvents V stream).emitted ((aggregateMachine V stream).history root is) =
      expectedEvents stream root.state.operationalStatus is := by
  induction is generalizing root with
  | nil => rfl
  | cons i is ih =>
    rw [Machine.history, Sourced.emitted, List.flatMap_cons, ← Sourced.emitted, ih, status_next]
    rfl

theorem ids_run (root : AggregateRoot V) (is : List (AggregateCall V)) :
    ((aggregateMachine V stream).run root is).state.aggregateId = root.state.aggregateId ∧
      ((aggregateMachine V stream).run root is).state.tenantId = root.state.tenantId := by
  induction is using List.reverseRecOn with
  | nil => exact ⟨rfl, rfl⟩
  | append_singleton is i ih =>
    rw [Machine.run_concat]
    cases i <;> exact ih

theorem version_run (root : AggregateRoot V) (is : List (AggregateCall V)) :
    ((aggregateMachine V stream).run root is).state.version =
      root.state.version + (is.filterMap AggregateCall.newStatus).length := by
  induction is using List.reverseRecOn with
  | nil => rfl
  | append_singleton is i ih =>
    rw [Machine.run_concat, List.filterMap_append, List.length_append, ← Nat.add_assoc, ← ih]
    cases i <;> rfl

theorem status_run (root : AggregateRoot V) (is : List (AggregateCall V)) :
    ((aggregateMachine V stream).run root is).state.operationalStatus =
      (is.filterMap AggregateCall.newStatus).getLast?.getD root.state.operationalStatus := by
  induction is using List.reverseRecOn with
  | nil => rfl
  | append_singleton is i ih =>
    rw [Machine.run_concat, status_next, ih, List.filterMap_append]
    cases i with
    | transitionStatus newStatus =>
      have hlast : [AggregateCall.transitionStatus newStatus].filterMap
          (AggregateCall.newStatus (V := V)) = [newStatus] := rfl
      rw [hlast, List.getLast?_concat, Option.getD_some]
      rfl
    | _ => exact congrArg (fun l => (List.getLast? l).getD _) (List.append_nil _).symm

theorem getAttribute_run (root : AggregateRoot V) (is : List (AggregateCall V)) (key : String) :
    ((aggregateMachine V stream).run root is).getAttribute key =
      (lastWrite (is.filterMap AggregateCall.write) key).or (root.getAttribute key) := by
  induction is using List.reverseRecOn with
  | nil => rfl
  | append_singleton is i ih =>
    rw [Machine.run_concat, List.filterMap_append]
    cases i with
    | setAttribute key' value =>
      have hlast : [AggregateCall.setAttribute key' value].filterMap AggregateCall.write =
          [(key', value)] := rfl
      rw [hlast, lastWrite_concat, Function.update_apply]
      refine (JsMap.get_set _ _ _ _).trans ?_
      split_ifs with hkey
      · rfl
      · exact ih
    | _ => exact ih.trans (congrArg (fun l => (lastWrite l key).or _) (List.append_nil _).symm)

/-- **The events rebuild an aggregate**: every event is pulled once, in order, or is still to be
pulled; together they give the state; and so does what was pulled, after a pull. The version counts
the changes of the status, and an attribute has its last value. -/
theorem events_rebuild_aggregate (stream aggregateId tenantId : String)
    (is : List (AggregateCall V)) :
    let root := (aggregateMachine V stream).run (.new aggregateId tenantId) is
    let start : AggregateRoot V := .new aggregateId tenantId
    (aggregateEvents V stream).handedOut ((aggregateMachine V stream).history start is) ++
        root.uncommittedEvents = expectedEvents stream .ACTIVE is ∧
      (expectedEvents stream .ACTIVE is).foldl applyEvent start.state = root.state ∧
      ((aggregateEvents V stream).handedOut ((aggregateMachine V stream).history start
        (is ++ [.pullUncommittedEvents]))).foldl applyEvent start.state = root.state ∧
      root.state.version = 1 + (is.filterMap AggregateCall.newStatus).length ∧
      root.state.operationalStatus =
        (is.filterMap AggregateCall.newStatus).getLast?.getD .ACTIVE ∧
      ∀ key, root.getAttribute key = lastWrite (is.filterMap AggregateCall.write) key := by
  intro root start
  have hemitted : (aggregateEvents V stream).emitted
      ((aggregateMachine V stream).history start is) = expectedEvents stream .ACTIVE is :=
    emitted_eq_expectedEvents start is
  refine ⟨?_, ?_, ?_, version_run start is, status_run start is, fun key => ?_⟩
  · have hall := (aggregateEvents V stream).handedOut_run (s := start) is
    rwa [hemitted] at hall
  · rw [← hemitted]
    exact ((aggregateEvents V stream).view_run (s := start) is).symm
  · have hempty : (aggregateEvents V stream).pending ((aggregateMachine V stream).run start
        (is ++ [.pullUncommittedEvents])) = [] := by
      rw [Machine.run_concat]
      rfl
    have hpulled := (aggregateEvents V stream).rebuild (s := start) rfl hempty
    rw [Machine.run_concat] at hpulled
    exact hpulled
  · exact (getAttribute_run start is key).trans Option.or_none

end Logix.Common
