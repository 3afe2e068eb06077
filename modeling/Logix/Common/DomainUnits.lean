import Logix.Js.Map
import Logix.Spec.LastWrite
import Logix.Spec.Slots

/-!
# Domain units

Seven services have an `EnterpriseDomainModule` each, with the same code.

* `EnterpriseDomainModule`, `unitMachine`: the code;
* `slotMachine`, `unitMachine_slotted`: every unit is a machine of its own;
* `auditOf`: the audit entries of a list of calls, from a state on;
* `stateOfAction`, **`stateOfTrail_auditOf`**: the state can be read off the audit trail;
* **`audited_unit`**: a unit is what the calls since its last creation make of it, and its audit trail
  tells all of them.

Payloads have any values. The time stamps are left out: no method reads them.
-/

namespace Logix.Common

open Spec

variable {V : Type}

/-- The `state` of a unit. -/
inductive UnitState where
  | INITIALIZED | PROCESSING | COMPLETED | SUSPENDED
  deriving DecidableEq, Repr

/-- The text of a state. -/
def UnitState.text : UnitState → String
  | .INITIALIZED => "INITIALIZED"
  | .PROCESSING => "PROCESSING"
  | .COMPLETED => "COMPLETED"
  | .SUSPENDED => "SUSPENDED"

/-- An entry of `auditTrail`. -/
structure UnitAudit where
  action : String
  userId : String
  deriving DecidableEq, Repr

/-- `IDomainUnit`. -/
structure IDomainUnit (V : Type) where
  unitId : String
  tenantId : String
  operationalCode : String
  executionPriority : ℚ
  state : UnitState
  payloadMap : JsMap String V
  auditTrail : List UnitAudit
  deriving DecidableEq

/-- The first audit entry of a unit. -/
def unitCreated : UnitAudit := ⟨"UNIT_CREATED", "system"⟩

/-- The action of `setPayload`. -/
def payloadAction (key : String) : String := "PAYLOAD_UPDATED:" ++ key

/-- The action of `transitionState`. -/
def transitionAction (oldState newState : UnitState) : String :=
  "STATE_TRANSITION:" ++ oldState.text ++ "->" ++ newState.text

/-- The unit that `createUnit` stores. -/
def newUnit (unitId tenantId operationalCode : String) (executionPriority : ℚ) : IDomainUnit V where
  unitId := unitId
  tenantId := tenantId
  operationalCode := operationalCode
  executionPriority := executionPriority
  state := .INITIALIZED
  payloadMap := .empty
  auditTrail := [unitCreated]

/-- The mutation of `setPayload`. -/
def IDomainUnit.setPayload (unit : IDomainUnit V) (key : String) (value : V)
    (actorUserId : String) : IDomainUnit V :=
  { unit with
    payloadMap := unit.payloadMap.set key value
    auditTrail := unit.auditTrail ++ [⟨payloadAction key, actorUserId⟩] }

/-- The mutation of `transitionState`. -/
def IDomainUnit.transitionState (unit : IDomainUnit V) (newState : UnitState)
    (actorUserId : String) : IDomainUnit V :=
  { unit with
    state := newState
    auditTrail := unit.auditTrail ++ [⟨transitionAction unit.state newState, actorUserId⟩] }

/-- **`EnterpriseDomainModule`.** -/
structure EnterpriseDomainModule (V : Type) where
  units : JsMap String (IDomainUnit V)

namespace EnterpriseDomainModule

/-- `new EnterpriseDomainModule()`. -/
def new : EnterpriseDomainModule V := ⟨.empty⟩

/-- **`createUnit(unitId, tenantId, operationalCode, executionPriority)`.** -/
def createUnit (m : EnterpriseDomainModule V) (unitId tenantId operationalCode : String)
    (executionPriority : ℚ := 100) : EnterpriseDomainModule V :=
  ⟨m.units.set unitId (newUnit unitId tenantId operationalCode executionPriority)⟩

/-- **`setPayload(unitId, key, value, actorUserId)`.** -/
def setPayload (m : EnterpriseDomainModule V) (unitId key : String) (value : V)
    (actorUserId : String) : EnterpriseDomainModule V × Bool :=
  match m.units.get unitId with
  | none => (m, false)
  | some _ => (⟨m.units.modify unitId fun unit => unit.setPayload key value actorUserId⟩, true)

/-- **`transitionState(unitId, newState, actorUserId)`.** -/
def transitionState (m : EnterpriseDomainModule V) (unitId : String) (newState : UnitState)
    (actorUserId : String) : EnterpriseDomainModule V × Bool :=
  match m.units.get unitId with
  | none => (m, false)
  | some _ => (⟨m.units.modify unitId fun unit => unit.transitionState newState actorUserId⟩, true)

/-- `getUnit(unitId)`. -/
def getUnit (m : EnterpriseDomainModule V) (unitId : String) : Option (IDomainUnit V) :=
  m.units.get unitId

end EnterpriseDomainModule

open EnterpriseDomainModule

/-- A call that changes a unit. -/
inductive UnitCall (V : Type) where
  | createUnit (unitId tenantId operationalCode : String) (executionPriority : ℚ)
  | setPayload (unitId key : String) (value : V) (actorUserId : String)
  | transitionState (unitId : String) (newState : UnitState) (actorUserId : String)
  deriving DecidableEq, Repr

/-- The unit of a call. -/
def UnitCall.unitId : UnitCall V → String
  | .createUnit unitId _ _ _ | .setPayload unitId _ _ _ | .transitionState unitId _ _ => unitId

/-- **The module as a machine.** A call returns whether it changed a unit. -/
def unitMachine (V : Type) : Machine (EnterpriseDomainModule V) (UnitCall V) Bool where
  call i m :=
    match i with
    | .createUnit unitId tenantId operationalCode executionPriority =>
      (m.createUnit unitId tenantId operationalCode executionPriority, true)
    | .setPayload unitId key value actorUserId => m.setPayload unitId key value actorUserId
    | .transitionState unitId newState actorUserId => m.transitionState unitId newState actorUserId

/-! ## One unit -/

/-- What a call makes of its unit. -/
def UnitCall.onUnit (unit : Option (IDomainUnit V)) : UnitCall V → Option (IDomainUnit V)
  | .createUnit unitId tenantId operationalCode executionPriority =>
    some (newUnit unitId tenantId operationalCode executionPriority)
  | .setPayload _ key value actorUserId => unit.map fun u => u.setPayload key value actorUserId
  | .transitionState _ newState actorUserId =>
    unit.map fun u => u.transitionState newState actorUserId

/-- **One unit as a machine.** -/
def slotMachine (V : Type) : Machine (Option (IDomainUnit V)) (UnitCall V) Bool where
  call i unit := (i.onUnit unit, (i.onUnit unit).isSome)

/-- **Every unit is a machine of its own.** -/
theorem unitMachine_slotted :
    (unitMachine V).Slotted (slotMachine V) UnitCall.unitId fun unitId m => m.getUnit unitId where
  own m i := by
    cases i with
    | createUnit unitId tenantId operationalCode executionPriority =>
      refine Prod.ext ?_ rfl
      exact (JsMap.get_set_self _ _ _).symm
    | setPayload unitId key value actorUserId =>
      cases h : m.units.get unitId with
      | none => simp [slotMachine, Machine.next, unitMachine, setPayload, getUnit,
          UnitCall.onUnit, UnitCall.unitId, h]
      | some unit => simp [slotMachine, Machine.next, unitMachine, setPayload, getUnit,
          UnitCall.onUnit, UnitCall.unitId, h, JsMap.get_modify]
    | transitionState unitId newState actorUserId =>
      cases h : m.units.get unitId with
      | none => simp [slotMachine, Machine.next, unitMachine, transitionState, getUnit,
          UnitCall.onUnit, UnitCall.unitId, h]
      | some unit => simp [slotMachine, Machine.next, unitMachine, transitionState, getUnit,
          UnitCall.onUnit, UnitCall.unitId, h, JsMap.get_modify]
  other m i k hk := by
    cases i with
    | createUnit unitId tenantId operationalCode executionPriority => exact JsMap.get_set_ne hk _
    | setPayload unitId key value actorUserId =>
      simp only [Machine.next, unitMachine, setPayload]
      split
      · rfl
      · exact JsMap.get_modify_ne hk _
    | transitionState unitId newState actorUserId =>
      simp only [Machine.next, unitMachine, transitionState]
      split
      · rfl
      · exact JsMap.get_modify_ne hk _

/-! ## Audit trails -/

/-- The audit entries of a call on a unit in a state. -/
def UnitCall.audit (state : UnitState) : UnitCall V → List UnitAudit
  | .createUnit _ _ _ _ => []
  | .setPayload _ key _ actorUserId => [⟨payloadAction key, actorUserId⟩]
  | .transitionState _ newState actorUserId => [⟨transitionAction state newState, actorUserId⟩]

/-- The state after such a call. -/
def UnitCall.stateAfter (state : UnitState) : UnitCall V → UnitState
  | .transitionState _ newState _ => newState
  | _ => state

/-- **The audit entries of a list of calls**, from a state on. -/
def auditOf : UnitState → List (UnitCall V) → List UnitAudit
  | _, [] => []
  | state, i :: is => i.audit state ++ auditOf (i.stateAfter state) is

/-- The payload that a call writes. -/
def UnitCall.write : UnitCall V → Option (String × V)
  | .setPayload _ key value _ => some (key, value)
  | _ => none

/-- The transitions that there are. -/
def allTransitions : List (UnitState × UnitState) :=
  [UnitState.INITIALIZED, .PROCESSING, .COMPLETED, .SUSPENDED].flatMap fun oldState =>
    [(oldState, .INITIALIZED), (oldState, .PROCESSING), (oldState, .COMPLETED),
      (oldState, .SUSPENDED)]

/-- The new state of an action, if it is a transition. -/
def stateOfAction (action : String) : Option UnitState :=
  (allTransitions.find? fun t => transitionAction t.1 t.2 = action).map Prod.snd

/-- **The state that an audit trail tells.** -/
def stateOfTrail (trail : List UnitAudit) : UnitState :=
  (trail.filterMap fun e => stateOfAction e.action).getLast?.getD .INITIALIZED

theorem stateOfAction_transitionAction (oldState newState : UnitState) :
    stateOfAction (transitionAction oldState newState) = some newState := by
  cases oldState <;> cases newState <;> decide

theorem head_transitionAction (oldState newState : UnitState) :
    (transitionAction oldState newState).toList.head? = some 'S' := by
  cases oldState <;> cases newState <;> decide

theorem head_payloadAction (key : String) : (payloadAction key).toList.head? = some 'P' := by
  rw [payloadAction, String.toList_append]
  rfl

theorem stateOfAction_payloadAction (key : String) : stateOfAction (payloadAction key) = none := by
  rw [stateOfAction, Option.map_eq_none_iff, List.find?_eq_none]
  intro t _ h
  have hletter := head_transitionAction t.1 t.2
  rw [of_decide_eq_true h, head_payloadAction] at hletter
  exact absurd hletter (by decide)

theorem stateOfTrail_concat (trail : List UnitAudit) (e : UnitAudit) :
    stateOfTrail (trail ++ [e]) = (stateOfAction e.action).getD (stateOfTrail trail) := by
  rw [stateOfTrail, List.filterMap_append]
  cases h : stateOfAction e.action with
  | none => simp [h, stateOfTrail]
  | some state => simp [h]

theorem auditOf_concat (state : UnitState) (is : List (UnitCall V)) (i : UnitCall V) :
    auditOf state (is ++ [i]) =
      auditOf state is ++ i.audit (is.foldl UnitCall.stateAfter state) := by
  induction is generalizing state with
  | nil => exact List.append_nil _
  | cons j is ih => rw [List.cons_append, auditOf, ih, auditOf, List.append_assoc, List.foldl_cons]

/-- Does the call create a unit? -/
def UnitCall.isCreation : UnitCall V → Bool
  | .createUnit _ _ _ _ => true
  | _ => false

/-- **What the calls make of a unit** that they do not create again. -/
structure IDomainUnit.Follows (unit unit' : IDomainUnit V) (is : List (UnitCall V)) : Prop where
  unitId : unit'.unitId = unit.unitId
  tenantId : unit'.tenantId = unit.tenantId
  operationalCode : unit'.operationalCode = unit.operationalCode
  executionPriority : unit'.executionPriority = unit.executionPriority
  state : unit'.state = is.foldl UnitCall.stateAfter unit.state
  auditTrail : unit'.auditTrail = unit.auditTrail ++ auditOf unit.state is
  toldState : stateOfTrail unit.auditTrail = unit.state →
    stateOfTrail unit'.auditTrail = unit'.state
  payload : ∀ key, unit'.payloadMap.get key =
    (lastWrite (is.filterMap UnitCall.write) key).or (unit.payloadMap.get key)

theorem IDomainUnit.Follows.concat {unit unit' : IDomainUnit V} {is : List (UnitCall V)}
    (h : unit.Follows unit' is) {i : UnitCall V} (hi : i.isCreation = false) :
    ∃ unit'', i.onUnit (some unit') = some unit'' ∧ unit.Follows unit'' (is ++ [i]) := by
  obtain ⟨hid, htenant, hcode, hpriority, hstate, htrail, htold, hpayload⟩ := h
  cases i with
  | createUnit => cases hi
  | setPayload unitId key value actorUserId =>
    refine ⟨_, rfl, hid, htenant, hcode, hpriority, ?_, ?_, fun h₀ => ?_, fun key' => ?_⟩
    · rw [List.foldl_append]
      exact hstate
    · rw [auditOf_concat, ← List.append_assoc, ← htrail]
      rfl
    · refine (stateOfTrail_concat _ _).trans ?_
      rw [stateOfAction_payloadAction]
      exact htold h₀
    · have hlast : [UnitCall.setPayload unitId key value actorUserId].filterMap UnitCall.write =
          [(key, value)] := rfl
      rw [List.filterMap_append, hlast, lastWrite_concat, Function.update_apply]
      refine (JsMap.get_set _ _ _ _).trans ?_
      split_ifs with hkey
      · rfl
      · exact hpayload key'
  | transitionState unitId newState actorUserId =>
    refine ⟨_, rfl, hid, htenant, hcode, hpriority, ?_, ?_, fun h₀ => ?_, fun key' => ?_⟩
    · rw [List.foldl_append]
      rfl
    · rw [auditOf_concat, ← List.append_assoc, ← htrail, ← hstate]
      rfl
    · refine (stateOfTrail_concat _ _).trans ?_
      rw [stateOfAction_transitionAction]
      rfl
    · have hnone : [UnitCall.transitionState unitId newState actorUserId].filterMap
          (UnitCall.write (V := V)) = [] := rfl
      rw [List.filterMap_append, hnone, List.append_nil]
      exact hpayload key'

theorem run_slotMachine (unit : IDomainUnit V) (is : List (UnitCall V))
    (h : ∀ i ∈ is, i.isCreation = false) :
    ∃ unit', (slotMachine V).run (some unit) is = some unit' ∧ unit.Follows unit' is := by
  induction is using List.reverseRecOn with
  | nil => exact ⟨unit, rfl, rfl, rfl, rfl, rfl, rfl, (List.append_nil _).symm, id, fun _ => rfl⟩
  | append_singleton is i ih =>
    obtain ⟨unit', hrun, hfollows⟩ := ih fun j hj => h j (List.mem_append_left _ hj)
    obtain ⟨unit'', hnext, hfollows'⟩ :=
      hfollows.concat (h i (List.mem_append_right _ List.mem_cons_self))
    refine ⟨unit'', ?_, hfollows'⟩
    rw [Machine.run_concat, hrun]
    exact hnext

theorem run_slotMachine_none (is : List (UnitCall V)) (h : ∀ i ∈ is, i.isCreation = false) :
    (slotMachine V).run none is = none := by
  induction is with
  | nil => rfl
  | cons i is ih =>
    obtain ⟨hi, his⟩ := List.forall_mem_cons.mp h
    have hnext : (slotMachine V).next none i = none := by
      cases i with
      | createUnit => cases hi
      | _ => rfl
    exact (congrArg (fun unit => (slotMachine V).run unit is) hnext).trans (ih his)

theorem exists_last_creation (is : List (UnitCall V)) : (∀ i ∈ is, i.isCreation = false) ∨
    ∃ pre unitId tenantId operationalCode executionPriority post,
      is = pre ++ .createUnit unitId tenantId operationalCode executionPriority :: post ∧
        ∀ i ∈ post, i.isCreation = false := by
  induction is using List.reverseRecOn with
  | nil => exact Or.inl fun _ hi => absurd hi List.not_mem_nil
  | append_singleton is i ih =>
    by_cases hi : i.isCreation = true
    · cases i with
      | createUnit unitId tenantId operationalCode executionPriority =>
        exact Or.inr ⟨is, unitId, tenantId, operationalCode, executionPriority, [], rfl,
          fun _ hj => absurd hj List.not_mem_nil⟩
      | _ => cases hi
    · have hlast : ∀ j ∈ [i], j.isCreation = false := fun j hj => by
        rw [List.mem_singleton.mp hj]
        exact Bool.eq_false_of_not_eq_true hi
      rcases ih with h | ⟨pre, unitId, tenantId, code, priority, post, rfl, hpost⟩
      · exact Or.inl (List.forall_mem_append.mpr ⟨h, hlast⟩)
      · exact Or.inr ⟨pre, unitId, tenantId, code, priority, post ++ [i], by simp,
          List.forall_mem_append.mpr ⟨hpost, hlast⟩⟩

/-- **A unit in a run**: it is there when it was created; then it is what the calls on it since its
last creation make of it, its audit trail tells all of them, and the state can be read off. -/
theorem audited_unit (is : List (UnitCall V)) (unitId : String) :
    let calls := is.filter fun i => i.unitId = unitId
    let unit := ((unitMachine V).run .new is).getUnit unitId
    ((∀ i ∈ calls, i.isCreation = false) ∧ unit = none) ∨
      ∃ pre tenantId operationalCode executionPriority post,
        calls = pre ++ .createUnit unitId tenantId operationalCode executionPriority :: post ∧
        (∀ i ∈ post, i.isCreation = false) ∧ ∃ unit', unit = some unit' ∧
          (newUnit unitId tenantId operationalCode executionPriority).Follows unit' post ∧
          unit'.auditTrail = unitCreated :: auditOf .INITIALIZED post ∧
          stateOfTrail unit'.auditTrail = unit'.state := by
  intro calls unit
  have hunit : unit = (slotMachine V).run none calls :=
    unitMachine_slotted.slot_run .new is unitId
  rcases exists_last_creation calls with hnone | ⟨pre, id, tenantId, code, priority, post, hcalls,
    hpost⟩
  · exact Or.inl ⟨hnone, hunit.trans (run_slotMachine_none calls hnone)⟩
  · have hid : id = unitId := by
      have hmem : UnitCall.createUnit id tenantId code priority ∈ calls := by
        rw [hcalls]
        exact List.mem_append_right _ List.mem_cons_self
      exact of_decide_eq_true (List.mem_filter.mp hmem).2
    subst hid
    obtain ⟨unit', hrun, hfollows⟩ :=
      run_slotMachine (newUnit id tenantId code priority : IDomainUnit V) post hpost
    refine Or.inr ⟨pre, tenantId, code, priority, post, hcalls, hpost, unit', ?_, hfollows,
      hfollows.auditTrail, hfollows.toldState ?_⟩
    · rw [hunit, hcalls, Machine.run_append, ← hrun]
      rfl
    · have hcreated : stateOfTrail [unitCreated] = .INITIALIZED := by decide
      exact hcreated

end Logix.Common
