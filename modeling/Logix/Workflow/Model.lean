import Logix.Common.Errors
import Logix.Js.Map
import Logix.Spec.Machine

/-!
# The order fulfillment workflow

`OrderFulfillmentWorkflowOrchestrator` keeps a workflow of five steps for each order. A report on
a step arrives as a call of `advanceStep`; its only `await` is on `triggerCompensation`, after
which it returns, so a call is one turn.

* `IOrderFulfillmentContext`: a workflow, with its five step ids as an invariant;
* `complete`, `abort`: what a report does to the workflow;
* `initializeWorkflow`, `advanceStep`, `orchestratorMachine`: the orchestrator.

The time stamps are left out: no method reads them.
-/

namespace Logix.Workflow

open Spec

/-- The status of a step. -/
inductive StepStatus where
  | PENDING | IN_PROGRESS | COMPLETED | FAILED | COMPENSATED
  deriving DecidableEq, Repr

/-- The status of a workflow. -/
inductive OverallStatus where
  | INITIALIZED | PROCESSING | FULFILLED | CANCELLED
  deriving DecidableEq, Repr

/-- `IFulfillmentStep`, with `D` the type of the output payloads. -/
structure IFulfillmentStep (D : Type) where
  stepId : String
  stepName : String
  serviceTarget : String
  status : StepStatus := .PENDING
  retryCount : ℕ := 0
  outputPayload : Option D := none
  errorMessage : Option String := none
  deriving DecidableEq, Repr

variable {D : Type}

/-- The steps of a new workflow. -/
def fulfillmentSteps : List (IFulfillmentStep D) :=
  [{ stepId := "step_1", stepName := "VALIDATE_ORDER_INTEGRITY", serviceTarget := "order-service" },
   { stepId := "step_2", stepName := "RESERVE_INVENTORY_STOCK",
     serviceTarget := "inventory-service" },
   { stepId := "step_3", stepName := "AUTHORIZE_CUSTOMER_PAYMENT",
     serviceTarget := "billing-service" },
   { stepId := "step_4", stepName := "DISPATCH_CARRIER_SHIPMENT",
     serviceTarget := "logistics-service" },
   { stepId := "step_5", stepName := "SEND_DISPATCH_NOTIFICATIONS",
     serviceTarget := "notification-service" }]

/-- The ids of the five steps. -/
def stepIds : List String := ["step_1", "step_2", "step_3", "step_4", "step_5"]

/-- `IOrderFulfillmentContext`. The steps keep their ids and their order. -/
structure IOrderFulfillmentContext (D : Type) where
  fulfillmentWorkflowId : String
  orderId : String
  tenantId : String
  customerId : String
  destinationWarehouseId : String
  steps : List (IFulfillmentStep D)
  overallStatus : OverallStatus
  ids : steps.map IFulfillmentStep.stepId = stepIds
  deriving DecidableEq

namespace IOrderFulfillmentContext

/-- Mutate the step at position `i`, in fields other than its id. -/
def mutate (wf : IOrderFulfillmentContext D) (i : ℕ) (f : IFulfillmentStep D → IFulfillmentStep D)
    (hf : ∀ s, (f s).stepId = s.stepId) : IOrderFulfillmentContext D where
  __ := wf
  steps := wf.steps.modify i f
  ids := by
    rw [← wf.ids]
    refine List.ext_getElem? fun j => ?_
    simp only [List.getElem?_map, List.getElem?_modify]
    cases wf.steps[j]? with
    | none => rfl
    | some s => by_cases hij : i = j <;> simp [hij, hf]

/-- `triggerCompensation(wf, failedStepId)`. -/
def triggerCompensation (wf : IOrderFulfillmentContext D) : IOrderFulfillmentContext D where
  __ := wf
  steps := wf.steps.map fun s => if s.status = .COMPLETED then { s with status := .COMPENSATED } else s
  ids := by
    rw [← wf.ids, List.map_map]
    refine List.map_congr_left fun s _ => ?_
    rw [Function.comp_apply]
    split_ifs <;> rfl

end IOrderFulfillmentContext

/-- **`OrderFulfillmentWorkflowOrchestrator`.** -/
structure OrderFulfillmentWorkflowOrchestrator (D : Type) where
  workflows : JsMap String (IOrderFulfillmentContext D)

/-- A call of `advanceStep`. -/
structure AdvanceStep (D : Type) where
  workflowId : String
  stepId : String
  isSuccess : Bool
  outputData : Option D := none
  errorMsg : Option String := none

namespace IOrderFulfillmentContext

/-- `advanceStep` on a success report for the step at position `i`. -/
def complete (wf : IOrderFulfillmentContext D) (i : ℕ) (outputData : Option D) :
    IOrderFulfillmentContext D :=
  let wf := wf.mutate i (fun s => { s with status := .COMPLETED, outputPayload := outputData })
    fun _ => rfl
  if wf.steps.all (·.status = .COMPLETED) then { wf with overallStatus := .FULFILLED }
  else
    let wf := { wf with overallStatus := .PROCESSING }
    wf.mutate (wf.steps.findIdx (·.status = .PENDING)) (fun s => { s with status := .IN_PROGRESS })
      fun _ => rfl

/-- `advanceStep` on a failure report for the step at position `i`. -/
def abort (wf : IOrderFulfillmentContext D) (i : ℕ) (errorMsg : Option String) :
    IOrderFulfillmentContext D :=
  let wf := wf.mutate i (fun s => { s with status := .FAILED, errorMessage := errorMsg })
    fun _ => rfl
  { wf with overallStatus := .CANCELLED }.triggerCompensation

/-- `advanceStep`, once the workflow and the position of the step are found. -/
def advance (wf : IOrderFulfillmentContext D) (i : ℕ) (c : AdvanceStep D) :
    IOrderFulfillmentContext D :=
  if c.isSuccess then wf.complete i c.outputData else wf.abort i c.errorMsg

end IOrderFulfillmentContext

namespace OrderFulfillmentWorkflowOrchestrator

/-- The context that `initializeWorkflow` builds. -/
def newContext (orderId tenantId customerId warehouseId workflowId : String) :
    IOrderFulfillmentContext D where
  fulfillmentWorkflowId := workflowId
  orderId := orderId
  tenantId := tenantId
  customerId := customerId
  destinationWarehouseId := warehouseId
  steps := fulfillmentSteps
  overallStatus := .INITIALIZED
  ids := rfl

/-- `initializeWorkflow(orderId, tenantId, customerId, warehouseId)`, with the generated id. -/
def initializeWorkflow (o : OrderFulfillmentWorkflowOrchestrator D)
    (orderId tenantId customerId warehouseId workflowId : String) :
    OrderFulfillmentWorkflowOrchestrator D × IOrderFulfillmentContext D :=
  let ctx := newContext orderId tenantId customerId warehouseId workflowId
  ({ workflows := o.workflows.set workflowId ctx }, ctx)

/-- **`advanceStep(workflowId, stepId, isSuccess, outputData, errorMsg)`.** -/
def advanceStep (o : OrderFulfillmentWorkflowOrchestrator D) (c : AdvanceStep D) :
    OrderFulfillmentWorkflowOrchestrator D × Except DomainException (IOrderFulfillmentContext D) :=
  match o.workflows.get c.workflowId with
  | none => (o, .error (.error s!"Workflow {c.workflowId} not found"))
  | some wf =>
    match wf.steps.findIdx? (·.stepId = c.stepId) with
    | none => (o, .error (.error s!"Step {c.stepId} not found in workflow"))
    | some i =>
      ({ workflows := o.workflows.modify c.workflowId fun wf => wf.advance i c },
        .ok (wf.advance i c))

/-- `getWorkflowStatus(workflowId)`. -/
def getWorkflowStatus (o : OrderFulfillmentWorkflowOrchestrator D) (workflowId : String) :
    Option (IOrderFulfillmentContext D) := o.workflows.get workflowId

end OrderFulfillmentWorkflowOrchestrator

/-- The orchestrator under calls of `advanceStep`. -/
def orchestratorMachine (D : Type) : Machine (OrderFulfillmentWorkflowOrchestrator D)
    (AdvanceStep D) (Except DomainException (IOrderFulfillmentContext D)) where
  call c o := o.advanceStep c

end Logix.Workflow
