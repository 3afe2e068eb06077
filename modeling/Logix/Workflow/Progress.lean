import Logix.Workflow.Model
import Mathlib.Data.List.GetD
import Mathlib.Tactic.SplitIfs

/-!
# The progress of a workflow

Which reports a workflow has had shows in its overall status and in the statuses of its steps. A
`Progress` is these two, for any number of steps.

* `Progress.report`: what a report on the step at position `i` does;
* **`progress_advance`**: `advanceStep` does that on the progress of its workflow;
* **`progressOf_next`**: so does every call of the orchestrator, and only to its own workflow.
-/

namespace Logix.Workflow

open Spec

/-- **The progress of a workflow.** -/
structure Progress where
  overallStatus : OverallStatus
  statuses : List StepStatus
  deriving DecidableEq, Repr

namespace Progress

/-- Mark the step at position `i`. -/
def mark (p : Progress) (i : ℕ) (status : StepStatus) : Progress :=
  { p with statuses := p.statuses.set i status }

/-- The next PENDING step starts. -/
def startNext (p : Progress) : Progress := p.mark (p.statuses.findIdx (· = .PENDING)) .IN_PROGRESS

/-- The COMPLETED steps are compensated. -/
def compensate (p : Progress) : Progress where
  overallStatus := .CANCELLED
  statuses := p.statuses.map fun s => if s = .COMPLETED then .COMPENSATED else s

/-- **A report on the step at position `i`.** -/
def report (p : Progress) (i : ℕ) (isSuccess : Bool) : Progress :=
  if isSuccess then
    let p := p.mark i .COMPLETED
    if ∀ s ∈ p.statuses, s = .COMPLETED then { p with overallStatus := .FULFILLED }
    else { p with overallStatus := .PROCESSING }.startNext
  else (p.mark i .FAILED).compensate

end Progress

variable {D : Type}

/-- The progress of a workflow. -/
def IOrderFulfillmentContext.progress (wf : IOrderFulfillmentContext D) : Progress :=
  ⟨wf.overallStatus, wf.steps.map IFulfillmentStep.status⟩

namespace IOrderFulfillmentContext

variable {wf : IOrderFulfillmentContext D} {i : ℕ} {c : AdvanceStep D}

theorem progress_mutate {f : IFulfillmentStep D → IFulfillmentStep D}
    {hf : ∀ s, (f s).stepId = s.stepId} (status : StepStatus) (hs : ∀ s, (f s).status = status) :
    (wf.mutate i f hf).progress = wf.progress.mark i status := by
  simp only [progress, mutate, Progress.mark, Progress.mk.injEq, true_and]
  refine List.ext_getElem? fun j => ?_
  rw [List.getElem?_map, List.getElem?_modify, List.getElem?_set, List.getElem?_map]
  by_cases hij : i = j
  · subst hij
    cases hj : wf.steps[i]? with
    | none => simpa using hj
    | some s =>
      have hlt := (List.getElem?_eq_some_iff.mp hj).1
      simp [hs, hlt]
  · simp [hij]

theorem progress_triggerCompensation :
    ({ wf with overallStatus := .CANCELLED } : IOrderFulfillmentContext D).triggerCompensation.progress
      = wf.progress.compensate := by
  simp only [progress, triggerCompensation, Progress.compensate, List.map_map, Progress.mk.injEq,
    true_and]
  refine List.map_congr_left fun s _ => ?_
  simp only [Function.comp_apply]
  split_ifs <;> rfl

theorem progress_complete (outputData : Option D) :
    (wf.complete i outputData).progress = wf.progress.report i true := by
  unfold complete Progress.report
  generalize hwf : wf.mutate i _ _ = wf'
  have hp : wf'.progress = wf.progress.mark i .COMPLETED := by
    rw [← hwf]
    exact progress_mutate .COMPLETED fun _ => rfl
  have hall : wf'.steps.all (·.status = .COMPLETED) = true ↔
      ∀ s ∈ wf'.progress.statuses, s = .COMPLETED := by
    simp [progress]
  simp only [if_true, ← hp]
  by_cases h : ∀ s ∈ wf'.progress.statuses, s = .COMPLETED
  · rw [if_pos (hall.mpr h), if_pos h]
    rfl
  · rw [if_neg fun ha => h (hall.mp ha), if_neg h]
    refine (progress_mutate .IN_PROGRESS ?_).trans ?_
    · exact fun _ => rfl
    · simp only [Progress.startNext, progress, List.findIdx_map]
      rfl

theorem progress_abort (errorMsg : Option String) :
    (wf.abort i errorMsg).progress = wf.progress.report i false :=
  progress_triggerCompensation.trans (congrArg _ (progress_mutate .FAILED fun _ => rfl))

/-- **On its progress, a workflow does what `report` says.** -/
theorem progress_advance : (wf.advance i c).progress = wf.progress.report i c.isSuccess := by
  unfold advance
  cases c.isSuccess
  · exact progress_abort c.errorMsg
  · exact progress_complete c.outputData

theorem length_statuses : wf.progress.statuses.length = 5 := by
  rw [progress, List.length_map, ← List.length_map IFulfillmentStep.stepId, wf.ids]
  rfl

end IOrderFulfillmentContext

/-! ## The orchestrator on one workflow -/

/-- The position of the step that a call is about. -/
def AdvanceStep.position (c : AdvanceStep D) : Option ℕ := stepIds.findIdx? (· = c.stepId)

/-- What a call does to the progress of its workflow. -/
def Progress.heard (p : Progress) (c : AdvanceStep D) : Progress :=
  c.position.elim p fun i => p.report i c.isSuccess

/-- The progress of workflow `w`. -/
def OrderFulfillmentWorkflowOrchestrator.progressOf (o : OrderFulfillmentWorkflowOrchestrator D)
    (w : String) : Option Progress := (o.getWorkflowStatus w).map IOrderFulfillmentContext.progress

section Orchestrator

open OrderFulfillmentWorkflowOrchestrator

variable {o : OrderFulfillmentWorkflowOrchestrator D} {c : AdvanceStep D} {w : String}

theorem AdvanceStep.findIdx?_steps (wf : IOrderFulfillmentContext D) (c : AdvanceStep D) :
    wf.steps.findIdx? (·.stepId = c.stepId) = c.position := by
  rw [position, ← wf.ids, List.findIdx?_map]
  rfl

theorem AdvanceStep.position_lt {i : ℕ} (h : c.position = some i) : i < 5 :=
  (List.findIdx?_eq_some_iff_findIdx_eq.mp h).1

theorem AdvanceStep.position_isSome : c.position.isSome ↔ c.stepId ∈ stepIds := by
  simp [position, List.findIdx?_isSome]

theorem workflows_advanceStep :
    (o.advanceStep c).1.workflows =
      c.position.elim o.workflows fun i => o.workflows.modify c.workflowId (·.advance i c) := by
  unfold advanceStep
  cases hg : o.workflows.get c.workflowId with
  | none =>
    cases c.position with
    | none => rfl
    | some i => rw [Option.elim_some, JsMap.modify_of_get_none hg]
  | some wf =>
    simp only [c.findIdx?_steps wf]
    cases c.position <;> rfl

/-- **Every call does to the workflows what `heard` says**, and only to its own. -/
theorem progressOf_next :
    ((orchestratorMachine D).next o c).progressOf w =
      (o.progressOf w).map fun p => if c.workflowId = w then p.heard c else p := by
  change ((o.advanceStep c).1.workflows.get w).map _ = ((o.workflows.get w).map _).map _
  rw [workflows_advanceStep, Option.map_map]
  unfold Progress.heard
  cases c.position with
  | none => simp [Function.comp_def]
  | some i =>
    rw [Option.elim_some, JsMap.get_modify]
    by_cases hw : w = c.workflowId
    · subst hw
      simp [Function.comp_def, IOrderFulfillmentContext.progress_advance]
    · simp [hw, Ne.symm hw, Function.comp_def]

theorem exists_next {wf : IOrderFulfillmentContext D} (h : o.getWorkflowStatus w = some wf)
    (c : AdvanceStep D) : ∃ wf', ((orchestratorMachine D).next o c).getWorkflowStatus w = some wf' ∧
      wf'.progress = if c.workflowId = w then wf.progress.heard c else wf.progress := by
  have hnext := progressOf_next (o := o) (c := c) (w := w)
  rw [progressOf, progressOf, h] at hnext
  exact Option.map_eq_some_iff.mp hnext

end Orchestrator

end Logix.Workflow
