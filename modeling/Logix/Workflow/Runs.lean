import Logix.Workflow.Progress

/-!
# Runs of the fulfillment workflow

A workflow is initialized and then hears reports, for any step, in any order and any number of
times.

* **`status_faithful`**: the overall status is always that of the steps;
* **`stays_cancelled_iff`**: a cancelled workflow stays cancelled exactly as long as no success is
  reported to it.
-/

namespace Logix.Workflow

open Spec OrderFulfillmentWorkflowOrchestrator

variable {D : Type} {p p₁ : Progress} {i : ℕ} {isSuccess : Bool}

/-! ## Faithful statuses -/

/-- **The overall status is that of the steps.** -/
structure Progress.Faithful (p : Progress) : Prop where
  fulfilled : p.overallStatus = .FULFILLED ↔ ∀ s ∈ p.statuses, s = .COMPLETED
  cancelled : p.overallStatus = .CANCELLED →
    (∀ s ∈ p.statuses, s ≠ .COMPLETED) ∧ .FAILED ∈ p.statuses

namespace Progress

theorem not_completed_startNext (h : ¬ ∀ s ∈ p.statuses, s = .COMPLETED) :
    ¬ ∀ s ∈ p.startNext.statuses, s = .COMPLETED := by
  intro hall
  unfold startNext mark at hall
  by_cases hlt : p.statuses.findIdx (· = .PENDING) < p.statuses.length
  · exact StepStatus.noConfusion (hall .IN_PROGRESS (List.mem_set hlt _))
  · rw [List.set_eq_of_length_le (Nat.le_of_not_lt hlt)] at hall
    exact h hall

theorem mem_compensate {s : StepStatus} :
    s ∈ p.compensate.statuses ↔ s ≠ .COMPLETED ∧ (s ∈ p.statuses ∨
      s = .COMPENSATED ∧ .COMPLETED ∈ p.statuses) := by
  simp only [compensate, List.mem_map]
  constructor
  · rintro ⟨t, ht, rfl⟩
    by_cases hc : t = .COMPLETED
    · subst hc
      exact ⟨by simp, Or.inr ⟨if_pos rfl, ht⟩⟩
    · rw [if_neg hc]
      exact ⟨hc, Or.inl ht⟩
  · rintro ⟨hne, hs | ⟨rfl, hc⟩⟩
    · exact ⟨s, hs, if_neg hne⟩
    · exact ⟨.COMPLETED, hc, if_pos rfl⟩

theorem faithful_report (hi : i < p.statuses.length) : (p.report i isSuccess).Faithful := by
  cases isSuccess with
  | true =>
    rw [report, if_pos rfl]
    dsimp only
    split_ifs with hall
    · exact ⟨iff_of_true rfl hall, fun h => OverallStatus.noConfusion h⟩
    · refine ⟨iff_of_false (fun h => OverallStatus.noConfusion h) ?_,
        fun h => OverallStatus.noConfusion h⟩
      exact not_completed_startNext (p := { p.mark i .COMPLETED with overallStatus := .PROCESSING })
        hall
  | false =>
    have hf : .FAILED ∈ (p.mark i .FAILED).compensate.statuses :=
      mem_compensate.mpr ⟨by simp, Or.inl (List.mem_set hi _)⟩
    have hc : ∀ s ∈ (p.mark i .FAILED).compensate.statuses, s ≠ .COMPLETED :=
      fun s hs => (mem_compensate.mp hs).1
    exact ⟨iff_of_false (fun h => OverallStatus.noConfusion h) fun h => hc _ hf (h _ hf),
      fun _ => ⟨hc, hf⟩⟩

theorem Faithful.heard {c : AdvanceStep D} (h : p.Faithful) (hlen : p.statuses.length = 5) :
    (p.heard c).Faithful := by
  unfold Progress.heard
  cases hc : c.position with
  | none => exact h
  | some i => exact faithful_report (hlen ▸ c.position_lt hc)

end Progress

/-! ## Runs -/

section Runs

variable {o : OrderFulfillmentWorkflowOrchestrator D} {w : String} {calls : List (AdvanceStep D)}

/-- **The invariant rule for one workflow.** The other workflows do not matter. -/
theorem progress_invariant {Q : Progress → Prop} (ok : Progress → AdvanceStep D → Prop)
    (h₀ : ∃ wf, o.getWorkflowStatus w = some wf ∧ Q wf.progress)
    (hstep : ∀ (wf : IOrderFulfillmentContext D) c, c.workflowId = w → Q wf.progress →
      ok wf.progress c → Q (wf.progress.heard c))
    (calls : List (AdvanceStep D))
    (hok : ∀ e ∈ (orchestratorMachine D).history o calls, e.input.workflowId = w →
      ∀ wf, e.before.getWorkflowStatus w = some wf → ok wf.progress e.input) :
    ∃ wf, ((orchestratorMachine D).run o calls).getWorkflowStatus w = some wf ∧ Q wf.progress := by
  refine Machine.run_invariant (I := fun o => ∃ wf, o.getWorkflowStatus w = some wf ∧ Q wf.progress)
    h₀ ?_ calls hok
  rintro o c ⟨wf, hwf, hQ⟩ hok
  obtain ⟨wf', hwf', hp⟩ := exists_next hwf c
  refine ⟨wf', hwf', ?_⟩
  rw [hp]
  split_ifs with hc
  · exact hstep wf c hc hQ (hok hc wf hwf)
  · exact hQ

theorem getWorkflowStatus_initialize (o : OrderFulfillmentWorkflowOrchestrator D)
    (orderId tenantId customerId warehouseId w : String) :
    (o.initializeWorkflow orderId tenantId customerId warehouseId w).1.getWorkflowStatus w =
      some (newContext orderId tenantId customerId warehouseId w) :=
  JsMap.get_set_self _ _ _

theorem faithful_newContext (orderId tenantId customerId warehouseId w : String) :
    (newContext orderId tenantId customerId warehouseId w :
      IOrderFulfillmentContext D).progress.Faithful where
  fulfilled := iff_of_false (fun h => OverallStatus.noConfusion h)
    fun h => StepStatus.noConfusion (h .PENDING List.mem_cons_self)
  cancelled h := OverallStatus.noConfusion h

/-- **FULFILLED means that all five steps are COMPLETED, and CANCELLED that none is and one has
FAILED**, after any reports. -/
theorem status_faithful (o : OrderFulfillmentWorkflowOrchestrator D)
    (orderId tenantId customerId warehouseId w : String) (calls : List (AdvanceStep D)) :
    ∃ wf, ((orchestratorMachine D).run
        (o.initializeWorkflow orderId tenantId customerId warehouseId w).1 calls).getWorkflowStatus w
          = some wf ∧ wf.steps.length = 5 ∧
      (wf.overallStatus = .FULFILLED ↔ ∀ s ∈ wf.steps, s.status = .COMPLETED) ∧
      (wf.overallStatus = .CANCELLED →
        (∀ s ∈ wf.steps, s.status ≠ .COMPLETED) ∧ ∃ s ∈ wf.steps, s.status = .FAILED) := by
  obtain ⟨wf, hwf, hf⟩ := progress_invariant (Q := Progress.Faithful) (fun _ _ => True)
    ⟨_, getWorkflowStatus_initialize o orderId tenantId customerId warehouseId w,
      faithful_newContext orderId tenantId customerId warehouseId w⟩
    (fun wf c _ h _ => h.heard wf.length_statuses) calls fun _ _ _ _ _ => trivial
  have hlen : wf.steps.length = 5 := by
    rw [← wf.length_statuses]
    exact (List.length_map _).symm
  refine ⟨wf, hwf, hlen, ?_, ?_⟩
  · refine hf.fulfilled.trans ?_
    simp [IOrderFulfillmentContext.progress]
  · intro hc
    simpa [IOrderFulfillmentContext.progress] using hf.cancelled hc

end Runs

/-! ## Cancellation -/

/-- **What a cancelled workflow keeps** on the way from `p` to `p'`. -/
def Progress.Keeps (p p' : Progress) : Prop :=
  (p.overallStatus = .CANCELLED →
    p'.overallStatus ≠ .PROCESSING ∧ p'.overallStatus ≠ .FULFILLED) ∧
  ∀ i : ℕ, p.statuses[i]? = some .COMPENSATED →
    p'.statuses[i]? ≠ some .COMPLETED ∧ p'.statuses[i]? ≠ some .IN_PROGRESS

/-- A success report for a step of workflow `w`, which is cancelled. -/
def LateSuccess (w : String) (e : Event (OrderFulfillmentWorkflowOrchestrator D) (AdvanceStep D)
    (Except DomainException (IOrderFulfillmentContext D))) : Prop :=
  e.input.workflowId = w ∧ e.input.stepId ∈ stepIds ∧ e.input.isSuccess = true ∧
    ∃ wf, e.before.getWorkflowStatus w = some wf ∧ wf.overallStatus = .CANCELLED

namespace Progress

/-- Compensation goes with cancellation. -/
def Undone (p : Progress) : Prop := .COMPENSATED ∈ p.statuses → p.overallStatus = .CANCELLED

/-- Cancelled since `p₁`: what was compensated then has at most failed. -/
structure HeldSince (p₁ p : Progress) : Prop where
  cancelled : p₁.overallStatus = .CANCELLED → p.overallStatus = .CANCELLED
  compensated : ∀ i : ℕ, p₁.statuses[i]? = some .COMPENSATED → p.overallStatus = .CANCELLED ∧
    (p.statuses[i]? = some .COMPENSATED ∨ p.statuses[i]? = some .FAILED)

theorem Undone.heldSince (h : p.Undone) : HeldSince p p where
  cancelled hc := hc
  compensated _ hi := ⟨h (List.mem_of_getElem? hi), Or.inl hi⟩

theorem HeldSince.keeps (h : HeldSince p₁ p) : p₁.Keeps p := by
  refine ⟨fun hc => ?_, fun i hi => ?_⟩
  · simp [h.cancelled hc]
  · rcases (h.compensated i hi).2 with hs | hs <;> simp [hs]

theorem overallStatus_report_true :
    (p.report i true).overallStatus = .FULFILLED ∨ (p.report i true).overallStatus = .PROCESSING := by
  rw [report, if_pos rfl]
  dsimp only
  split_ifs
  · exact Or.inl rfl
  · exact Or.inr rfl

theorem compensated_of_report_true (h : .COMPENSATED ∈ (p.report i true).statuses) :
    .COMPENSATED ∈ p.statuses := by
  rw [report, if_pos rfl] at h
  dsimp only at h
  split_ifs at h
  · exact (List.mem_or_eq_of_mem_set h).resolve_right (by simp)
  · have hm := (List.mem_or_eq_of_mem_set h).resolve_right (by simp)
    exact (List.mem_or_eq_of_mem_set hm).resolve_right (by simp)

theorem Undone.report (h : p.Undone) (hok : isSuccess = true → p.overallStatus ≠ .CANCELLED) :
    (p.report i isSuccess).Undone := by
  intro hm
  cases isSuccess with
  | true => exact absurd (h (compensated_of_report_true hm)) (hok rfl)
  | false => rfl

theorem statuses_report_false {j : ℕ}
    (hj : p.statuses[j]? = some .COMPENSATED ∨ p.statuses[j]? = some .FAILED) :
    (p.report i false).statuses[j]? = some .COMPENSATED ∨
      (p.report i false).statuses[j]? = some .FAILED := by
  change ((p.statuses.set i .FAILED).map _)[j]? = _ ∨ ((p.statuses.set i .FAILED).map _)[j]? = _
  rw [List.getElem?_map, List.getElem?_set]
  by_cases hij : i = j
  · subst hij
    rcases hj with hj | hj <;> simp [(List.getElem?_eq_some_iff.mp hj).1]
  · rcases hj with hj | hj <;> simp [hij, hj]

theorem HeldSince.report (h : HeldSince p₁ p)
    (hok : isSuccess = true → p.overallStatus ≠ .CANCELLED) :
    HeldSince p₁ (p.report i isSuccess) := by
  cases isSuccess with
  | true =>
    refine ⟨fun hc => absurd (h.cancelled hc) (hok rfl), fun j hj => ?_⟩
    exact absurd (h.compensated j hj).1 (hok rfl)
  | false => exact ⟨fun _ => rfl, fun j hj => ⟨rfl, statuses_report_false (h.compensated j hj).2⟩⟩

theorem heard_induction {Q : Progress → Prop} {c : AdvanceStep D} (h : Q p)
    (hreport : ∀ i, c.stepId ∈ stepIds → Q (p.report i c.isSuccess)) : Q (p.heard c) := by
  unfold heard
  cases hc : c.position with
  | none => exact h
  | some i => exact hreport i (c.position_isSome.mp (Option.isSome_of_eq_some hc))

end Progress

section Cancellation

variable {o : OrderFulfillmentWorkflowOrchestrator D} {w : String} {calls : List (AdvanceStep D)}
  {wf wf' : IOrderFulfillmentContext D}

theorem unlate_invariant {Q : Progress → Prop}
    (h₀ : ∃ wf, o.getWorkflowStatus w = some wf ∧ Q wf.progress)
    (hstep : ∀ p i isSuccess, Q p → (isSuccess = true → p.overallStatus ≠ .CANCELLED) →
      Q (p.report i isSuccess))
    (hok : ∀ e ∈ (orchestratorMachine D).history o calls, ¬ LateSuccess w e) :
    ∃ wf, ((orchestratorMachine D).run o calls).getWorkflowStatus w = some wf ∧ Q wf.progress := by
  refine progress_invariant
    (fun p c => c.stepId ∈ stepIds → c.isSuccess = true → p.overallStatus ≠ .CANCELLED)
    h₀ ?_ calls ?_
  · intro wf c _ hQ hc
    exact Progress.heard_induction hQ fun i hi => hstep _ i _ hQ (hc hi)
  · intro e he hw wf hwf hi hs hc
    exact hok e he ⟨hw, hi, hs, wf, hwf, hc⟩

theorem not_keeps_of_lateSuccess {c : AdvanceStep D}
    (h : LateSuccess w ((orchestratorMachine D).event o c)) :
    ∃ wf wf', o.getWorkflowStatus w = some wf ∧
      ((orchestratorMachine D).next o c).getWorkflowStatus w = some wf' ∧
      ¬ wf.progress.Keeps wf'.progress := by
  obtain ⟨hw, hi, hs, wf, hwf, hc⟩ := h
  obtain ⟨i, hi⟩ := Option.isSome_iff_exists.mp (c.position_isSome.mpr hi)
  obtain ⟨wf', hwf', hp⟩ := exists_next hwf c
  have hp' : wf'.progress = wf.progress.report i true := by
    refine hp.trans ((if_pos hw).trans ?_)
    rw [Progress.heard, hi]
    exact congrArg (wf.progress.report i) hs
  refine ⟨wf, wf', hwf, hwf', fun hk => ?_⟩
  obtain ⟨h1, h2⟩ := hk.1 hc
  rw [hp'] at h1 h2
  rcases Progress.overallStatus_report_true with h | h
  · exact h2 h
  · exact h1 h

/-- **A cancelled workflow stays cancelled exactly when no success is reported to it late.** -/
theorem stays_cancelled_iff (o : OrderFulfillmentWorkflowOrchestrator D)
    (orderId tenantId customerId warehouseId w : String) (calls : List (AdvanceStep D)) :
    (∀ pre mid post, calls = pre ++ mid ++ post → ∀ wf wf',
      ((orchestratorMachine D).run
        (o.initializeWorkflow orderId tenantId customerId warehouseId w).1 pre).getWorkflowStatus w
          = some wf →
      ((orchestratorMachine D).run (o.initializeWorkflow orderId tenantId customerId warehouseId w).1
        (pre ++ mid)).getWorkflowStatus w = some wf' →
      wf.progress.Keeps wf'.progress) ↔
    ∀ e ∈ (orchestratorMachine D).history
      (o.initializeWorkflow orderId tenantId customerId warehouseId w).1 calls,
      ¬ LateSuccess w e := by
  have hw := getWorkflowStatus_initialize o orderId tenantId customerId warehouseId w
  revert hw
  generalize (o.initializeWorkflow orderId tenantId customerId warehouseId w).1 = o₁
  intro hw
  constructor
  · rintro h e he hl
    obtain ⟨pre, c, post, rfl, rfl⟩ := Machine.mem_history_iff.mp he
    obtain ⟨wf, wf', hwf, hwf', hk⟩ := not_keeps_of_lateSuccess hl
    exact hk (h pre [c] post (by simp) wf wf' hwf (by rw [Machine.run_concat]; exact hwf'))
  · rintro h pre mid post rfl wf wf' hwf hwf'
    simp only [Machine.history_append, List.mem_append, or_imp, forall_and] at h
    -- what was cancelled after `pre` stays so, because compensation went with cancellation there
    obtain ⟨wf₁, hwf₁, hu⟩ := unlate_invariant (Q := Progress.Undone) ⟨_, hw, by
      simp [Progress.Undone, IOrderFulfillmentContext.progress, newContext, fulfillmentSteps]⟩
      (fun p i b hp hc => hp.report hc) h.1.1
    obtain rfl := Option.some.inj (hwf.symm.trans hwf₁)
    obtain ⟨wf₂, hwf₂, hh⟩ := unlate_invariant (Q := Progress.HeldSince wf.progress)
      ⟨wf, hwf, hu.heldSince⟩ (fun p i b hp hc => hp.report hc) h.1.2
    rw [Machine.run_append] at hwf'
    obtain rfl := Option.some.inj (hwf'.symm.trans hwf₂)
    exact hh.keeps

/-- step_1 is reported, step_2 fails, and the report on step_1 comes again: the cancelled workflow
goes back to PROCESSING and its compensated step to COMPLETED. -/
theorem cancelled_reopens :
    ∃ wf wf',
      ((orchestratorMachine Unit).run
        (OrderFulfillmentWorkflowOrchestrator.initializeWorkflow ⟨.empty⟩ "ORD-1" "t1" "c1" "WH-1"
          "FWF-1").1
        [⟨"FWF-1", "step_1", true, none, none⟩,
          ⟨"FWF-1", "step_2", false, none, some "out of stock"⟩]).getWorkflowStatus "FWF-1"
        = some wf ∧
      ((orchestratorMachine Unit).run
        (OrderFulfillmentWorkflowOrchestrator.initializeWorkflow ⟨.empty⟩ "ORD-1" "t1" "c1" "WH-1"
          "FWF-1").1
        ([⟨"FWF-1", "step_1", true, none, none⟩,
          ⟨"FWF-1", "step_2", false, none, some "out of stock"⟩] ++
          [⟨"FWF-1", "step_1", true, none, none⟩])).getWorkflowStatus "FWF-1" = some wf' ∧
      wf.overallStatus = .CANCELLED ∧ wf'.overallStatus = .PROCESSING ∧
      wf.progress.statuses[0]? = some .COMPENSATED ∧ wf'.progress.statuses[0]? = some .COMPLETED ∧
      ¬ wf.progress.Keeps wf'.progress :=
  ⟨_, _, rfl, rfl, by decide, by decide, by decide, by decide,
    fun h => (h.1 (by decide)).1 (by decide)⟩

end Cancellation

end Logix.Workflow
