import Logix.Workflow.Runs
import Mathlib.Data.List.Perm.Subperm

/-!
# Repeated reports

Success reports are delivered at least once: the first deliveries come in the order of the steps,
and any report may come again. A repeated report starts another PENDING step.

* `InOrder`: the reports of such a delivery;
* `stage k`: the progress after the first `k` steps, without repeats;
* **`sequential_iff`**: the steps run one after another exactly when the first four reports are
  different.
-/

namespace Logix.Workflow

open Spec OrderFulfillmentWorkflowOrchestrator

/-! ## First occurrences -/

section FirstOccurrences

variable {α : Type} [DecidableEq α] {l : List α}

theorem eraseDups_concat (l : List α) (a : α) :
    (l ++ [a]).eraseDups = if a ∈ l then l.eraseDups else l.eraseDups ++ [a] := by
  rw [List.eraseDups_append]
  by_cases h : a ∈ l <;> simp [List.removeAll, h, List.eraseDups_cons]

theorem length_eraseDups_le (l : List α) : l.eraseDups.length ≤ l.length := by
  induction l using List.reverseRecOn with
  | nil => exact Nat.le_refl 0
  | append_singleton l a ih =>
    rw [eraseDups_concat, List.length_append]
    split_ifs
    · exact Nat.le_succ_of_le ih
    · rw [List.length_append]
      exact Nat.add_le_add_right ih _

theorem le_length_eraseDups {n : ℕ} (hn : n ≤ l.length) (h : (l.take n).Nodup) :
    n ≤ l.eraseDups.length := by
  have hsub : l.take n ⊆ l.eraseDups := fun x hx => List.mem_eraseDups.mpr (List.mem_of_mem_take hx)
  have hle := (h.subperm hsub).length_le
  rwa [List.length_take, Nat.min_eq_left hn] at hle

end FirstOccurrences

/-! ## Deliveries in order -/

variable {D : Type}

/-- The steps that are reported to workflow `w`. -/
def reportsTo (w : String) (calls : List (AdvanceStep D)) : List String :=
  (calls.filter (·.workflowId = w)).map AdvanceStep.stepId

/-- **Delivered in order, with repeats**: the first occurrences are step_1, step_2, and so on. -/
def InOrder (reports : List String) : Prop := reports.eraseDups <+: stepIds

/-- At most one step runs, after the completed ones. -/
def Progress.Sequential (p : Progress) : Prop :=
  p.statuses.count .IN_PROGRESS ≤ 1 ∧ ∀ i < p.statuses.length,
    p.statuses[i]? = some .IN_PROGRESS → ∀ j < i, p.statuses[j]? = some .COMPLETED

instance : DecidablePred Progress.Sequential := fun p => by
  unfold Progress.Sequential
  infer_instance

/-- The progress after the first `k` steps were reported once each, in order. -/
def stage : ℕ → Progress
  | 0 => ⟨.INITIALIZED, List.replicate 5 .PENDING⟩
  | k + 1 => ⟨if k + 1 = 5 then .FULFILLED else .PROCESSING, List.take 5
      (List.replicate (k + 1) .COMPLETED ++ .IN_PROGRESS :: List.replicate (3 - k) .PENDING)⟩

theorem stage_next : ∀ k < 5, (stage k).report k true = stage (k + 1) := by decide

theorem stage_again : ∀ k < 6, 4 ≤ k → ∀ j < k, (stage k).report j true = stage k := by decide

theorem sequential_stage : ∀ k < 6, (stage k).Sequential := by decide

theorem not_sequential_again : ∀ k < 4, ∀ j < k, ¬ ((stage k).report j true).Sequential := by
  decide

theorem findIdx?_next : ∀ k < 5, stepIds.findIdx? (· = stepIds[k]!) = some k := by decide

theorem findIdx?_again : ∀ k < 6, ∀ r ∈ stepIds.take k,
    ∃ j < k, stepIds.findIdx? (· = r) = some j := by decide

section InOrder

variable {rs : List String} {r : String}

theorem InOrder.of_isPrefix {rs' : List String} (h : InOrder rs) (hp : rs' <+: rs) :
    InOrder rs' := by
  obtain ⟨t, rfl⟩ := hp
  unfold InOrder at h
  rw [List.eraseDups_append] at h
  exact (List.prefix_append _ _).trans h

theorem InOrder.of_concat (h : InOrder (rs ++ [r])) : InOrder rs :=
  h.of_isPrefix (List.prefix_append _ _)

theorem InOrder.length_lt (h : InOrder rs) : rs.eraseDups.length < 6 :=
  Nat.lt_succ_of_le h.length_le

theorem InOrder.again (h : InOrder rs) (hr : r ∈ rs) :
    ∃ j < rs.eraseDups.length, stepIds.findIdx? (· = r) = some j := by
  refine findIdx?_again _ h.length_lt r ?_
  rw [← List.prefix_iff_eq_take.mp h]
  exact List.mem_eraseDups.mpr hr

theorem InOrder.next (h : InOrder (rs ++ [r])) (hr : r ∉ rs) :
    rs.eraseDups.length < 5 ∧ stepIds.findIdx? (· = r) = some rs.eraseDups.length := by
  unfold InOrder at h
  rw [eraseDups_concat, if_neg hr] at h
  have hlt : rs.eraseDups.length < 5 := by
    have hle := h.length_le
    rw [List.length_append] at hle
    exact hle
  have hget : stepIds[rs.eraseDups.length]? = some r := by
    obtain ⟨t, ht⟩ := h
    rw [← ht]
    simp
  have hfind := findIdx?_next _ hlt
  rw [List.getElem!_of_getElem? hget] at hfind
  exact ⟨hlt, hfind⟩

end InOrder

/-! ## Runs -/

section Runs

variable {o : OrderFulfillmentWorkflowOrchestrator D} {w : String} {calls : List (AdvanceStep D)}
  {c : AdvanceStep D}

theorem reportsTo_append (l l' : List (AdvanceStep D)) :
    reportsTo w (l ++ l') = reportsTo w l ++ reportsTo w l' := by
  simp [reportsTo]

theorem reportsTo_concat_self (hc : c.workflowId = w) :
    reportsTo w (calls ++ [c]) = reportsTo w calls ++ [c.stepId] := by
  simp [reportsTo, hc]

theorem reportsTo_concat_ne (hc : c.workflowId ≠ w) :
    reportsTo w (calls ++ [c]) = reportsTo w calls := by
  simp [reportsTo, hc]

/-- `calls` report successes only, in order, to workflow `w`. -/
structure Reports (w : String) (calls : List (AdvanceStep D)) : Prop where
  success : ∀ c ∈ calls, c.workflowId = w → c.isSuccess = true
  inOrder : InOrder (reportsTo w calls)

theorem Reports.of_isPrefix {pre : List (AdvanceStep D)} (h : Reports w calls)
    (hp : pre <+: calls) :
    Reports w pre where
  success c hc := h.success c (hp.subset hc)
  inOrder := h.inOrder.of_isPrefix ((hp.filter _).map _)

theorem nodup_take_of_isPrefix {pre : List (AdvanceStep D)} (hp : pre <+: calls)
    (h : ((reportsTo w calls).take 4).Nodup) : ((reportsTo w pre).take 4).Nodup := by
  obtain ⟨t, rfl⟩ := hp
  rw [reportsTo_append, List.take_append] at h
  exact h.of_append_left

theorem heard_of_success {p : Progress} {i : ℕ} (hs : c.isSuccess = true)
    (hi : c.position = some i) : p.heard c = p.report i true := by
  rw [Progress.heard, hi, Option.elim_some, hs]

/-- **While the first four reports are different, the workflow goes through the stages.** -/
theorem exists_stage (h₀ : ∃ wf, o.getWorkflowStatus w = some wf ∧ wf.progress = stage 0)
    (h : Reports w calls) (hnd : ((reportsTo w calls).take 4).Nodup) :
    ∃ wf, ((orchestratorMachine D).run o calls).getWorkflowStatus w = some wf ∧
      wf.progress = stage (reportsTo w calls).eraseDups.length := by
  induction calls using List.reverseRecOn with
  | nil => exact h₀
  | append_singleton calls c ih =>
    have hpre : calls <+: calls ++ [c] := List.prefix_append _ _
    have hnd' := nodup_take_of_isPrefix hpre hnd
    obtain ⟨wf, hwf, hp⟩ := ih (h.of_isPrefix hpre) hnd'
    obtain ⟨wf', hwf', hp'⟩ := exists_next hwf c
    refine ⟨wf', by rw [Machine.run_concat, hwf'], ?_⟩
    rw [hp', hp]
    by_cases hc : c.workflowId = w
    · have hs := h.success c (by simp) hc
      have hord := h.inOrder
      rw [if_pos hc]
      rw [reportsTo_concat_self hc] at hnd hord ⊢
      rw [eraseDups_concat]
      by_cases hr : c.stepId ∈ reportsTo w calls
      · obtain ⟨j, hj, hpos⟩ := hord.of_concat.again hr
        rw [if_pos hr, heard_of_success hs hpos]
        -- a repeat is not among the first four reports, so that four steps are reported before it
        refine stage_again _ hord.of_concat.length_lt ?_ j hj
        refine le_length_eraseDups (Nat.le_of_not_lt fun hlt => ?_) hnd'
        rw [List.take_of_length_le (by rw [List.length_append]; exact hlt)] at hnd
        exact (List.nodup_append.mp hnd).2.2 _ hr _ List.mem_cons_self rfl
      · obtain ⟨hlt, hpos⟩ := hord.next hr
        rw [if_neg hr, heard_of_success hs hpos, stage_next _ hlt, List.length_append]
        rfl
    · rw [if_neg hc, reportsTo_concat_ne hc]

theorem nodup_take_of_sequential
    (h₀ : ∃ wf, o.getWorkflowStatus w = some wf ∧ wf.progress = stage 0) (h : Reports w calls)
    (hseq : ∀ pre, pre <+: calls → ∀ wf, ((orchestratorMachine D).run o pre).getWorkflowStatus w =
      some wf → wf.progress.Sequential) :
    ((reportsTo w calls).take 4).Nodup := by
  induction calls using List.reverseRecOn with
  | nil => exact List.nodup_nil
  | append_singleton calls c ih =>
    have hpre : calls <+: calls ++ [c] := List.prefix_append _ _
    have hnd := ih (h.of_isPrefix hpre) fun pre hp => hseq pre (hp.trans hpre)
    by_cases hc : c.workflowId = w
    · obtain ⟨wf, hwf, hp⟩ := exists_stage h₀ (h.of_isPrefix hpre) hnd
      obtain ⟨wf', hwf', hp'⟩ := exists_next hwf c
      rw [if_pos hc, hp] at hp'
      have hs := hseq _ List.prefix_rfl wf' (by rw [Machine.run_concat, hwf'])
      have hord := h.inOrder
      rw [reportsTo_concat_self hc] at hord ⊢
      rcases Nat.lt_or_ge (reportsTo w calls).length 4 with hlt | hge
      · rw [List.take_of_length_le (Nat.le_of_lt hlt)] at hnd
        rw [List.take_of_length_le (by rw [List.length_append]; exact hlt)]
        refine List.nodup_append.mpr ⟨hnd, List.nodup_singleton _, fun r hr r' hr' heq => ?_⟩
        obtain rfl := List.mem_singleton.mp hr'
        subst heq
        obtain ⟨j, hj, hpos⟩ := hord.of_concat.again hr
        rw [hp', heard_of_success (h.success c (by simp) hc) hpos] at hs
        have hk := Nat.lt_of_le_of_lt (length_eraseDups_le (reportsTo w calls)) hlt
        exact not_sequential_again _ hk j hj hs
      · rwa [List.take_append_of_le_length hge]
    · rwa [reportsTo_concat_ne hc]

/-- **The steps run one after another exactly when the first four reports are different.** -/
theorem sequential_iff (o : OrderFulfillmentWorkflowOrchestrator D)
    (orderId tenantId customerId warehouseId w : String) (calls : List (AdvanceStep D))
    (h : Reports w calls) :
    (∀ pre, pre <+: calls → ∀ wf,
      ((orchestratorMachine D).run (o.initializeWorkflow orderId tenantId customerId warehouseId w).1
        pre).getWorkflowStatus w = some wf → wf.progress.Sequential) ↔
    ((reportsTo w calls).take 4).Nodup := by
  have h₀ : ∃ wf, (o.initializeWorkflow orderId tenantId customerId warehouseId
      w).1.getWorkflowStatus w = some wf ∧ wf.progress = stage 0 :=
    ⟨_, getWorkflowStatus_initialize o orderId tenantId customerId warehouseId w, rfl⟩
  refine ⟨nodup_take_of_sequential h₀ h, fun hnd pre hpre wf hwf => ?_⟩
  have hr := h.of_isPrefix hpre
  obtain ⟨wf', hwf', hp⟩ := exists_stage h₀ hr (nodup_take_of_isPrefix hpre hnd)
  obtain rfl := Option.some.inj (hwf.symm.trans hwf')
  rw [hp]
  exact sequential_stage _ hr.inOrder.length_lt

/-- Success reports on the five steps, two of them repeated late. -/
def lateRepeats : List (AdvanceStep Unit) :=
  ["step_1", "step_2", "step_3", "step_4", "step_2", "step_5", "step_5"].map
    fun stepId => ⟨"FWF-1", stepId, true, none, none⟩

/-- Repeats from the fourth step on do no harm. -/
theorem sequential_with_late_repeats :
    ∃ wf, ((orchestratorMachine Unit).run (OrderFulfillmentWorkflowOrchestrator.initializeWorkflow
        ⟨.empty⟩ "ORD-1" "t1" "c1" "WH-1" "FWF-1").1 lateRepeats).getWorkflowStatus "FWF-1" =
          some wf ∧ wf.progress.Sequential :=
  ⟨_, rfl, (sequential_iff ⟨.empty⟩ "ORD-1" "t1" "c1" "WH-1" "FWF-1" lateRepeats
    ⟨by decide, ⟨[], by decide⟩⟩).mpr (by decide) lateRepeats (List.prefix_refl _) _ rfl⟩

/-- The report on step_1 comes twice: step_2 and step_3 both run. -/
theorem two_steps_in_progress :
    Reports "FWF-1" (["step_1", "step_1"].map
      fun stepId => (⟨"FWF-1", stepId, true, none, none⟩ : AdvanceStep Unit)) ∧
    ∃ wf, ((orchestratorMachine Unit).run (OrderFulfillmentWorkflowOrchestrator.initializeWorkflow
        ⟨.empty⟩ "ORD-1" "t1" "c1" "WH-1" "FWF-1").1 (["step_1", "step_1"].map
          fun stepId => ⟨"FWF-1", stepId, true, none, none⟩)).getWorkflowStatus "FWF-1" = some wf ∧
      wf.progress.statuses = [.COMPLETED, .IN_PROGRESS, .IN_PROGRESS, .PENDING, .PENDING] ∧
      ¬ wf.progress.Sequential :=
  ⟨⟨by decide, ⟨_, rfl⟩⟩, _, rfl, by decide, by decide⟩

end Runs

end Logix.Workflow
