import Logix.Js.Map
import Logix.Spec.Decision

/-!
# The attribute-based policies

`PolicyEngine` asks a fixed list of rules, one after another, and the first that applies decides.

* `PolicyRule`, `PolicyEngine`, `new`, `evaluate`: the code, with the four default rules;
* `isAllowed_iff`: what the default rules allow;
* **`evaluate_denyOverrides`**: a rule that denies is never overruled.
-/

namespace Logix.Common

open Spec

/-- A value of `Record<string, any>`. -/
inductive AttributeValue where
  | null
  | bool (b : Bool)
  | number (x : ℚ)
  | string (s : String)
  | object (ref : ℕ)
  deriving DecidableEq, Repr

/-- `AccessSubject`. -/
structure AccessSubject where
  userId : String
  tenantId : String
  roles : List String

/-- `AccessResource`. -/
structure AccessResource where
  type : String
  tenantId : String
  attributes : JsMap String AttributeValue

/-- `AccessAction`. -/
structure AccessAction where
  name : String

/-- `PolicyEffect`. -/
inductive PolicyEffect where
  | ALLOW | DENY
  deriving DecidableEq, Repr

/-- `PolicyRule`. -/
structure PolicyRule where
  id : String
  description : String
  effect : PolicyEffect
  subjectCondition : AccessSubject → Bool
  resourceCondition : AccessResource → AccessSubject → Bool
  actionCondition : AccessAction → Bool

/-- What `evaluate` returns. -/
structure AccessDecision where
  isAllowed : Bool
  matchedRuleId : Option String
  reason : String
  deriving DecidableEq, Repr

/-- `PolicyEngine`. -/
structure PolicyEngine where
  rules : List PolicyRule

namespace PolicyRule

/-- The `SUPER_ADMIN_ALL_ACCESS` rule. -/
def superAdminAllAccess : PolicyRule where
  id := "SUPER_ADMIN_ALL_ACCESS"
  description := "SuperAdmin possesses global administrative privileges"
  effect := .ALLOW
  subjectCondition sub := decide ("SUPER_ADMIN" ∈ sub.roles)
  resourceCondition _ _ := true
  actionCondition _ := true

/-- The `TENANT_ISOLATION_GUARD` rule. -/
def tenantIsolationGuard : PolicyRule where
  id := "TENANT_ISOLATION_GUARD"
  description := "Subjects cannot access resources belonging to another tenant"
  effect := .DENY
  subjectCondition sub := !decide ("SUPER_ADMIN" ∈ sub.roles)
  resourceCondition res sub := decide (res.tenantId ≠ sub.tenantId)
  actionCondition _ := true

/-- The `TENANT_ADMIN_TENANT_ACCESS` rule. -/
def tenantAdminTenantAccess : PolicyRule where
  id := "TENANT_ADMIN_TENANT_ACCESS"
  description := "Tenant admins have full read/write capabilities in their tenant"
  effect := .ALLOW
  subjectCondition sub := decide ("TENANT_ADMIN" ∈ sub.roles)
  resourceCondition res sub := decide (res.tenantId = sub.tenantId)
  actionCondition _ := true

/-- The `DRIVER_ASSIGNED_SHIPMENT_ACCESS` rule. -/
def driverAssignedShipmentAccess : PolicyRule where
  id := "DRIVER_ASSIGNED_SHIPMENT_ACCESS"
  description := "Drivers can only view and update their own assigned shipments"
  effect := .ALLOW
  subjectCondition sub := decide ("DRIVER" ∈ sub.roles)
  resourceCondition res sub := decide (res.type = "Shipment") &&
    decide (res.attributes.get "assignedDriverId" = some (.string sub.userId))
  actionCondition action := decide (action.name ∈ ["read", "update_telemetry", "submit_pod"])

/-- The three conditions of a rule. -/
def applies (subject : AccessSubject) (resource : AccessResource) (action : AccessAction)
    (rule : PolicyRule) : Bool :=
  rule.subjectCondition subject && rule.resourceCondition resource subject &&
    rule.actionCondition action

/-- `rule.effect === 'DENY'`. -/
def denies (rule : PolicyRule) : Bool := decide (rule.effect = .DENY)

end PolicyRule

namespace PolicyEngine

open PolicyRule

/-- `new PolicyEngine()`, with `initializeDefaultPolicies`. -/
def new : PolicyEngine where
  rules := [superAdminAllAccess, tenantIsolationGuard, tenantAdminTenantAccess,
    driverAssignedShipmentAccess]

/-- **`evaluate(subject, resource, action)`.** -/
def evaluate (engine : PolicyEngine) (subject : AccessSubject) (resource : AccessResource)
    (action : AccessAction) : AccessDecision :=
  match engine.rules.find? (applies subject resource action) with
  | some rule =>
    match rule.effect with
    | .DENY => ⟨false, some rule.id, rule.description⟩
    | .ALLOW => ⟨true, some rule.id, rule.description⟩
  | none => ⟨false, none, "Default deny: no matching policy rule granted authorization."⟩

variable (subject : AccessSubject) (resource : AccessResource) (action : AccessAction)

theorem evaluate_isAllowed (engine : PolicyEngine) :
    (engine.evaluate subject resource action).isAllowed =
      firstApplicable (applies subject resource action) denies engine.rules := by
  unfold evaluate firstApplicable
  cases engine.rules.find? (applies subject resource action) with
  | none => rfl
  | some rule => cases h : rule.effect <;> simp [denies, h]

theorem exists_rule_of_matchedRuleId (engine : PolicyEngine) {id : String}
    (h : (engine.evaluate subject resource action).matchedRuleId = some id) :
    ∃ rule ∈ engine.rules, rule.applies subject resource action = true ∧
      engine.evaluate subject resource action = ⟨!rule.denies, some rule.id, rule.description⟩ := by
  unfold evaluate at h ⊢
  cases hf : engine.rules.find? (applies subject resource action) with
  | none => simp [hf] at h
  | some rule =>
    refine ⟨rule, List.mem_of_find?_eq_some hf, List.find?_some hf, ?_⟩
    cases he : rule.effect <;> simp [denies, he]

/-! ## The default rules -/

/-- May the subject drive the shipment and do this with it? -/
def IsOwnDelivery : Prop :=
  "DRIVER" ∈ subject.roles ∧ resource.type = "Shipment" ∧
    resource.attributes.get "assignedDriverId" = some (.string subject.userId) ∧
    action.name ∈ ["read", "update_telemetry", "submit_pod"]

variable {subject resource action}

/-- **The rule that denies excludes the rules before it**: only super admins pass the first one. -/
theorem pairwise_rules : new.rules.Pairwise fun r r' =>
    r.applies subject resource action = true → r.denies = false →
      r'.applies subject resource action = true → r'.denies = false := by
  have hguard : superAdminAllAccess.applies subject resource action = true →
      ¬ tenantIsolationGuard.applies subject resource action = true := by
    intro hsuper hguard
    simp only [applies, superAdminAllAccess, tenantIsolationGuard, Bool.and_true,
      Bool.and_eq_true, decide_eq_true_eq, Bool.not_eq_true', decide_eq_false_iff_not]
      at hsuper hguard
    exact hguard.1 hsuper
  refine .cons (fun r hr happ _ happ' => ?_) (.cons (fun r _ _ hden => ?_)
    (.cons (fun r hr _ _ _ => ?_) (List.pairwise_singleton _ _)))
  · simp only [List.mem_cons, List.not_mem_nil, or_false] at hr
    rcases hr with rfl | rfl | rfl
    · exact absurd happ' (hguard happ)
    · rfl
    · rfl
  · exact absurd hden (by decide)
  · obtain rfl := List.mem_singleton.mp hr
    rfl

/-- **What the default rules allow.** -/
theorem isAllowed_iff : (new.evaluate subject resource action).isAllowed = true ↔
    "SUPER_ADMIN" ∈ subject.roles ∨ resource.tenantId = subject.tenantId ∧
      ("TENANT_ADMIN" ∈ subject.roles ∨ IsOwnDelivery subject resource action) := by
  rw [evaluate_isAllowed, firstApplicable_eq_of_pairwise pairwise_rules, denyOverrides_iff]
  simp only [new, List.forall_mem_cons, List.exists_mem_cons_iff, applies, denies,
    superAdminAllAccess, tenantIsolationGuard, tenantAdminTenantAccess,
    driverAssignedShipmentAccess, IsOwnDelivery]
  by_cases hsuper : "SUPER_ADMIN" ∈ subject.roles
  · simp [hsuper]
  · by_cases htenant : resource.tenantId = subject.tenantId
    · simp [hsuper, htenant, and_assoc]
    · simp [hsuper, htenant]

/-- **A rule that denies is never overruled**: the first rule that applies decides as all rules
together do, and nobody but a super admin is allowed to reach into another tenant. -/
theorem evaluate_denyOverrides (subject : AccessSubject) (resource : AccessResource)
    (action : AccessAction) :
    (new.evaluate subject resource action).isAllowed =
        denyOverrides (applies subject resource action) denies new.rules ∧
      ("SUPER_ADMIN" ∉ subject.roles → resource.tenantId ≠ subject.tenantId →
        (new.evaluate subject resource action).isAllowed = false) := by
  refine ⟨?_, fun hsuper htenant => ?_⟩
  · rw [evaluate_isAllowed]
    exact firstApplicable_eq_of_pairwise pairwise_rules
  · rw [← Bool.not_eq_true, isAllowed_iff]
    exact fun h => h.elim hsuper fun h => htenant h.1

/-- An operator of one tenant may not read a shipment of another. -/
example : (new.evaluate ⟨"u-101", "tenant-a", ["OPERATOR"]⟩
    ⟨"Shipment", "tenant-b", JsMap.empty⟩ ⟨"read"⟩).isAllowed = false := by decide

end PolicyEngine

end Logix.Common
