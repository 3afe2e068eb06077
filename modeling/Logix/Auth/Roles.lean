import Logix.Js.Map
import Logix.Js.Set
import Logix.Spec.Search

/-!
# The role hierarchy of the access control

`HierarchicalRolePermissionEvaluator` collects the permissions of the roles of a user, and of the
roles from which these inherit.

* `traverseRole`, `getEffectivePermissions`, `evaluateAccess`: the code, where the fuel bounds the
  nesting of `traverseRole`;
* `Inherits`, `Grants`, `Allowed`: what the table of roles means;
* `roleSearch`: `traverseRole` as a depth-first search;
* `has_getEffectivePermissions`: the permissions are those of the roles that can be reached;
* **`evaluateAccess_iff`**: the evaluation ends, and allows what the table means.
-/

namespace Logix.Auth

open Spec Relation

/-- `tenantScope`. -/
inductive TenantScope where
  | GLOBAL | TENANT_SPECIFIC
  deriving DecidableEq, Repr

/-- `IRoleDefinition`. -/
structure IRoleDefinition where
  roleId : String
  roleName : String
  inheritsFrom : Option (List String) := none
  permissions : List String
  tenantScope : TenantScope
  deriving DecidableEq, Repr

/-- `IAccessEvaluationContext`. -/
structure IAccessEvaluationContext where
  userId : String
  userRoles : List String
  tenantId : String
  targetResource : String
  targetAction : String
  resourceTenantId : String
  isOwner : Option Bool := none
  deriving DecidableEq, Repr

/-- **`HierarchicalRolePermissionEvaluator`.** -/
structure HierarchicalRolePermissionEvaluator where
  roles : JsMap String IRoleDefinition

/-- The two sets that `traverseRole` fills. -/
structure RoleTraversal where
  permissions : JsSet String
  visitedRoles : JsSet String

namespace HierarchicalRolePermissionEvaluator

/-- `registerRole`. -/
def registerRole (e : HierarchicalRolePermissionEvaluator) (role : IRoleDefinition) :
    HierarchicalRolePermissionEvaluator := ⟨e.roles.set role.roleId role⟩

/-- The roles of `initializeStandardRoles`. -/
def standardRoles : List IRoleDefinition :=
  [{ roleId := "SUPER_ADMIN"
     roleName := "Platform Super Administrator"
     permissions := ["*"]
     tenantScope := .GLOBAL },
   { roleId := "OPERATIONS_MANAGER"
     roleName := "Operations Center Manager"
     inheritsFrom := some ["DISPATCHER", "INVENTORY_MANAGER"]
     permissions :=
       ["order:create", "order:read", "order:update", "order:cancel",
        "inventory:read", "inventory:adjust", "inventory:reserve",
        "logistics:dispatch", "logistics:track", "logistics:assign_carrier",
        "reports:view", "reports:export"]
     tenantScope := .TENANT_SPECIFIC },
   { roleId := "DISPATCHER"
     roleName := "Fleet Dispatch Officer"
     permissions :=
       ["logistics:dispatch", "logistics:track", "logistics:update_waypoint",
        "logistics:pod_sign"]
     tenantScope := .TENANT_SPECIFIC },
   { roleId := "INVENTORY_MANAGER"
     roleName := "Warehouse & Inventory Manager"
     permissions :=
       ["inventory:read", "inventory:adjust", "inventory:bin_allocate", "inventory:cycle_count"]
     tenantScope := .TENANT_SPECIFIC },
   { roleId := "FINANCE_OFFICER"
     roleName := "Billing & General Ledger Officer"
     permissions :=
       ["billing:invoice_create", "billing:ledger_post", "billing:reconcile",
        "reports:financial_export"]
     tenantScope := .TENANT_SPECIFIC },
   { roleId := "DRIVER"
     roleName := "Fleet Vehicle Driver"
     permissions := ["logistics:read_assigned", "logistics:telemetry_ping", "logistics:pod_upload"]
     tenantScope := .TENANT_SPECIFIC }]

/-- `initializeStandardRoles`. -/
def initializeStandardRoles (e : HierarchicalRolePermissionEvaluator) :
    HierarchicalRolePermissionEvaluator := standardRoles.foldl registerRole e

/-- `new HierarchicalRolePermissionEvaluator()`. -/
def new : HierarchicalRolePermissionEvaluator := initializeStandardRoles ⟨.empty⟩

/-- **`traverseRole`**, with at most `fuel` nested calls. -/
def traverseRole (e : HierarchicalRolePermissionEvaluator) :
    ℕ → RoleTraversal → String → Option RoleTraversal
  | 0, _, _ => none
  | fuel + 1, t, rId =>
    if t.visitedRoles.has rId then some t
    else
      let t : RoleTraversal := { t with visitedRoles := t.visitedRoles.add rId }
      match e.roles.get rId with
      | none => some t
      | some role =>
        let t : RoleTraversal :=
          { t with permissions := role.permissions.foldl JsSet.add t.permissions }
        match role.inheritsFrom with
        | none => some t
        | some parents => parents.foldlM (e.traverseRole fuel) t

/-- **`getEffectivePermissions`.** -/
def getEffectivePermissions (e : HierarchicalRolePermissionEvaluator) (fuel : ℕ)
    (roleIds : List String) : Option (JsSet String) :=
  (roleIds.foldlM (e.traverseRole fuel) ⟨.empty, .empty⟩).map RoleTraversal.permissions

/-- What `evaluateAccess` checks after the tenant guard. -/
def permits (effectivePermissions : JsSet String) (ctx : IAccessEvaluationContext) : Bool :=
  if effectivePermissions.has "*" then true
  else
    let requiredPermission := ctx.targetResource ++ ":" ++ ctx.targetAction
    if effectivePermissions.has requiredPermission ||
        effectivePermissions.has (ctx.targetResource ++ ":*") then true
    else if ctx.isOwner = some true ∧
        (ctx.targetAction = "read" ∨ ctx.targetAction = "update") then true
    else false

/-- **`evaluateAccess`.** -/
def evaluateAccess (e : HierarchicalRolePermissionEvaluator) (fuel : ℕ)
    (ctx : IAccessEvaluationContext) : Option Bool :=
  if ctx.tenantId ≠ ctx.resourceTenantId ∧ "SUPER_ADMIN" ∉ ctx.userRoles then some false
  else (e.getEffectivePermissions fuel ctx.userRoles).map fun effectivePermissions =>
    permits effectivePermissions ctx

/-! ## What the table means -/

variable (e : HierarchicalRolePermissionEvaluator)

/-- The role `r` lists `r'` among the roles it inherits from. -/
def Inherits (r r' : String) : Prop :=
  ∃ role parents, e.roles.get r = some role ∧ role.inheritsFrom = some parents ∧ r' ∈ parents

/-- A role that can be reached from `roleIds` has the permission `p`. -/
def Grants (roleIds : List String) (p : String) : Prop :=
  ∃ r ∈ roleIds, ∃ r' role, ReflTransGen e.Inherits r r' ∧ e.roles.get r' = some role ∧
    p ∈ role.permissions

/-- **The access that a context is to have.** -/
structure Allowed (ctx : IAccessEvaluationContext) : Prop where
  tenant : ctx.tenantId = ctx.resourceTenantId ∨ "SUPER_ADMIN" ∈ ctx.userRoles
  granted : (e.Grants ctx.userRoles "*" ∨
      e.Grants ctx.userRoles (ctx.targetResource ++ ":" ++ ctx.targetAction) ∨
      e.Grants ctx.userRoles (ctx.targetResource ++ ":*")) ∨
    ctx.isOwner = some true ∧ (ctx.targetAction = "read" ∨ ctx.targetAction = "update")

/-! ## The traversal as a search -/

/-- `role.inheritsFrom`, empty for a role that is not registered. -/
def parentsOf (r : String) : List String := ((e.roles.get r).bind (·.inheritsFrom)).getD []

/-- `role.permissions`, empty for a role that is not registered. -/
def permissionsOf (r : String) : List String := ((e.roles.get r).map (·.permissions)).getD []

/-- **The depth-first search of `traverseRole`.** -/
def roleSearch : Search String RoleTraversal where
  next := e.parentsOf
  seen t r := t.visitedRoles.has r = true
  enter t r := ⟨(e.permissionsOf r).foldl JsSet.add t.permissions, t.visitedRoles.add r⟩
  seen_enter t r r' := t.visitedRoles.has_add r r'
  decSeen _ _ := inferInstance

theorem traverseRole_eq_visit (fuel : ℕ) : e.traverseRole fuel = e.roleSearch.visit fuel := by
  induction fuel with
  | zero => rfl
  | succ fuel ih =>
    funext t r
    rw [traverseRole, Search.visit, ih]
    refine if_congr Iff.rfl rfl ?_
    simp only [roleSearch, parentsOf, permissionsOf]
    cases hr : e.roles.get r with
    | none => rfl
    | some role =>
      cases hp : role.inheritsFrom with
      | none => simp [hp]
      | some parents => simp [hp]

theorem edge_iff {r r' : String} : e.roleSearch.Edge r r' ↔ e.Inherits r r' := by
  have hedge : e.roleSearch.Edge r r' ↔ r' ∈ e.parentsOf r := Iff.rfl
  rw [hedge, parentsOf, Inherits]
  cases hr : e.roles.get r with
  | none => simp
  | some role => cases hp : role.inheritsFrom <;> simp [hp]

/-- The permissions of a state are those of the roles it has visited. -/
def Gathered (t : RoleTraversal) : Prop :=
  ∀ p, t.permissions.has p = true ↔ ∃ r, t.visitedRoles.has r = true ∧ p ∈ e.permissionsOf r

theorem gathered_enter {t : RoleTraversal} (h : e.Gathered t) (r : String) :
    e.Gathered (e.roleSearch.enter t r) := by
  intro p
  have hvisited : ∀ r', (t.visitedRoles.add r).has r' = true ↔
      r' = r ∨ t.visitedRoles.has r' = true := t.visitedRoles.has_add r
  simp only [roleSearch, JsSet.has_foldl_add, hvisited, h p]
  constructor
  · rintro (hp | ⟨r', hr', hp⟩)
    · exact ⟨r, Or.inl rfl, hp⟩
    · exact ⟨r', Or.inr hr', hp⟩
  · rintro ⟨r', rfl | hr', hp⟩
    · exact Or.inl hp
    · exact Or.inr ⟨r', hr', hp⟩

theorem grants_iff {roleIds : List String} {p : String} : e.Grants roleIds p ↔
    ∃ r', (∃ r ∈ roleIds, ReflTransGen e.roleSearch.Edge r r') ∧ p ∈ e.permissionsOf r' := by
  have hedge : e.roleSearch.Edge = e.Inherits := funext₂ fun _ _ => propext e.edge_iff
  rw [hedge]
  constructor
  · rintro ⟨r, hr, r', role, hreach, hrole, hp⟩
    exact ⟨r', ⟨r, hr, hreach⟩, by simpa [permissionsOf, hrole] using hp⟩
  · rintro ⟨r', ⟨r, hr, hreach⟩, hp⟩
    cases hrole : e.roles.get r' with
    | none => simp [permissionsOf, hrole] at hp
    | some role =>
      exact ⟨r, hr, r', role, hreach, hrole, by simpa [permissionsOf, hrole] using hp⟩

/-- **The effective permissions** are those of the roles that can be reached, and the traversal ends
on every table. -/
theorem has_getEffectivePermissions {fuel : ℕ} (hfuel : e.roles.size < fuel)
    (roleIds : List String) : ∃ permissions, e.getEffectivePermissions fuel roleIds =
      some permissions ∧ ∀ p, permissions.has p = true ↔ e.Grants roleIds p := by
  have hnodes : ∀ r, e.roleSearch.next r ≠ [] → r ∈ e.roles.keys := by
    intro r hr
    by_contra hkey
    have hnone := JsMap.get_eq_none_iff.mpr hkey
    exact hr (by simp [roleSearch, parentsOf, hnone])
  have hlength : e.roles.keys.length < fuel := by
    simpa [JsMap.keys, JsMap.size] using hfuel
  obtain ⟨t, ht⟩ := Search.exists_visitAll hnodes hlength ⟨.empty, .empty⟩ roleIds
  have hrun := Search.visits_of_visitAll ht
  have hgathered : e.Gathered t :=
    hrun.invariant (fun _ r h _ => e.gathered_enter h r) fun p => by simp
  refine ⟨t.permissions, ?_, fun p => ?_⟩
  · rw [getEffectivePermissions, traverseRole_eq_visit]
    exact congrArg (Option.map RoleTraversal.permissions) ht
  · rw [hgathered p, grants_iff]
    refine exists_congr fun r => and_congr_left fun _ => ?_
    exact hrun.seen_iff (fun r => by simp [roleSearch]) r

theorem permits_iff (permissions : JsSet String) (ctx : IAccessEvaluationContext) :
    permits permissions ctx = true ↔
      (permissions.has "*" = true ∨
        permissions.has (ctx.targetResource ++ ":" ++ ctx.targetAction) = true ∨
        permissions.has (ctx.targetResource ++ ":*") = true) ∨
      ctx.isOwner = some true ∧ (ctx.targetAction = "read" ∨ ctx.targetAction = "update") := by
  dsimp only [permits]
  split_ifs with hall hrequired howner
  · simp [hall]
  · rw [Bool.or_eq_true] at hrequired
    simp [hrequired]
  · simp [howner]
  · rw [Bool.or_eq_true] at hrequired
    simp [hall, hrequired, howner]

/-- **The evaluation is what the table means**: it ends, whatever inherits from whatever, and
allows exactly what is to be allowed. -/
theorem evaluateAccess_iff {fuel : ℕ} (hfuel : e.roles.size < fuel)
    (ctx : IAccessEvaluationContext) :
    ∃ allowed, e.evaluateAccess fuel ctx = some allowed ∧ (allowed = true ↔ e.Allowed ctx) := by
  by_cases htenant : ctx.tenantId ≠ ctx.resourceTenantId ∧ "SUPER_ADMIN" ∉ ctx.userRoles
  · refine ⟨false, if_pos htenant, ?_⟩
    rw [Bool.false_eq_true, false_iff]
    exact fun h => h.tenant.elim htenant.1 htenant.2
  · obtain ⟨permissions, hperm, hgrants⟩ := e.has_getEffectivePermissions hfuel ctx.userRoles
    refine ⟨permits permissions ctx, ?_, ?_⟩
    · rw [evaluateAccess, if_neg htenant, hperm]
      rfl
    · rw [permits_iff, hgrants, hgrants, hgrants]
      have htenant : ctx.tenantId = ctx.resourceTenantId ∨ "SUPER_ADMIN" ∈ ctx.userRoles :=
        or_iff_not_and_not.mpr htenant
      exact ⟨fun h => ⟨htenant, h⟩, fun h => h.granted⟩

/-- Two roles that inherit from each other, and one from a role that is not there. -/
def cyclic : HierarchicalRolePermissionEvaluator :=
  [{ roleId := "CLERK", roleName := "Clerk", inheritsFrom := some ["AUDITOR", "GHOST"],
     permissions := [], tenantScope := .TENANT_SPECIFIC },
   { roleId := "AUDITOR", roleName := "Auditor", inheritsFrom := some ["CLERK"],
     permissions := ["order:*"], tenantScope := .TENANT_SPECIFIC : IRoleDefinition }].foldl
    registerRole ⟨.empty⟩

/-- A clerk who reads an order of the own tenant. -/
def clerkReads : IAccessEvaluationContext where
  userId := "u-1"
  userRoles := ["CLERK"]
  tenantId := "T-1"
  targetResource := "order"
  targetAction := "read"
  resourceTenantId := "T-1"

theorem evaluateAccess_iff_cyclic : ∃ allowed, cyclic.evaluateAccess 3 clerkReads = some allowed ∧
    (allowed = true ↔ cyclic.Allowed clerkReads) :=
  cyclic.evaluateAccess_iff (by decide +kernel) clerkReads

example : cyclic.evaluateAccess 3 clerkReads = some true := by decide +kernel

end HierarchicalRolePermissionEvaluator

end Logix.Auth
