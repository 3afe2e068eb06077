import Logix.Async.Program
import Logix.Common.Errors
import Logix.Js.Uuid

/-!
# Registration of users and tenants

`AuthService.registerUser` looks for the email among the users of the tenant, hashes the password
and then creates the user; `provisionTenant` looks for the slug, creates the tenant, hashes the
password of its admin and creates the admin. Each of these is awaited.

* `UserEntity`, `TenantEntity`, `AuditLogEntity`, `AuthStores`: the data of the repositories;
* `findByEmailAndTenant`, `findBySlug`: the lookups, with `lower` for `toLowerCase`;
* `authProgram`: the two requests, cut at their awaits.

The time stamps are left out: neither request reads them.
-/

namespace Logix.Auth

open Async

/-- `UserRole`. -/
inductive UserRole where
  | SUPER_ADMIN | TENANT_ADMIN | OPERATIONS_MANAGER | WAREHOUSE_SUPERVISOR | FLEET_DISPATCHER
  | DRIVER | FINANCE_OFFICER | AUDITOR | CUSTOMER
  deriving DecidableEq, Repr

/-- `TenantTier`. -/
inductive TenantTier where
  | STARTER | PROFESSIONAL | ENTERPRISE | UNLIMITED
  deriving DecidableEq, Repr

/-- `UserEntity`. -/
structure UserEntity where
  id : String
  tenantId : String
  email : String
  passwordHash : String
  firstName : String
  lastName : String
  roles : List UserRole
  permissions : List String
  isActive : Bool
  isEmailVerified : Bool
  failedLoginAttempts : ℕ
  deriving DecidableEq, Repr

/-- The `settings` of a tenant. -/
structure TenantSettings where
  allowSelfRegistration : Bool
  requireMfa : Bool
  sessionTimeoutMinutes : ℕ
  deriving DecidableEq, Repr

/-- `TenantEntity`. -/
structure TenantEntity where
  id : String
  name : String
  slug : String
  tier : TenantTier
  maxUsers : ℕ
  maxWarehouses : ℕ
  isActive : Bool
  settings : TenantSettings
  deriving DecidableEq, Repr

/-- `AuditLogEntity`. -/
structure AuditLogEntity where
  id : String
  tenantId : String
  userId : Option String
  action : String
  resource : String
  resourceId : Option String
  ipAddress : Option String
  deriving DecidableEq, Repr

/-- `RegisterUserDTO`. -/
structure RegisterUserDTO where
  email : String
  password : String
  firstName : String
  lastName : String
  tenantId : String
  roles : List UserRole
  deriving DecidableEq, Repr

/-- `CreateTenantDTO`. -/
structure CreateTenantDTO where
  name : String
  slug : String
  tier : TenantTier
  adminEmail : String
  adminPassword : String
  adminFirstName : String
  adminLastName : String
  deriving DecidableEq, Repr

/-- `AuthTokens`. -/
structure AuthTokens where
  accessToken : String
  refreshToken : String
  expiresIn : ℕ
  deriving DecidableEq, Repr

/-! ## The repositories -/

/-- **The user, the tenant and the audit log repository.** `draws` counts the UUIDs drawn so far,
and every key is one of them. -/
structure AuthStores (u : UuidSource) where
  users : JsMap String UserEntity
  tenants : JsMap String TenantEntity
  logs : List AuditLogEntity
  draws : ℕ
  users_issued : u.Issued draws users
  tenants_issued : u.Issued draws tenants

namespace AuthStores

variable {u : UuidSource}

/-- Empty repositories. -/
def new (u : UuidSource) : AuthStores u where
  users := .empty
  tenants := .empty
  logs := []
  draws := 0
  users_issued := .empty u 0
  tenants_issued := .empty u 0

/-- `userRepo.findByEmailAndTenant(email, tenantId)`. -/
def findByEmailAndTenant (lower : String → String) (h : AuthStores u) (email tenantId : String) :
    Option UserEntity :=
  h.users.values.find? fun user => lower user.email = lower email ∧ user.tenantId = tenantId

/-- `tenantRepo.findBySlug(slug)`. -/
def findBySlug (h : AuthStores u) (slug : String) : Option TenantEntity :=
  h.tenants.values.find? fun t => t.slug = slug

/-- `userRepo.create(user)`. -/
def createUser (h : AuthStores u) (entity : String → UserEntity) : AuthStores u where
  users := h.users.set (u.draw h.draws) (entity (u.draw h.draws))
  tenants := h.tenants
  logs := h.logs
  draws := h.draws + 1
  users_issued := h.users_issued.set_draw _
  tenants_issued := h.tenants_issued.mono (Nat.le_succ _)

/-- `tenantRepo.create(tenant)`. -/
def createTenant (h : AuthStores u) (entity : String → TenantEntity) : AuthStores u where
  users := h.users
  tenants := h.tenants.set (u.draw h.draws) (entity (u.draw h.draws))
  logs := h.logs
  draws := h.draws + 1
  users_issued := h.users_issued.mono (Nat.le_succ _)
  tenants_issued := h.tenants_issued.set_draw _

/-- `auditRepo.record(log)`. -/
def record (h : AuthStores u) (entry : String → AuditLogEntity) : AuthStores u where
  users := h.users
  tenants := h.tenants
  logs := h.logs ++ [entry (u.draw h.draws)]
  draws := h.draws + 1
  users_issued := h.users_issued.mono (Nat.le_succ _)
  tenants_issued := h.tenants_issued.mono (Nat.le_succ _)

end AuthStores

/-- The user that `registerUser` creates. -/
def RegisterUserDTO.newUser (dto : RegisterUserDTO) (passwordHash id : String) : UserEntity where
  id := id
  tenantId := dto.tenantId
  email := dto.email
  passwordHash := passwordHash
  firstName := dto.firstName
  lastName := dto.lastName
  roles := dto.roles
  permissions := ["orders:read", "orders:create", "inventory:read"]
  isActive := true
  isEmailVerified := false
  failedLoginAttempts := 0

/-- The tenant that `provisionTenant` creates. -/
def CreateTenantDTO.newTenant (dto : CreateTenantDTO) (id : String) : TenantEntity where
  id := id
  name := dto.name
  slug := dto.slug
  tier := dto.tier
  maxUsers := if dto.tier = .ENTERPRISE then 5000 else 50
  maxWarehouses := if dto.tier = .ENTERPRISE then 100 else 5
  isActive := true
  settings :=
    { allowSelfRegistration := false
      requireMfa := dto.tier = .ENTERPRISE
      sessionTimeoutMinutes := 60 }

/-- The admin that `provisionTenant` creates. -/
def CreateTenantDTO.newAdmin (dto : CreateTenantDTO) (tenantId passwordHash id : String) :
    UserEntity where
  id := id
  tenantId := tenantId
  email := dto.adminEmail
  passwordHash := passwordHash
  firstName := dto.adminFirstName
  lastName := dto.adminLastName
  roles := [.TENANT_ADMIN, .OPERATIONS_MANAGER]
  permissions := ["*"]
  isActive := true
  isEmailVerified := true
  failedLoginAttempts := 0

/-- The audit entry of `registerUser`. -/
def UserEntity.registeredEntry (user : UserEntity) (ipAddress : Option String) (id : String) :
    AuditLogEntity where
  id := id
  tenantId := user.tenantId
  userId := some user.id
  action := "USER_REGISTERED"
  resource := "User"
  resourceId := some user.id
  ipAddress := ipAddress

/-! ## The requests as a program -/

/-- **The requests**, at their start and after each await. -/
inductive AuthCall where
  | registerUser (dto : RegisterUserDTO) (ipAddress : Option String)
  /-- After `tenantRepo.findById`. -/
  | registerTenantFound (dto : RegisterUserDTO) (ipAddress : Option String)
      (tenant : Option TenantEntity)
  /-- After `userRepo.findByEmailAndTenant`. -/
  | registerLookedUp (dto : RegisterUserDTO) (ipAddress : Option String)
      (existing : Option UserEntity)
  /-- After `PasswordHasher.hash`. -/
  | registerHashed (dto : RegisterUserDTO) (ipAddress : Option String)
  /-- After `userRepo.create`. -/
  | registerCreated (user : UserEntity) (ipAddress : Option String)
  /-- After `auditRepo.record`. -/
  | registerAudited (user : UserEntity) (tokens : AuthTokens)
  | provisionTenant (dto : CreateTenantDTO)
  /-- After `tenantRepo.findBySlug`. -/
  | provisionLookedUp (dto : CreateTenantDTO) (existing : Option TenantEntity)
  /-- After `tenantRepo.create`. -/
  | provisionTenantCreated (dto : CreateTenantDTO) (tenant : TenantEntity)
  /-- After `PasswordHasher.hash`. -/
  | provisionHashed (dto : CreateTenantDTO) (tenant : TenantEntity)
  /-- After `userRepo.create`. -/
  | provisionAdminCreated (tenant : TenantEntity) (adminUser : UserEntity)
  deriving DecidableEq, Repr

/-- What a segment reads from outside: how the hash settled, and the generated tokens. -/
structure AuthInput where
  hash : Except String String
  tokens : AuthTokens

/-- The user that `registerUser` returns. -/
structure RegisteredUser where
  id : String
  tenantId : String
  email : String
  firstName : String
  lastName : String
  roles : List UserRole
  deriving DecidableEq, Repr

/-- How a request settles. -/
inductive AuthOutcome where
  | registered (user : RegisteredUser) (tokens : AuthTokens)
  | provisioned (tenant : TenantEntity) (adminUser : UserEntity)
  | rejected (e : DomainException)
  deriving DecidableEq, Repr

/-- The fields of a user that `registerUser` returns. -/
def UserEntity.registered (user : UserEntity) : RegisteredUser where
  id := user.id
  tenantId := user.tenantId
  email := user.email
  firstName := user.firstName
  lastName := user.lastName
  roles := user.roles

/-- **The requests, cut at their awaits.** -/
def authProgram (lower : String → String) (u : UuidSource) :
    Program (AuthStores u) AuthCall AuthInput AuthOutcome where
  run k input h :=
    match k with
    | .registerUser dto ipAddress =>
      { heap := h, waiting := [.registerTenantFound dto ipAddress (h.tenants.get dto.tenantId)] }
    | .registerTenantFound dto ipAddress tenant =>
      match tenant with
      | none => { heap := h, settled := [.rejected (.notFound "Tenant" dto.tenantId)] }
      | some tenant =>
        if tenant.isActive then
          { heap := h
            waiting := [.registerLookedUp dto ipAddress
              (h.findByEmailAndTenant lower dto.email dto.tenantId)] }
        else
          { heap := h
            settled := [.rejected (.forbidden
              "The requested tenant organization is currently inactive.")] }
    | .registerLookedUp dto ipAddress existing =>
      match existing with
      | some _ =>
        { heap := h
          settled := [.rejected (.conflict
            s!"A user with email '{dto.email}' already exists in this tenant.")] }
      | none => { heap := h, waiting := [.registerHashed dto ipAddress] }
    | .registerHashed dto ipAddress =>
      match input.hash with
      | .error text => { heap := h, settled := [.rejected (.error text)] }
      | .ok passwordHash =>
        { heap := h.createUser (dto.newUser passwordHash)
          waiting := [.registerCreated (dto.newUser passwordHash (u.draw h.draws)) ipAddress] }
    | .registerCreated user ipAddress =>
      { heap := h.record (user.registeredEntry ipAddress)
        waiting := [.registerAudited user input.tokens] }
    | .registerAudited user tokens =>
      { heap := h, settled := [.registered user.registered tokens] }
    | .provisionTenant dto =>
      { heap := h, waiting := [.provisionLookedUp dto (h.findBySlug dto.slug)] }
    | .provisionLookedUp dto existing =>
      match existing with
      | some _ =>
        { heap := h
          settled := [.rejected (.conflict s!"Tenant slug '{dto.slug}' is already taken.")] }
      | none =>
        { heap := h.createTenant dto.newTenant
          waiting := [.provisionTenantCreated dto (dto.newTenant (u.draw h.draws))] }
    | .provisionTenantCreated dto tenant =>
      { heap := h, waiting := [.provisionHashed dto tenant] }
    | .provisionHashed dto tenant =>
      match input.hash with
      | .error text => { heap := h, settled := [.rejected (.error text)] }
      | .ok passwordHash =>
        { heap := h.createUser (dto.newAdmin tenant.id passwordHash)
          waiting := [.provisionAdminCreated tenant
            (dto.newAdmin tenant.id passwordHash (u.draw h.draws))] }
    | .provisionAdminCreated tenant adminUser =>
      { heap := h, settled := [.provisioned tenant adminUser] }

end Logix.Auth
