import Logix.Auth.Accounts

/-!
# Logging in

`AuthService.login` finds the user, verifies the password against the hash it has read, writes the
number of failed attempts and issues tokens. Each of these is awaited.

* `LoginDTO`, `AccessClaims`: what a request carries, and what the access token claims;
* `loginProgram`: the request, cut at its awaits.

The time of the login is left out: no request reads it.
-/

namespace Logix.Auth

open Async

/-- `LoginDTO`. -/
structure LoginDTO where
  email : String
  password : String
  tenantId : String
  deriving DecidableEq, Repr

/-- The payload that `TokenService.generateAuthTokens` signs for the access token. -/
structure AccessClaims where
  userId : String
  tenantId : String
  email : String
  roles : List UserRole
  permissions : List String
  deriving DecidableEq, Repr

/-- The claims of a user. -/
def UserEntity.claims (user : UserEntity) : AccessClaims where
  userId := user.id
  tenantId := user.tenantId
  email := user.email
  roles := user.roles
  permissions := user.permissions

/-- `userRepo.update(id, { failedLoginAttempts })`: nothing when there is no user `id`. -/
def AuthStores.setFailedLoginAttempts {u : UuidSource} (h : AuthStores u) (id : String)
    (failedLoginAttempts : ℕ) : AuthStores u where
  users := h.users.modify id fun user => { user with failedLoginAttempts := failedLoginAttempts }
  tenants := h.tenants
  logs := h.logs
  draws := h.draws
  users_issued := h.users_issued.modify id _
  tenants_issued := h.tenants_issued

/-- The audit entry of `login`. -/
def UserEntity.loggedInEntry (user : UserEntity) (ipAddress : Option String) (id : String) :
    AuditLogEntity where
  id := id
  tenantId := user.tenantId
  userId := some user.id
  action := "USER_LOGGED_IN"
  resource := "Auth"
  resourceId := some user.id
  ipAddress := ipAddress

/-- **The request**, at its start and after each await. -/
inductive LoginCall where
  | login (dto : LoginDTO) (ipAddress : Option String)
  /-- After `userRepo.findByEmailAndTenant`. -/
  | loginFound (dto : LoginDTO) (ipAddress : Option String) (user : Option UserEntity)
  /-- After `PasswordHasher.verify`, with the user that was found. -/
  | loginVerified (user : UserEntity) (ipAddress : Option String)
  /-- After `userRepo.update` of a failed attempt. -/
  | loginFailed
  /-- After `userRepo.update` of a successful one. -/
  | loginUpdated (user : UserEntity) (ipAddress : Option String)
  /-- After `auditRepo.record`. -/
  | loginAudited (user : UserEntity) (tokens : AuthTokens)
  deriving DecidableEq, Repr

/-- What a segment reads from outside: how the verification settled, and the generated tokens. -/
structure LoginInput where
  verified : Except String Bool
  tokens : AuthTokens

/-- How a request settles. -/
inductive LoginOutcome where
  | loggedIn (user : RegisteredUser) (tokens : AuthTokens)
  | unauthorized (e : UnauthorizedException)
  | rejected (e : DomainException)
  deriving DecidableEq, Repr

/-- The exception of a failed login, which does not say why. -/
def invalidCredentials : UnauthorizedException :=
  ⟨"Invalid email, tenant or password credentials."⟩

/-- **The request, cut at its awaits.** -/
def loginProgram (lower : String → String) (u : UuidSource) :
    Program (AuthStores u) LoginCall LoginInput LoginOutcome where
  run k input h :=
    match k with
    | .login dto ipAddress =>
      { heap := h
        waiting := [.loginFound dto ipAddress
          (h.findByEmailAndTenant lower dto.email dto.tenantId)] }
    | .loginFound _ ipAddress user =>
      match user with
      | none => { heap := h, settled := [.unauthorized invalidCredentials] }
      | some user =>
        if user.isActive then { heap := h, waiting := [.loginVerified user ipAddress] }
        else { heap := h, settled := [.unauthorized invalidCredentials] }
    | .loginVerified user ipAddress =>
      match input.verified with
      | .error text => { heap := h, settled := [.rejected (.error text)] }
      | .ok false =>
        { heap := h.setFailedLoginAttempts user.id (user.failedLoginAttempts + 1)
          waiting := [.loginFailed] }
      | .ok true =>
        { heap := h.setFailedLoginAttempts user.id 0
          waiting := [.loginUpdated user ipAddress] }
    | .loginFailed => { heap := h, settled := [.unauthorized invalidCredentials] }
    | .loginUpdated user ipAddress =>
      { heap := h.record (user.loggedInEntry ipAddress)
        waiting := [.loginAudited user input.tokens] }
    | .loginAudited user tokens =>
      { heap := h, settled := [.loggedIn user.registered tokens] }

end Logix.Auth
