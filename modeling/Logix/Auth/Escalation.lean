import Logix.Async.Outline
import Logix.Auth.Login
import Logix.Auth.Uniqueness
import Logix.Spec.Ownership

/-!
# Can a registration make a super admin?

The three public requests of the auth service, on one set of repositories.

* `registerRoles`: the roles that `RegisterUserSchema` accepts;
* `AccessTokenCodec`: `jsonwebtoken` with the secret of the access tokens; `generateAuthTokens`;
* `authApi`: the requests as one program;
* `NoSuperAdmin`: no stored user and no issued token is a super admin; `NoPromotion`: no request to
  register one will be accepted;
* `roleOutline`: what the suspended requests know of the roles they carry;
* **`noSuperAdmin`**: in runs without such requests there is no super admin, and the first of them
  can make one;
* `super_admin_registered`: the registration of one.
-/

namespace Logix.Auth

open Async Spec

variable {lower : String → String} {u : UuidSource}

/-! ## Roles and tokens -/

/-- The text of a role. -/
def UserRole.text : UserRole → String
  | .SUPER_ADMIN => "SUPER_ADMIN"
  | .TENANT_ADMIN => "TENANT_ADMIN"
  | .OPERATIONS_MANAGER => "OPERATIONS_MANAGER"
  | .WAREHOUSE_SUPERVISOR => "WAREHOUSE_SUPERVISOR"
  | .FLEET_DISPATCHER => "FLEET_DISPATCHER"
  | .DRIVER => "DRIVER"
  | .FINANCE_OFFICER => "FINANCE_OFFICER"
  | .AUDITOR => "AUDITOR"
  | .CUSTOMER => "CUSTOMER"

/-- The roles of `UserRole`, in the order of the enumeration. -/
def UserRole.all : List UserRole :=
  [.SUPER_ADMIN, .TENANT_ADMIN, .OPERATIONS_MANAGER, .WAREHOUSE_SUPERVISOR, .FLEET_DISPATCHER,
    .DRIVER, .FINANCE_OFFICER, .AUDITOR, .CUSTOMER]

/-- `z.nativeEnum(UserRole)`. -/
def UserRole.ofText (text : String) : Option UserRole :=
  UserRole.all.find? fun role => role.text = text

/-- `z.array(z.nativeEnum(UserRole)).default([UserRole.CUSTOMER])`. -/
def registerRoles : Option (List String) → Option (List UserRole)
  | none => some [.CUSTOMER]
  | some texts => texts.mapM UserRole.ofText

/-- `jsonwebtoken` with the secret of the access tokens: a token carries the roles that were signed,
whatever the time of its issue. -/
structure AccessTokenCodec where
  sign : AccessClaims → ℕ → String
  /-- The claim `roles` of a token that verifies. -/
  roles : String → Option (List UserRole)
  roles_sign : ∀ c issuedAt, roles (sign c issuedAt) = some c.roles

/-- What a segment reads from outside. -/
structure AuthApiInput where
  hash : Except String String
  verified : Except String Bool
  issuedAt : ℕ
  refreshToken : String

/-- `TokenService.generateAuthTokens(user)`. -/
def generateAuthTokens (J : AccessTokenCodec) (input : AuthApiInput) (user : UserEntity) :
    AuthTokens where
  accessToken := J.sign user.claims input.issuedAt
  refreshToken := input.refreshToken
  expiresIn := 900

/-! ## The requests -/

/-- The user that a segment generates tokens for. -/
def AuthCall.tokensFor : AuthCall → Option UserEntity
  | .registerCreated user _ => some user
  | _ => none

/-- The user that a segment generates tokens for. -/
def LoginCall.tokensFor : LoginCall → Option UserEntity
  | .loginUpdated user _ => some user
  | _ => none

/-- The tokens of a segment; the other segments read none. -/
def tokensOf (J : AccessTokenCodec) (input : AuthApiInput) (user : Option UserEntity) :
    AuthTokens := (user.map (generateAuthTokens J input)).getD ⟨"", "", 900⟩

/-- **The routes `register`, `login` and `tenants`.** -/
def authApi (J : AccessTokenCodec) (lower : String → String) (u : UuidSource) :
    Program (AuthStores u) (AuthCall ⊕ LoginCall) AuthApiInput (AuthOutcome ⊕ LoginOutcome) where
  run
    | .inl k, input, h =>
      ((authProgram lower u).run k ⟨input.hash, tokensOf J input k.tokensFor⟩ h).map .inl .inl
    | .inr k, input, h =>
      ((loginProgram lower u).run k ⟨input.verified, tokensOf J input k.tokensFor⟩ h).map .inr .inr

/-- The configurations of the API. -/
abbrev AuthApiConfig (u : UuidSource) : Type :=
  Config (AuthStores u) (AuthCall ⊕ LoginCall) (AuthOutcome ⊕ LoginOutcome)

/-- Empty repositories, and no request. -/
def apiStart (u : UuidSource) : AuthApiConfig u := ⟨.new u, [], []⟩

/-- A run starts requests that the schemas accept, and continues any of them. -/
def Requested (_ : AuthApiConfig u) : Act (AuthCall ⊕ LoginCall) AuthApiInput → Prop
  | .call (.inl (.registerUser dto _)) _ => ∃ roles, registerRoles roles = some dto.roles
  | .call (.inl (.provisionTenant _)) _ | .call (.inr (.login _ _)) _ => True
  | .call _ _ => False
  | .resume _ _ => True

/-- The tokens that a request has issued. -/
def issuedTokens : AuthOutcome ⊕ LoginOutcome → Option AuthTokens
  | .inl (.registered _ tokens) | .inr (.loggedIn _ tokens) => some tokens
  | _ => none

/-- A token that does not carry the role SUPER_ADMIN. -/
def AuthTokens.Ordinary (J : AccessTokenCodec) (tokens : AuthTokens) : Prop :=
  ∀ roles ∈ J.roles tokens.accessToken, .SUPER_ADMIN ∉ roles

/-- **No stored user and no issued token is a super admin.** -/
structure NoSuperAdmin (J : AccessTokenCodec) (c : AuthApiConfig u) : Prop where
  users : ∀ user ∈ c.heap.users.values, .SUPER_ADMIN ∉ user.roles
  tokens : ∀ o ∈ c.settled, ∀ tokens ∈ issuedTokens o, tokens.Ordinary J

/-- A registration that will be refused: there is no active tenant, or the email is taken. -/
def Refused (lower : String → String) (h : AuthStores u) (dto : RegisterUserDTO) : Prop :=
  (∀ tenant ∈ h.tenants.get dto.tenantId, tenant.isActive = false) ∨
    (h.findByEmailAndTenant lower dto.email dto.tenantId).isSome

/-- **A request to register a super admin will be refused.** -/
def NoPromotion (lower : String → String) (c : AuthApiConfig u) :
    Act (AuthCall ⊕ LoginCall) AuthApiInput → Prop
  | .call (.inl (.registerUser dto _)) _ => .SUPER_ADMIN ∈ dto.roles → Refused lower c.heap dto
  | _ => True

/-- A step without a promotion. -/
def PlainStep (lower : String → String) (c : AuthApiConfig u)
    (a : Act (AuthCall ⊕ LoginCall) AuthApiInput) : Prop := Requested c a ∧ NoPromotion lower c a

theorem registerRoles_text (roles : List UserRole) :
    registerRoles (some (roles.map UserRole.text)) = some roles := by
  have hone : ∀ role : UserRole, UserRole.ofText role.text = some role := by
    intro role
    cases role <;> decide
  induction roles with
  | nil => rfl
  | cons role roles ih =>
    simp only [registerRoles, List.map_cons, List.mapM_cons, hone] at ih ⊢
    simp [ih]

/-! ## The outline -/

/-- No role of the request or the user is SUPER_ADMIN, unless the request is bound to be refused. -/
def AuthCall.Plain (J : AccessTokenCodec) (lower : String → String) (h : AuthStores u) :
    AuthCall → Prop
  | .registerUser _ _ => False
  | .registerTenantFound dto _ tenant => .SUPER_ADMIN ∈ dto.roles →
    (∀ tenant' ∈ tenant, tenant'.isActive = false) ∨
      (h.findByEmailAndTenant lower dto.email dto.tenantId).isSome
  | .registerLookedUp dto _ existing => .SUPER_ADMIN ∈ dto.roles → existing.isSome
  | .registerHashed dto _ => .SUPER_ADMIN ∉ dto.roles
  | .registerCreated user _ => .SUPER_ADMIN ∉ user.roles
  | .registerAudited _ tokens => tokens.Ordinary J
  | .provisionTenant _ | .provisionLookedUp _ _ | .provisionTenantCreated _ _
  | .provisionHashed _ _ | .provisionAdminCreated _ _ => True

/-- A login carries no super admin. -/
def LoginCall.Plain (J : AccessTokenCodec) : LoginCall → Prop
  | .login _ _ | .loginFailed => True
  | .loginFound _ _ user => ∀ user' ∈ user, .SUPER_ADMIN ∉ user'.roles
  | .loginVerified user _ | .loginUpdated user _ => .SUPER_ADMIN ∉ user.roles
  | .loginAudited _ tokens => tokens.Ordinary J

theorem isSome_find_iff {h : AuthStores u} {email tenantId : String} :
    (h.findByEmailAndTenant lower email tenantId).isSome ↔
      ∃ id, Owned (UserEntity.key lower) h.users (tenantId, lower email) id := by
  rw [AuthStores.findByEmailAndTenant, List.find?_isSome]
  constructor
  · rintro ⟨user, hmem, hkey⟩
    obtain ⟨hlower, rfl⟩ := of_decide_eq_true hkey
    obtain ⟨id, hget⟩ := JsMap.exists_get_of_mem_values hmem
    exact ⟨id, user, hget, by rw [UserEntity.key, hlower]⟩
  · rintro ⟨id, user, hget, hkey⟩
    obtain ⟨rfl, hlower⟩ := Prod.mk.inj hkey
    exact ⟨user, JsMap.mem_values_of_get hget, decide_eq_true ⟨hlower, rfl⟩⟩

/-- **The outline of the API**: emails stay taken, and there is no super admin. -/
def roleOutline (J : AccessTokenCodec) (lower : String → String) (u : UuidSource) :
    Outline (AuthStores u) (AuthCall ⊕ LoginCall) (AuthOutcome ⊕ LoginOutcome) where
  guarantee _ h h' := KeepsOwners (UserEntity.key lower) h.users h'.users
  inv h := ∀ user ∈ h.users.values, .SUPER_ADMIN ∉ user.roles
  assertion k h := k.elim (AuthCall.Plain J lower h) (LoginCall.Plain J)
  outcome o := ∀ tokens ∈ issuedTokens o, tokens.Ordinary J
  stable k k' h h' hg hk := by
    have htaken : ∀ email tenantId, (h.findByEmailAndTenant lower email tenantId).isSome →
        (h'.findByEmailAndTenant lower email tenantId).isSome := by
      intro email tenantId hsome
      obtain ⟨id, hid⟩ := isSome_find_iff.mp hsome
      exact isSome_find_iff.mpr ⟨id, hid.mono hg⟩
    rcases k with k | k
    · cases k with
      | registerTenantFound dto ipAddress tenant =>
        exact fun hsuper => (hk hsuper).imp_right (htaken dto.email dto.tenantId)
      | _ => exact hk
    · exact hk

/-! ## Segments -/

section Segments

variable {J : AccessTokenCodec} {h : AuthStores u}

theorem ordinary_generateAuthTokens {user : UserEntity} (huser : .SUPER_ADMIN ∉ user.roles)
    (input : AuthApiInput) : (generateAuthTokens J input user).Ordinary J := by
  intro roles hroles
  obtain rfl := Option.some.inj ((J.roles_sign _ _).symm.trans hroles)
  exact huser

theorem keepsOwners_createUser (h : AuthStores u) (entity : String → UserEntity) :
    KeepsOwners (UserEntity.key lower) h.users (h.createUser entity).users := by
  have hact : ActsFor (UserEntity.key lower) ("", "") h.users (h.createUser entity).users :=
    .set (h.users_issued.fresh le_rfl) _
  exact hact.keeps

theorem forall_users_createUser (hinv : ∀ user ∈ h.users.values, .SUPER_ADMIN ∉ user.roles)
    {entity : String → UserEntity} (hnew : ∀ id, .SUPER_ADMIN ∉ (entity id).roles) :
    ∀ user ∈ (h.createUser entity).users.values, .SUPER_ADMIN ∉ user.roles := by
  intro user hmem
  rw [AuthStores.createUser, JsMap.values_set_of_fresh (h.users_issued.fresh le_rfl)] at hmem
  rcases List.mem_append.mp hmem with hmem | hmem
  · exact hinv user hmem
  · obtain rfl := List.mem_singleton.mp hmem
    exact hnew _

theorem keepsOwners_setFailed (h : AuthStores u) (id : String) (n : ℕ) :
    KeepsOwners (UserEntity.key lower) h.users (h.setFailedLoginAttempts id n).users := by
  intro id' user huser
  refine ⟨_, JsMap.get_modify_of_get huser id _, ?_⟩
  split_ifs <;> rfl

theorem forall_users_setFailed (hinv : ∀ user ∈ h.users.values, .SUPER_ADMIN ∉ user.roles)
    (id : String) (n : ℕ) :
    ∀ user ∈ (h.setFailedLoginAttempts id n).users.values, .SUPER_ADMIN ∉ user.roles := by
  intro user hmem
  obtain ⟨id', hget⟩ := JsMap.exists_get_of_mem_values hmem
  obtain ⟨user', huser', rfl⟩ := JsMap.exists_of_get_modify hget
  have hplain := hinv user' (JsMap.mem_values_of_get huser')
  split_ifs <;> exact hplain

theorem segment_auth {k : AuthCall} (hinv : ∀ user ∈ h.users.values, .SUPER_ADMIN ∉ user.roles)
    (hk : k.Plain J lower h) (input : AuthApiInput) :
    ((roleOutline J lower u).comap Sum.inl Sum.inl).Segment k h
      ((authProgram lower u).run k ⟨input.hash, tokensOf J input k.tokensFor⟩ h) := by
  have hsame := KeepsOwners.refl (UserEntity.key lower) h.users
  have hnone : ∀ e, ∀ tokens ∈ issuedTokens (.inl (.rejected e)), tokens.Ordinary J :=
    fun _ tokens htokens => absurd htokens (Option.not_mem_none tokens)
  cases k with
  | registerUser dto ipAddress => exact hk.elim
  | registerTenantFound dto ipAddress tenant =>
    cases tenant with
    | none => exact .settles hsame hinv (hnone _)
    | some tenant =>
      simp only [authProgram]
      split_ifs with hactive
      · refine .waits hsame hinv fun hsuper => (hk hsuper).resolve_left fun hno => ?_
        rw [hno tenant rfl] at hactive
        cases hactive
      · exact .settles hsame hinv (hnone _)
  | registerLookedUp dto ipAddress existing =>
    cases existing with
    | some user => exact .settles hsame hinv (hnone _)
    | none => exact .waits hsame hinv fun hsuper => absurd (hk hsuper) Bool.false_ne_true
  | registerHashed dto ipAddress =>
    simp only [authProgram]
    cases input.hash with
    | error text => exact .settles hsame hinv (hnone _)
    | ok passwordHash =>
      exact .waits (keepsOwners_createUser h _) (forall_users_createUser hinv fun _ => hk) hk
  | registerCreated user ipAddress =>
    exact .waits hsame hinv (ordinary_generateAuthTokens hk input)
  | registerAudited user tokens =>
    exact .settles hsame hinv fun tokens' htokens => by cases htokens; exact hk
  | provisionTenant dto => exact .waits hsame hinv trivial
  | provisionLookedUp dto existing =>
    cases existing with
    | some tenant => exact .settles hsame hinv (hnone _)
    | none => exact .waits hsame hinv trivial
  | provisionTenantCreated dto tenant => exact .waits hsame hinv trivial
  | provisionHashed dto tenant =>
    simp only [authProgram]
    cases input.hash with
    | error text => exact .settles hsame hinv (hnone _)
    | ok passwordHash =>
      refine .waits (keepsOwners_createUser h _) (forall_users_createUser hinv fun _ => ?_) trivial
      simp [CreateTenantDTO.newAdmin]
  | provisionAdminCreated tenant adminUser =>
    exact .settles hsame hinv fun tokens htokens => absurd htokens (Option.not_mem_none tokens)

theorem segment_login {k : LoginCall} (hinv : ∀ user ∈ h.users.values, .SUPER_ADMIN ∉ user.roles)
    (hk : k.Plain J) (input : AuthApiInput) :
    ((roleOutline J lower u).comap Sum.inr Sum.inr).Segment k h
      ((loginProgram lower u).run k ⟨input.verified, tokensOf J input k.tokensFor⟩ h) := by
  have hsame := KeepsOwners.refl (UserEntity.key lower) h.users
  have hnone : ∀ e, ∀ tokens ∈ issuedTokens (.inr (.unauthorized e)), tokens.Ordinary J :=
    fun _ tokens htokens => absurd htokens (Option.not_mem_none tokens)
  cases k with
  | login dto ipAddress =>
    refine .waits hsame hinv fun user huser => hinv user ?_
    exact List.mem_of_find?_eq_some huser
  | loginFound dto ipAddress user =>
    cases user with
    | none => exact .settles hsame hinv (hnone _)
    | some user =>
      simp only [loginProgram]
      split_ifs with hactive
      · exact .waits hsame hinv (hk user rfl)
      · exact .settles hsame hinv (hnone _)
  | loginVerified user ipAddress =>
    simp only [loginProgram]
    cases input.verified with
    | error text =>
      exact .settles hsame hinv fun tokens htokens => absurd htokens (Option.not_mem_none tokens)
    | ok valid =>
      cases valid with
      | true =>
        exact .waits (keepsOwners_setFailed h _ _) (forall_users_setFailed hinv _ _) hk
      | false =>
        exact .waits (keepsOwners_setFailed h _ _) (forall_users_setFailed hinv _ _) trivial
  | loginFailed => exact .settles hsame hinv (hnone _)
  | loginUpdated user ipAddress =>
    exact .waits hsame hinv (ordinary_generateAuthTokens hk input)
  | loginAudited user tokens =>
    exact .settles hsame hinv fun tokens' htokens => by cases htokens; exact hk

end Segments

/-! ## Runs -/

section Runs

variable {J : AccessTokenCodec} {c : AuthApiConfig u}

theorem segment_registerUser {h : AuthStores u} {dto : RegisterUserDTO}
    (hinv : ∀ user ∈ h.users.values, .SUPER_ADMIN ∉ user.roles)
    (hdto : .SUPER_ADMIN ∈ dto.roles → Refused lower h dto) (ipAddress : Option String)
    (input : AuthInput) : ((roleOutline J lower u).comap Sum.inl Sum.inl).Segment
      (.registerUser dto ipAddress) h
      ((authProgram lower u).run (.registerUser dto ipAddress) input h) :=
  .waits (fun _ user hu => ⟨user, hu, rfl⟩) hinv hdto

theorem keeps_roleOutline :
    (roleOutline J lower u).Keeps (authApi J lower u) (PlainStep lower) where
  call c k input hok hinv := by
    obtain ⟨hreq, hplain⟩ := hok
    rcases k with k | k
    · cases k with
      | registerUser dto ipAddress => exact (segment_registerUser hinv hplain ipAddress _).map
      | provisionTenant dto =>
        exact (segment_auth (k := .provisionTenant dto) hinv trivial input).map
      | _ => exact hreq.elim
    · cases k with
      | login dto ipAddress =>
        exact (segment_login (k := .login dto ipAddress) hinv trivial input).map
      | _ => exact hreq.elim
  resume h k input hinv hk := by
    rcases k with k | k
    · exact (segment_auth hinv hk input).map
    · exact (segment_login hinv hk input).map

theorem reach_roleOutline
    (h : Reach (authApi J lower u) (PlainStep lower) (apiStart u) c) :
    (roleOutline J lower u).Holds c := by
  refine keeps_roleOutline.holds ⟨fun user huser => ?_, fun k hk => ?_, fun o ho => ?_⟩ h
  · exact absurd huser List.not_mem_nil
  · exact absurd hk List.not_mem_nil
  · exact absurd ho List.not_mem_nil

/-- The hash and the verification come to a good end. -/
def settlesWell : AuthApiInput := ⟨.ok "salt:key", .ok true, 0, "refresh"⟩

theorem exists_registered {dto : RegisterUserDTO} {ipAddress : Option String}
    {tenant : TenantEntity} (hactive : tenant.isActive = true)
    (hfree : c.heap.findByEmailAndTenant lower dto.email dto.tenantId = none)
    (hk : .inl (.registerTenantFound dto ipAddress (some tenant)) ∈ c.inFlight) :
    ∃ d, Reach (authApi J lower u) Requested c d ∧
      ∃ user ∈ d.heap.users.values, user.roles = dto.roles := by
  have hresume : ∀ (c : AuthApiConfig u) n i, Requested c (.resume n i) := fun _ _ _ => trivial
  obtain ⟨d, hd, hheap, hwaiting, -⟩ :=
    Reach.exists_resumed (P := authApi J lower u) hresume hk settlesWell
  have hlooked : .inl (.registerLookedUp dto ipAddress none) ∈ d.inFlight := by
    refine hwaiting _ ?_
    simp [authApi, authProgram, Segment.map, hactive, hfree]
  obtain ⟨d', hd', -, hwaiting', -⟩ :=
    Reach.exists_resumed (P := authApi J lower u) hresume hlooked settlesWell
  have hhashed : .inl (.registerHashed dto ipAddress) ∈ d'.inFlight :=
    hwaiting' _ List.mem_cons_self
  obtain ⟨d'', hd'', hheap'', -, -⟩ :=
    Reach.exists_resumed (P := authApi J lower u) hresume hhashed settlesWell
  refine ⟨d'', (hd.trans hd').trans hd'', dto.newUser "salt:key" (u.draw d'.heap.draws), ?_, rfl⟩
  rw [hheap'']
  exact JsMap.mem_values_of_get (JsMap.get_set_self _ _ _)

theorem exists_superAdmin {c' : AuthApiConfig u} {a : Act (AuthCall ⊕ LoginCall) AuthApiInput}
    (hpromotion : ¬ NoPromotion lower c a) (hs : (authApi J lower u).step c a = some c') :
    ∃ d, Reach (authApi J lower u) Requested c' d ∧ ¬ NoSuperAdmin J d := by
  cases a with
  | resume n input => exact absurd trivial hpromotion
  | call k input =>
    rcases k with k | k
    · cases k with
      | registerUser dto ipAddress =>
        cases hs
        simp only [NoPromotion, Refused, Classical.not_imp, not_or, not_forall] at hpromotion
        obtain ⟨hsuper, ⟨tenant, htenant, hactive⟩, hfree⟩ := hpromotion
        rw [Option.not_isSome_iff_eq_none] at hfree
        let started := (authApi J lower u).run (.inl (.registerUser dto ipAddress)) input c.heap
        have hk : .inl (.registerTenantFound dto ipAddress (some tenant)) ∈
            (c.after started c.inFlight).inFlight := by
          rw [← Option.mem_def.mp htenant]
          exact List.mem_append_right _ List.mem_cons_self
        obtain ⟨d, hd, user, huser, hroles⟩ := exists_registered (c := c.after started c.inFlight)
          (Bool.eq_true_of_not_eq_false hactive) hfree hk
        refine ⟨d, hd, fun hno => hno.users user huser ?_⟩
        rw [hroles]
        exact hsuper
      | _ => exact absurd trivial hpromotion
    · exact absurd trivial hpromotion

end Runs

/-- **There is no super admin** in every run in which each request to register one is refused. The
condition cannot be weakened: the first request that is not can be continued to a stored user with
that role. -/
theorem noSuperAdmin (J : AccessTokenCodec) (lower : String → String) (u : UuidSource) :
    (∀ c, Reach (authApi J lower u) (PlainStep lower) (apiStart u) c → NoSuperAdmin J c) ∧
      ∀ c a c', Reach (authApi J lower u) (PlainStep lower) (apiStart u) c → Requested c a →
        ¬ NoPromotion lower c a → (authApi J lower u).step c a = some c' →
        ∃ d, Reach (authApi J lower u) Requested c' d ∧ ¬ NoSuperAdmin J d := by
  refine ⟨fun c h => ?_, fun _ _ _ _ _ hpromotion hs => exists_superAdmin hpromotion hs⟩
  have hholds := reach_roleOutline h
  exact ⟨hholds.inv, hholds.settled⟩

/-! ## The registration of a super admin -/

section Promotion

/-- A letter for each role. -/
def UserRole.letter (role : UserRole) : Char := Nat.digitChar (UserRole.all.idxOf role)

/-- Tokens that are the letters of the roles. -/
def plainTokens : AccessTokenCodec where
  sign c _ := String.ofList (c.roles.map UserRole.letter)
  roles token := some (token.toList.filterMap fun ch => UserRole.all.find? fun r => r.letter = ch)
  roles_sign c _ := by
    have hletter : ∀ role : UserRole,
        UserRole.all.find? (fun r => r.letter = role.letter) = some role := by
      intro role
      cases role <;> decide
    rw [String.toList_ofList, List.filterMap_map]
    simp [hletter]

/-- A registration that asks for the role. -/
def selfPromotion : RegisterUserDTO :=
  { registration "eve@example.com" with roles := [.SUPER_ADMIN] }

instance : ∀ (c : AuthApiConfig u) (a : Act (AuthCall ⊕ LoginCall) AuthApiInput),
    Decidable (Requested c a)
  | _, .call (.inl (.registerUser dto _)) _ => .isTrue ⟨_, registerRoles_text dto.roles⟩
  | _, .call (.inl (.provisionTenant _)) _ | _, .call (.inr (.login ..)) _ => .isTrue trivial
  | _, .call (.inl (.registerTenantFound ..)) _ | _, .call (.inl (.registerLookedUp ..)) _
  | _, .call (.inl (.registerHashed ..)) _ | _, .call (.inl (.registerCreated ..)) _
  | _, .call (.inl (.registerAudited ..)) _ | _, .call (.inl (.provisionLookedUp ..)) _
  | _, .call (.inl (.provisionTenantCreated ..)) _ | _, .call (.inl (.provisionHashed ..)) _
  | _, .call (.inl (.provisionAdminCreated ..)) _ | _, .call (.inr (.loginFound ..)) _
  | _, .call (.inr (.loginVerified ..)) _ | _, .call (.inr .loginFailed) _
  | _, .call (.inr (.loginUpdated ..)) _ | _, .call (.inr (.loginAudited ..)) _ => .isFalse id
  | _, .resume _ _ => .isTrue trivial

instance : ∀ (c : AuthApiConfig u) (a : Act (AuthCall ⊕ LoginCall) AuthApiInput),
    Decidable (NoPromotion lower c a)
  | _, .call (.inl (.registerUser _ _)) _ =>
    inferInstanceAs (Decidable (_ → (∀ tenant ∈ _, _) ∨ _))
  | _, .call (.inl (.provisionTenant _)) _ | _, .call (.inl (.registerTenantFound ..)) _
  | _, .call (.inl (.registerLookedUp ..)) _ | _, .call (.inl (.registerHashed ..)) _
  | _, .call (.inl (.registerCreated ..)) _ | _, .call (.inl (.registerAudited ..)) _
  | _, .call (.inl (.provisionLookedUp ..)) _ | _, .call (.inl (.provisionTenantCreated ..)) _
  | _, .call (.inl (.provisionHashed ..)) _ | _, .call (.inl (.provisionAdminCreated ..)) _
  | _, .call (.inr _) _ | _, .resume _ _ => .isTrue trivial

instance (c : AuthApiConfig u) (a : Act (AuthCall ⊕ LoginCall) AuthApiInput) :
    Decidable (PlainStep lower c a) := inferInstanceAs (Decidable (_ ∧ _))

/-- **A super admin registers itself.** -/
theorem super_admin_registered : ∃ c, Reach (authApi plainTokens asciiLower .unary) Requested
    (apiStart .unary) c ∧ c.inFlight = [] ∧ ¬ NoSuperAdmin plainTokens c := by
  have hrun : ((authApi plainTokens asciiLower .unary).exec Requested (apiStart .unary)
      (.call (.inl (.provisionTenant acme)) settlesWell ::
        List.replicate 4 (.resume 0 settlesWell) ++
        .call (.inl (.registerUser selfPromotion none)) settlesWell ::
        List.replicate 5 (.resume 0 settlesWell))).any
      fun c => decide (c.inFlight = [] ∧
        ∃ user ∈ c.heap.users.values, .SUPER_ADMIN ∈ user.roles) := by decide
  obtain ⟨c, hc, hidle, user, huser, hsuper⟩ := Reach.exists_of_exec hrun
  exact ⟨c, hc, hidle, fun hno => hno.users user huser hsuper⟩

/-- A customer registers and logs in; a registration with a taken email is refused. -/
theorem noSuperAdmin_customer : ∃ c, Reach (authApi plainTokens asciiLower .unary)
    (PlainStep asciiLower) (apiStart .unary) c ∧ c.inFlight = [] ∧ c.settled.length = 4 ∧
      NoSuperAdmin plainTokens c := by
  have hrun : ((authApi plainTokens asciiLower .unary).exec (PlainStep asciiLower)
      (apiStart .unary)
      (.call (.inl (.provisionTenant acme)) settlesWell ::
        List.replicate 4 (.resume 0 settlesWell) ++
        .call (.inl (.registerUser (registration "eve@example.com") none)) settlesWell ::
        List.replicate 5 (.resume 0 settlesWell) ++
        .call (.inl (.registerUser selfPromotion none)) settlesWell ::
        List.replicate 2 (.resume 0 settlesWell) ++
        .call (.inr (.login ⟨"eve@example.com", "battery staple", "id"⟩ none)) settlesWell ::
        List.replicate 4 (.resume 0 settlesWell))).any
      fun c => decide (c.inFlight = [] ∧ c.settled.length = 4) := by decide
  obtain ⟨c, hc, hidle, hlength⟩ := Reach.exists_of_exec hrun
  exact ⟨c, hc, hidle, hlength, (noSuperAdmin plainTokens asciiLower .unary).1 c hc⟩

end Promotion

end Logix.Auth
