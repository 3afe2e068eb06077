import Logix.Auth.Escalation
import Logix.Auth.Passwords

/-!
# Who can log in?

The public requests of the auth service, with the hashes that `PasswordHasher` makes and checks.

* `credentialApi`: the requests as one program; each login keeps its number and its DTO;
* `Enrolled`: a user as a registration or a new tenant has made it, up to its failed logins;
* `hashOutline`: every stored user, and every user that a login has found, is enrolled;
* `acceptOutline`: what a lookup finds is what it will find;
* **`login_spec`**: who is logged in has given a password with the key of the enrolment; and from
  then on every login that starts is accepted with such a password, and refused with any other.
-/

namespace Logix.Auth

open Async PasswordHasher

/-- What a segment reads from outside: the salt, an error of the derivation, and what goes into the
tokens. -/
structure HasherInput where
  saltBytes : List UInt8
  saltBytes_length : saltBytes.length = saltLength
  failure : Option String
  issuedAt : ℕ
  refreshToken : String

/-- A login, with a number that tells it from others of the same DTO. -/
structure LoginRequest where
  number : ℕ
  dto : LoginDTO
  deriving DecidableEq, Repr

/-- The password that a segment hashes. -/
def AuthCall.password : AuthCall → Option String
  | .registerHashed dto _ => some dto.password
  | .provisionHashed dto _ => some dto.adminPassword
  | _ => none

/-- The user whose password a segment checks. -/
def LoginCall.checked : LoginCall → Option UserEntity
  | .loginVerified user _ => some user
  | _ => none

section Api

variable (pbkdf2 : JsString → JsString → ℕ → ℕ → JsString → List UInt8)

/-- What is stored for a password. -/
def storedHash (saltBytes : List UInt8) (password : String) : String :=
  asciiString (hash pbkdf2 saltBytes (js password))

/-- How `PasswordHasher.hash(password)` settles. -/
def hashSettled (input : HasherInput) (password : String) : Except String String :=
  match input.failure with
  | some text => .error text
  | none => .ok (storedHash pbkdf2 input.saltBytes password)

/-- How `PasswordHasher.verify(password, user.passwordHash)` settles. -/
def verifySettled (input : HasherInput) (password : String) (user : UserEntity) :
    Except String Bool :=
  match input.failure with
  | some text => .error text
  | none => .ok (verify pbkdf2 (js password) (js user.passwordHash))

/-- The tokens of a segment. -/
def HasherInput.tokens (J : AccessTokenCodec) (input : HasherInput) (user : Option UserEntity) :
    AuthTokens := tokensOf J ⟨.ok "", .ok false, input.issuedAt, input.refreshToken⟩ user

/-- **The routes `register`, `tenants` and `login`**, with their hashes. -/
def credentialApi (J : AccessTokenCodec) (lower : String → String) (u : UuidSource) :
    Program (AuthStores u) (AuthCall ⊕ LoginRequest × LoginCall) HasherInput
      (AuthOutcome ⊕ LoginRequest × LoginOutcome) where
  run
    | .inl k, input, h =>
      ((authProgram lower u).run k ⟨(k.password.map (hashSettled pbkdf2 input)).getD (.ok ""),
        input.tokens J k.tokensFor⟩ h).map .inl .inl
    | .inr (r, k), input, h =>
      ((loginProgram lower u).run k
        ⟨(k.checked.map (verifySettled pbkdf2 input r.dto.password)).getD (.ok false),
          input.tokens J k.tokensFor⟩ h).map (fun k => .inr (r, k)) fun o => .inr (r, o)

/-- The configurations of the API. -/
abbrev CredentialConfig (u : UuidSource) : Type :=
  Config (AuthStores u) (AuthCall ⊕ LoginRequest × LoginCall)
    (AuthOutcome ⊕ LoginRequest × LoginOutcome)

/-- Empty repositories, and no request. -/
def credentialStart (u : UuidSource) : CredentialConfig u := ⟨.new u, [], []⟩

/-- A run starts registrations of `R`, tenants of `T` and any logins, and continues any of them. -/
def Asked (R : RegisterUserDTO → Prop) (T : CreateTenantDTO → Prop) (_ : CredentialConfig u) :
    Act (AuthCall ⊕ LoginRequest × LoginCall) HasherInput → Prop
  | .call (.inl (.registerUser dto _)) _ => R dto
  | .call (.inl (.provisionTenant dto)) _ => T dto
  | .call (.inr (r, .login dto _)) _ => dto = r.dto
  | .call _ _ => False
  | .resume _ _ => True

/-- A login that has not been started. -/
structure LoginRequest.NotStarted (r : LoginRequest) (c : CredentialConfig u) : Prop where
  inFlight : ∀ k, .inr (r, k) ∉ c.inFlight
  settled : ∀ o, .inr (r, o) ∉ c.settled

/-- **A user that was enrolled with a salt and a password**, and has failed to log in since. -/
inductive Enrolled (R : RegisterUserDTO → Prop) (T : CreateTenantDTO → Prop) :
    UserEntity → List UInt8 → String → Prop
  | registered {dto : RegisterUserDTO} (hdto : R dto) {saltBytes : List UInt8}
      (hsalt : saltBytes.length = saltLength) (id : String) (n : ℕ) :
      Enrolled R T
        { dto.newUser (storedHash pbkdf2 saltBytes dto.password) id with failedLoginAttempts := n }
        saltBytes dto.password
  | provisioned {dto : CreateTenantDTO} (hdto : T dto) {saltBytes : List UInt8}
      (hsalt : saltBytes.length = saltLength) (tenantId id : String) (n : ℕ) :
      Enrolled R T
        { dto.newAdmin tenantId (storedHash pbkdf2 saltBytes dto.adminPassword) id with
          failedLoginAttempts := n }
        saltBytes dto.adminPassword

/-- Two passwords have the same key. -/
def SameKey (saltBytes : List UInt8) (password password' : String) : Prop :=
  derive pbkdf2 (js password) (toHex saltBytes) = derive pbkdf2 (js password') (toHex saltBytes)

end Api

variable {pbkdf2 : JsString → JsString → ℕ → ℕ → JsString → List UInt8}
  {J : AccessTokenCodec} {lower : String → String} {u : UuidSource}
  {R : RegisterUserDTO → Prop} {T : CreateTenantDTO → Prop}

/-! ## Enrolled users -/

theorem js_storedHash (saltBytes : List UInt8) (password : String) :
    js (storedHash pbkdf2 saltBytes password) = hash pbkdf2 saltBytes (js password) := by
  refine js_asciiString fun c hc => ?_
  rcases List.mem_append.mp hc with hc | hc
  · exact isAscii_toHex _ c hc
  · rcases List.mem_cons.mp hc with rfl | hc
    · decide
    · exact isAscii_toHex _ c hc

namespace Enrolled

variable {user : UserEntity} {saltBytes : List UInt8} {password : String}

theorem isActive (h : Enrolled pbkdf2 R T user saltBytes password) : user.isActive = true := by
  cases h <;> rfl

theorem setFailed (h : Enrolled pbkdf2 R T user saltBytes password) (n : ℕ) :
    Enrolled pbkdf2 R T { user with failedLoginAttempts := n } saltBytes password := by
  cases h with
  | registered hdto hsalt id m => exact .registered hdto hsalt id n
  | provisioned hdto hsalt tenantId id m => exact .provisioned hdto hsalt tenantId id n

theorem passwordHash (h : Enrolled pbkdf2 R T user saltBytes password) :
    user.passwordHash = storedHash pbkdf2 saltBytes password := by
  cases h <;> rfl

theorem length_eq (h : Enrolled pbkdf2 R T user saltBytes password) :
    saltBytes.length = saltLength := by
  cases h <;> assumption

theorem verify_iff (hlength : ∀ p s c n d, (pbkdf2 p s c n d).length = n)
    (h : Enrolled pbkdf2 R T user saltBytes password) (attempt : String) :
    verify pbkdf2 (js attempt) (js user.passwordHash) = true ↔
      SameKey pbkdf2 saltBytes attempt password := by
  rw [h.passwordHash, js_storedHash]
  exact verify_hash_iff hlength h.length_eq _ _

end Enrolled

/-! ## Whoever is logged in -/

section Sound

variable (pbkdf2 J lower R T) in
/-- The user of a login. -/
def LoginDTO.Finds (dto : LoginDTO) (user : UserEntity) : Prop :=
  (∃ saltBytes password, Enrolled pbkdf2 R T user saltBytes password) ∧
    lower user.email = lower dto.email ∧ user.tenantId = dto.tenantId

variable (R T) in
/-- What a registration or a new tenant was asked for. -/
def AuthCall.Asked : AuthCall → Prop
  | .registerUser dto _ | .registerTenantFound dto _ _ | .registerLookedUp dto _ _
  | .registerHashed dto _ => R dto
  | .provisionTenant dto | .provisionLookedUp dto _ | .provisionTenantCreated dto _
  | .provisionHashed dto _ => T dto
  | .registerCreated _ _ | .registerAudited _ _ | .provisionAdminCreated _ _ => True

variable (pbkdf2 J lower R T) in
/-- What a login has found and checked. -/
def LoginCall.Checked (dto : LoginDTO) : LoginCall → Prop
  | .login dto' _ => dto' = dto
  | .loginFound _ _ user => ∀ user' ∈ user, dto.Finds pbkdf2 lower R T user'
  | .loginVerified user _ => dto.Finds pbkdf2 lower R T user
  | .loginFailed => True
  | .loginUpdated user _ => dto.Finds pbkdf2 lower R T user ∧
      verify pbkdf2 (js dto.password) (js user.passwordHash) = true
  | .loginAudited user tokens => dto.Finds pbkdf2 lower R T user ∧
      verify pbkdf2 (js dto.password) (js user.passwordHash) = true ∧
      ∃ issuedAt, tokens.accessToken = J.sign user.claims issuedAt

variable (pbkdf2 J lower R T) in
/-- **The outline of the hashes**: every stored user is enrolled. -/
def hashOutline (u : UuidSource) :
    Outline (AuthStores u) (AuthCall ⊕ LoginRequest × LoginCall)
      (AuthOutcome ⊕ LoginRequest × LoginOutcome) where
  guarantee _ _ _ := True
  inv h := ∀ user ∈ h.users.values, ∃ saltBytes password,
    Enrolled pbkdf2 R T user saltBytes password
  assertion
    | .inl k, _ => k.Asked R T
    | .inr (r, k), _ => k.Checked pbkdf2 J lower R T r.dto
  outcome
    | .inr (r, .loggedIn user tokens) => ∃ user', r.dto.Finds pbkdf2 lower R T user' ∧
        user'.registered = user ∧
        verify pbkdf2 (js r.dto.password) (js user'.passwordHash) = true ∧
        ∃ issuedAt, tokens.accessToken = J.sign user'.claims issuedAt
    | _ => True
  stable
    | .inl _, _, _, _, _, hk => hk
    | .inr _, _, _, _, _, hk => hk

variable {h : AuthStores u}

theorem of_findByEmailAndTenant {email tenantId : String} {user : UserEntity}
    (hfound : h.findByEmailAndTenant lower email tenantId = some user) :
    user ∈ h.users.values ∧ lower user.email = lower email ∧ user.tenantId = tenantId := by
  rw [AuthStores.findByEmailAndTenant] at hfound
  have hkey := List.find?_some hfound
  exact ⟨List.mem_of_find?_eq_some hfound, of_decide_eq_true hkey⟩

theorem forall_values_createUser {p : UserEntity → Prop} (hinv : ∀ user ∈ h.users.values, p user)
    {entity : String → UserEntity} (hnew : ∀ id, p (entity id)) :
    ∀ user ∈ (h.createUser entity).users.values, p user := by
  intro user hmem
  rw [AuthStores.createUser, JsMap.values_set_of_fresh (h.users_issued.fresh le_rfl)] at hmem
  rcases List.mem_append.mp hmem with hmem | hmem
  · exact hinv user hmem
  · obtain rfl := List.mem_singleton.mp hmem
    exact hnew _

theorem forall_values_setFailed {p : UserEntity → Prop} (hinv : ∀ user ∈ h.users.values, p user)
    (hp : ∀ user n, p user → p { user with failedLoginAttempts := n }) (id : String) (n : ℕ) :
    ∀ user ∈ (h.setFailedLoginAttempts id n).users.values, p user := by
  intro user hmem
  obtain ⟨id', hget⟩ := JsMap.exists_get_of_mem_values hmem
  obtain ⟨user', huser', rfl⟩ := JsMap.exists_of_get_modify hget
  have hold := hinv user' (JsMap.mem_values_of_get huser')
  split_ifs
  · exact hp user' n hold
  · exact hold

theorem hashSettled_cases (input : HasherInput) (password : String) :
    (∃ text, hashSettled pbkdf2 input password = .error text) ∨
      hashSettled pbkdf2 input password = .ok (storedHash pbkdf2 input.saltBytes password) := by
  rw [hashSettled]
  cases input.failure with
  | some text => exact Or.inl ⟨text, rfl⟩
  | none => exact Or.inr rfl

theorem verifySettled_cases (input : HasherInput) (password : String) (user : UserEntity) :
    (∃ text, verifySettled pbkdf2 input password user = .error text) ∨
      verifySettled pbkdf2 input password user =
        .ok (verify pbkdf2 (js password) (js user.passwordHash)) := by
  rw [verifySettled]
  cases input.failure with
  | some text => exact Or.inl ⟨text, rfl⟩
  | none => exact Or.inr rfl

theorem segment_enroll {k : AuthCall}
    (hinv : ∀ user ∈ h.users.values, ∃ saltBytes password,
      Enrolled pbkdf2 R T user saltBytes password)
    (hk : k.Asked R T) (input : HasherInput) (tokens : AuthTokens) :
    ((hashOutline pbkdf2 J lower R T u).comap Sum.inl Sum.inl).Segment k h
      ((authProgram lower u).run k
        ⟨(k.password.map (hashSettled pbkdf2 input)).getD (.ok ""), tokens⟩ h) := by
  cases k with
  | registerUser dto ipAddress => exact .waits trivial hinv hk
  | registerTenantFound dto ipAddress tenant =>
    cases tenant with
    | none => exact .settles trivial hinv trivial
    | some tenant =>
      simp only [authProgram]
      split_ifs
      · exact .waits trivial hinv hk
      · exact .settles trivial hinv trivial
  | registerLookedUp dto ipAddress existing =>
    cases existing with
    | some user => exact .settles trivial hinv trivial
    | none => exact .waits trivial hinv hk
  | registerHashed dto ipAddress =>
    simp only [authProgram, AuthCall.password, Option.map_some, Option.getD_some]
    rcases hashSettled_cases input dto.password with ⟨text, heq⟩ | heq
    · rw [heq]
      exact .settles trivial hinv trivial
    · rw [heq]
      exact .waits trivial (forall_values_createUser hinv fun id =>
        ⟨_, _, .registered hk input.saltBytes_length id 0⟩) trivial
  | registerCreated user ipAddress => exact .waits trivial hinv trivial
  | registerAudited user tokens => exact .settles trivial hinv trivial
  | provisionTenant dto => exact .waits trivial hinv hk
  | provisionLookedUp dto existing =>
    cases existing with
    | some tenant => exact .settles trivial hinv trivial
    | none => exact .waits trivial hinv hk
  | provisionTenantCreated dto tenant => exact .waits trivial hinv hk
  | provisionHashed dto tenant =>
    simp only [authProgram, AuthCall.password, Option.map_some, Option.getD_some]
    rcases hashSettled_cases input dto.adminPassword with ⟨text, heq⟩ | heq
    · rw [heq]
      exact .settles trivial hinv trivial
    · rw [heq]
      exact .waits trivial (forall_values_createUser hinv fun id =>
        ⟨_, _, .provisioned hk input.saltBytes_length tenant.id id 0⟩) trivial
  | provisionAdminCreated tenant adminUser => exact .settles trivial hinv trivial

theorem segment_check {r : LoginRequest} {k : LoginCall}
    (hinv : ∀ user ∈ h.users.values, ∃ saltBytes password,
      Enrolled pbkdf2 R T user saltBytes password)
    (hk : k.Checked pbkdf2 J lower R T r.dto) (input : HasherInput) :
    ((hashOutline pbkdf2 J lower R T u).comap (fun k => .inr (r, k))
      fun o => .inr (r, o)).Segment k h ((loginProgram lower u).run k
        ⟨(k.checked.map (verifySettled pbkdf2 input r.dto.password)).getD (.ok false),
          input.tokens J k.tokensFor⟩ h) := by
  have hfailed : ∀ user n, (∃ saltBytes password, Enrolled pbkdf2 R T user saltBytes password) →
      ∃ saltBytes password, Enrolled pbkdf2 R T { user with failedLoginAttempts := n } saltBytes
        password := fun _ n ⟨saltBytes, password, henrolled⟩ =>
    ⟨saltBytes, password, henrolled.setFailed n⟩
  cases k with
  | login dto' ipAddress =>
    obtain rfl : dto' = r.dto := hk
    refine .waits trivial hinv fun user huser => ?_
    obtain ⟨hmem, hkey⟩ := of_findByEmailAndTenant huser
    exact ⟨hinv user hmem, hkey⟩
  | loginFound dto' ipAddress user =>
    cases user with
    | none => exact .settles trivial hinv trivial
    | some user =>
      simp only [loginProgram]
      split_ifs
      · exact .waits trivial hinv (hk user rfl)
      · exact .settles trivial hinv trivial
  | loginVerified user ipAddress =>
    simp only [loginProgram, LoginCall.checked, Option.map_some, Option.getD_some]
    rcases verifySettled_cases input r.dto.password user with ⟨text, heq⟩ | heq
    · rw [heq]
      exact .settles trivial hinv trivial
    · rw [heq]
      cases hvalid : verify pbkdf2 (js r.dto.password) (js user.passwordHash) with
      | true => exact .waits trivial (forall_values_setFailed hinv hfailed _ _) ⟨hk, hvalid⟩
      | false => exact .waits trivial (forall_values_setFailed hinv hfailed _ _) trivial
  | loginFailed => exact .settles trivial hinv trivial
  | loginUpdated user ipAddress => exact .waits trivial hinv ⟨hk.1, hk.2, input.issuedAt, rfl⟩
  | loginAudited user tokens => exact .settles trivial hinv ⟨user, hk.1, rfl, hk.2⟩

theorem keeps_hashOutline : (hashOutline pbkdf2 J lower R T u).Keeps
    (credentialApi pbkdf2 J lower u) (Asked R T) where
  call c k input hok hinv := by
    rcases k with k | ⟨r, k⟩
    · cases k with
      | registerUser dto ipAddress =>
        exact (segment_enroll (k := .registerUser dto ipAddress) hinv hok input _).map
      | provisionTenant dto =>
        exact (segment_enroll (k := .provisionTenant dto) hinv hok input _).map
      | _ => exact hok.elim
    · cases k with
      | login dto ipAddress =>
        exact (segment_check (k := .login dto ipAddress) hinv hok input).map
      | _ => exact hok.elim
  resume h k input hinv hk := by
    rcases k with k | ⟨r, k⟩
    · exact (segment_enroll hinv hk input _).map
    · exact (segment_check hinv hk input).map

theorem reach_hashOutline {c : CredentialConfig u}
    (h : Reach (credentialApi pbkdf2 J lower u) (Asked R T) (credentialStart u) c) :
    (hashOutline pbkdf2 J lower R T u).Holds c := by
  refine keeps_hashOutline.holds ⟨fun user huser => ?_, fun k hk => ?_, fun o ho => ?_⟩ h
  · exact absurd huser List.not_mem_nil
  · exact absurd hk List.not_mem_nil
  · exact absurd ho List.not_mem_nil

end Sound

/-! ## Who is accepted -/

section Accepted

/-- What logins leave of a user. -/
def UserEntity.profile (user : UserEntity) : UserEntity := { user with failedLoginAttempts := 0 }

/-- What a lookup finds of a user. -/
def AuthStores.lookup (lower : String → String) (h : AuthStores u) (dto : LoginDTO) :
    Option UserEntity :=
  (h.findByEmailAndTenant lower dto.email dto.tenantId).map UserEntity.profile

theorem lookup_eq (h : AuthStores u) (dto : LoginDTO) : h.lookup lower dto =
    (h.users.values.map UserEntity.profile).find? fun user =>
      lower user.email = lower dto.email ∧ user.tenantId = dto.tenantId := by
  rw [AuthStores.lookup, AuthStores.findByEmailAndTenant, List.find?_map]
  rfl

theorem lookup_createUser {h : AuthStores u} {dto : LoginDTO} {user : UserEntity}
    (hfound : h.lookup lower dto = some user) (entity : String → UserEntity) :
    (h.createUser entity).lookup lower dto = some user := by
  rw [lookup_eq] at hfound ⊢
  rw [AuthStores.createUser, JsMap.values_set_of_fresh (h.users_issued.fresh le_rfl),
    List.map_append, List.find?_append, hfound]
  rfl

theorem lookup_setFailed (h : AuthStores u) (id : String) (n : ℕ) (dto : LoginDTO) :
    (h.setFailedLoginAttempts id n).lookup lower dto = h.lookup lower dto := by
  have hprofiles : (h.setFailedLoginAttempts id n).users.values.map UserEntity.profile =
      h.users.values.map UserEntity.profile := by
    simp only [AuthStores.setFailedLoginAttempts, JsMap.values, JsMap.modify, List.map_map]
    refine List.map_congr_left fun e _ => ?_
    simp only [Function.comp_apply]
    split_ifs <;> rfl
  rw [lookup_eq, lookup_eq, hprofiles]

/-- How a login of a user settles. -/
def LoginOutcome.Settles (valid : Prop) (user : UserEntity) : LoginOutcome → Prop
  | .loggedIn user' _ => valid ∧ user' = user.registered
  | .unauthorized _ => ¬ valid
  | .rejected e => ∃ text, e = .error text

/-- What a login of a user has found and checked. -/
def LoginCall.Settling (valid : Prop) (user : UserEntity) (dto : LoginDTO) : LoginCall → Prop
  | .login dto' _ => dto' = dto
  | .loginFound _ _ found => found.map UserEntity.profile = some user.profile
  | .loginVerified user' _ => user'.profile = user.profile
  | .loginFailed => ¬ valid
  | .loginUpdated user' _ | .loginAudited user' _ => valid ∧ user'.profile = user.profile

/-- **The outline of the logins of a user**: what the lookup finds, it will find again. -/
def acceptOutline (lower : String → String) (u : UuidSource) (valid : Prop) (user : UserEntity)
    (r : LoginRequest) :
    Outline (AuthStores u) (AuthCall ⊕ LoginRequest × LoginCall)
      (AuthOutcome ⊕ LoginRequest × LoginOutcome) where
  guarantee _ _ _ := True
  inv h := h.lookup lower r.dto = some user.profile
  assertion
    | .inl _, _ => True
    | .inr (r', k), _ => r' = r → k.Settling valid user r.dto
  outcome
    | .inl _ => True
    | .inr (r', o) => r' = r → o.Settles valid user
  stable
    | .inl _, _, _, _, _, hk => hk
    | .inr _, _, _, _, _, hk => hk

variable {h : AuthStores u} {valid : Prop} {user : UserEntity} {r : LoginRequest}

theorem segment_other (k : AuthCall) (hinv : h.lookup lower r.dto = some user.profile)
    (input : AuthInput) :
    ((acceptOutline lower u valid user r).comap Sum.inl Sum.inl).Segment k h
      ((authProgram lower u).run k input h) := by
  cases k with
  | registerUser dto' ipAddress => exact .waits trivial hinv trivial
  | registerTenantFound dto' ipAddress tenant =>
    cases tenant with
    | none => exact .settles trivial hinv trivial
    | some tenant =>
      simp only [authProgram]
      split_ifs
      · exact .waits trivial hinv trivial
      · exact .settles trivial hinv trivial
  | registerLookedUp dto' ipAddress existing =>
    cases existing with
    | some user => exact .settles trivial hinv trivial
    | none => exact .waits trivial hinv trivial
  | registerHashed dto' ipAddress =>
    simp only [authProgram]
    cases input.hash with
    | error text => exact .settles trivial hinv trivial
    | ok passwordHash => exact .waits trivial (lookup_createUser hinv _) trivial
  | registerCreated user ipAddress => exact .waits trivial hinv trivial
  | registerAudited user tokens => exact .settles trivial hinv trivial
  | provisionTenant dto' => exact .waits trivial hinv trivial
  | provisionLookedUp dto' existing =>
    cases existing with
    | some tenant => exact .settles trivial hinv trivial
    | none => exact .waits trivial hinv trivial
  | provisionTenantCreated dto' tenant => exact .waits trivial hinv trivial
  | provisionHashed dto' tenant =>
    simp only [authProgram]
    cases input.hash with
    | error text => exact .settles trivial hinv trivial
    | ok passwordHash => exact .waits trivial (lookup_createUser hinv _) trivial
  | provisionAdminCreated tenant adminUser => exact .settles trivial hinv trivial

theorem segment_accept {r' : LoginRequest} {k : LoginCall} (hactive : user.isActive = true)
    (hvalid : verify pbkdf2 (js r.dto.password) (js user.passwordHash) = true ↔ valid)
    (hinv : h.lookup lower r.dto = some user.profile)
    (hk : r' = r → k.Settling valid user r.dto) (input : HasherInput) :
    ((acceptOutline lower u valid user r).comap (fun k => .inr (r', k))
      fun o => .inr (r', o)).Segment k h ((loginProgram lower u).run k
        ⟨(k.checked.map (verifySettled pbkdf2 input r'.dto.password)).getD (.ok false),
          input.tokens J k.tokensFor⟩ h) := by
  cases k with
  | login dto ipAddress =>
    refine .waits trivial hinv fun heq => ?_
    obtain rfl : dto = r.dto := hk heq
    exact hinv
  | loginFound dto ipAddress found =>
    cases found with
    | none => exact .settles trivial hinv fun heq => absurd (hk heq) (Option.some_ne_none _).symm
    | some user' =>
      have hsame : r' = r → user'.profile = user.profile := fun heq => Option.some.inj (hk heq)
      simp only [loginProgram]
      split_ifs with hoff
      · exact .waits trivial hinv hsame
      · refine .settles trivial hinv fun heq => absurd ?_ hoff
        exact (congrArg UserEntity.isActive (hsame heq)).trans hactive
  | loginVerified user' ipAddress =>
    have hkept : (h.setFailedLoginAttempts user'.id (user'.failedLoginAttempts + 1)).lookup lower
        r.dto = some user.profile := (lookup_setFailed h _ _ r.dto).trans hinv
    have hreset : (h.setFailedLoginAttempts user'.id 0).lookup lower r.dto = some user.profile :=
      (lookup_setFailed h _ _ r.dto).trans hinv
    have hcheck : r' = r →
        verify pbkdf2 (js r'.dto.password) (js user'.passwordHash) =
          verify pbkdf2 (js r.dto.password) (js user.passwordHash) := by
      rintro rfl
      have hsame : user'.profile = user.profile := hk rfl
      have hhash := congrArg UserEntity.passwordHash hsame
      change user'.passwordHash = user.passwordHash at hhash
      rw [hhash]
    simp only [loginProgram, LoginCall.checked, Option.map_some, Option.getD_some]
    rcases verifySettled_cases input r'.dto.password user' with ⟨text, heq⟩ | heq
    · rw [heq]
      exact .settles trivial hinv fun _ => ⟨text, rfl⟩
    · rw [heq]
      cases hverify : verify pbkdf2 (js r'.dto.password) (js user'.passwordHash) with
      | true =>
        refine .waits trivial hreset fun heq => ⟨hvalid.mp ?_, hk heq⟩
        exact (hcheck heq).symm.trans hverify
      | false =>
        refine .waits trivial hkept fun heq hv => Bool.false_ne_true ?_
        exact (hverify.symm.trans (hcheck heq)).trans (hvalid.mpr hv)
  | loginFailed => exact .settles trivial hinv hk
  | loginUpdated user' ipAddress => exact .waits trivial hinv hk
  | loginAudited user' tokens =>
    refine .settles trivial hinv fun heq => ⟨(hk heq).1, ?_⟩
    exact (congrArg UserEntity.registered (hk heq).2 : user'.profile.registered = _)

theorem keeps_acceptOutline (hactive : user.isActive = true)
    (hvalid : verify pbkdf2 (js r.dto.password) (js user.passwordHash) = true ↔ valid) :
    (acceptOutline lower u valid user r).Keeps (credentialApi pbkdf2 J lower u)
      (Asked R T) where
  call c k input hok hinv := by
    rcases k with k | ⟨r', k⟩
    · exact (segment_other k hinv _).map
    · cases k with
      | login dto ipAddress =>
        refine (segment_accept (k := .login dto ipAddress) hactive hvalid hinv ?_ input).map
        rintro rfl
        exact hok
      | _ => exact hok.elim
  resume h k input hinv hk := by
    rcases k with k | ⟨r', k⟩
    · exact (segment_other k hinv _).map
    · exact (segment_accept hactive hvalid hinv hk input).map

end Accepted

/-- **Who can log in.** Whoever is logged in has been enrolled, with a password of the same key.
When an email of a tenant is that of an enrolled user, every login with it that starts from then on
is accepted if its password has the key of the enrolment, and refused otherwise; however the
requests interleave, it only depends on the hasher whether there is an error instead. -/
theorem login_spec (hlength : ∀ p s c n d, (pbkdf2 p s c n d).length = n) {c : CredentialConfig u}
    (h : Reach (credentialApi pbkdf2 J lower u) (Asked R T) (credentialStart u) c) :
    (∀ r user tokens, .inr (r, .loggedIn user tokens) ∈ c.settled →
      ∃ user' saltBytes password, Enrolled pbkdf2 R T user' saltBytes password ∧
        SameKey pbkdf2 saltBytes r.dto.password password ∧ user'.registered = user ∧
        lower user'.email = lower r.dto.email ∧ user'.tenantId = r.dto.tenantId ∧
        ∃ issuedAt, tokens.accessToken = J.sign user'.claims issuedAt) ∧
    ∀ email tenantId user, c.heap.findByEmailAndTenant lower email tenantId = some user →
      ∃ saltBytes password, Enrolled pbkdf2 R T user saltBytes password ∧
        ∀ r : LoginRequest, r.dto.email = email → r.dto.tenantId = tenantId → r.NotStarted c →
          ∀ d, Reach (credentialApi pbkdf2 J lower u) (Asked R T) c d →
            ∀ o, .inr (r, o) ∈ d.settled →
              o.Settles (SameKey pbkdf2 saltBytes r.dto.password password) user := by
  have hholds := reach_hashOutline h
  constructor
  · intro r user tokens ho
    obtain ⟨user', ⟨⟨saltBytes, password, henrolled⟩, hemail, htenant⟩, huser, hverify, htokens⟩ :=
      hholds.settled _ ho
    exact ⟨user', saltBytes, password, henrolled, (henrolled.verify_iff hlength _).mp hverify,
      huser, hemail, htenant, htokens⟩
  · intro email tenantId user hfound
    obtain ⟨hmem, -⟩ := of_findByEmailAndTenant hfound
    obtain ⟨saltBytes, password, henrolled⟩ := hholds.inv user hmem
    refine ⟨saltBytes, password, henrolled, ?_⟩
    rintro r rfl rfl hnew d hd o ho
    have hstart : (acceptOutline lower u (SameKey pbkdf2 saltBytes r.dto.password password) user
        r).Holds c := by
      refine ⟨congrArg (Option.map UserEntity.profile) hfound, fun k hk => ?_, fun o' ho' => ?_⟩
      · rcases k with k | ⟨r', k⟩
        · trivial
        · rintro rfl
          exact absurd hk (hnew.inFlight k)
      · rcases o' with o' | ⟨r', o'⟩
        · trivial
        · rintro rfl
          exact absurd ho' (hnew.settled o')
    exact ((keeps_acceptOutline henrolled.isActive (henrolled.verify_iff hlength _)).holds hstart
      hd).settled _ ho rfl

/-! ## Two logins -/

section Horses

instance [DecidablePred R] [DecidablePred T] :
    ∀ (c : CredentialConfig u) (a : Act (AuthCall ⊕ LoginRequest × LoginCall) HasherInput),
      Decidable (Asked R T c a)
  | _, .call (.inl (.registerUser dto _)) _ => inferInstanceAs (Decidable (R dto))
  | _, .call (.inl (.provisionTenant dto)) _ => inferInstanceAs (Decidable (T dto))
  | _, .call (.inr (r, .login dto _)) _ => inferInstanceAs (Decidable (dto = r.dto))
  | _, .call (.inl (.registerTenantFound ..)) _ | _, .call (.inl (.registerLookedUp ..)) _
  | _, .call (.inl (.registerHashed ..)) _ | _, .call (.inl (.registerCreated ..)) _
  | _, .call (.inl (.registerAudited ..)) _ | _, .call (.inl (.provisionLookedUp ..)) _
  | _, .call (.inl (.provisionTenantCreated ..)) _ | _, .call (.inl (.provisionHashed ..)) _
  | _, .call (.inl (.provisionAdminCreated ..)) _ | _, .call (.inr (_, .loginFound ..)) _
  | _, .call (.inr (_, .loginVerified ..)) _ | _, .call (.inr (_, .loginFailed)) _
  | _, .call (.inr (_, .loginUpdated ..)) _ | _, .call (.inr (_, .loginAudited ..)) _ =>
    .isFalse id
  | _, .resume _ _ => .isTrue trivial

/-- The salt of the bytes from 0 to 15. -/
def countedSalt : HasherInput where
  saltBytes := (List.range 16).map .ofNat
  saltBytes_length := rfl
  failure := none
  issuedAt := 0
  refreshToken := "refresh"

/-- The admin of a tenant logs in, with a capital in the email, and with a wrong password. -/
def rightHorse : LoginRequest := ⟨0, "Root@example.com", "correct horse", "id"⟩

def wrongHorse : LoginRequest := ⟨1, "Root@example.com", "wrong horse", "id"⟩

/-- A new tenant, and then the two logins. -/
def enrollment : List (Act (AuthCall ⊕ LoginRequest × LoginCall) HasherInput) :=
  .call (.inl (.provisionTenant acme)) countedSalt :: List.replicate 4 (.resume 0 countedSalt)

def twoLogins : List (Act (AuthCall ⊕ LoginRequest × LoginCall) HasherInput) :=
  .call (.inr (rightHorse, .login rightHorse.dto none)) countedSalt ::
  .call (.inr (wrongHorse, .login wrongHorse.dto none)) countedSalt ::
  List.replicate 7 (.resume 0 countedSalt)

set_option maxRecDepth 10000 in
theorem login_spec_acme : ∃ c d user, Reach (credentialApi pbkdf2Answers plainTokens asciiLower
      .unary) (Asked (fun _ => False) (· = acme)) (credentialStart .unary) c ∧
    c.heap.findByEmailAndTenant asciiLower "Root@example.com" "id" = some user ∧
    Reach (credentialApi pbkdf2Answers plainTokens asciiLower .unary)
      (Asked (fun _ => False) (· = acme)) c d ∧
    (∃ saltBytes password,
      Enrolled pbkdf2Answers (fun _ => False) (· = acme) user saltBytes password ∧
      ¬ SameKey pbkdf2Answers saltBytes "wrong horse" password ∧
      SameKey pbkdf2Answers saltBytes "correct horse" password) ∧
    .inr (wrongHorse, .unauthorized invalidCredentials) ∈ d.settled ∧
    ∃ user' tokens, .inr (rightHorse, .loggedIn user' tokens) ∈ d.settled ∧
      user' = user.registered ∧ ∃ user'' saltBytes password,
        Enrolled pbkdf2Answers (fun _ => False) (· = acme) user'' saltBytes password ∧
          SameKey pbkdf2Answers saltBytes "correct horse" password ∧
          user''.registered = user' := by
  have hrun : ((credentialApi pbkdf2Answers plainTokens asciiLower .unary).exec
      (Asked (fun _ => False) (· = acme)) (credentialStart .unary) enrollment).any fun c =>
      decide (((c.heap.findByEmailAndTenant asciiLower "Root@example.com" "id").isSome ∧
        c.inFlight = [] ∧ c.settled.all Sum.isLeft) ∧
        ((credentialApi pbkdf2Answers plainTokens asciiLower .unary).exec
          (Asked (fun _ => False) (· = acme)) c twoLogins).any fun d =>
          decide (d.settled.drop 1 = [.inr (wrongHorse, .unauthorized invalidCredentials),
            .inr (rightHorse, .loggedIn ⟨"idx", "id", "root@example.com", "Root", "Admin",
              [.TENANT_ADMIN, .OPERATIONS_MANAGER]⟩ ⟨"12", "refresh", 900⟩)])) := by decide
  obtain ⟨c, hc, ⟨hfound, hflight, hsettled⟩, hlogins⟩ := Reach.exists_of_exec hrun
  obtain ⟨d, hd, hlast⟩ := Reach.exists_of_exec hlogins
  obtain ⟨user, huser⟩ := Option.isSome_iff_exists.mp hfound
  have hmem : ∀ o ∈ d.settled.drop 1, o ∈ d.settled := fun o ho => List.mem_of_mem_drop ho
  rw [hlast] at hmem
  have hwrong := hmem _ List.mem_cons_self
  have hright := hmem _ (List.mem_cons_of_mem _ List.mem_cons_self)
  have hnew : ∀ r : LoginRequest, r.NotStarted c := fun r =>
    ⟨fun k hk => by simp [hflight] at hk,
      fun o ho => by simpa using List.all_eq_true.mp hsettled _ ho⟩
  obtain ⟨saltBytes, password, henrolled, hall⟩ :=
    (login_spec length_pbkdf2Answers hc).2 _ _ user huser
  have hsame := hall rightHorse rfl rfl (hnew _) d hd _ hright
  obtain ⟨user'', saltBytes', password', henrolled', hkey, huser'', -⟩ :=
    (login_spec length_pbkdf2Answers (hc.trans hd)).1 _ _ _ hright
  exact ⟨c, d, user, hc, huser, hd,
    ⟨saltBytes, password, henrolled, hall wrongHorse rfl rfl (hnew _) d hd _ hwrong, hsame.1⟩,
    hwrong, _, _, hright, hsame.2, user'', saltBytes', password', henrolled', hkey, huser''⟩

end Horses

end Logix.Auth
