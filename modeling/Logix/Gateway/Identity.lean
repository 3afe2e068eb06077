import Mathlib.Logic.Function.Basic
import Logix.Common.Errors

/-!
# Who may set the identity headers?

`authenticateJwt` hands the claims of a verified token to the services behind the gateway, in five
request headers.

* `TokenClaims`, `AuthenticatedUser`: what `jwt.verify` returns, and what is made of it;
* `authenticateJwt`: the middleware, over any `verify`;
* `FromToken`: each identity header of a forwarded request is absent or the one of the token;
  `Unspoofed`: the requests that differ in the identity headers only are forwarded alike;
* **`identity_iff`**: both hold exactly when the request is not let through unverified;
* `spoofed_user`: an optional route forwards a header of the client.
-/

namespace Logix.Gateway

/-! ## Texts -/

/-- A character inside a JSON string. -/
def jsonChar (c : Char) : List Char :=
  if c = '"' then ['\\', '"']
  else if c = '\\' then ['\\', '\\']
  else if c.toNat = 8 then ['\\', 'b']
  else if c.toNat = 9 then ['\\', 't']
  else if c.toNat = 10 then ['\\', 'n']
  else if c.toNat = 12 then ['\\', 'f']
  else if c.toNat = 13 then ['\\', 'r']
  else if c.toNat < 32 then
    ['\\', 'u', '0', '0', Nat.digitChar (c.toNat / 16), Nat.digitChar (c.toNat % 16)]
  else [c]

/-- `JSON.stringify` of a list of strings. -/
def stringify (texts : List String) : String :=
  let quoted := texts.map fun text => '"' :: text.toList.flatMap jsonChar ++ ['"']
  String.ofList ('[' :: (quoted.intersperse [',']).flatten ++ [']'])

/-- The token of an `authorization` header that starts with `Bearer `:
`authHeader.split(' ')[1]`. -/
def bearerToken (authHeader : Option String) : Option String :=
  authHeader.bind fun text =>
    if "Bearer ".toList.isPrefixOf text.toList then
      some (String.ofList ((text.toList.splitOn ' ').getD 1 []))
    else none

/-! ## Requests -/

/-- The claims of a token. -/
structure TokenClaims where
  sub : Option String
  userId : Option String
  tenantId : Option String
  email : Option String
  roles : Option (List String)
  permissions : Option (List String)
  sessionId : Option String
  deriving DecidableEq, Repr

/-- `AuthenticatedUser`; what the token does not claim is `undefined`. -/
structure AuthenticatedUser where
  userId : Option String
  tenantId : Option String
  email : Option String
  roles : List String
  permissions : List String
  sessionId : Option String
  deriving DecidableEq, Repr

/-- The headers of a request, by their lower-case names; an `undefined` header is absent. -/
abbrev Headers : Type := String → Option String

/-- `AuthenticatedGatewayRequest`, less what the middleware does not touch. -/
structure AuthenticatedGatewayRequest where
  headers : Headers
  user : Option AuthenticatedUser

/-- What the middleware does with a request. -/
inductive Handling where
  | next (req : AuthenticatedGatewayRequest)
  | thrown (e : UnauthorizedException)

/-! ## The middleware -/

/-- The user that a token claims; an empty `sub` counts as none. -/
def TokenClaims.user (decoded : TokenClaims) : AuthenticatedUser where
  userId := if decoded.sub.getD "" = "" then decoded.userId else decoded.sub
  tenantId := decoded.tenantId
  email := decoded.email
  roles := decoded.roles.getD ["CUSTOMER"]
  permissions := decoded.permissions.getD []
  sessionId := decoded.sessionId

/-- The names of the headers that say who the user is. -/
def identityHeaders : List String :=
  ["x-user-id", "x-tenant-id", "x-user-email", "x-user-roles", "x-user-permissions"]

/-- The header of that name for a user. -/
def AuthenticatedUser.header (user : AuthenticatedUser) (name : String) : Option String :=
  if name = "x-user-id" then user.userId
  else if name = "x-tenant-id" then user.tenantId
  else if name = "x-user-email" then user.email
  else if name = "x-user-roles" then some (stringify user.roles)
  else if name = "x-user-permissions" then some (stringify user.permissions)
  else none

/-- The metadata of the user, propagated in the headers. -/
def propagate (user : AuthenticatedUser) (headers : Headers) : Headers :=
  Function.update (Function.update (Function.update (Function.update (Function.update headers
    "x-user-id" user.userId)
    "x-tenant-id" user.tenantId)
    "x-user-email" user.email)
    "x-user-roles" (some (stringify user.roles)))
    "x-user-permissions" (some (stringify user.permissions))

/-- **`authenticateJwt(isOptional)`.** `verify` is `jwt.verify` with the secret of the gateway; its
error is a message. -/
def authenticateJwt (verify : String → Except String TokenClaims) (isOptional : Bool)
    (req : AuthenticatedGatewayRequest) : Handling :=
  match bearerToken (req.headers "authorization") with
  | none =>
    if isOptional then .next req
    else .thrown ⟨"Missing or malformed Bearer authorization token."⟩
  | some token =>
    match verify token with
    | .ok decoded =>
      .next
        { headers := propagate decoded.user req.headers
          user := some decoded.user }
    | .error message =>
      if isOptional then .next req
      else .thrown ⟨s!"Invalid or expired authorization token: {message}"⟩

example : bearerToken (some "Bearer abc.def trailing") = some "abc.def" := by decide

example : stringify ["CUSTOMER", "a\"b"] = "[\"CUSTOMER\",\"a\\\"b\"]" := by decide

/-! ## Spoofing -/

variable {verify : String → Except String TokenClaims} {isOptional : Bool}
  {req req' : AuthenticatedGatewayRequest} {decoded : TokenClaims}

/-- The claims of the token that a request carries, if it verifies. -/
def verified (verify : String → Except String TokenClaims) (req : AuthenticatedGatewayRequest) :
    Option TokenClaims :=
  (bearerToken (req.headers "authorization")).bind fun token => (verify token).toOption

/-- **Each identity header is absent or from the token**, if the request is forwarded. -/
def FromToken (verify : String → Except String TokenClaims) (isOptional : Bool)
    (req : AuthenticatedGatewayRequest) : Prop :=
  ∀ forwarded, authenticateJwt verify isOptional req = .next forwarded →
    ∀ name ∈ identityHeaders, forwarded.headers name = none ∨
      ∃ decoded, verified verify req = some decoded ∧
        forwarded.headers name = decoded.user.header name

/-- The requests differ in the identity headers only. -/
structure SameButIdentity (req req' : AuthenticatedGatewayRequest) : Prop where
  user : req'.user = req.user
  headers : ∀ name, name ∉ identityHeaders → req'.headers name = req.headers name

/-- **The identity headers that a client sends make no difference.** -/
def Unspoofed (verify : String → Except String TokenClaims) (isOptional : Bool)
    (req : AuthenticatedGatewayRequest) : Prop :=
  ∀ req', SameButIdentity req req' →
    authenticateJwt verify isOptional req' = authenticateJwt verify isOptional req

theorem propagate_of_mem (user : AuthenticatedUser) (headers : Headers) {name : String}
    (h : name ∈ identityHeaders) : propagate user headers name = user.header name := by
  simp only [identityHeaders, List.mem_cons, List.not_mem_nil, or_false] at h
  rcases h with rfl | rfl | rfl | rfl | rfl <;> rfl

theorem propagate_of_not_mem (user : AuthenticatedUser) (headers : Headers) {name : String}
    (h : name ∉ identityHeaders) : propagate user headers name = headers name := by
  simp only [identityHeaders, List.mem_cons, List.not_mem_nil, or_false, not_or] at h
  simp [propagate, h]

theorem propagate_congr (user : AuthenticatedUser) (h : SameButIdentity req req') :
    propagate user req'.headers = propagate user req.headers := by
  funext name
  by_cases hname : name ∈ identityHeaders
  · rw [propagate_of_mem user _ hname, propagate_of_mem user _ hname]
  · rw [propagate_of_not_mem user _ hname, propagate_of_not_mem user _ hname, h.headers name hname]

theorem authenticateJwt_of_verified (h : verified verify req = some decoded) :
    authenticateJwt verify isOptional req =
      .next ⟨propagate decoded.user req.headers, some decoded.user⟩ := by
  unfold authenticateJwt
  unfold verified at h
  cases hb : bearerToken (req.headers "authorization") with
  | none => simp [hb] at h
  | some token =>
    cases hv : verify token with
    | error message => simp [hb, hv, Except.toOption] at h
    | ok claims =>
      simp only [hb, hv, Except.toOption, Option.bind_some, Option.some.injEq] at h
      simp [hv, h]

theorem authenticateJwt_of_not_verified (h : verified verify req = none) :
    authenticateJwt verify true req = .next req := by
  unfold authenticateJwt
  unfold verified at h
  cases hb : bearerToken (req.headers "authorization") with
  | none => rfl
  | some token =>
    cases hv : verify token with
    | error message => simp [hv]
    | ok claims => simp [hb, hv, Except.toOption] at h

theorem exists_verified {forwarded : AuthenticatedGatewayRequest}
    (h : authenticateJwt verify false req = .next forwarded) :
    ∃ decoded, verified verify req = some decoded := by
  unfold authenticateJwt at h
  unfold verified
  cases hb : bearerToken (req.headers "authorization") with
  | none => simp [hb] at h
  | some token =>
    cases hv : verify token with
    | error message => simp [hb, hv] at h
    | ok claims => exact ⟨claims, by simp [hv, Except.toOption]⟩

theorem fromToken_of_verified (h : verified verify req = some decoded) :
    FromToken verify isOptional req := by
  intro forwarded hnext name hname
  rw [authenticateJwt_of_verified h] at hnext
  cases hnext
  exact Or.inr ⟨decoded, h, propagate_of_mem decoded.user req.headers hname⟩

theorem fromToken_iff : FromToken verify isOptional req ↔ isOptional = false ∨
    (∃ decoded, verified verify req = some decoded) ∨
    ∀ name ∈ identityHeaders, req.headers name = none := by
  constructor
  · intro h
    cases isOptional with
    | false => exact Or.inl rfl
    | true =>
      cases hv : verified verify req with
      | some decoded => exact Or.inr (Or.inl ⟨decoded, rfl⟩)
      | none =>
        refine Or.inr (Or.inr fun name hname => ?_)
        rcases h req (authenticateJwt_of_not_verified hv) name hname with hnone | ⟨decoded, hd, -⟩
        · exact hnone
        · rw [hv] at hd
          cases hd
  · rintro (rfl | ⟨decoded, hv⟩ | hnone)
    · intro forwarded hnext
      obtain ⟨decoded, hv⟩ := exists_verified hnext
      exact fromToken_of_verified hv forwarded hnext
    · exact fromToken_of_verified hv
    · cases hv : verified verify req with
      | some decoded => exact fromToken_of_verified hv
      | none =>
        intro forwarded hnext name hname
        cases isOptional with
        | false =>
          obtain ⟨decoded, hd⟩ := exists_verified hnext
          rw [hv] at hd
          cases hd
        | true =>
          rw [authenticateJwt_of_not_verified hv] at hnext
          cases hnext
          exact Or.inl (hnone name hname)

theorem SameButIdentity.verified_eq (h : SameButIdentity req req') :
    verified verify req' = verified verify req := by
  unfold verified
  rw [h.headers "authorization" (by decide)]

theorem SameButIdentity.authenticateJwt_eq (h : SameButIdentity req req') :
    authenticateJwt verify false req' = authenticateJwt verify false req := by
  unfold authenticateJwt
  rw [h.headers "authorization" (by decide)]
  simp only [propagate_congr _ h, Bool.false_eq_true, if_false]

theorem unspoofed_iff : Unspoofed verify isOptional req ↔
    isOptional = false ∨ ∃ decoded, verified verify req = some decoded := by
  constructor
  · intro h
    cases isOptional with
    | false => exact Or.inl rfl
    | true =>
      refine Or.inr (Option.ne_none_iff_exists'.mp fun hv => ?_)
      -- any other value of one header is forwarded too
      obtain ⟨value, hne⟩ : ∃ value, value ≠ req.headers "x-user-id" := by
        cases req.headers "x-user-id" with
        | none => exact ⟨some "", nofun⟩
        | some _ => exact ⟨none, nofun⟩
      have hsame : SameButIdentity req
          { req with headers := Function.update req.headers "x-user-id" value } := by
        refine ⟨rfl, fun name hname => Function.update_of_ne ?_ _ _⟩
        rintro rfl
        exact hname List.mem_cons_self
      have hforward := h _ hsame
      rw [authenticateJwt_of_not_verified hv,
        authenticateJwt_of_not_verified (hsame.verified_eq.trans hv)] at hforward
      have hheaders := congrArg AuthenticatedGatewayRequest.headers (Handling.next.inj hforward)
      have hvalue := Function.update_self "x-user-id" value req.headers
      exact hne (hvalue.symm.trans (congrFun hheaders "x-user-id"))
  · rintro (rfl | ⟨decoded, hv⟩) req' hsame
    · exact hsame.authenticateJwt_eq
    · rw [authenticateJwt_of_verified hv,
        authenticateJwt_of_verified (hsame.verified_eq.trans hv), propagate_congr _ hsame]

/-- **Spoofing, exactly.** A forwarded request has its identity headers from the token, and the
identity headers of the client make no difference, exactly when the route is not optional or the
token verifies. -/
theorem identity_iff (verify : String → Except String TokenClaims) (isOptional : Bool)
    (req : AuthenticatedGatewayRequest) :
    FromToken verify isOptional req ∧ Unspoofed verify isOptional req ↔
      isOptional = false ∨ ∃ decoded, verified verify req = some decoded := by
  rw [fromToken_iff, unspoofed_iff]
  constructor
  · exact And.right
  · exact fun h => ⟨h.imp_right Or.inl, h⟩

/-- **A client names itself**: without a token, an optional route forwards its `x-user-id`. -/
theorem spoofed_user : ¬ FromToken (fun _ => .error "invalid signature") true
    { headers := Function.update (fun _ => none) "x-user-id" (some "admin"), user := none } := by
  intro h
  rcases fromToken_iff.mp h with hopt | ⟨decoded, hv⟩ | hnone
  · cases hopt
  · cases hv
  · exact absurd (hnone "x-user-id" List.mem_cons_self) (by decide)

end Logix.Gateway
