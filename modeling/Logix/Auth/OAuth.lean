import Logix.Common.Errors
import Logix.Js.Map
import Logix.Spec.Machine
import Mathlib.Tactic.SplitIfs

/-!
# The OAuth2 authorization server

`OAuth2AuthorizationServer` issues an authorization code to a registered client and exchanges it
for tokens. A date is its number of milliseconds; the calls carry the clock that they read and the
code that is generated.

* `registerClient`, `issueAuthorizationCode`, `exchangeCodeForTokens`, `oauthMachine`: the code;
* `Admits`: what an exchange checks of the record of its code;
* **`oauth_call_cases`**: what a call does to the clients and the codes.

A token is the record that its base64 text encodes.
-/

namespace Logix.Auth

open Spec

/-- A grant type. -/
inductive GrantType where
  | authorization_code | client_credentials | refresh_token
  deriving DecidableEq, Repr

/-- `codeChallengeMethod`. -/
inductive CodeChallengeMethod where
  | S256 | plain
  deriving DecidableEq, Repr

/-- `IOAuthClient`. -/
structure IOAuthClient where
  clientId : String
  clientSecretHash : String
  redirectUris : List String
  allowedGrants : List GrantType
  allowedScopes : List String
  tenantId : String
  isTrusted : Bool
  deriving DecidableEq, Repr

/-- `IAuthorizationCode`. -/
structure IAuthorizationCode where
  code : String
  clientId : String
  userId : String
  tenantId : String
  redirectUri : String
  scope : String
  codeChallenge : Option String
  codeChallengeMethod : Option CodeChallengeMethod
  expiresAt : ℤ
  isUsed : Bool
  deriving DecidableEq, Repr

/-- The claims of an access token. -/
structure AccessToken where
  sub : String
  tenant : String
  exp : ℤ
  deriving DecidableEq, Repr

/-- The claims of a refresh token. -/
structure RefreshToken where
  sub : String
  exp : ℤ
  deriving DecidableEq, Repr

/-- What `exchangeCodeForTokens` returns. -/
structure TokenResponse where
  accessToken : AccessToken
  refreshToken : RefreshToken
  tokenType : String
  expiresIn : ℤ
  deriving DecidableEq, Repr

/-- **`OAuth2AuthorizationServer`.** -/
structure OAuth2AuthorizationServer where
  clients : JsMap String IOAuthClient
  authCodes : JsMap String IAuthorizationCode

/-- The calls; the `code` of `issueAuthorizationCode` is generated, and `now` is the clock. -/
inductive OAuthCall where
  | registerClient (client : IOAuthClient)
  | issueAuthorizationCode (clientId userId tenantId redirectUri scope : String)
      (codeChallenge : Option String) (codeChallengeMethod : Option CodeChallengeMethod)
      (code : String) (now : ℤ)
  | exchangeCodeForTokens (code clientId redirectUri : String) (codeVerifier : Option String)
      (now : ℤ)
  deriving DecidableEq, Repr

/-- What a call returns. -/
inductive OAuthResult where
  | registered
  | issued (code : String)
  | exchanged (tokens : TokenResponse)
  deriving DecidableEq, Repr

namespace IAuthorizationCode

/-- `authCode.isUsed = true`. -/
def use (authCode : IAuthorizationCode) : IAuthorizationCode := { authCode with isUsed := true }

/-- The tokens for a code. -/
def tokens (authCode : IAuthorizationCode) (now : ℤ) : TokenResponse where
  accessToken := ⟨authCode.userId, authCode.tenantId, now + 3600000⟩
  refreshToken := ⟨authCode.userId, now + 86400000 * 30⟩
  tokenType := "Bearer"
  expiresIn := 3600

end IAuthorizationCode

namespace OAuth2AuthorizationServer

/-- `new OAuth2AuthorizationServer()`. -/
def new : OAuth2AuthorizationServer := ⟨.empty, .empty⟩

/-- `registerClient(client)`. -/
def registerClient (s : OAuth2AuthorizationServer) (client : IOAuthClient) :
    OAuth2AuthorizationServer × Except DomainException OAuthResult :=
  if client.clientId = "" ∨ client.redirectUris = [] then
    (s, .error (.error "Invalid OAuth2 client configuration"))
  else ({ s with clients := s.clients.set client.clientId client }, .ok .registered)

/-- The record that `issueAuthorizationCode` stores. -/
def newCode (clientId userId tenantId redirectUri scope : String) (codeChallenge : Option String)
    (codeChallengeMethod : Option CodeChallengeMethod) (code : String) (now : ℤ) :
    IAuthorizationCode where
  code := code
  clientId := clientId
  userId := userId
  tenantId := tenantId
  redirectUri := redirectUri
  scope := scope
  codeChallenge := codeChallenge
  codeChallengeMethod := codeChallengeMethod
  expiresAt := now + 10 * 60 * 1000
  isUsed := false

/-- **`issueAuthorizationCode(clientId, userId, tenantId, redirectUri, scope, codeChallenge,
codeChallengeMethod)`.** -/
def issueAuthorizationCode (s : OAuth2AuthorizationServer)
    (clientId userId tenantId redirectUri scope : String) (codeChallenge : Option String)
    (codeChallengeMethod : Option CodeChallengeMethod) (code : String) (now : ℤ) :
    OAuth2AuthorizationServer × Except DomainException OAuthResult :=
  match s.clients.get clientId with
  | none => (s, .error (.error "Unauthorized client"))
  | some client =>
    if redirectUri ∉ client.redirectUris then (s, .error (.error "Redirect URI mismatch"))
    else
      let authCode := newCode clientId userId tenantId redirectUri scope codeChallenge
        codeChallengeMethod code now
      ({ s with authCodes := s.authCodes.set code authCode }, .ok (.issued code))

/-- **`exchangeCodeForTokens(code, clientId, redirectUri, codeVerifier)`.** An empty challenge is
no challenge, and an empty verifier no verifier. -/
def exchangeCodeForTokens (s : OAuth2AuthorizationServer) (code clientId redirectUri : String)
    (codeVerifier : Option String) (now : ℤ) :
    OAuth2AuthorizationServer × Except DomainException OAuthResult :=
  match s.authCodes.get code with
  | none => (s, .error (.error "Invalid authorization code"))
  | some authCode =>
    if authCode.isUsed ∨ authCode.expiresAt < now then
      ({ s with authCodes := s.authCodes.delete code },
        .error (.error "Authorization code expired or previously used"))
    else if authCode.clientId ≠ clientId ∨ authCode.redirectUri ≠ redirectUri then
      (s, .error (.error "Client or redirect URI mismatch during exchange"))
    else if authCode.codeChallenge.getD "" ≠ "" ∧ codeVerifier.getD "" = "" then
      (s, .error (.error "Code verifier required for PKCE"))
    else
      -- the comparison of the verifier with the challenge is a comment in the source
      ({ s with authCodes := s.authCodes.modify code .use }, .ok (.exchanged (authCode.tokens now)))

end OAuth2AuthorizationServer

/-- The server under its calls. -/
def oauthMachine :
    Machine OAuth2AuthorizationServer OAuthCall (Except DomainException OAuthResult) where
  call
    | .registerClient client, s => s.registerClient client
    | .issueAuthorizationCode clientId userId tenantId redirectUri scope codeChallenge
        codeChallengeMethod code now, s =>
      s.issueAuthorizationCode clientId userId tenantId redirectUri scope codeChallenge
        codeChallengeMethod code now
    | .exchangeCodeForTokens code clientId redirectUri codeVerifier now, s =>
      s.exchangeCodeForTokens code clientId redirectUri codeVerifier now

abbrev OAuthEvent :=
  Event OAuth2AuthorizationServer OAuthCall (Except DomainException OAuthResult)

/-! ## What a call does -/

/-- **What an exchange checks** of the record of its code. -/
structure Admits (authCode : IAuthorizationCode) (clientId redirectUri : String)
    (codeVerifier : Option String) (now : ℤ) : Prop where
  unused : authCode.isUsed = false
  inTime : now ≤ authCode.expiresAt
  client : authCode.clientId = clientId
  redirect : authCode.redirectUri = redirectUri
  verifier : authCode.codeChallenge.getD "" ≠ "" → codeVerifier.getD "" ≠ ""

section Calls

open OAuth2AuthorizationServer

variable {s : OAuth2AuthorizationServer} {c : OAuthCall} {authCode : IAuthorizationCode}
  {client : IOAuthClient} {code clientId redirectUri : String} {codeVerifier : Option String}
  {now : ℤ}

theorem call_exchange (hg : s.authCodes.get code = some authCode)
    (ha : Admits authCode clientId redirectUri codeVerifier now) :
    oauthMachine.call (.exchangeCodeForTokens code clientId redirectUri codeVerifier now) s =
      ({ s with authCodes := s.authCodes.modify code .use },
        .ok (.exchanged (authCode.tokens now))) := by
  obtain ⟨hu, ht, rfl, rfl, hv⟩ := ha
  have hu' : ¬ (authCode.isUsed = true ∨ authCode.expiresAt < now) := by
    rw [hu]
    simpa using ht
  have hv' : ¬ (authCode.codeChallenge.getD "" ≠ "" ∧ codeVerifier.getD "" = "") :=
    fun h => hv h.1 h.2
  simp only [oauthMachine, exchangeCodeForTokens, hg, if_neg hu', if_neg hv']
  simp

/-- A record of `s'` is one of `s`. -/
def Shrinks (s s' : OAuth2AuthorizationServer) : Prop :=
  ∀ code authCode, s'.authCodes.get code = some authCode → s.authCodes.get code = some authCode

theorem shrinks_delete (s : OAuth2AuthorizationServer) (code : String) :
    Shrinks s { s with authCodes := s.authCodes.delete code } := by
  intro code' authCode h
  rw [JsMap.get_delete] at h
  split_ifs at h
  exact h

/-- The call neither issues nor exchanges a code. -/
def Drops (s : OAuth2AuthorizationServer) (c : OAuthCall) : Prop :=
  ∃ s' result, oauthMachine.call c s = (s', result) ∧ Shrinks s s' ∧
    (∀ code, result ≠ .ok (.issued code)) ∧ ∀ tokens, result ≠ .ok (.exchanged tokens)

theorem drops_of_error (s' : OAuth2AuthorizationServer) (e : DomainException)
    (h : oauthMachine.call c s = (s', .error e)) (hs : Shrinks s s') : Drops s c :=
  ⟨s', _, h, hs, by simp, by simp⟩

theorem drops_of_not_admits (hg : s.authCodes.get code = some authCode)
    (ha : ¬ Admits authCode clientId redirectUri codeVerifier now) :
    Drops s (.exchangeCodeForTokens code clientId redirectUri codeVerifier now) := by
  by_cases h1 : authCode.isUsed = true ∨ authCode.expiresAt < now
  · refine drops_of_error { s with authCodes := s.authCodes.delete code }
      (.error "Authorization code expired or previously used") ?_ (shrinks_delete s code)
    simp only [oauthMachine, exchangeCodeForTokens, hg, if_pos h1]
  by_cases h2 : authCode.clientId ≠ clientId ∨ authCode.redirectUri ≠ redirectUri
  · refine drops_of_error s (.error "Client or redirect URI mismatch during exchange") ?_
      fun _ _ h => h
    simp only [oauthMachine, exchangeCodeForTokens, hg, if_neg h1, if_pos h2]
  by_cases h3 : authCode.codeChallenge.getD "" ≠ "" ∧ codeVerifier.getD "" = ""
  · refine drops_of_error s (.error "Code verifier required for PKCE") ?_ fun _ _ h => h
    simp only [oauthMachine, exchangeCodeForTokens, hg, if_neg h1, if_neg h2, if_pos h3]
  rw [not_or, not_lt] at h1
  rw [not_or, not_not, not_not] at h2
  exact absurd ⟨Bool.eq_false_iff.mpr h1.1, h1.2, h2.1, h2.2, fun hc hv => h3 ⟨hc, hv⟩⟩ ha

theorem drops_registerClient (s : OAuth2AuthorizationServer) (client : IOAuthClient) :
    Drops s (.registerClient client) := by
  by_cases h : client.clientId = "" ∨ client.redirectUris = []
  · exact drops_of_error _ _ (if_pos h) fun _ _ h => h
  · exact ⟨_, _, if_neg h, fun _ _ h => h, by simp, by simp⟩

section Issue

variable {userId tenantId scope : String} {codeChallenge : Option String}
  {codeChallengeMethod : Option CodeChallengeMethod}

theorem drops_of_client_eq_none (hg : s.clients.get clientId = none) :
    Drops s (.issueAuthorizationCode clientId userId tenantId redirectUri scope codeChallenge
      codeChallengeMethod code now) := by
  refine drops_of_error s (.error "Unauthorized client") ?_ fun _ _ h => h
  simp [oauthMachine, issueAuthorizationCode, hg]

theorem drops_of_redirectUri_not_mem (hg : s.clients.get clientId = some client)
    (hr : redirectUri ∉ client.redirectUris) :
    Drops s (.issueAuthorizationCode clientId userId tenantId redirectUri scope codeChallenge
      codeChallengeMethod code now) := by
  refine drops_of_error s (.error "Redirect URI mismatch") ?_ fun _ _ h => h
  simp [oauthMachine, issueAuthorizationCode, hg, hr]

theorem call_issue (hg : s.clients.get clientId = some client)
    (hr : redirectUri ∈ client.redirectUris) :
    oauthMachine.call (.issueAuthorizationCode clientId userId tenantId redirectUri scope
        codeChallenge codeChallengeMethod code now) s =
      ({ s with authCodes := s.authCodes.set code (newCode clientId userId tenantId redirectUri
          scope codeChallenge codeChallengeMethod code now) }, .ok (.issued code)) := by
  simp [oauthMachine, issueAuthorizationCode, hg, hr]

end Issue

theorem drops_of_code_eq_none (hg : s.authCodes.get code = none) :
    Drops s (.exchangeCodeForTokens code clientId redirectUri codeVerifier now) := by
  refine drops_of_error s (.error "Invalid authorization code") ?_ fun _ _ h => h
  simp [oauthMachine, exchangeCodeForTokens, hg]

/-- **What a call does to the codes**: it drops some at most, or it issues one, or it exchanges
one. -/
theorem oauth_call_cases (s : OAuth2AuthorizationServer) (c : OAuthCall) :
    Drops s c ∨
    (∃ clientId userId tenantId redirectUri scope codeChallenge codeChallengeMethod code now client,
      c = .issueAuthorizationCode clientId userId tenantId redirectUri scope codeChallenge
        codeChallengeMethod code now ∧
      s.clients.get clientId = some client ∧ redirectUri ∈ client.redirectUris ∧
      oauthMachine.call c s =
        ({ s with authCodes := s.authCodes.set code (newCode clientId userId tenantId redirectUri
            scope codeChallenge codeChallengeMethod code now) }, .ok (.issued code))) ∨
    ∃ code clientId redirectUri codeVerifier now authCode,
      c = .exchangeCodeForTokens code clientId redirectUri codeVerifier now ∧
      s.authCodes.get code = some authCode ∧
      Admits authCode clientId redirectUri codeVerifier now := by
  cases c with
  | registerClient client => exact Or.inl (drops_registerClient s client)
  | issueAuthorizationCode clientId userId tenantId redirectUri scope codeChallenge
      codeChallengeMethod code now =>
    cases hg : s.clients.get clientId with
    | none => exact Or.inl (drops_of_client_eq_none hg)
    | some client =>
      by_cases hr : redirectUri ∈ client.redirectUris
      · exact Or.inr (Or.inl ⟨clientId, userId, tenantId, redirectUri, scope, codeChallenge,
          codeChallengeMethod, code, now, client, rfl, hg, hr, call_issue hg hr⟩)
      · exact Or.inl (drops_of_redirectUri_not_mem hg hr)
  | exchangeCodeForTokens code clientId redirectUri codeVerifier now =>
    cases hg : s.authCodes.get code with
    | none => exact Or.inl (drops_of_code_eq_none hg)
    | some authCode =>
      by_cases ha : Admits authCode clientId redirectUri codeVerifier now
      · exact Or.inr (Or.inr
          ⟨code, clientId, redirectUri, codeVerifier, now, authCode, rfl, hg, ha⟩)
      · exact Or.inl (drops_of_not_admits hg ha)

end Calls

end Logix.Auth
