import Logix.Auth.OAuth

/-!
# Do authorization codes respect the registration of their client?

The record of a client names the scopes and grants that it may use, and its tenant.

* `scopesOf`: the scopes of a scope string; `Allows`: what the registration of a client allows;
* `CodesRespected`: every stored code is within the registration of its stored client;
* `AsksWithin`: an `issueAuthorizationCode` that goes through asks for no more than that;
* `oauth_next_cases`: what a call leaves of the clients and the codes;
* **`codesRespected_iff`**: the codes respect the registrations exactly when every request does;
* `foreign_scope_issued`: a code for a scope that the client may not use.
-/

namespace Logix.Auth

open Spec

/-- The space-separated scopes of a scope string. -/
def scopesOf (scope : String) : List String :=
  ((scope.toList.splitOn ' ').map String.ofList).filter fun s => s ≠ ""

/-- **What the registration of a client allows.** -/
structure Allows (client : IOAuthClient) (scope tenantId : String) : Prop where
  scopes : ∀ s ∈ scopesOf scope, s ∈ client.allowedScopes
  grant : .authorization_code ∈ client.allowedGrants
  tenant : tenantId = client.tenantId

/-- **Every stored code is within the registration of its client.** -/
def CodesRespected (s : OAuth2AuthorizationServer) : Prop :=
  ∀ code authCode, s.authCodes.get code = some authCode →
    ∃ client, s.clients.get authCode.clientId = some client ∧
      Allows client authCode.scope authCode.tenantId

/-- **The request asks for what the registration allows**, unless it is refused for its client or
its redirect URI. -/
def AsksWithin (s : OAuth2AuthorizationServer) : OAuthCall → Prop
  | .issueAuthorizationCode clientId _ tenantId redirectUri scope _ _ _ _ =>
    ∀ client ∈ s.clients.get clientId, redirectUri ∈ client.redirectUris →
      Allows client scope tenantId
  | .registerClient _ | .exchangeCodeForTokens _ _ _ _ _ => True

/-- The call registers no client a second time. -/
def RegistersOnce (s : OAuth2AuthorizationServer) : OAuthCall → Prop
  | .registerClient client => client.clientId ∉ s.clients.keys
  | .issueAuthorizationCode _ _ _ _ _ _ _ _ _ | .exchangeCodeForTokens _ _ _ _ _ => True

example : scopesOf "openid  orders:read" = ["openid", "orders:read"] := by decide

instance (client : IOAuthClient) (scope tenantId : String) :
    Decidable (Allows client scope tenantId) :=
  decidable_of_iff ((∀ s ∈ scopesOf scope, s ∈ client.allowedScopes) ∧
    .authorization_code ∈ client.allowedGrants ∧ tenantId = client.tenantId)
    ⟨fun h => ⟨h.1, h.2.1, h.2.2⟩, fun h => ⟨h.scopes, h.grant, h.tenant⟩⟩

instance (s : OAuth2AuthorizationServer) : ∀ c : OAuthCall, Decidable (AsksWithin s c)
  | .issueAuthorizationCode .. => inferInstanceAs (Decidable (∀ client ∈ _, _ → _))
  | .registerClient _ | .exchangeCodeForTokens .. => .isTrue trivial

instance (s : OAuth2AuthorizationServer) : ∀ c : OAuthCall, Decidable (RegistersOnce s c)
  | .registerClient _ => inferInstanceAs (Decidable (_ ∉ _))
  | .issueAuthorizationCode .. | .exchangeCodeForTokens .. => .isTrue trivial

section Calls

open OAuth2AuthorizationServer

variable {s s' : OAuth2AuthorizationServer}

/-- The call keeps the clients, and changes no code but by its use. -/
structure KeepsRecords (s s' : OAuth2AuthorizationServer) : Prop where
  clients : s'.clients = s.clients
  codes : ∀ code authCode, s'.authCodes.get code = some authCode →
    ∃ authCode', s.authCodes.get code = some authCode' ∧
      (authCode = authCode' ∨ authCode = authCode'.use)

theorem KeepsRecords.refl (s : OAuth2AuthorizationServer) : KeepsRecords s s where
  clients := rfl
  codes _ authCode h := ⟨authCode, h, Or.inl rfl⟩

theorem keepsRecords_exchange (s : OAuth2AuthorizationServer) (code clientId redirectUri : String)
    (codeVerifier : Option String) (now : ℤ) :
    KeepsRecords s (s.exchangeCodeForTokens code clientId redirectUri codeVerifier now).1 := by
  unfold exchangeCodeForTokens
  cases s.authCodes.get code with
  | none => exact .refl s
  | some authCode =>
    simp only
    split_ifs
    · exact ⟨rfl, fun code' ac h => ⟨ac, shrinks_delete s code code' ac h, Or.inl rfl⟩⟩
    · exact .refl s
    · exact .refl s
    · refine ⟨rfl, fun code' ac h => ?_⟩
      obtain ⟨ac', hac', rfl⟩ := JsMap.exists_of_get_modify h
      refine ⟨ac', hac', ?_⟩
      split_ifs
      · exact Or.inr rfl
      · exact Or.inl rfl

/-- **What a call leaves**: it registers a client, or it issues a code to a client, or it keeps the
records. -/
theorem oauth_next_cases (s : OAuth2AuthorizationServer) (c : OAuthCall) :
    (∃ client, c = .registerClient client ∧
      oauthMachine.next s c = { s with clients := s.clients.set client.clientId client }) ∨
    (∃ clientId userId tenantId redirectUri scope codeChallenge codeChallengeMethod code now client,
      c = .issueAuthorizationCode clientId userId tenantId redirectUri scope codeChallenge
        codeChallengeMethod code now ∧
      s.clients.get clientId = some client ∧ redirectUri ∈ client.redirectUris ∧
      oauthMachine.next s c =
        { s with authCodes := s.authCodes.set code (newCode clientId userId tenantId redirectUri
            scope codeChallenge codeChallengeMethod code now) }) ∨
    KeepsRecords s (oauthMachine.next s c) ∧ AsksWithin s c := by
  unfold Machine.next oauthMachine
  cases c with
  | registerClient client =>
    by_cases h : client.clientId = "" ∨ client.redirectUris = []
    · refine Or.inr (Or.inr ⟨?_, trivial⟩)
      simp only [registerClient, if_pos h]
      exact .refl s
    · refine Or.inl ⟨client, rfl, ?_⟩
      simp only [registerClient, if_neg h]
  | issueAuthorizationCode clientId userId tenantId redirectUri scope codeChallenge
      codeChallengeMethod code now =>
    cases hg : s.clients.get clientId with
    | none =>
      refine Or.inr (Or.inr ⟨?_, fun client hc => ?_⟩)
      · simp only [issueAuthorizationCode, hg]
        exact .refl s
      · rw [hg] at hc
        cases hc
    | some client =>
      by_cases hr : redirectUri ∈ client.redirectUris
      · refine Or.inr (Or.inl ⟨clientId, userId, tenantId, redirectUri, scope, codeChallenge,
          codeChallengeMethod, code, now, client, rfl, hg, hr, ?_⟩)
        simp [issueAuthorizationCode, hg, hr]
      · refine Or.inr (Or.inr ⟨?_, fun client' hc hr' => ?_⟩)
        · simp only [issueAuthorizationCode, hg, hr]
          exact .refl s
        · obtain rfl := Option.some.inj (hg.symm.trans hc)
          exact absurd hr' hr
  | exchangeCodeForTokens code clientId redirectUri codeVerifier now =>
    exact Or.inr (Or.inr ⟨keepsRecords_exchange s code clientId redirectUri codeVerifier now,
      trivial⟩)

theorem CodesRespected.next (h : CodesRespected s) {c : OAuthCall} (hreg : RegistersOnce s c)
    (hask : AsksWithin s c) : CodesRespected (oauthMachine.next s c) := by
  rcases oauth_next_cases s c with ⟨client, rfl, hn⟩ |
    ⟨clientId, userId, tenantId, redirectUri, scope, codeChallenge, codeChallengeMethod, code, now,
      client, rfl, hc, hr, hn⟩ | ⟨hkeep, -⟩
  · rw [hn]
    intro code authCode hg
    obtain ⟨client', hc', hallows⟩ := h code authCode hg
    exact ⟨client', JsMap.get_set_of_get hreg hc' client, hallows⟩
  · rw [hn]
    intro code' authCode hg
    rw [JsMap.get_set] at hg
    split_ifs at hg
    · obtain rfl := Option.some.inj hg
      exact ⟨client, hc, hask client hc hr⟩
    · exact h code' authCode hg
  · intro code authCode hg
    obtain ⟨authCode', hg', hsame⟩ := hkeep.codes code authCode hg
    rw [hkeep.clients]
    rcases hsame with rfl | rfl
    · exact h code authCode hg'
    · exact h code authCode' hg'

theorem CodesRespected.asksWithin {c : OAuthCall} (h : CodesRespected (oauthMachine.next s c)) :
    AsksWithin s c := by
  rcases oauth_next_cases s c with ⟨client, rfl, -⟩ |
    ⟨clientId, userId, tenantId, redirectUri, scope, codeChallenge, codeChallengeMethod, code, now,
      client, rfl, hc, hr, hn⟩ | ⟨-, hask⟩
  · trivial
  · rw [hn] at h
    obtain ⟨client', hc', hallows⟩ := h code _ (JsMap.get_set_self _ _ _)
    intro client'' hc'' _
    obtain rfl := Option.some.inj (hc'.symm.trans hc'')
    exact hallows
  · exact hask

end Calls

/-- **Codes within the registrations, exactly.** In a run that registers no client a second time,
every stored code respects the registration of its client after every call, exactly when every
request that goes through asks for what the registration allows. -/
theorem codesRespected_iff (calls : List OAuthCall)
    (hreg : ∀ e ∈ oauthMachine.history .new calls, RegistersOnce e.before e.input) :
    (∀ e ∈ oauthMachine.history .new calls, CodesRespected e.after) ↔
      ∀ e ∈ oauthMachine.history .new calls, AsksWithin e.before e.input := by
  constructor
  · intro h e he
    obtain ⟨js, c, ks, -, rfl⟩ := Machine.mem_history_iff.mp he
    exact (h _ he).asksWithin
  · intro h e he
    have hok : ∀ e ∈ oauthMachine.history .new calls,
        RegistersOnce e.before e.input ∧ AsksWithin e.before e.input :=
      fun e he => ⟨hreg e he, h e he⟩
    refine (Machine.events_invariant (I := CodesRespected) ?_ ?_ calls hok e he).2
    · intro code authCode hg
      cases hg
    · exact fun s c hs hc => hs.next hc.1 hc.2

/-! ## A client and its scopes -/

section Dashboard

/-- A client that may read orders. -/
def dashboard : IOAuthClient where
  clientId := "dashboard"
  clientSecretHash := "hash"
  redirectUris := ["https://dashboard.example/cb"]
  allowedGrants := [.authorization_code]
  allowedScopes := ["orders:read"]
  tenantId := "T-1"
  isTrusted := false

/-- Ask for a code of that client. -/
def askFor (scope tenantId : String) : OAuthCall :=
  .issueAuthorizationCode "dashboard" "U-1" tenantId "https://dashboard.example/cb" scope none none
    "auth_code_1" 0

/-- **A scope that the client may not use**: the code is issued. -/
theorem foreign_scope_issued : ¬ ∀ e ∈ oauthMachine.history .new
    [.registerClient dashboard, askFor "orders:read billing:write" "T-1"],
    CodesRespected e.after := by
  intro h
  obtain ⟨client, hc, hallows⟩ :=
    h _ (List.mem_cons_of_mem _ List.mem_cons_self) "auth_code_1" _ rfl
  obtain rfl := Option.some.inj hc
  exact absurd (hallows.scopes "billing:write" (by decide)) (by decide)

/-- After a request within the registration and the exchange of its code, the codes respect it. -/
theorem codesRespected_iff_dashboard : CodesRespected (oauthMachine.run .new
    [.registerClient dashboard, askFor "orders:read" "T-1",
      .exchangeCodeForTokens "auth_code_1" "dashboard" "https://dashboard.example/cb" none
        60000]) :=
  (codesRespected_iff [.registerClient dashboard, askFor "orders:read" "T-1",
      .exchangeCodeForTokens "auth_code_1" "dashboard" "https://dashboard.example/cb" none 60000]
    (by decide)).mpr (by decide) _ (List.mem_of_getElem? (i := 2) rfl)

end Dashboard

end Logix.Auth
