import Logix.Auth.OAuth
import Mathlib.Data.List.Nodup

/-!
# Authorization codes over runs

* `Issues`, `IssuedAs`, `Exchanges`: what a call did with a code;
* `Recorded`: the stored record of a code is that of the call that issued it last;
* **`single_use`**: with distinct codes, each is exchanged at most once, in time, and by the client
  and with the redirect URI that it was issued for;
* **`pkce_iff`**: the challenges are enforced exactly when no exchange presents a wrong verifier
  for a code that it could otherwise exchange.
-/

namespace Logix.Auth

open Spec

/-- The code that a call issued. -/
def issuedCode (e : OAuthEvent) : Option String :=
  match e.result with
  | .ok (.issued code) => some code
  | _ => none

/-- The code that a call exchanged. -/
def exchangedCode (e : OAuthEvent) : Option String :=
  match e.input, e.result with
  | .exchangeCodeForTokens code _ _ _ _, .ok (.exchanged _) => some code
  | _, _ => none

/-- The call issued `code`. -/
def Issues (code : String) (e : OAuthEvent) : Prop := issuedCode e = some code

/-- The call issued the code of the record, at `now`: to a client and for a redirect URI that was
registered for this client. -/
def IssuedAs (e : OAuthEvent) (authCode : IAuthorizationCode) (now : ℤ) : Prop :=
  e.input = .issueAuthorizationCode authCode.clientId authCode.userId authCode.tenantId
    authCode.redirectUri authCode.scope authCode.codeChallenge authCode.codeChallengeMethod
    authCode.code now ∧
  e.result = .ok (.issued authCode.code) ∧ authCode.expiresAt = now + 10 * 60 * 1000 ∧
  ∃ client, e.before.clients.get authCode.clientId = some client ∧
    authCode.redirectUri ∈ client.redirectUris

theorem IssuedAs.issues {e : OAuthEvent} {authCode : IAuthorizationCode} {now : ℤ}
    (h : IssuedAs e authCode now) : Issues authCode.code e := by
  rw [Issues, issuedCode, h.2.1]

/-- **The stored record of a code is that of the call that issued it last.** -/
def Recorded (es : List OAuthEvent) (s : OAuth2AuthorizationServer) : Prop :=
  ∀ code authCode, s.authCodes.get code = some authCode → authCode.code = code ∧
    ∃ e now, Since es e (Issues code) ∧ IssuedAs e authCode now

section Steps

open OAuth2AuthorizationServer

variable {es : List OAuthEvent} {s s' : OAuth2AuthorizationServer} {e : OAuthEvent}
  {c : OAuthCall} {authCode : IAuthorizationCode} {code clientId redirectUri : String}
  {codeVerifier : Option String} {tokens : TokenResponse} {now : ℤ}

theorem issuedCode_eq_none (h : ∀ code, e.result ≠ .ok (.issued code)) : issuedCode e = none := by
  unfold issuedCode
  split
  · exact absurd ‹_› (h _)
  · rfl

theorem exchangedCode_eq_none (h : ∀ tokens, e.result ≠ .ok (.exchanged tokens)) :
    exchangedCode e = none := by
  unfold exchangedCode
  split
  · exact absurd ‹_› (h _)
  · rfl

theorem Recorded.keep (h : Recorded es s) (he : issuedCode e = none)
    (hs : ∀ code authCode, s'.authCodes.get code = some authCode →
      ∃ authCode', s.authCodes.get code = some authCode' ∧
        (authCode = authCode' ∨ authCode = authCode'.use)) :
    Recorded (es ++ [e]) s' := by
  intro code authCode hg
  obtain ⟨authCode', hg', heq⟩ := hs code authCode hg
  obtain ⟨hcode, e', now, hsince, hi⟩ := h code authCode' hg'
  have hsince' : Since (es ++ [e]) e' (Issues code) := by
    refine since_concat_iff.mpr (Or.inr ⟨hsince, ?_⟩)
    rw [Issues, he]
    simp
  rcases heq with rfl | rfl
  · exact ⟨hcode, e', now, hsince', hi⟩
  · exact ⟨hcode, e', now, hsince', hi⟩

theorem Recorded.issue (h : Recorded es s) {userId tenantId scope : String}
    {codeChallenge : Option String} {codeChallengeMethod : Option CodeChallengeMethod}
    {client : IOAuthClient}
    (hi : e.input = .issueAuthorizationCode clientId userId tenantId redirectUri scope
      codeChallenge codeChallengeMethod code now)
    (hr : e.result = .ok (.issued code)) (hc : e.before.clients.get clientId = some client)
    (hu : redirectUri ∈ client.redirectUris) :
    Recorded (es ++ [e]) { s with authCodes := s.authCodes.set code (newCode clientId userId
      tenantId redirectUri scope codeChallenge codeChallengeMethod code now) } := by
  intro code' authCode hg
  rw [JsMap.get_set] at hg
  split_ifs at hg with he
  · subst he
    obtain rfl := Option.some.inj hg
    exact ⟨rfl, e, now, since_concat_iff.mpr (Or.inl rfl), hi, hr, rfl, client, hc, hu⟩
  · obtain ⟨hcode, e', now', hsince, hi'⟩ := h code' authCode hg
    refine ⟨hcode, e', now', since_concat_iff.mpr (Or.inr ⟨hsince, ?_⟩), hi'⟩
    rw [Issues, issuedCode, hr]
    simpa using Ne.symm he

theorem Recorded.next (h : Recorded es s) (c : OAuthCall) :
    Recorded (es ++ [oauthMachine.event s c]) (oauthMachine.next s c) := by
  unfold Machine.event Machine.next
  rcases oauth_call_cases s c with ⟨s', result, hc, hs, hi, -⟩ |
    ⟨clientId, userId, tenantId, redirectUri, scope, codeChallenge, codeChallengeMethod, code, now,
      client, rfl, hcl, hu, hc⟩ |
    ⟨code, clientId, redirectUri, codeVerifier, now, authCode, rfl, hg, ha⟩
  · rw [hc]
    exact h.keep (issuedCode_eq_none hi) fun code ac hac => ⟨ac, hs code ac hac, Or.inl rfl⟩
  · rw [hc]
    exact h.issue rfl rfl hcl hu
  · rw [call_exchange hg ha]
    refine h.keep rfl fun code' ac hac => ?_
    obtain ⟨ac', hac', rfl⟩ := JsMap.exists_of_get_modify hac
    refine ⟨ac', hac', ?_⟩
    split_ifs
    · exact Or.inr rfl
    · exact Or.inl rfl

theorem recorded_run (calls : List OAuthCall) :
    Recorded (oauthMachine.history .new calls) (oauthMachine.run .new calls) :=
  Machine.history_induction
    (fun _ _ h => absurd (JsMap.get_eq_some_iff.mp h) List.not_mem_nil) (fun _ _ c h => h.next c)
    calls

theorem admits_of_exchanged
    (h : (oauthMachine.event s (.exchangeCodeForTokens code clientId redirectUri codeVerifier
      now)).result = .ok (.exchanged tokens)) :
    ∃ authCode, s.authCodes.get code = some authCode ∧
      Admits authCode clientId redirectUri codeVerifier now := by
  change (oauthMachine.call _ s).2 = _ at h
  rcases oauth_call_cases s (.exchangeCodeForTokens code clientId redirectUri codeVerifier now) with
    ⟨s', result, hc, -, -, hx⟩ | ⟨_, _, _, _, _, _, _, _, _, _, hi, -⟩ |
    ⟨code', clientId', redirectUri', codeVerifier', now', authCode, hi, hg, ha⟩
  · rw [hc] at h
    exact absurd h (hx tokens)
  · cases hi
  · cases hi
    exact ⟨authCode, hg, ha⟩

end Steps

/-! ## Single use -/

/-- **The invariant of distinct codes**: a code that was exchanged is marked, or gone. -/
structure SingleUse (es : List OAuthEvent) (s : OAuth2AuthorizationServer) : Prop where
  issued : ∀ code ∈ es.filterMap exchangedCode, code ∈ es.filterMap issuedCode
  used : ∀ code ∈ es.filterMap exchangedCode, ∀ authCode,
    s.authCodes.get code = some authCode → authCode.isUsed = true
  once : (es.filterMap exchangedCode).Nodup

section SingleUse

variable {es : List OAuthEvent} {s s' : OAuth2AuthorizationServer} {e : OAuthEvent}
  {authCode : IAuthorizationCode} {code : String}

theorem SingleUse.keep (h : SingleUse es s) (he : exchangedCode e = none)
    (hs : ∀ code ∈ es.filterMap exchangedCode, ∀ authCode, s'.authCodes.get code = some authCode →
      s.authCodes.get code = some authCode) : SingleUse (es ++ [e]) s' := by
  have hex : (es ++ [e]).filterMap exchangedCode = es.filterMap exchangedCode := by simp [he]
  refine ⟨fun code hcode => ?_, fun code hcode ac hac => ?_, hex ▸ h.once⟩
  · rw [hex] at hcode
    rw [List.filterMap_append]
    exact List.mem_append_left _ (h.issued code hcode)
  · rw [hex] at hcode
    exact h.used code hcode ac (hs code hcode ac hac)

theorem SingleUse.exchange (h : SingleUse es s) (hrec : Recorded es s)
    (hg : s.authCodes.get code = some authCode) (hu : authCode.isUsed = false)
    (he : exchangedCode e = some code) :
    SingleUse (es ++ [e]) { s with authCodes := s.authCodes.modify code .use } := by
  have hnew : code ∉ es.filterMap exchangedCode := fun hmem => by
    rw [h.used code hmem authCode hg] at hu
    exact Bool.noConfusion hu
  have hiss : code ∈ es.filterMap issuedCode := by
    obtain ⟨rfl, e', now, hsince, hi⟩ := hrec code authCode hg
    exact List.mem_filterMap.mpr ⟨e', hsince.mem, hi.issues⟩
  have hex : (es ++ [e]).filterMap exchangedCode = es.filterMap exchangedCode ++ [code] := by
    simp [he]
  refine ⟨fun code' hcode => ?_, fun code' hcode ac hac => ?_, ?_⟩
  · rw [hex] at hcode
    rw [List.filterMap_append]
    refine List.mem_append_left _ ?_
    rcases List.mem_append.mp hcode with hcode | hcode
    · exact h.issued code' hcode
    · exact List.mem_singleton.mp hcode ▸ hiss
  · rw [hex] at hcode
    obtain ⟨ac', hac', rfl⟩ := JsMap.exists_of_get_modify hac
    split_ifs with heq
    · rfl
    · refine h.used code' ((List.mem_append.mp hcode).resolve_right fun hm => ?_) ac' hac'
      exact heq (List.mem_singleton.mp hm)
  · rw [hex]
    exact List.nodup_append.mpr ⟨h.once, List.nodup_singleton _, fun a ha b hb hab =>
      hnew (List.mem_singleton.mp hb ▸ hab ▸ ha)⟩

theorem SingleUse.next (h : SingleUse es s) (hrec : Recorded es s) (c : OAuthCall)
    (hnd : ((es ++ [oauthMachine.event s c]).filterMap issuedCode).Nodup) :
    SingleUse (es ++ [oauthMachine.event s c]) (oauthMachine.next s c) := by
  unfold Machine.event Machine.next at hnd ⊢
  rcases oauth_call_cases s c with ⟨s', result, hc, hs, hi, hx⟩ |
    ⟨clientId, userId, tenantId, redirectUri, scope, codeChallenge, codeChallengeMethod, code, now,
      client, rfl, hcl, hu, hc⟩ |
    ⟨code, clientId, redirectUri, codeVerifier, now, authCode, rfl, hg, ha⟩
  · rw [hc]
    exact h.keep (exchangedCode_eq_none hx) fun code _ ac hac => hs code ac hac
  · rw [hc] at hnd ⊢
    refine h.keep rfl fun code' hcode ac hac => ?_
    have hne : code' ≠ code := by
      rintro rfl
      rw [List.filterMap_append, List.nodup_append] at hnd
      exact hnd.2.2 _ (h.issued _ hcode) _ List.mem_cons_self rfl
    exact (JsMap.get_set_ne hne _).symm.trans hac
  · rw [call_exchange hg ha]
    exact h.exchange hrec hg ha.unused rfl

theorem singleUse_run (calls : List OAuthCall)
    (hnd : ((oauthMachine.history .new calls).filterMap issuedCode).Nodup) :
    SingleUse (oauthMachine.history .new calls) (oauthMachine.run .new calls) := by
  induction calls using List.reverseRecOn with
  | nil => exact ⟨by simp, by simp, List.nodup_nil⟩
  | append_singleton calls c ih =>
    rw [Machine.history_concat] at hnd ⊢
    rw [Machine.run_concat]
    refine (ih ?_).next (recorded_run calls) c hnd
    rw [List.filterMap_append] at hnd
    exact hnd.of_append_left

end SingleUse

/-- **Authorization codes are single use and bound.** -/
theorem single_use (calls : List OAuthCall)
    (hnd : ((oauthMachine.history .new calls).filterMap issuedCode).Nodup) :
    ((oauthMachine.history .new calls).filterMap exchangedCode).Nodup ∧
    ∀ pre x post, oauthMachine.history .new calls = pre ++ x :: post →
      ∀ code clientId redirectUri codeVerifier now tokens,
        x.input = .exchangeCodeForTokens code clientId redirectUri codeVerifier now →
        x.result = .ok (.exchanged tokens) →
        ∃ a ∈ pre, ∃ userId tenantId scope codeChallenge codeChallengeMethod issuedAt,
          a.input = .issueAuthorizationCode clientId userId tenantId redirectUri scope
            codeChallenge codeChallengeMethod code issuedAt ∧
          a.result = .ok (.issued code) ∧ now ≤ issuedAt + 10 * 60 * 1000 ∧
          ∃ client, a.before.clients.get clientId = some client ∧
            redirectUri ∈ client.redirectUris := by
  refine ⟨(singleUse_run calls hnd).once, ?_⟩
  intro pre x post h code clientId redirectUri codeVerifier now tokens hi hr
  obtain ⟨js, c, ks, -, rfl, rfl⟩ := Machine.exists_of_history_eq h
  obtain rfl : c = _ := hi
  obtain ⟨authCode, hg, ha⟩ := admits_of_exchanged hr
  obtain ⟨rfl, a, issuedAt, hsince, hin, hres, hexp, hreg⟩ := recorded_run js code authCode hg
  obtain ⟨-, htime, rfl, rfl, -⟩ := ha
  exact ⟨a, hsince.mem, _, _, _, _, _, issuedAt, hin, hres, hexp ▸ htime, hreg⟩

/-- A code is issued, exchanged, and refused the second time. -/
theorem single_use_once :
    ((oauthMachine.history .new [.registerClient ⟨"app", "", ["https://app/cb"], [], [], "t1", true⟩,
      .issueAuthorizationCode "app" "u1" "t1" "https://app/cb" "openid" none none "code" 0,
      .exchangeCodeForTokens "code" "app" "https://app/cb" none 600000,
      .exchangeCodeForTokens "code" "app" "https://app/cb" none 600000]).filterMap
        exchangedCode).Nodup :=
  (single_use _ (by decide)).1

/-! ## PKCE -/

/-- The transform of a verifier, with `s256` for the method S256. -/
def transform (s256 : String → String) : Option CodeChallengeMethod → String → String
  | some .plain, codeVerifier => codeVerifier
  | _, codeVerifier => s256 codeVerifier

/-- The verifier matches the challenge. -/
def Verifies (s256 : String → String) (method : Option CodeChallengeMethod)
    (codeVerifier : Option String) (codeChallenge : String) : Prop :=
  ∃ v, codeVerifier = some v ∧ transform s256 method v = codeChallenge

/-- **PKCE is enforced**: a code that was issued with a challenge is exchanged only with a verifier
that matches it. -/
def Enforced (s256 : String → String) (es : List OAuthEvent) : Prop :=
  ∀ pre x post, es = pre ++ x :: post → ∀ a clientId userId tenantId redirectUri scope
    codeChallenge method code issuedAt, Since pre a (Issues code) → Issues code a →
    a.input = .issueAuthorizationCode clientId userId tenantId redirectUri scope
      (some codeChallenge) method code issuedAt →
    ∀ clientId' redirectUri' codeVerifier now tokens,
      x.input = .exchangeCodeForTokens code clientId' redirectUri' codeVerifier now →
      x.result = .ok (.exchanged tokens) → Verifies s256 method codeVerifier codeChallenge

/-- **An exchange that presents a wrong verifier** for a code that it may exchange otherwise. -/
def WrongVerifier (s256 : String → String) (e : OAuthEvent) : Prop :=
  ∃ code clientId redirectUri codeVerifier now authCode codeChallenge,
    e.input = .exchangeCodeForTokens code clientId redirectUri codeVerifier now ∧
    e.before.authCodes.get code = some authCode ∧
    Admits authCode clientId redirectUri codeVerifier now ∧
    authCode.codeChallenge = some codeChallenge ∧
    ¬ Verifies s256 authCode.codeChallengeMethod codeVerifier codeChallenge

/-- **PKCE is enforced exactly when no exchange presents a wrong verifier.** -/
theorem pkce_iff (s256 : String → String) (calls : List OAuthCall) :
    Enforced s256 (oauthMachine.history .new calls) ↔
      ∀ e ∈ oauthMachine.history .new calls, ¬ WrongVerifier s256 e := by
  constructor
  · intro h e he hw
    obtain ⟨pre, post, hsplit⟩ := List.append_of_mem he
    obtain ⟨js, c, ks, -, rfl, rfl⟩ := Machine.exists_of_history_eq hsplit
    obtain ⟨code, clientId, redirectUri, codeVerifier, now, authCode, codeChallenge, hi, hg, ha,
      hch, hv⟩ := hw
    obtain rfl : c = _ := hi
    obtain ⟨rfl, a, issuedAt, hsince, hin, hrest⟩ := recorded_run js code authCode hg
    have hres : (oauthMachine.event (oauthMachine.run .new js) _).result = _ :=
      congrArg Prod.snd (call_exchange hg ha)
    rw [hch] at hin
    refine hv (h _ _ _ hsplit a _ _ _ _ _ codeChallenge _ authCode.code issuedAt hsince ?_ hin
      clientId redirectUri codeVerifier now _ rfl hres)
    rw [Issues, issuedCode, hrest.1]
  · intro h pre x post hsplit a clientId userId tenantId redirectUri scope codeChallenge method code
      issuedAt hsince hiss hin clientId' redirectUri' codeVerifier now tokens hi hr
    have hx : x ∈ oauthMachine.history .new calls := by
      rw [hsplit]
      exact List.mem_append_right _ List.mem_cons_self
    obtain ⟨js, c, ks, -, rfl, rfl⟩ := Machine.exists_of_history_eq hsplit
    obtain rfl : c = _ := hi
    obtain ⟨authCode, hg, ha⟩ := admits_of_exchanged hr
    obtain ⟨rfl, a', issuedAt', hsince', hissued⟩ := recorded_run js code authCode hg
    -- the record is that of `a`, the last call that issued the code
    obtain rfl := hsince.unique hsince' hiss hissued.issues
    obtain ⟨-, -, -, -, -, hch, rfl, -⟩ :=
      OAuthCall.issueAuthorizationCode.inj (hin.symm.trans hissued.1)
    refine not_not.mp fun hv => h _ hx ⟨_, clientId', redirectUri', codeVerifier, now, authCode,
      codeChallenge, rfl, hg, ha, hch.symm, hv⟩

/-- A code with the plain challenge "right" is exchanged with the verifier "wrong". -/
theorem wrong_verifier_accepted :
    ¬ Enforced (fun v => v) (oauthMachine.history .new
      [.registerClient ⟨"app", "", ["https://app/cb"], [], [], "t1", true⟩,
        .issueAuthorizationCode "app" "u1" "t1" "https://app/cb" "openid" (some "right")
          (some .plain) "code" 0,
        .exchangeCodeForTokens "code" "app" "https://app/cb" (some "wrong") 1]) := by
  intro h
  have hv := h [_, _] _ [] rfl _ "app" "u1" "t1" "https://app/cb" "openid" "right" (some .plain)
    "code" 0 ⟨[_], [], rfl, by simp⟩ rfl rfl "app" "https://app/cb" (some "wrong") 1 _ rfl rfl
  obtain ⟨v, hv, heq⟩ := hv
  obtain rfl := Option.some.inj hv
  exact absurd heq (by decide)

end Logix.Auth
