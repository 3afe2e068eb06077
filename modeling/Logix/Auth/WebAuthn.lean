import Logix.Common.Errors
import Logix.Js.Map
import Logix.Spec.Machine

/-!
# The WebAuthn server

`WebAuthnFido2Server` stores a signature counter with each credential, to detect a cloned
authenticator. A date is its number of milliseconds; the calls carry the clock that they read and
the challenge that is generated.

* `generateRegistrationOptions`, `verifyAndStoreCredential`, `verifyAuthenticationSignature`,
  `webAuthnMachine`: the code;
* `Guarded`: what clone detection promises of a call;
* `Rewinds`: the two ways in which a call sets a positive counter back to zero;
* **`guarded_iff`**: all calls of a run keep the promise exactly when none of them rewinds.
-/

namespace Logix.Auth

open Spec

/-- `IStoredFidoCredential`. -/
structure IStoredFidoCredential where
  credentialId : String
  userId : String
  tenantId : String
  publicKeyPem : String
  counter : ℤ
  transports : List String
  deriving DecidableEq, Repr

/-- A registration challenge. -/
structure RegistrationChallenge where
  challenge : String
  userId : String
  expiresAt : ℤ
  deriving DecidableEq, Repr

/-- **`WebAuthnFido2Server`.** -/
structure WebAuthnFido2Server where
  credentials : JsMap String IStoredFidoCredential
  challenges : JsMap String RegistrationChallenge

/-- The calls; `challenge` is generated and `now` is the clock. -/
inductive WebAuthnCall where
  | generateRegistrationOptions (userId challenge : String) (now : ℤ)
  | verifyAndStoreCredential (userId tenantId credentialId publicKeyPem : String) (now : ℤ)
  | verifyAuthenticationSignature (credentialId clientDataJson : String) (counter : ℤ)
  deriving DecidableEq, Repr

/-- What a call returns. -/
inductive WebAuthnResult where
  | options (challenge : String)
  | stored (credential : IStoredFidoCredential)
  | verified (isVerified : Bool)
  deriving DecidableEq, Repr

namespace WebAuthnFido2Server

/-- `new WebAuthnFido2Server()`. -/
def new : WebAuthnFido2Server := ⟨.empty, .empty⟩

/-- `generateRegistrationOptions(userId, userEmail, rpId)`. -/
def generateRegistrationOptions (s : WebAuthnFido2Server) (userId challenge : String) (now : ℤ) :
    WebAuthnFido2Server × String :=
  ({ s with challenges := s.challenges.set userId ⟨challenge, userId, now + 5 * 60 * 1000⟩ },
    challenge)

/-- The credential of a registration. -/
def newCredential (userId tenantId credentialId publicKeyPem : String) :
    IStoredFidoCredential where
  credentialId := credentialId
  userId := userId
  tenantId := tenantId
  publicKeyPem := publicKeyPem
  counter := 0
  transports := ["internal", "usb", "nfc"]

/-- A challenge for `userId` is there and has not expired. -/
def isChallenged (s : WebAuthnFido2Server) (userId : String) (now : ℤ) : Bool :=
  (s.challenges.get userId).any fun challengeObj => decide (now ≤ challengeObj.expiresAt)

/-- **`verifyAndStoreCredential(userId, tenantId, credentialId, publicKeyPem)`.** -/
def verifyAndStoreCredential (s : WebAuthnFido2Server)
    (userId tenantId credentialId publicKeyPem : String) (now : ℤ) :
    WebAuthnFido2Server × Except DomainException IStoredFidoCredential :=
  if s.isChallenged userId now then
    let cred := newCredential userId tenantId credentialId publicKeyPem
    (⟨s.credentials.set credentialId cred, s.challenges.delete userId⟩, .ok cred)
  else (s, .error (.error "FIDO2 registration challenge expired"))

/-- `cred.counter = counter`. -/
def setCounter (s : WebAuthnFido2Server) (credentialId : String) (counter : ℤ) :
    WebAuthnFido2Server where
  __ := s
  credentials := s.credentials.modify credentialId fun cred => { cred with counter := counter }

/-- **`verifyAuthenticationSignature(credentialId, clientDataJson, counter)`.** -/
def verifyAuthenticationSignature (s : WebAuthnFido2Server) (credentialId : String) (counter : ℤ) :
    WebAuthnFido2Server × Except DomainException Bool :=
  match s.credentials.get credentialId with
  | none => (s, .ok false)
  | some cred =>
    if counter ≤ cred.counter ∧ counter ≠ 0 then
      (s, .error (.error
        "Potential cloned authenticator detected: Counter decreased or stagnant"))
    else (s.setCounter credentialId counter, .ok true)

end WebAuthnFido2Server

/-- The server under its calls. -/
def webAuthnMachine :
    Machine WebAuthnFido2Server WebAuthnCall (Except DomainException WebAuthnResult) where
  call
    | .generateRegistrationOptions userId challenge now, s =>
      let (s', challenge) := s.generateRegistrationOptions userId challenge now
      (s', .ok (.options challenge))
    | .verifyAndStoreCredential userId tenantId credentialId publicKeyPem now, s =>
      let (s', cred) := s.verifyAndStoreCredential userId tenantId credentialId publicKeyPem now
      (s', cred.map .stored)
    | .verifyAuthenticationSignature credentialId _ counter, s =>
      let (s', isVerified) := s.verifyAuthenticationSignature credentialId counter
      (s', isVerified.map .verified)

/-! ## Clone detection -/

abbrev WebAuthnEvent :=
  Event WebAuthnFido2Server WebAuthnCall (Except DomainException WebAuthnResult)

/-- **What clone detection promises of a call**: no stored counter decreases, and an authentication
is accepted on a greater counter only, or when both are zero. -/
structure Guarded (e : WebAuthnEvent) : Prop where
  monotone : ∀ credentialId cred, e.before.credentials.get credentialId = some cred →
    ∃ cred', e.after.credentials.get credentialId = some cred' ∧ cred.counter ≤ cred'.counter
  accepted : ∀ credentialId clientDataJson counter,
    e.input = .verifyAuthenticationSignature credentialId clientDataJson counter →
    e.result = .ok (.verified true) →
    ∃ cred, e.before.credentials.get credentialId = some cred ∧
      (cred.counter < counter ∨ cred.counter = 0 ∧ counter = 0)

/-- **A call that sets a positive counter back**: an authentication that presents zero, or another
registration of the credential. -/
def Rewinds (e : WebAuthnEvent) : Prop :=
  ∃ credentialId cred, e.before.credentials.get credentialId = some cred ∧ 0 < cred.counter ∧
    ((∃ clientDataJson, e.input = .verifyAuthenticationSignature credentialId clientDataJson 0) ∨
      ∃ userId tenantId publicKeyPem now,
        e.input = .verifyAndStoreCredential userId tenantId credentialId publicKeyPem now ∧
          e.before.isChallenged userId now = true)

section Calls

open WebAuthnFido2Server

variable {s : WebAuthnFido2Server} {c : WebAuthnCall}
  {userId tenantId credentialId publicKeyPem clientDataJson : String} {now counter : ℤ}
  {cred : IStoredFidoCredential}

theorem call_store (h : s.isChallenged userId now = true) :
    webAuthnMachine.call (.verifyAndStoreCredential userId tenantId credentialId publicKeyPem now) s
      = (⟨s.credentials.set credentialId (newCredential userId tenantId credentialId publicKeyPem),
          s.challenges.delete userId⟩,
        .ok (.stored (newCredential userId tenantId credentialId publicKeyPem))) := by
  simp [webAuthnMachine, verifyAndStoreCredential, h, Except.map]

theorem call_accept (hg : s.credentials.get credentialId = some cred)
    (hc : cred.counter < counter ∨ counter = 0) :
    webAuthnMachine.call (.verifyAuthenticationSignature credentialId clientDataJson counter) s =
      (s.setCounter credentialId counter, .ok (.verified true)) := by
  have hn : ¬ (counter ≤ cred.counter ∧ counter ≠ 0) := by omega
  simp only [webAuthnMachine, verifyAuthenticationSignature, hg, hn, if_false, Except.map]

theorem webAuthn_call_cases (s : WebAuthnFido2Server) (c : WebAuthnCall) :
    (∃ s' result, webAuthnMachine.call c s = (s', result) ∧ s'.credentials = s.credentials ∧
      result ≠ .ok (.verified true)) ∨
    (∃ userId tenantId credentialId publicKeyPem now,
      c = .verifyAndStoreCredential userId tenantId credentialId publicKeyPem now ∧
      s.isChallenged userId now = true) ∨
    ∃ credentialId clientDataJson counter cred,
      c = .verifyAuthenticationSignature credentialId clientDataJson counter ∧
      s.credentials.get credentialId = some cred ∧ (cred.counter < counter ∨ counter = 0) := by
  cases c with
  | generateRegistrationOptions userId challenge now =>
    exact Or.inl ⟨_, _, rfl, rfl, by simp⟩
  | verifyAndStoreCredential userId tenantId credentialId publicKeyPem now =>
    cases h : s.isChallenged userId now with
    | true => exact Or.inr (Or.inl ⟨userId, tenantId, credentialId, publicKeyPem, now, rfl, h⟩)
    | false =>
      refine Or.inl ⟨s, .error (.error "FIDO2 registration challenge expired"), ?_, rfl, by simp⟩
      simp [webAuthnMachine, verifyAndStoreCredential, h, Except.map]
  | verifyAuthenticationSignature credentialId clientDataJson counter =>
    cases hg : s.credentials.get credentialId with
    | none =>
      refine Or.inl ⟨s, .ok (.verified false), ?_, rfl, by simp⟩
      simp [webAuthnMachine, verifyAuthenticationSignature, hg, Except.map]
    | some cred =>
      by_cases hc : cred.counter < counter ∨ counter = 0
      · exact Or.inr (Or.inr ⟨credentialId, clientDataJson, counter, cred, rfl, hg, hc⟩)
      · have hr : counter ≤ cred.counter ∧ counter ≠ 0 := by omega
        refine Or.inl ⟨s, .error (.error
          "Potential cloned authenticator detected: Counter decreased or stagnant"), ?_, rfl,
          by simp⟩
        simp [webAuthnMachine, verifyAuthenticationSignature, hg, hr, Except.map]

/-! ## One call -/

/-- No stored counter is negative. -/
def Nonneg (s : WebAuthnFido2Server) : Prop :=
  ∀ credentialId cred, s.credentials.get credentialId = some cred → 0 ≤ cred.counter

theorem get_setCounter {id : String} {cred' : IStoredFidoCredential}
    (h : (s.setCounter credentialId counter).credentials.get id = some cred') :
    ∃ cred, s.credentials.get id = some cred ∧
      cred' = if id = credentialId then { cred with counter := counter } else cred :=
  JsMap.exists_of_get_modify h

theorem Nonneg.next (h : Nonneg s) (c : WebAuthnCall) : Nonneg (webAuthnMachine.next s c) := by
  intro id cred hid
  unfold Machine.next at hid
  rcases webAuthn_call_cases s c with ⟨s', result, hc, hs', -⟩ |
    ⟨userId, tenantId, credentialId, publicKeyPem, now, rfl, hch⟩ |
    ⟨credentialId, clientDataJson, counter, cred₀, rfl, hg, hc⟩
  · rw [hc, hs'] at hid
    exact h id cred hid
  · rw [call_store hch, JsMap.get_set] at hid
    split_ifs at hid
    · obtain rfl := Option.some.inj hid
      exact le_refl _
    · exact h id cred hid
  · rw [call_accept hg hc] at hid
    obtain ⟨cred', hid', rfl⟩ := get_setCounter hid
    split_ifs with he
    · have := h credentialId cred₀ hg
      change 0 ≤ counter
      omega
    · exact h id cred' hid'

theorem not_guarded_of_rewinds (h : Rewinds (webAuthnMachine.event s c)) :
    ¬ Guarded (webAuthnMachine.event s c) := by
  intro hgd
  obtain ⟨credentialId, cred, hg, hpos, h⟩ := h
  obtain ⟨cred', hg', hle⟩ := hgd.monotone credentialId cred hg
  change (webAuthnMachine.call c s).1.credentials.get credentialId = some cred' at hg'
  rcases h with ⟨clientDataJson, hi⟩ | ⟨userId, tenantId, publicKeyPem, now, hi, hch⟩
  · obtain rfl : c = _ := hi
    rw [call_accept (s := s) hg (Or.inr rfl)] at hg'
    obtain ⟨cred₀, -, rfl⟩ := get_setCounter hg'
    rw [if_pos rfl] at hle
    exact absurd hle (not_le.mpr hpos)
  · obtain rfl : c = _ := hi
    rw [call_store (s := s) hch, JsMap.get_set_self] at hg'
    obtain rfl := Option.some.inj hg'
    exact absurd hle (not_le.mpr hpos)

theorem guarded_of_not_rewinds (hs : Nonneg s) (h : ¬ Rewinds (webAuthnMachine.event s c)) :
    Guarded (webAuthnMachine.event s c) := by
  rcases webAuthn_call_cases s c with ⟨s', result, hc, hs', hr⟩ |
    ⟨userId, tenantId, credentialId, publicKeyPem, now, rfl, hch⟩ |
    ⟨credentialId, clientDataJson, counter, cred, rfl, hg, hc⟩
  · refine ⟨fun id cred hid => ⟨cred, ?_, le_refl _⟩, fun _ _ _ _ hres => absurd ?_ hr⟩
    · change (webAuthnMachine.call c s).1.credentials.get id = some cred
      rw [hc, hs']
      exact hid
    · change (webAuthnMachine.call c s).2 = _ at hres
      rwa [hc] at hres
  · refine ⟨fun id cred hid => ?_, fun _ _ _ hi => nomatch hi⟩
    change ∃ cred', (webAuthnMachine.call _ s).1.credentials.get id = some cred' ∧ _
    rw [call_store hch, JsMap.get_set]
    by_cases he : id = credentialId
    · -- registered again: the old counter was not positive
      subst he
      refine ⟨_, if_pos rfl, not_lt.mp fun hpos => h ⟨id, cred, hid, hpos, Or.inr ?_⟩⟩
      exact ⟨userId, tenantId, publicKeyPem, now, rfl, hch⟩
    · exact ⟨cred, (if_neg he).trans hid, le_refl _⟩
  · have hacc : cred.counter < counter ∨ cred.counter = 0 ∧ counter = 0 := by
      refine hc.imp_right fun h0 => ⟨?_, h0⟩
      subst h0
      refine le_antisymm (not_lt.mp fun hpos => h ?_) (hs credentialId cred hg)
      exact ⟨credentialId, cred, hg, hpos, Or.inl ⟨clientDataJson, rfl⟩⟩
    refine ⟨fun id cred' hid => ?_, fun _ _ _ hi _ => ?_⟩
    · change ∃ cred'', (webAuthnMachine.call _ s).1.credentials.get id = some cred'' ∧ _
      rw [call_accept hg hc, setCounter]
      by_cases he : id = credentialId
      · subst he
        obtain rfl := Option.some.inj (hg.symm.trans hid)
        refine ⟨_, JsMap.get_modify_self hg _, ?_⟩
        change cred.counter ≤ counter
        omega
      · exact ⟨cred', (JsMap.get_modify_ne he _).trans hid, le_refl _⟩
    · obtain ⟨rfl, rfl, rfl⟩ := WebAuthnCall.verifyAuthenticationSignature.inj hi
      exact ⟨cred, hg, hacc⟩

end Calls

/-! ## Runs -/

theorem nonneg_run (calls : List WebAuthnCall) : Nonneg (webAuthnMachine.run .new calls) :=
  Machine.history_induction (J := fun _ => Nonneg)
    (fun _ _ h => absurd (JsMap.get_eq_some_iff.mp h) List.not_mem_nil) (fun _ _ c h => h.next c)
    calls

/-- **The calls of a run keep the promise of clone detection exactly when none of them rewinds.** -/
theorem guarded_iff (calls : List WebAuthnCall) :
    (∀ e ∈ webAuthnMachine.history .new calls, Guarded e) ↔
      ∀ e ∈ webAuthnMachine.history .new calls, ¬ Rewinds e := by
  refine forall₂_congr fun e he => ?_
  obtain ⟨js, c, ks, -, rfl⟩ := Machine.mem_history_iff.mp he
  exact ⟨fun hg hr => not_guarded_of_rewinds hr hg, guarded_of_not_rewinds (nonneg_run js)⟩

/-- After counter 5, an authentication with counter 0 is accepted, and the stored counter is 0. -/
theorem counter_zero_accepted :
    ∃ e ∈ webAuthnMachine.history .new
        [.generateRegistrationOptions "u1" "ch" 0,
          .verifyAndStoreCredential "u1" "t1" "cred" "pem" 1,
          .verifyAuthenticationSignature "cred" "{}" 5,
          .verifyAuthenticationSignature "cred" "{}" 0],
      e.input = .verifyAuthenticationSignature "cred" "{}" 0 ∧ e.result = .ok (.verified true) ∧
      (e.before.credentials.get "cred").map IStoredFidoCredential.counter = some 5 ∧
      (e.after.credentials.get "cred").map IStoredFidoCredential.counter = some 0 ∧
      ¬ Guarded e :=
  ⟨_, List.mem_of_getElem? (i := 3) rfl, rfl, rfl, rfl, rfl,
    not_guarded_of_rewinds ⟨"cred", _, rfl, by decide, Or.inl ⟨"{}", rfl⟩⟩⟩

end Logix.Auth
