import Logix.Auth.WebAuthn
import Logix.Spec.Stable

/-!
# Does a passkey keep its owner?

`verifyAndStoreCredential` checks the challenge of the user, and not whose the credential is.

* `Passkey`, `Passkey.isStored`: a credential id with the owner and the key that it was stored for;
* `TakesOver`: a registration that goes through, of a stored credential for another owner or key;
* `webAuthn_call_keeps`: every other call leaves all passkeys stored;
* **`passkeys_stable_iff`**: in a run the stored passkeys stay exactly when no call takes one over;
* `passkey_taken_over`: the credential of one user becomes that of another.
-/

namespace Logix.Auth

open Spec

/-- **A passkey**: a credential with its owner and its key. -/
structure Passkey where
  credentialId : String
  userId : String
  tenantId : String
  publicKeyPem : String
  deriving DecidableEq, Repr

/-- The passkey of a stored credential. -/
def IStoredFidoCredential.passkey (cred : IStoredFidoCredential) (credentialId : String) :
    Passkey where
  credentialId := credentialId
  userId := cred.userId
  tenantId := cred.tenantId
  publicKeyPem := cred.publicKeyPem

/-- The server stores the credential for this owner, with this key. -/
def Passkey.isStored (p : Passkey) (s : WebAuthnFido2Server) : Prop :=
  (s.credentials.get p.credentialId).map (·.passkey p.credentialId) = some p

/-- **A registration that takes a stored credential over**: the user has a live challenge, and the
credential is stored for another user or tenant, or with another key. -/
def TakesOver (e : WebAuthnEvent) : Prop :=
  ∃ p : Passkey, ∃ now cred,
    e.input = .verifyAndStoreCredential p.userId p.tenantId p.credentialId p.publicKeyPem now ∧
      e.before.isChallenged p.userId now = true ∧
      e.before.credentials.get p.credentialId = some cred ∧ cred.passkey p.credentialId ≠ p

section Calls

open WebAuthnFido2Server

variable {s : WebAuthnFido2Server} {c : WebAuthnCall} {p : Passkey}

theorem Passkey.isStored_iff :
    p.isStored s ↔ ∃ cred, s.credentials.get p.credentialId = some cred ∧
      cred.passkey p.credentialId = p :=
  Option.map_eq_some_iff

theorem Passkey.isStored_congr {s' : WebAuthnFido2Server} (h : s'.credentials = s.credentials) :
    p.isStored s' ↔ p.isStored s := by
  rw [isStored, isStored, h]

theorem Passkey.isStored_setCounter {credentialId : String} {counter : ℤ} (h : p.isStored s) :
    p.isStored (s.setCounter credentialId counter) := by
  obtain ⟨cred, hget, hp⟩ := isStored_iff.mp h
  refine isStored_iff.mpr ⟨_, JsMap.get_modify_of_get hget _ _, ?_⟩
  split_ifs
  · exact hp
  · exact hp

/-- **A call that takes nothing over leaves all passkeys stored.** -/
theorem webAuthn_call_keeps (h : ¬ TakesOver (webAuthnMachine.event s c)) (hp : p.isStored s) :
    p.isStored (webAuthnMachine.next s c) := by
  unfold Machine.next
  rcases webAuthn_call_cases s c with ⟨s', result, hc, hs', -⟩ |
    ⟨userId, tenantId, credentialId, publicKeyPem, now, rfl, hch⟩ |
    ⟨credentialId, clientDataJson, counter, cred, rfl, hg, hc⟩
  · rw [hc]
    exact (Passkey.isStored_congr hs').mpr hp
  · rw [call_store hch, Passkey.isStored, JsMap.get_set]
    split_ifs with he
    · -- the credential is registered again, for the owner and the key that it has
      obtain ⟨cred, hget, hcred⟩ := Passkey.isStored_iff.mp hp
      by_contra hne
      refine h ⟨⟨credentialId, userId, tenantId, publicKeyPem⟩, now, cred, rfl, hch, ?_, ?_⟩
      · rwa [he] at hget
      · intro hsame
        rw [← he, hcred] at hsame
        exact hne (congrArg some hsame.symm)
    · exact hp
  · rw [call_accept hg hc]
    exact Passkey.isStored_setCounter hp

theorem not_isStored_of_takesOver (h : TakesOver (webAuthnMachine.event s c)) :
    ∃ p : Passkey, p.isStored s ∧ ¬ p.isStored (webAuthnMachine.next s c) := by
  obtain ⟨q, now, cred, hi, hch, hget, hne⟩ := h
  obtain rfl : c = _ := hi
  refine ⟨cred.passkey q.credentialId, Passkey.isStored_iff.mpr ⟨cred, hget, rfl⟩, fun hp => ?_⟩
  obtain ⟨cred', hget', hcred'⟩ := Passkey.isStored_iff.mp hp
  rw [Machine.next, call_store (s := s) hch] at hget'
  obtain rfl := Option.some.inj ((JsMap.get_set_self _ _ _).symm.trans hget')
  exact hne hcred'.symm

end Calls

/-! ## Runs -/

/-- **The passkeys of a run stay as they are stored exactly when no call takes one over.** -/
theorem passkeys_stable_iff (calls : List WebAuthnCall) :
    webAuthnMachine.Stable .new Passkey.isStored calls ↔
      ∀ e ∈ webAuthnMachine.history .new calls, ¬ TakesOver e := by
  rw [Machine.stable_iff]
  refine forall₂_congr fun e he => ?_
  obtain ⟨js, c, ks, -, rfl⟩ := Machine.mem_history_iff.mp he
  constructor
  · intro hkeeps htakes
    obtain ⟨p, hp, hnot⟩ := not_isStored_of_takesOver htakes
    exact hnot (hkeeps p hp)
  · exact fun h p hp => webAuthn_call_keeps h hp

/-- The credential "cred" is stored for "u1"; "u2" registers it with a challenge of its own, and it
is that of "u2". -/
theorem passkey_taken_over :
    ¬ webAuthnMachine.Stable .new Passkey.isStored
      [.generateRegistrationOptions "u1" "ch1" 0,
        .verifyAndStoreCredential "u1" "t1" "cred" "pem1" 1,
        .generateRegistrationOptions "u2" "ch2" 2,
        .verifyAndStoreCredential "u2" "t2" "cred" "pem2" 3] := by
  intro h
  have hstays := h [.generateRegistrationOptions "u1" "ch1" 0,
      .verifyAndStoreCredential "u1" "t1" "cred" "pem1" 1]
    [.generateRegistrationOptions "u2" "ch2" 2,
      .verifyAndStoreCredential "u2" "t2" "cred" "pem2" 3] [] rfl ⟨"cred", "u1", "t1", "pem1"⟩ rfl
  exact absurd hstays (by unfold Passkey.isStored; decide)

end Logix.Auth
