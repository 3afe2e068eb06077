import Logix.Js.Capitals
import Logix.Js.Date
import Logix.Js.Map
import Logix.Spec.Machine
import Mathlib.Data.List.Count
import Mathlib.Data.List.OfFn

/-!
# Is a backup code accepted once?

`MfaAuthenticatorEngine` gives eight backup codes to a user, and accepts a token that is one of
them, or that looks like a one-time password. The numbers that `Math.random().toString(36)` gives
are arguments of the calls, and so is the clock.

* `enrollUser`, `verifyToken`, `getRemainingBackupCodes`, `mfaMachine`: the code;
* `acceptances`, `presentations`: how often a code is accepted, and how often it is presented;
* `OneTime`: every backup code is accepted at most once;
* `verifyToken_spec`: what a presented token does;
* **`oneTime_iff`**: the codes are one-time exactly when no code of six digits is presented twice;
* `digits_accepted_twice`: a backup code that also passes as a one-time password.
-/

namespace Logix.Auth

open Spec

/-- `algorithm` of an enrolment. -/
inductive MfaAlgorithm where
  | SHA1 | SHA256
  deriving DecidableEq, Repr

/-- `IMfaEnrollment`. -/
structure IMfaEnrollment where
  userId : String
  secret : JsString
  backupCodes : List JsString
  isVerified : Bool
  algorithm : MfaAlgorithm
  digits : ℕ
  periodSeconds : ℕ
  enrolledAt : JsDate
  deriving DecidableEq, Repr

/-- **`MfaAuthenticatorEngine`.** -/
structure MfaAuthenticatorEngine where
  enrollments : JsMap String IMfaEnrollment

/-- What `enrollUser` returns. -/
structure MfaKeys where
  secret : JsString
  backupCodes : List JsString
  qrUri : JsString
  deriving DecidableEq, Repr

/-- The eight backup codes that are drawn. -/
def drawnCodes (randoms : Fin 8 → JsString) : List JsString :=
  List.ofFn fun i => toUpperText (substring (randoms i) 2 8)

/-- `/^\d{6}$/.test(s)`. -/
def isSixDigits (s : JsString) : Bool := s.length == 6 && s.all isDigit

namespace MfaAuthenticatorEngine

/-- `new MfaAuthenticatorEngine()`. -/
def new : MfaAuthenticatorEngine := ⟨.empty⟩

/-- **`enrollUser(userId)`**; `random` is the number in the secret. -/
def enrollUser (e : MfaAuthenticatorEngine) (userId : String) (random : JsString)
    (randoms : Fin 8 → JsString) (now : JsDate) : MfaAuthenticatorEngine × MfaKeys :=
  let secret := js "JBSWY3DPEHPK3PXP" ++ toUpperText (random.drop 2)
  let backupCodes := drawnCodes randoms
  let enrollment : IMfaEnrollment :=
    { userId := userId
      secret := secret
      backupCodes := backupCodes
      isVerified := false
      algorithm := .SHA1
      digits := 6
      periodSeconds := 30
      enrolledAt := now }
  let qrUri := js "otpauth://totp/LogixEnterprise:" ++ encodeURIComponent userId ++
    js "?secret=" ++ secret ++ js "&issuer=LogixEnterprise"
  (⟨e.enrollments.set userId enrollment⟩, ⟨secret, backupCodes, qrUri⟩)

/-- **`verifyToken(userId, token)`**: a backup code is spliced out of the list. -/
def verifyToken (e : MfaAuthenticatorEngine) (userId : String) (token : JsString) :
    MfaAuthenticatorEngine × Bool :=
  match e.enrollments.get userId with
  | none => (e, false)
  | some enrollment =>
    let backupIdx := enrollment.backupCodes.idxOf (toUpperText (trim token))
    if backupIdx < enrollment.backupCodes.length then
      (⟨e.enrollments.modify userId fun enrollment =>
        { enrollment with
          backupCodes := enrollment.backupCodes.eraseIdx backupIdx
          isVerified := true }⟩, true)
    else if isSixDigits (trim token) then
      (⟨e.enrollments.modify userId fun enrollment => { enrollment with isVerified := true }⟩, true)
    else (e, false)

/-- `getRemainingBackupCodes(userId)`. -/
def getRemainingBackupCodes (e : MfaAuthenticatorEngine) (userId : String) : ℕ :=
  ((e.enrollments.get userId).map fun enrollment => enrollment.backupCodes.length).getD 0

end MfaAuthenticatorEngine

/-- The calls. -/
inductive MfaCall where
  | enrollUser (userId : String) (random : JsString) (randoms : Fin 8 → JsString) (now : JsDate)
  | verifyToken (userId : String) (token : JsString)
  | getRemainingBackupCodes (userId : String)

/-- What a call returns. -/
inductive MfaResult where
  | enrolled (keys : MfaKeys)
  | verified (isValid : Bool)
  | remaining (count : ℕ)
  deriving DecidableEq, Repr

/-- The engine under its calls. -/
def mfaMachine : Machine MfaAuthenticatorEngine MfaCall MfaResult where
  call
    | .enrollUser userId random randoms now, e =>
      let (e', keys) := e.enrollUser userId random randoms now
      (e', .enrolled keys)
    | .verifyToken userId token, e =>
      let (e', isValid) := e.verifyToken userId token
      (e', .verified isValid)
    | .getRemainingBackupCodes userId, e => (e, .remaining (e.getRemainingBackupCodes userId))

/-! ## One-time codes -/

/-- The code that a call of `userId` presents. -/
def MfaCall.presented (userId : String) : MfaCall → Option JsString
  | .verifyToken id token => if id = userId then some (toUpperText (trim token)) else none
  | .enrollUser _ _ _ _ | .getRemainingBackupCodes _ => none

/-- The call enrols `userId`. -/
def MfaCall.Enrolls (userId : String) : MfaCall → Prop
  | .enrollUser id _ _ _ => id = userId
  | .verifyToken _ _ | .getRemainingBackupCodes _ => False

/-- How often `userId` presents a code. -/
def presentations (userId : String) (code : JsString) (calls : List MfaCall) : ℕ :=
  calls.countP fun c => c.presented userId = some code

/-- How often a code of `userId` is accepted. -/
def acceptances (userId : String) (code : JsString)
    (es : List (Event MfaAuthenticatorEngine MfaCall MfaResult)) : ℕ :=
  es.countP fun e => e.input.presented userId = some code ∧ e.result = .verified true

/-- **Every one of the codes is accepted at most once.** -/
def OneTime (e : MfaAuthenticatorEngine) (userId : String) (codes : List JsString)
    (calls : List MfaCall) : Prop :=
  ∀ code ∈ codes, acceptances userId code (mfaMachine.history e calls) ≤ 1

/-! ## One call -/

theorem isSixDigits_toUpperText (s : JsString) :
    isSixDigits (toUpperText s) = isSixDigits s := by
  have hiff := allDigits_toUpperText (s := s)
  by_cases h : ∀ c ∈ s, isDigit c = true
  · rw [toUpperText_of_digits h]
  · have hs : s.all isDigit = false := by
      rw [← Bool.not_eq_true, List.all_eq_true]
      exact h
    have hupper : (toUpperText s).all isDigit = false := by
      rw [← Bool.not_eq_true, List.all_eq_true, hiff]
      exact h
    rw [isSixDigits, isSixDigits, hs, hupper, Bool.and_false, Bool.and_false]

section Calls

open MfaAuthenticatorEngine

variable {e : MfaAuthenticatorEngine} {userId : String} {codes : List JsString} {c : MfaCall}
  {code : JsString}

/-- The backup codes that are left. -/
def codesOf (e : MfaAuthenticatorEngine) (userId : String) : Option (List JsString) :=
  (e.enrollments.get userId).map IMfaEnrollment.backupCodes

/-- **What a presented token does**: it is accepted as a code that is left or as six digits, and it
is no code afterwards. -/
theorem verifyToken_spec (h : codesOf e userId = some codes) (token : JsString) :
    codesOf (e.verifyToken userId token).1 userId = some (codes.erase (toUpperText (trim token))) ∧
    (e.verifyToken userId token).2 =
      (decide (toUpperText (trim token) ∈ codes) || isSixDigits (toUpperText (trim token))) := by
  rw [isSixDigits_toUpperText]
  obtain ⟨enrollment, hget, rfl⟩ := Option.map_eq_some_iff.mp h
  unfold verifyToken
  rw [hget]
  dsimp only
  by_cases hmem : toUpperText (trim token) ∈ enrollment.backupCodes
  · rw [if_pos (List.idxOf_lt_length_iff.mpr hmem)]
    refine ⟨?_, by simp [hmem]⟩
    rw [List.erase_eq_eraseIdx_of_idxOf rfl]
    set backupIdx := enrollment.backupCodes.idxOf (toUpperText (trim token))
    refine (JsMap.map_get_modify (φ := fun cs => cs.eraseIdx backupIdx) (fun _ => by rfl)
      _ _ _).trans ?_
    rw [if_pos rfl, hget]
    rfl
  · rw [if_neg (mt List.idxOf_lt_length_iff.mp hmem), List.erase_of_not_mem hmem]
    split_ifs with hsix
    · refine ⟨?_, by simp [hsix]⟩
      exact (JsMap.map_get_modify_of_eq (fun _ => by rfl) _ _ _).trans h
    · exact ⟨h, by simp [hmem, hsix]⟩

theorem codesOf_verifyToken_ne {userId' : String} (h : userId ≠ userId') (token : JsString) :
    codesOf (e.verifyToken userId' token).1 userId = codesOf e userId := by
  unfold verifyToken
  cases e.enrollments.get userId' with
  | none => rfl
  | some enrollment =>
    dsimp only
    split_ifs
    · exact congrArg (Option.map _) (JsMap.get_modify_ne h _)
    · exact congrArg (Option.map _) (JsMap.get_modify_ne h _)
    · rfl

/-- **What a call does to the codes**: it takes the presented one away. -/
theorem codesOf_next (hc : ¬ c.Enrolls userId) (h : codesOf e userId = some codes) :
    (c.presented userId = none ∧ codesOf (mfaMachine.next e c) userId = some codes) ∨
    ∃ code, c.presented userId = some code ∧
      codesOf (mfaMachine.next e c) userId = some (codes.erase code) ∧
      (mfaMachine.call c e).2 = .verified (decide (code ∈ codes) || isSixDigits code) := by
  cases c with
  | enrollUser id random randoms now =>
    refine Or.inl ⟨rfl, ?_⟩
    have hne : userId ≠ id := fun heq => hc heq.symm
    exact (congrArg (Option.map _) (JsMap.get_set_ne hne _)).trans h
  | verifyToken id token =>
    by_cases hid : id = userId
    · subst hid
      obtain ⟨hcodes, hresult⟩ := verifyToken_spec h token
      exact Or.inr ⟨_, if_pos rfl, hcodes, congrArg MfaResult.verified hresult⟩
    · exact Or.inl ⟨if_neg hid, (codesOf_verifyToken_ne (Ne.symm hid) token).trans h⟩
  | getRemainingBackupCodes id => exact Or.inl ⟨rfl, h⟩

end Calls

/-! ## Runs -/

section Runs

variable {e : MfaAuthenticatorEngine} {userId : String} {codes : List JsString}
  {calls : List MfaCall} {code : JsString}

theorem acceptances_concat (es : List (Event MfaAuthenticatorEngine MfaCall MfaResult))
    (c : MfaCall) :
    acceptances userId code (es ++ [mfaMachine.event e c]) = acceptances userId code es +
      if c.presented userId = some code ∧ (mfaMachine.call c e).2 = .verified true then 1
      else 0 := by
  simp [acceptances, List.countP_append, List.countP_singleton, Machine.event]

theorem presentations_concat (c : MfaCall) :
    presentations userId code (calls ++ [c]) = presentations userId code calls +
      if c.presented userId = some code then 1 else 0 := by
  simp [presentations, List.countP_append, List.countP_singleton]

theorem not_enrolls_of_mem_history (hcalls : ∀ c ∈ calls, ¬ c.Enrolls userId) :
    ∀ ev ∈ mfaMachine.history e calls, ¬ ev.input.Enrolls userId :=
  fun _ hev => hcalls _ (Machine.input_mem_of_mem_history hev)

theorem acceptances_of_isSixDigits (h : codesOf e userId = some codes)
    (hcalls : ∀ c ∈ calls, ¬ c.Enrolls userId) (hsix : isSixDigits code = true) :
    acceptances userId code (mfaMachine.history e calls) = presentations userId code calls := by
  have hrun := Machine.history_invariant (M := mfaMachine) (s := e)
    (J := fun es s => (∃ cs, codesOf s userId = some cs) ∧
      acceptances userId code es = presentations userId code (es.map Event.input))
    ⟨⟨codes, h⟩, rfl⟩ ?_ calls (not_enrolls_of_mem_history hcalls)
  · rw [hrun.2, Machine.map_input_history]
  · rintro es s c ⟨⟨cs, hcs⟩, hcount⟩ hc
    replace hc : ¬ c.Enrolls userId := hc
    have hinput : (mfaMachine.event s c).input = c := rfl
    rw [acceptances_concat, List.map_append, List.map_singleton, hinput, presentations_concat,
      hcount]
    rcases codesOf_next hc hcs with ⟨hnone, hnext⟩ | ⟨p, hp, hnext, hresult⟩
    · exact ⟨⟨cs, hnext⟩, by simp [hnone]⟩
    · refine ⟨⟨_, hnext⟩, congrArg (_ + ·) (if_congr (and_iff_left_of_imp fun hcode => ?_) rfl rfl)⟩
      obtain rfl := Option.some.inj (hp.symm.trans hcode)
      rw [hresult, hsix, Bool.or_true]

theorem acceptances_le_count (h : codesOf e userId = some codes)
    (hcalls : ∀ c ∈ calls, ¬ c.Enrolls userId) (hsix : isSixDigits code = false) :
    acceptances userId code (mfaMachine.history e calls) ≤ codes.count code := by
  have hrun := Machine.history_invariant (M := mfaMachine) (s := e)
    (J := fun es s => ∃ cs, codesOf s userId = some cs ∧
      acceptances userId code es + cs.count code ≤ codes.count code)
    ⟨codes, h, by simp [acceptances]⟩ ?_ calls (not_enrolls_of_mem_history hcalls)
  · obtain ⟨cs, -, hle⟩ := hrun
    exact (Nat.le_add_right _ _).trans hle
  · rintro es s c ⟨cs, hcs, hle⟩ hc
    replace hc : ¬ c.Enrolls userId := hc
    rw [acceptances_concat]
    rcases codesOf_next hc hcs with ⟨hnone, hnext⟩ | ⟨p, hp, hnext, hresult⟩
    · refine ⟨cs, hnext, ?_⟩
      rw [hnone]
      simpa using hle
    · refine ⟨_, hnext, ?_⟩
      rw [hp, hresult]
      by_cases hpc : p = code
      · -- accepted only if it is still there, and then taken away
        subst hpc
        by_cases hmem : p ∈ cs
        · have hpos := List.count_pos_iff.mpr hmem
          simp only [hmem, decide_true, Bool.true_or, and_self, if_true, List.count_erase_self]
          omega
        · rw [List.erase_of_not_mem hmem]
          simpa [hmem, hsix] using hle
      · rw [List.count_erase_of_ne (Ne.symm hpc)]
        simpa [hpc] using hle

end Runs

/-- **The backup codes of an enrolment are one-time exactly when no code of six digits is presented
twice.** -/
theorem oneTime_iff (e : MfaAuthenticatorEngine) (userId : String) (random : JsString)
    (randoms : Fin 8 → JsString) (now : JsDate) (calls : List MfaCall)
    (hcodes : (drawnCodes randoms).Nodup) (hcalls : ∀ c ∈ calls, ¬ c.Enrolls userId) :
    OneTime (e.enrollUser userId random randoms now).1 userId (drawnCodes randoms) calls ↔
      ∀ code ∈ drawnCodes randoms, isSixDigits code = true →
        presentations userId code calls ≤ 1 := by
  have henrolled : codesOf (e.enrollUser userId random randoms now).1 userId =
      some (drawnCodes randoms) := congrArg (Option.map _) (JsMap.get_set_self _ _ _)
  refine forall₂_congr fun code hcode => ?_
  cases hsix : isSixDigits code with
  | true =>
    rw [acceptances_of_isSixDigits henrolled hcalls hsix]
    exact ⟨fun h _ => h, fun h => h rfl⟩
  | false =>
    refine ⟨fun _ h => absurd h Bool.false_ne_true, fun _ => ?_⟩
    exact (acceptances_le_count henrolled hcalls hsix).trans
      (List.nodup_iff_count_le_one.mp hcodes code)

/-- Eight draws that differ in their last digit. -/
def drawsFrom (start : String) (i : Fin 8) : JsString := js start ++ [digitUnit i]

/-- The codes of two calls with letters, in another case and with spaces, are one-time. -/
theorem oneTime_letters :
    OneTime (MfaAuthenticatorEngine.new.enrollUser "u1" (js "0.k3f9") (drawsFrom "0.ab12z") 0).1
      "u1" (drawnCodes (drawsFrom "0.ab12z"))
      [.verifyToken "u1" (js "AB12Z0"), .verifyToken "u1" (js " ab12z0")] :=
  (oneTime_iff .new "u1" (js "0.k3f9") (drawsFrom "0.ab12z") 0
    [.verifyToken "u1" (js "AB12Z0"), .verifyToken "u1" (js " ab12z0")] (by decide)
    (by simp [MfaCall.Enrolls])).mpr (by decide)

/-- The codes of an enrolment are "123450" to "123457"; the first one is accepted twice. -/
theorem digits_accepted_twice :
    (drawnCodes (drawsFrom "0.12345")).Nodup ∧
    (∀ code ∈ drawnCodes (drawsFrom "0.12345"), code.length = 6) ∧
    js "123450" ∈ drawnCodes (drawsFrom "0.12345") ∧
    acceptances "u1" (js "123450") (mfaMachine.history
      (MfaAuthenticatorEngine.new.enrollUser "u1" (js "0.k3f9") (drawsFrom "0.12345") 0).1
      [.verifyToken "u1" (js "123450"), .verifyToken "u1" (js "123450")]) = 2 ∧
    ¬ OneTime (MfaAuthenticatorEngine.new.enrollUser "u1" (js "0.k3f9") (drawsFrom "0.12345") 0).1
      "u1" (drawnCodes (drawsFrom "0.12345"))
      [.verifyToken "u1" (js "123450"), .verifyToken "u1" (js "123450")] := by
  have htwice : acceptances "u1" (js "123450") (mfaMachine.history
      (MfaAuthenticatorEngine.new.enrollUser "u1" (js "0.k3f9") (drawsFrom "0.12345") 0).1
      [.verifyToken "u1" (js "123450"), .verifyToken "u1" (js "123450")]) = 2 := by decide
  have hmem : js "123450" ∈ drawnCodes (drawsFrom "0.12345") := by decide
  refine ⟨by decide, by decide, hmem, htwice, fun h => ?_⟩
  have hone := h (js "123450") hmem
  rw [htwice] at hone
  exact absurd hone (by decide)

end Logix.Auth
