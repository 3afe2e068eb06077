import Logix.Js.Date
import Logix.Js.Map
import Logix.Spec.Clock

/-!
# The revocation list of session tokens

`SessionTokenRevocationList` keeps one record for each revoked token, and drops it when it has
expired. Each call carries the clock that it reads.

* `revokeToken`, `isRevoked`, `purgeExpired`, `revocationMachine`: the code;
* `live`: what the list says of a token at a time, and what each method does to it;
* **`results_without_purge`**: no answer depends on the purges;
* `CoversRevocations`, `Shortens`: a token stays revoked until its time is over; a later revocation
  that ends before an earlier one;
* **`coversRevocations_iff`**: tokens stay revoked in the runs in which no revocation shortens
  another one.
-/

namespace Logix.Auth

open Spec

/-- `IRevokedTokenRecord['reason']`. -/
inductive RevocationReason where
  | LOGOUT | SECURITY_INCIDENT | PASSWORD_RESET | ADMIN_FORCE
  deriving DecidableEq, Repr

/-- `IRevokedTokenRecord`. -/
structure IRevokedTokenRecord where
  jti : String
  userId : String
  tenantId : String
  reason : RevocationReason
  revokedAt : ℤ
  expiresAt : Option JsDate
  deriving DecidableEq, Repr

/-- **`SessionTokenRevocationList`.** -/
structure SessionTokenRevocationList where
  blacklist : JsMap String IRevokedTokenRecord

/-- `record.expiresAt < new Date()`, at the time `now`. -/
def IRevokedTokenRecord.isExpired (record : IRevokedTokenRecord) (now : ℤ) : Bool :=
  dateLt record.expiresAt (some now)

/-- `new Date(now.getTime() + ttlSeconds * 1000)`, where `ttlSeconds` is 86400 if it is left out. -/
def revocationExpiry (ttlSeconds : Option ℚ) (now : ℤ) : Option JsDate :=
  dateOf (now + ttlSeconds.getD 86400 * 1000)

/-- The calls; `now` is the clock that they read. -/
inductive RevocationCall where
  | revokeToken (jti userId tenantId : String) (reason : RevocationReason)
      (ttlSeconds : Option ℚ) (now : ℤ)
  | isRevoked (jti : String) (now : ℤ)
  | purgeExpired (now : ℤ)
  deriving DecidableEq, Repr

/-- Nothing, the `boolean` of `isRevoked`, or the number of `purgeExpired`. -/
inductive RevocationResult where
  | done
  | answer (isRevoked : Bool)
  | purged (count : ℕ)
  deriving DecidableEq, Repr

namespace SessionTokenRevocationList

/-- `new SessionTokenRevocationList()`. -/
def new : SessionTokenRevocationList := ⟨.empty⟩

/-- **`revokeToken(jti, userId, tenantId, reason, ttlSeconds)`.** -/
def revokeToken (l : SessionTokenRevocationList) (jti userId tenantId : String)
    (reason : RevocationReason) (ttlSeconds : Option ℚ) (now : ℤ) : SessionTokenRevocationList :=
  ⟨l.blacklist.set jti ⟨jti, userId, tenantId, reason, now, revocationExpiry ttlSeconds now⟩⟩

/-- **`isRevoked(jti)`.** -/
def isRevoked (l : SessionTokenRevocationList) (jti : String) (now : ℤ) :
    SessionTokenRevocationList × Bool :=
  match l.blacklist.get jti with
  | none => (l, false)
  | some record => if record.isExpired now then (⟨l.blacklist.delete jti⟩, false) else (l, true)

/-- **`purgeExpired()`.** -/
def purgeExpired (l : SessionTokenRevocationList) (now : ℤ) : SessionTokenRevocationList × ℕ :=
  (⟨l.blacklist.entries.foldl
      (fun blacklist entry =>
        if entry.2.isExpired now then blacklist.delete entry.1 else blacklist) l.blacklist⟩,
    l.blacklist.entries.countP fun entry => entry.2.isExpired now)

end SessionTokenRevocationList

/-- The list under its calls. -/
def revocationMachine :
    Machine SessionTokenRevocationList RevocationCall RevocationResult where
  call
    | .revokeToken jti userId tenantId reason ttlSeconds now, l =>
      (l.revokeToken jti userId tenantId reason ttlSeconds now, .done)
    | .isRevoked jti now, l => ((l.isRevoked jti now).1, .answer (l.isRevoked jti now).2)
    | .purgeExpired now, l => ((l.purgeExpired now).1, .purged (l.purgeExpired now).2)

namespace RevocationCall

/-- The clock that a call reads. -/
def now : RevocationCall → ℤ
  | .revokeToken _ _ _ _ _ now | .isRevoked _ now | .purgeExpired now => now

/-- Is this a call for one token, not a purge? -/
def isForToken : RevocationCall → Bool
  | .revokeToken .. | .isRevoked .. => true
  | .purgeExpired _ => false

end RevocationCall

/-! ## What the list says of a token -/

/-- The record of a token, unless it has expired at the time `t`. -/
def live (l : SessionTokenRevocationList) (jti : String) (t : ℤ) : Option IRevokedTokenRecord :=
  (l.blacklist.get jti).filter fun record => ¬ record.isExpired t

section Live

open SessionTokenRevocationList

variable {l l' : SessionTokenRevocationList} {record : IRevokedTokenRecord} {jti : String}
  {now t : ℤ}

theorem isExpired_mono (h : now ≤ t) (he : record.isExpired now = true) :
    record.isExpired t = true := by
  obtain ⟨e, n, hx, hn, hlt⟩ := dateLt_iff.mp he
  obtain rfl := Option.some.inj hn
  exact dateLt_iff.mpr ⟨e, t, hx, rfl, lt_of_lt_of_le hlt h⟩

theorem isRevoked_snd (l : SessionTokenRevocationList) (jti : String) (now : ℤ) :
    (l.isRevoked jti now).2 = (live l jti now).isSome := by
  unfold isRevoked live
  cases l.blacklist.get jti with
  | none => rfl
  | some record => by_cases h : record.isExpired now = true <;> simp [h]

theorem filter_isExpired (h : now ≤ t) (record : Option IRevokedTokenRecord) :
    (record.filter fun record => ¬ record.isExpired now).filter
      (fun record => ¬ record.isExpired t) = record.filter fun record => ¬ record.isExpired t := by
  rw [Option.filter_filter]
  refine congrArg (Option.filter · record) (funext fun record => ?_)
  by_cases ht : record.isExpired t = true
  · simp [ht]
  · simp [ht, mt (isExpired_mono h) ht]

theorem live_isRevoked (h : now ≤ t) (jti' : String) :
    live (l.isRevoked jti' now).1 jti t = live l jti t := by
  unfold isRevoked
  cases hg : l.blacklist.get jti' with
  | none => rfl
  | some record =>
    by_cases he : record.isExpired now = true
    · simp only [he, if_true]
      unfold live
      rw [JsMap.get_delete]
      by_cases hj : jti = jti'
      · subst hj
        simp [hg, Option.filter, isExpired_mono h he]
      · rw [if_neg hj]
    · simp only [he, if_neg, Bool.false_eq_true, not_false_eq_true]

theorem live_purgeExpired (h : now ≤ t) : live (l.purgeExpired now).1 jti t = live l jti t := by
  unfold live purgeExpired
  rw [JsMap.get_foldl_delete fun record : IRevokedTokenRecord => record.isExpired now = true]
  exact filter_isExpired h _

theorem live_revokeToken (l : SessionTokenRevocationList) (jti' userId tenantId : String)
    (reason : RevocationReason) (ttlSeconds : Option ℚ) (now : ℤ) (jti : String) (t : ℤ) :
    live (l.revokeToken jti' userId tenantId reason ttlSeconds now) jti t =
      if jti = jti' then
        (some ⟨jti', userId, tenantId, reason, now, revocationExpiry ttlSeconds now⟩).filter
          fun record : IRevokedTokenRecord => ¬ record.isExpired t
      else live l jti t := by
  unfold live revokeToken
  rw [JsMap.get_set]
  split_ifs <;> rfl

end Live

/-! ## Purges are invisible -/

/-- The two lists cannot be told apart at the time `t`. -/
def SameAt (t : ℤ) (l l' : SessionTokenRevocationList) : Prop := ∀ jti, live l jti t = live l' jti t

/-- **A purge changes no answer**: the calls of a run that are not purges give the same results
without the purges. -/
theorem results_without_purge (l : SessionTokenRevocationList) (calls : List RevocationCall)
    (hclock : (calls.map RevocationCall.now).Pairwise (· ≤ ·)) :
    ((revocationMachine.history l calls).filter fun e => e.input.isForToken).map Event.result =
      (revocationMachine.history l (calls.filter RevocationCall.isForToken)).map Event.result := by
  refine Machine.results_filter_eq (R := SameAt) ?_ ?_ ?_ calls hclock fun _ _ _ => rfl
  · intro l l' c hkept h
    cases c with
    | revokeToken => rfl
    | isRevoked jti now =>
      refine congrArg RevocationResult.answer ?_
      rw [isRevoked_snd, isRevoked_snd]
      exact congrArg Option.isSome (h jti)
    | purgeExpired => cases hkept
  · intro l l' c t hkept hle _ ht jti
    cases c with
    | revokeToken jti' userId tenantId reason ttlSeconds now =>
      change live (l.revokeToken jti' userId tenantId reason ttlSeconds now) jti t =
        live (l'.revokeToken jti' userId tenantId reason ttlSeconds now) jti t
      rw [live_revokeToken, live_revokeToken, ht]
    | isRevoked jti' now =>
      exact (live_isRevoked hle jti').trans ((ht jti).trans (live_isRevoked hle jti').symm)
    | purgeExpired => cases hkept
  · intro l l' c t hkept hle ht jti
    cases c with
    | purgeExpired now => exact (live_purgeExpired hle).trans (ht jti)
    | revokeToken => exact absurd rfl hkept
    | isRevoked => exact absurd rfl hkept

/-- A purge between a revocation and its lookup. -/
theorem results_without_purge_two :
    ((revocationMachine.history .new [.revokeToken "t" "u" "a" .LOGOUT (some 1) 0,
        .purgeExpired 1000, .isRevoked "t" 1000]).filter fun e => e.input.isForToken).map
          Event.result =
      (revocationMachine.history .new [.revokeToken "t" "u" "a" .LOGOUT (some 1) 0,
        .isRevoked "t" 1000]).map Event.result :=
  results_without_purge .new [.revokeToken "t" "u" "a" .LOGOUT (some 1) 0, .purgeExpired 1000,
    .isRevoked "t" 1000] (by decide)

/-! ## Tokens stay revoked -/

/-- The call revokes `jti` at the time `t`. -/
def Revokes (c : RevocationCall) (jti : String) (ttlSeconds : Option ℚ) (t : ℤ) : Prop :=
  ∃ userId tenantId reason, c = .revokeToken jti userId tenantId reason ttlSeconds t

/-- The last millisecond of a revocation at the time `t`. -/
def lastInstant (ttlSeconds : Option ℚ) (t : ℤ) : ℤ := ⌊t + ttlSeconds.getD 86400 * 1000⌋

/-- **A token stays revoked until its time is over**: after every part of the run, at every time
that its clock may show then. -/
def CoversRevocations (l : SessionTokenRevocationList) (calls : List RevocationCall) : Prop :=
  ∀ js, js <+: calls → ∀ c ∈ js, ∀ jti ttlSeconds t, Revokes c jti ttlSeconds t →
    ∀ now : ℤ, (∀ c' ∈ js, c'.now ≤ now) → (now : ℚ) ≤ t + ttlSeconds.getD 86400 * 1000 →
      ((revocationMachine.run l js).isRevoked jti now).2 = true

/-- A revocation at `t'` falls into the time of one at `t`, and ends before it. -/
def Shortens (ttlSeconds : Option ℚ) (t : ℤ) (ttlSeconds' : Option ℚ) (t' : ℤ) : Prop :=
  t' ≤ lastInstant ttlSeconds t ∧
    dateLt (revocationExpiry ttlSeconds' t') (some (lastInstant ttlSeconds t)) = true

/-- **No revocation shortens an earlier one** of the same token. -/
def NoneShortened (calls : List RevocationCall) : Prop :=
  calls.Pairwise fun c c' => ∀ jti ttlSeconds t ttlSeconds' t', Revokes c jti ttlSeconds t →
    Revokes c' jti ttlSeconds' t' → ¬ Shortens ttlSeconds t ttlSeconds' t'

section Revocations

variable {l : SessionTokenRevocationList} {calls : List RevocationCall} {jti : String}
  {ttlSeconds : Option ℚ} {now t : ℤ}

theorem not_dateLt_revocationExpiry (h : (now : ℚ) ≤ t + ttlSeconds.getD 86400 * 1000) :
    dateLt (revocationExpiry ttlSeconds t) (some now) = false := by
  unfold revocationExpiry dateOf
  split_ifs with hbig hneg
  · rfl
  · have : now ≤ ⌈t + ttlSeconds.getD 86400 * 1000⌉ := by exact_mod_cast h.trans (Int.le_ceil _)
    simpa [dateLt] using this
  · simpa [dateLt] using Int.le_floor.mpr h

/-- **What a call leaves of a token** at a time that the clock may show after it: a revocation of
this token counts, and no other call. -/
theorem live_next (l : SessionTokenRevocationList) (c : RevocationCall) (jti : String)
    (h : c.now ≤ now) :
    (∃ ttlSeconds t, Revokes c jti ttlSeconds t ∧
      (live (revocationMachine.next l c) jti now).isSome =
        !dateLt (revocationExpiry ttlSeconds t) (some now)) ∨
    ((∀ ttlSeconds t, ¬ Revokes c jti ttlSeconds t) ∧
      live (revocationMachine.next l c) jti now = live l jti now) := by
  cases c with
  | isRevoked jti' now' =>
    refine Or.inr ⟨?_, live_isRevoked h jti'⟩
    rintro ttlSeconds t ⟨_, _, _, hc⟩
    cases hc
  | purgeExpired now' =>
    refine Or.inr ⟨?_, live_purgeExpired h⟩
    rintro ttlSeconds t ⟨_, _, _, hc⟩
    cases hc
  | revokeToken jti' userId tenantId reason ttlSeconds t =>
    have hlive := live_revokeToken l jti' userId tenantId reason ttlSeconds t jti now
    by_cases hj : jti = jti'
    · subst hj
      refine Or.inl ⟨ttlSeconds, t, ⟨userId, tenantId, reason, rfl⟩, ?_⟩
      rw [if_pos rfl] at hlive
      refine (congrArg Option.isSome hlive).trans ?_
      by_cases he : dateLt (revocationExpiry ttlSeconds t) (some now) = true
      · simp [Option.filter, IRevokedTokenRecord.isExpired, he]
      · simp [Option.filter, IRevokedTokenRecord.isExpired, he]
    · rw [if_neg hj] at hlive
      refine Or.inr ⟨?_, hlive⟩
      rintro ttlSeconds t ⟨_, _, _, hc⟩
      cases hc
      exact hj rfl

theorem live_run_of_noneShortened (hnone : NoneShortened calls) {c : RevocationCall}
    (hc : c ∈ calls) (hrev : Revokes c jti ttlSeconds t) (hnow : ∀ c' ∈ calls, c'.now ≤ now)
    (hle : (now : ℚ) ≤ t + ttlSeconds.getD 86400 * 1000) :
    (live (revocationMachine.run l calls) jti now).isSome = true := by
  induction calls using List.reverseRecOn with
  | nil => exact absurd hc List.not_mem_nil
  | append_singleton calls d ih =>
    obtain ⟨hcalls, -, hacross⟩ := List.pairwise_append.mp hnone
    have hd : d.now ≤ now := hnow d (List.mem_append_right _ List.mem_cons_self)
    rw [Machine.run_concat]
    rcases live_next (revocationMachine.run l calls) d jti hd with
      ⟨ttlSeconds', t', hrev', hlive⟩ | ⟨hother, hlive⟩
    · -- the last call revokes the token
      rw [hlive, Bool.not_eq_true']
      rcases List.mem_append.mp hc with hc | hc
      · have hnot := hacross c hc d List.mem_cons_self jti ttlSeconds t ttlSeconds' t' hrev hrev'
        have hlast : now ≤ lastInstant ttlSeconds t := Int.le_floor.mpr hle
        obtain ⟨_, _, _, rfl⟩ := hrev'
        rw [← Bool.not_eq_true]
        refine fun hlt => hnot ⟨le_trans hd hlast, ?_⟩
        obtain ⟨e, n, he, hn, hen⟩ := dateLt_iff.mp hlt
        obtain rfl := Option.some.inj hn
        exact dateLt_iff.mpr ⟨e, _, he, rfl, lt_of_lt_of_le hen hlast⟩
      · obtain rfl := List.mem_singleton.mp hc
        obtain ⟨_, _, _, rfl⟩ := hrev
        obtain ⟨_, _, _, heq⟩ := hrev'
        cases heq
        exact not_dateLt_revocationExpiry hle
    · rw [hlive]
      refine ih hcalls ?_ fun c' hc' => hnow c' (List.mem_append_left _ hc')
      refine (List.mem_append.mp hc).resolve_right fun hc => ?_
      obtain rfl := List.mem_singleton.mp hc
      exact hother ttlSeconds t hrev

theorem CoversRevocations.initial {js : List RevocationCall} (h : CoversRevocations l calls)
    (hjs : js <+: calls) : CoversRevocations l js :=
  fun ks hks => h ks (hks.trans hjs)

/-- **The last revocation shortens no earlier one**, or the token would count as valid at the last
instant of the earlier one. -/
theorem CoversRevocations.not_shortens {c d : RevocationCall} {ttlSeconds' : Option ℚ} {t' : ℤ}
    (h : CoversRevocations l (calls ++ [d])) (hclock : ∀ c' ∈ calls, c'.now ≤ d.now)
    (hc : c ∈ calls) (hrev : Revokes c jti ttlSeconds t) (hrev' : Revokes d jti ttlSeconds' t') :
    ¬ Shortens ttlSeconds t ttlSeconds' t' := by
  rintro ⟨hle, hlt⟩
  have hdnow : d.now = t' := by
    obtain ⟨_, _, _, rfl⟩ := hrev'
    rfl
  have hall : ∀ c' ∈ calls ++ [d], c'.now ≤ lastInstant ttlSeconds t :=
    List.forall_mem_append.mpr ⟨fun c' hc' => (hclock c' hc').trans (hdnow ▸ hle),
      List.forall_mem_singleton.mpr (hdnow ▸ hle)⟩
  have htrue := h _ List.prefix_rfl c (List.mem_append_left _ hc) jti ttlSeconds t hrev
    (lastInstant ttlSeconds t) hall (Int.floor_le _)
  rw [isRevoked_snd, Machine.run_concat] at htrue
  rcases live_next (revocationMachine.run l calls) d jti
    (hall d (List.mem_append_right _ List.mem_cons_self)) with
    ⟨ttlSeconds'', t'', hrev'', hlive⟩ | ⟨hother, -⟩
  · obtain ⟨_, _, _, heq⟩ := hrev'
    obtain ⟨_, _, _, heq'⟩ := hrev''
    cases heq.symm.trans heq'
    rw [hlive, hlt] at htrue
    exact absurd htrue (by decide)
  · exact hother ttlSeconds' t' hrev'

end Revocations

/-- **Tokens stay revoked** until their time is over in exactly the runs in which no revocation ends
before an earlier one of the same token that still lasts. -/
theorem coversRevocations_iff (l : SessionTokenRevocationList) (calls : List RevocationCall)
    (hclock : (calls.map RevocationCall.now).Pairwise (· ≤ ·)) :
    CoversRevocations l calls ↔ NoneShortened calls := by
  constructor
  · intro hcover
    induction calls using List.reverseRecOn with
    | nil => exact .nil
    | append_singleton calls d ih =>
      rw [List.map_append, List.pairwise_append] at hclock
      refine List.pairwise_append.mpr ⟨ih hclock.1 (hcover.initial (List.prefix_append _ _)),
        List.pairwise_singleton _ _, fun c hc d' hd' => ?_⟩
      obtain rfl := List.mem_singleton.mp hd'
      intro jti ttlSeconds t ttlSeconds' t' hrev hrev'
      exact hcover.not_shortens (fun c' hc' => hclock.2.2 _ (List.mem_map_of_mem hc') d'.now
        List.mem_cons_self) hc hrev hrev'
  · intro hnone js hjs c hc jti ttlSeconds t hrev now hnow hle
    rw [isRevoked_snd]
    exact live_run_of_noneShortened (hnone.sublist hjs.sublist) hc hrev hnow hle

/-- A logout that lasts until the end of the incident before it. -/
theorem coversRevocations_iff_two :
    CoversRevocations .new [.revokeToken "t" "u" "a" .SECURITY_INCIDENT (some 3600) 0,
      .revokeToken "t" "u" "a" .LOGOUT (some 3600) 1000] := by
  refine (coversRevocations_iff .new [.revokeToken "t" "u" "a" .SECURITY_INCIDENT (some 3600) 0,
    .revokeToken "t" "u" "a" .LOGOUT (some 3600) 1000] (by decide)).mpr ?_
  refine .cons (fun c hc => ?_) (List.pairwise_singleton _ _)
  obtain rfl := List.mem_singleton.mp hc
  rintro jti ttlSeconds t ttlSeconds' t' ⟨_, _, _, h⟩ ⟨_, _, _, h'⟩
  cases h
  cases h'
  unfold Shortens
  decide +kernel

/-- **A token comes back**: revoked for an hour, and again for a second, it is accepted two seconds
later. -/
theorem token_comes_back :
    ((revocationMachine.history .new [.revokeToken "t" "u" "a" .SECURITY_INCIDENT (some 3600) 0,
        .revokeToken "t" "u" "a" .LOGOUT (some 1) 1000, .isRevoked "t" 3000]).map Event.result =
      [.done, .done, .answer false]) ∧
    ¬ CoversRevocations .new [.revokeToken "t" "u" "a" .SECURITY_INCIDENT (some 3600) 0,
      .revokeToken "t" "u" "a" .LOGOUT (some 1) 1000, .isRevoked "t" 3000] := by
  refine ⟨by decide +kernel, fun hcover => ?_⟩
  have htrue := hcover _ (List.take_prefix 2 _) _ List.mem_cons_self "t" (some 3600) 0
    ⟨"u", "a", .SECURITY_INCIDENT, rfl⟩ 3000 (by decide) (by norm_num)
  exact absurd htrue (by decide +kernel)

end Logix.Auth
