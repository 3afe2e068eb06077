import Logix.Async.Record
import Logix.Auth.Login
import Logix.Auth.Uniqueness

/-!
# Are failed logins counted?

`login` writes the number of failed attempts from the user that it read before the password was
verified.

* `LoginsOf`: a run of logins of one user; `Current`: a failed attempt is written over the number it
  was read from;
* `failuresSinceSuccess`: the failed attempts that a record has written since the last successful
  login;
* **`failedLogins_counted`**: with current writes only, the stored number is theirs, and the first
  write that is not current leads to a wrong number when nothing is in flight;
* `failures_lost`: of two failed logins that overlap, one is not counted.
-/

namespace Logix.Auth

open Async

variable {lower : String → String} {u : UuidSource} {id : String}

/-- The configurations of the service, with the segments that have run. -/
abbrev LoginConfig (u : UuidSource) : Type :=
  Config (AuthStores u × List (LoginCall × LoginInput)) LoginCall LoginOutcome

/-- Repositories on which no login has run yet. -/
def loginStart (h : AuthStores u) : LoginConfig u := ⟨(h, []), [], []⟩

/-- A run starts logins of user `id`, and continues any of them. -/
def LoginsOf (lower : String → String) (id : String) (c : LoginConfig u) :
    Act LoginCall LoginInput → Prop
  | .call (.login dto _) _ =>
    ∃ user ∈ c.heap.1.findByEmailAndTenant lower dto.email dto.tenantId, user.id = id
  | .call _ _ => False
  | .resume _ _ => True

/-- The stored number of failed attempts of user `id`. -/
def AuthStores.failedLoginAttempts (h : AuthStores u) (id : String) : ℕ :=
  ((h.users.get id).map UserEntity.failedLoginAttempts).getD 0

/-- The update of the number in a segment: `false` after a failed verification. -/
def counterUpdate : LoginCall × LoginInput → Option Bool
  | (.loginVerified _ _, input) => input.verified.toOption
  | _ => none

/-- **The failed attempts since the last success**, in the order of their updates. -/
def failuresSinceSuccess (record : List (LoginCall × LoginInput)) : ℕ :=
  ((record.filterMap counterUpdate).reverse.takeWhile fun valid => !valid).length

/-- A failed attempt, if the segment writes one, was read from the number `n`. -/
def LoginCall.ReadFrom (n : ℕ) (input : LoginInput) : LoginCall → Prop
  | .loginVerified user _ => input.verified.toOption = some false → user.failedLoginAttempts = n
  | _ => True

/-- **A failed attempt is written over the number that it was read from.** -/
def Current (id : String) (c : LoginConfig u) : Act LoginCall LoginInput → Prop
  | .call k input => k.ReadFrom (c.heap.1.failedLoginAttempts id) input
  | .resume n input => ∀ k ∈ c.inFlight[n]?, k.ReadFrom (c.heap.1.failedLoginAttempts id) input

/-- A current step of a run of logins. -/
def CurrentStep (lower : String → String) (id : String) (c : LoginConfig u)
    (a : Act LoginCall LoginInput) : Prop := LoginsOf lower id c a ∧ Current id c a

instance : ∀ (c : LoginConfig u) (a : Act LoginCall LoginInput), Decidable (LoginsOf lower id c a)
  | _, .call (.login _ _) _ => inferInstanceAs (Decidable (∃ user ∈ _, _))
  | _, .call (.loginFound ..) _ | _, .call (.loginVerified ..) _ | _, .call .loginFailed _
  | _, .call (.loginUpdated ..) _ | _, .call (.loginAudited ..) _ => .isFalse fun h => h
  | _, .resume _ _ => .isTrue trivial

instance (n : ℕ) (input : LoginInput) : ∀ k : LoginCall, Decidable (k.ReadFrom n input)
  | .loginVerified _ _ => inferInstanceAs (Decidable (_ → _))
  | .login .. | .loginFound .. | .loginFailed | .loginUpdated .. | .loginAudited .. =>
    .isTrue trivial

instance : ∀ (c : LoginConfig u) (a : Act LoginCall LoginInput), Decidable (Current id c a)
  | _, .call k input => inferInstanceAs (Decidable (k.ReadFrom _ input))
  | _, .resume _ input => inferInstanceAs (Decidable (∀ k ∈ _, LoginCall.ReadFrom _ input k))

instance (c : LoginConfig u) (a : Act LoginCall LoginInput) :
    Decidable (CurrentStep lower id c a) := inferInstanceAs (Decidable (_ ∧ _))

/-! ## The number and the record -/

section Counter

variable {h : AuthStores u} {k : LoginCall} {input : LoginInput}

theorem failedLoginAttempts_set (hid : (h.users.get id).isSome) (n : ℕ) :
    (h.setFailedLoginAttempts id n).failedLoginAttempts id = n := by
  obtain ⟨user, huser⟩ := Option.isSome_iff_exists.mp hid
  rw [AuthStores.failedLoginAttempts, AuthStores.setFailedLoginAttempts,
    JsMap.get_modify_self huser]
  rfl

theorem failuresSinceSuccess_concat (record : List (LoginCall × LoginInput))
    (e : LoginCall × LoginInput) : failuresSinceSuccess (record ++ [e]) =
      match counterUpdate e with
      | none => failuresSinceSuccess record
      | some true => 0
      | some false => failuresSinceSuccess record + 1 := by
  unfold failuresSinceSuccess
  rw [List.filterMap_append, List.reverse_append]
  cases hu : counterUpdate e with
  | none => simp [hu]
  | some valid => cases valid <;> simp [hu]

/-- The user that a suspended request has read is `id`. -/
def LoginCall.IsOn (id : String) : LoginCall → Prop
  | .login _ _ => False
  | .loginFound _ _ user => ∀ user' ∈ user, user'.id = id
  | .loginVerified user _ => user.id = id
  | .loginFailed | .loginUpdated _ _ | .loginAudited _ _ => True

/-- A request on user `id` runs: it is suspended, or looks the user up. -/
def LoginCall.RunsOn (lower : String → String) (id : String) (h : AuthStores u) : LoginCall → Prop
  | .login dto _ => ∃ user ∈ h.findByEmailAndTenant lower dto.email dto.tenantId, user.id = id
  | k => k.IsOn id

/-- The number that a segment writes, with its user. -/
def LoginCall.writes (input : LoginInput) : LoginCall → Option (String × ℕ)
  | .loginVerified user _ => input.verified.toOption.map fun valid =>
    (user.id, if valid then 0 else user.failedLoginAttempts + 1)
  | _ => none

theorem users_run (k : LoginCall) (input : LoginInput) (h : AuthStores u) :
    ((loginProgram lower u).run k input h).heap.users =
      match k.writes input with
      | none => h.users
      | some (id, n) => (h.setFailedLoginAttempts id n).users := by
  cases k with
  | loginVerified user ipAddress =>
    simp only [loginProgram, LoginCall.writes]
    cases input.verified with
    | error text => rfl
    | ok valid => cases valid <;> rfl
  | loginFound dto ipAddress user =>
    cases user with
    | none => rfl
    | some user => cases hactive : user.isActive <;> simp [loginProgram, LoginCall.writes, hactive]
  | login dto ipAddress => rfl
  | loginFailed => rfl
  | loginUpdated user ipAddress => rfl
  | loginAudited user tokens => rfl

theorem failedLoginAttempts_run (lower : String → String) (input : LoginInput)
    (hid : (h.users.get id).isSome) (hk : k.RunsOn lower id h) :
    ((loginProgram lower u).run k input h).heap.failedLoginAttempts id =
      match k.writes input with
      | none => h.failedLoginAttempts id
      | some (_, n) => n := by
  rw [AuthStores.failedLoginAttempts, users_run]
  cases k with
  | loginVerified user ipAddress =>
    obtain rfl : user.id = id := hk
    simp only [LoginCall.writes]
    cases input.verified with
    | error text => rfl
    | ok valid => exact failedLoginAttempts_set hid _
  | _ => rfl

theorem isSome_get_run (hid : (h.users.get id).isSome) (k : LoginCall) (input : LoginInput) :
    (((loginProgram lower u).run k input h).heap.users.get id).isSome := by
  rw [users_run]
  cases k.writes input with
  | none => exact hid
  | some w => exact (JsMap.isSome_get_modify h.users w.1 _ id).trans hid

end Counter

/-! ## Runs -/

/-- **The stored number is that of the record.** -/
def Counted (id : String) (c : LoginConfig u) : Prop :=
  c.heap.1.failedLoginAttempts id = failuresSinceSuccess c.heap.2

/-- The user is there, and the suspended requests have read it. -/
structure OnUser (id : String) (c : LoginConfig u) : Prop where
  stored : (c.heap.1.users.get id).isSome
  own : ∀ k ∈ c.inFlight, k.IsOn id

section Runs

variable {c : LoginConfig u} {a : Act LoginCall LoginInput} {k : LoginCall} {input : LoginInput}
  {rest : List LoginCall}

theorem isOn_waiting {h : AuthStores u} (hk : k.RunsOn lower id h) :
    ∀ k' ∈ ((loginProgram lower u).run k input h).waiting, k'.IsOn id := by
  intro k' hk'
  cases k with
  | login dto ipAddress =>
    obtain rfl := List.mem_singleton.mp hk'
    obtain ⟨user, huser, hid⟩ := hk
    intro user' huser'
    rwa [← Option.some.inj ((Option.mem_def.mp huser).symm.trans huser')]
  | loginFound dto ipAddress user =>
    cases user with
    | none => exact absurd hk' List.not_mem_nil
    | some user =>
      simp only [loginProgram] at hk'
      split_ifs at hk'
      · obtain rfl := List.mem_singleton.mp hk'
        exact hk user rfl
      · exact absurd hk' List.not_mem_nil
  | loginVerified user ipAddress =>
    simp only [loginProgram] at hk'
    cases hv : input.verified with
    | error text => simp [hv] at hk'
    | ok valid =>
      cases valid with
      | true =>
        simp only [hv, List.mem_singleton] at hk'
        subst hk'
        trivial
      | false =>
        simp only [hv, List.mem_singleton] at hk'
        subst hk'
        trivial
  | loginFailed => exact absurd hk' List.not_mem_nil
  | loginUpdated user ipAddress =>
    obtain rfl := List.mem_singleton.mp hk'
    trivial
  | loginAudited user tokens => exact absurd hk' List.not_mem_nil

theorem OnUser.runsOn (h : OnUser id c) (hok : LoginsOf lower id c a)
    (hr : Runs c a k input rest) : k.RunsOn lower id c.heap.1 := by
  rcases hr.call_or_mem with rfl | hmem
  · cases k <;> first | exact hok | exact hok.elim
  · have hk := h.own k hmem
    cases k <;> first | exact hk | exact hk.elim

theorem OnUser.after (h : OnUser id c) (hok : LoginsOf lower id c a)
    (hr : Runs c a k input rest) :
    OnUser id (c.after ((loginProgram lower u).recorded.run k input c.heap) rest) where
  stored := isSome_get_run h.stored k input
  own k' hk' := by
    rcases List.mem_append.mp hk' with hk' | hk'
    · exact h.own k' (hr.mem_rest hk')
    · exact isOn_waiting (h.runsOn hok hr) k' hk'

theorem Current.readFrom (h : Current id c a) (hr : Runs c a k input rest) :
    k.ReadFrom (c.heap.1.failedLoginAttempts id) input := by
  cases hr with
  | call => exact h
  | resume i hn => exact h k hn

/-- **The number and the record move together**, exactly when a failed attempt is written over the
number that it was read from. -/
theorem counted_after_iff (h : OnUser id c) (hc : Counted id c) (hok : LoginsOf lower id c a)
    (hr : Runs c a k input rest) :
    Counted id (c.after ((loginProgram lower u).recorded.run k input c.heap) rest) ↔
      k.ReadFrom (c.heap.1.failedLoginAttempts id) input := by
  have hnumber := failedLoginAttempts_run lower input h.stored (h.runsOn hok hr)
  have hrecord := failuresSinceSuccess_concat c.heap.2 (k, input)
  unfold Counted Config.after Program.recorded
  rw [hnumber, hrecord, ← hc]
  cases k with
  | loginVerified user ipAddress =>
    simp only [LoginCall.writes, counterUpdate, LoginCall.ReadFrom]
    cases input.verified.toOption with
    | none => simp
    | some valid => cases valid <;> simp
  | _ => simp [LoginCall.writes, counterUpdate, LoginCall.ReadFrom]

theorem reach_counted {h : AuthStores u} {user : UserEntity} (huser : h.users.get id = some user)
    (hzero : user.failedLoginAttempts = 0)
    (hr : Reach (loginProgram lower u).recorded (CurrentStep lower id) (loginStart h) c) :
    OnUser id c ∧ Counted id c := by
  refine hr.invariant (I := fun c => OnUser id c ∧ Counted id c) ⟨⟨?_, ?_⟩, ?_⟩ ?_
  · exact Option.isSome_iff_exists.mpr ⟨user, huser⟩
  · exact fun _ hk => absurd hk List.not_mem_nil
  · simp [Counted, loginStart, AuthStores.failedLoginAttempts, huser, hzero, failuresSinceSuccess]
  · rintro c a k input rest ⟨hon, hc⟩ ⟨hok, hcur⟩ hr
    exact ⟨hon.after hok hr, (counted_after_iff hon hc hok hr).mpr (hcur.readFrom hr)⟩

/-! ## A write that is not current -/

/-- A bound on the segments that are left of a request. -/
def LoginCall.rank : LoginCall → ℕ
  | .login _ _ => 3
  | .loginFound _ _ _ | .loginUpdated _ _ => 2
  | .loginVerified _ _ | .loginFailed | .loginAudited _ _ => 1

/-- An input on which a verification does not come to a result. -/
def verifyFails : LoginInput := ⟨.error "", ⟨"", "", 900⟩⟩

theorem rank_waiting_lt (k : LoginCall) (h : AuthStores u) :
    (((loginProgram lower u).run k verifyFails h).waiting.map LoginCall.rank).sum < k.rank := by
  cases k with
  | loginFound dto ipAddress user =>
    cases user with
    | none => exact Nat.zero_lt_two
    | some user => cases hactive : user.isActive <;> simp [loginProgram, LoginCall.rank, hactive]
  | login dto ipAddress => exact Nat.lt_succ_self 2
  | loginVerified user ipAddress => exact Nat.zero_lt_one
  | loginFailed => exact Nat.zero_lt_one
  | loginUpdated user ipAddress => exact Nat.lt_succ_self 1
  | loginAudited user tokens => exact Nat.zero_lt_one

theorem OnUser.not_counted_after (h : OnUser id c) (hc : ¬ Counted id c)
    (hr : Runs c (.resume 0 verifyFails) k verifyFails rest) :
    ¬ Counted id (c.after ((loginProgram lower u).recorded.run k verifyFails c.heap) rest) := by
  have hnumber := failedLoginAttempts_run lower verifyFails h.stored
    (h.runsOn (a := .resume 0 verifyFails) trivial hr)
  have hrecord := failuresSinceSuccess_concat c.heap.2 (k, verifyFails)
  have hwrites : k.writes verifyFails = none ∧ counterUpdate (k, verifyFails) = none := by
    cases k <;> exact ⟨rfl, rfl⟩
  rw [hwrites.1] at hnumber
  rw [hwrites.2] at hrecord
  unfold Counted Config.after Program.recorded
  rw [hnumber, hrecord]
  exact hc

theorem OnUser.exists_not_counted {c' : LoginConfig u} (h : OnUser id c) (hc : Counted id c)
    (hok : LoginsOf lower id c a) (hcur : ¬ Current id c a)
    (hs : (loginProgram lower u).recorded.step c a = some c') :
    ∃ d, Reach (loginProgram lower u).recorded (LoginsOf lower id) c' d ∧ d.inFlight = [] ∧
      ¬ Counted id d := by
  obtain ⟨k, input, rest, hr, rfl⟩ := step_cases hs
  have hread : ¬ k.ReadFrom (c.heap.1.failedLoginAttempts id) input := by
    intro hread
    refine hcur ?_
    cases hr with
    | call => exact hread
    | resume i hn =>
      intro k' hk'
      rw [hn] at hk'
      cases hk'
      exact hread
  have hwrong := (counted_after_iff h hc hok hr).not.mpr hread
  refine (Reach.exists_idle (J := fun c => OnUser id c ∧ ¬ Counted id c) LoginCall.rank
    (fun _ _ _ => trivial) ?_ ⟨h.after hok hr, hwrong⟩).imp fun d hd => ⟨hd.1, hd.2.1, hd.2.2.2⟩
  rintro c k rest ⟨hon, hnot⟩ hfl
  have hr : Runs c (.resume 0 verifyFails) k verifyFails rest := by
    have hrun := Runs.resume (c := c) (n := 0) (k := k) verifyFails (by rw [hfl]; rfl)
    rwa [hfl] at hrun
  have hok : LoginsOf lower id c (.resume 0 verifyFails) := trivial
  refine ⟨verifyFails, ⟨hon.after hok hr, hon.not_counted_after hnot hr⟩, ?_⟩
  exact rank_waiting_lt k c.heap.1

end Runs

/-- **Failed logins are counted** in every run in which a failed attempt is written over the number
that it was read from. The condition cannot be weakened: the first write that is not current leads
to a state without requests in flight in which the number is wrong. -/
theorem failedLogins_counted (lower : String → String) (u : UuidSource) (id : String)
    {h : AuthStores u} {user : UserEntity} (huser : h.users.get id = some user)
    (hzero : user.failedLoginAttempts = 0) :
    (∀ c, Reach (loginProgram lower u).recorded (CurrentStep lower id) (loginStart h) c →
        Counted id c) ∧
      ∀ c a c', Reach (loginProgram lower u).recorded (CurrentStep lower id) (loginStart h) c →
        LoginsOf lower id c a → ¬ Current id c a →
        (loginProgram lower u).recorded.step c a = some c' →
        ∃ d, Reach (loginProgram lower u).recorded (LoginsOf lower id) c' d ∧ d.inFlight = [] ∧
          ¬ Counted id d :=
  ⟨fun _ hr => (reach_counted huser hzero hr).2, fun _ _ _ hr hok hcur hs =>
    (reach_counted huser hzero hr).1.exists_not_counted (reach_counted huser hzero hr).2 hok hcur
      hs⟩

/-! ## Overlapping logins -/

section Overlapping

/-- The repositories with one user, whose id is `id`. -/
def adaStored : AuthStores .unary :=
  (AuthStores.new .unary).createUser ((registration "ada@example.com").newUser "salt:key")

/-- A login of that user. -/
def adaLogin : LoginCall := .login ⟨"ada@example.com", "guess", "id"⟩ none

/-- The verification settles with a result. -/
def verifies (valid : Bool) : LoginInput := ⟨.ok valid, ⟨"access", "refresh", 900⟩⟩

/-- **A failed login is lost**: two wrong passwords are tried, each verified against the user that
was read before the other attempt was written. -/
theorem failures_lost : ¬ ∀ c, Reach (loginProgram asciiLower .unary).recorded
    (LoginsOf asciiLower "id") (loginStart adaStored) c → c.inFlight = [] → Counted "id" c := by
  intro h
  have hrun : ((loginProgram asciiLower .unary).recorded.exec (LoginsOf asciiLower "id")
      (loginStart adaStored)
      ([.call adaLogin (verifies false), .call adaLogin (verifies false)] ++
        List.replicate 6 (.resume 0 (verifies false)))).any
      fun c => decide (c.inFlight = [] ∧ c.heap.1.failedLoginAttempts "id" = 1 ∧
        failuresSinceSuccess c.heap.2 = 2) := by decide
  obtain ⟨c, hc, hidle, hstored, hfailures⟩ := Reach.exists_of_exec hrun
  exact absurd ((hstored.symm.trans (h c hc hidle)).trans hfailures) (by decide)

/-- One after the other: a failure, a success, and two failures. -/
theorem failedLogins_counted_ada : ∃ c, Reach (loginProgram asciiLower .unary).recorded
    (CurrentStep asciiLower "id") (loginStart adaStored) c ∧ c.inFlight = [] ∧
      c.heap.1.failedLoginAttempts "id" = 2 ∧ Counted "id" c := by
  have hrun : ((loginProgram asciiLower .unary).recorded.exec (CurrentStep asciiLower "id")
      (loginStart adaStored)
      ([false, true, false, false].flatMap fun valid => .call adaLogin (verifies valid) ::
        List.replicate (if valid then 4 else 3) (.resume 0 (verifies valid)))).any
      fun c => decide (c.inFlight = [] ∧ c.heap.1.failedLoginAttempts "id" = 2) := by decide
  obtain ⟨c, hc, hidle, hstored⟩ := Reach.exists_of_exec hrun
  exact ⟨c, hc, hidle, hstored, (failedLogins_counted asciiLower .unary "id" rfl rfl).1 c hc⟩

end Overlapping

end Logix.Auth
