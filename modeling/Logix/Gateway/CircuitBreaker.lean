import Mathlib.Data.Int.Notation
import Mathlib.Data.Nat.Notation
import Logix.Spec.Clock

/-!
# The circuit breaker of the gateway

`CircuitBreaker` stops the calls to a service after a number of failures, and lets some through on
trial once the recovery timeout is over. A time is its number of milliseconds.

* `canPass`, `recordSuccess`, `recordFailure`, `breakerMachine`: the code;
* `Trial`: the calls since the breaker became half open;
* `Guarded`: the invariant, on the calls so far and the breaker;
* **`circuitBreaker_safe`**: the failure count while closed, the refusals while open, and the
  successes before closing.
-/

namespace Logix.Gateway

open Spec

/-- `CircuitState`. -/
inductive CircuitState where
  | CLOSED | OPEN | HALF_OPEN
  deriving DecidableEq, Repr

/-- **`CircuitBreaker`.** -/
structure CircuitBreaker where
  failureThreshold : ℕ
  recoveryTimeoutMs : ℤ
  halfOpenSuccessThreshold : ℕ
  state : CircuitState
  failureCount : ℕ
  lastFailureTime : ℤ
  successCount : ℕ
  deriving DecidableEq, Repr

namespace CircuitBreaker

/-- `new CircuitBreaker(_, failureThreshold, recoveryTimeoutMs, halfOpenSuccessThreshold)`. -/
def new (failureThreshold : ℕ) (recoveryTimeoutMs : ℤ) (halfOpenSuccessThreshold : ℕ) :
    CircuitBreaker where
  failureThreshold := failureThreshold
  recoveryTimeoutMs := recoveryTimeoutMs
  halfOpenSuccessThreshold := halfOpenSuccessThreshold
  state := .CLOSED
  failureCount := 0
  lastFailureTime := 0
  successCount := 0

/-- **`canPass()`** at the time `now`. -/
def canPass (b : CircuitBreaker) (now : ℤ) : CircuitBreaker × Bool :=
  if b.state = .OPEN then
    if b.recoveryTimeoutMs < now - b.lastFailureTime then
      ({ b with state := .HALF_OPEN, successCount := 0 }, true)
    else (b, false)
  else (b, true)

/-- **`recordSuccess()`.** -/
def recordSuccess (b : CircuitBreaker) : CircuitBreaker :=
  if b.state = .HALF_OPEN then
    let b := { b with successCount := b.successCount + 1 }
    if b.halfOpenSuccessThreshold ≤ b.successCount then
      { b with state := .CLOSED, failureCount := 0 }
    else b
  else { b with failureCount := 0 }

/-- **`recordFailure()`** at the time `now`. -/
def recordFailure (b : CircuitBreaker) (now : ℤ) : CircuitBreaker :=
  let b := { b with failureCount := b.failureCount + 1, lastFailureTime := now }
  if b.state = .HALF_OPEN ∨ b.failureThreshold ≤ b.failureCount then { b with state := .OPEN } else b

end CircuitBreaker

/-- The calls; `now` is the clock that the call reads. -/
inductive BreakerCall where
  | canPass (now : ℤ)
  | recordSuccess
  | recordFailure (now : ℤ)
  deriving DecidableEq, Repr

/-- The clock that a call reads. -/
def BreakerCall.clock : BreakerCall → Option ℤ
  | .canPass now | .recordFailure now => some now
  | .recordSuccess => none

/-- The breaker under its calls; only `canPass` has a result. -/
def breakerMachine : Machine CircuitBreaker BreakerCall (Option Bool) where
  call
    | .canPass now, b =>
      let (b', pass) := b.canPass now
      (b', some pass)
    | .recordSuccess, b => (b.recordSuccess, none)
    | .recordFailure now, b => (b.recordFailure now, none)

abbrev BreakerEvent := Event CircuitBreaker BreakerCall (Option Bool)

/-! ## What a call does -/

section Calls

variable {b : CircuitBreaker} {now t u : ℤ}

theorem canPass_cases (b : CircuitBreaker) (now : ℤ) :
    (b.state = .OPEN ∧ b.recoveryTimeoutMs < now - b.lastFailureTime ∧
      b.canPass now = ({ b with state := .HALF_OPEN, successCount := 0 }, true)) ∨
    (b.state = .OPEN ∧ now - b.lastFailureTime ≤ b.recoveryTimeoutMs ∧
      b.canPass now = (b, false)) ∨
    (b.state ≠ .OPEN ∧ b.canPass now = (b, true)) := by
  unfold CircuitBreaker.canPass
  by_cases ho : b.state = .OPEN
  · by_cases hlt : b.recoveryTimeoutMs < now - b.lastFailureTime
    · exact Or.inl ⟨ho, hlt, by rw [if_pos ho, if_pos hlt]⟩
    · exact Or.inr (Or.inl ⟨ho, not_lt.mp hlt, by rw [if_pos ho, if_neg hlt]⟩)
  · exact Or.inr (Or.inr ⟨ho, by rw [if_neg ho]⟩)

/-- **`recordSuccess`** closes a half open breaker, counts, or clears the failures. -/
theorem recordSuccess_cases (b : CircuitBreaker) :
    (b.state = .HALF_OPEN ∧ b.halfOpenSuccessThreshold ≤ b.successCount + 1 ∧ b.recordSuccess =
      { b with state := .CLOSED, failureCount := 0, successCount := b.successCount + 1 }) ∨
    (b.state = .HALF_OPEN ∧ b.successCount + 1 < b.halfOpenSuccessThreshold ∧
      b.recordSuccess = { b with successCount := b.successCount + 1 }) ∨
    (b.state ≠ .HALF_OPEN ∧ b.recordSuccess = { b with failureCount := 0 }) := by
  unfold CircuitBreaker.recordSuccess
  by_cases hh : b.state = .HALF_OPEN
  · by_cases hle : b.halfOpenSuccessThreshold ≤ b.successCount + 1
    · exact Or.inl ⟨hh, hle, by simp only [if_pos hh, if_pos hle]⟩
    · exact Or.inr (Or.inl ⟨hh, not_le.mp hle, by simp only [if_pos hh, if_neg hle]⟩)
  · exact Or.inr (Or.inr ⟨hh, by rw [if_neg hh]⟩)

/-- **`recordFailure`** opens the breaker, or leaves it below the threshold. -/
theorem recordFailure_cases (b : CircuitBreaker) (now : ℤ) :
    (b.recordFailure now = { b with
      state := .OPEN, failureCount := b.failureCount + 1, lastFailureTime := now }) ∨
    (b.state ≠ .HALF_OPEN ∧ b.failureCount + 1 < b.failureThreshold ∧ b.recordFailure now =
      { b with failureCount := b.failureCount + 1, lastFailureTime := now }) := by
  unfold CircuitBreaker.recordFailure
  by_cases hopen : b.state = .HALF_OPEN ∨ b.failureThreshold ≤ b.failureCount + 1
  · exact Or.inl (by simp only [if_pos hopen])
  · obtain ⟨hh, hlt⟩ := not_or.mp hopen
    exact Or.inr ⟨hh, not_le.mp hlt, by simp only [if_neg hopen]⟩

theorem state_recordFailure_of_open (ho : b.state = .OPEN) : (b.recordFailure now).state = .OPEN := by
  rcases recordFailure_cases b now with h | ⟨-, -, h⟩
  · rw [h]
  · rw [h]
    exact ho

theorem lastFailureTime_recordFailure (b : CircuitBreaker) (now : ℤ) :
    (b.recordFailure now).lastFailureTime = now := by
  rcases recordFailure_cases b now with h | ⟨-, -, h⟩ <;> rw [h]

theorem config_next (b : CircuitBreaker) (c : BreakerCall) :
    (breakerMachine.next b c).failureThreshold = b.failureThreshold ∧
    (breakerMachine.next b c).recoveryTimeoutMs = b.recoveryTimeoutMs ∧
    (breakerMachine.next b c).halfOpenSuccessThreshold = b.halfOpenSuccessThreshold := by
  unfold Machine.next breakerMachine
  cases c with
  | canPass now => rcases canPass_cases b now with ⟨-, -, h⟩ | ⟨-, -, h⟩ | ⟨-, h⟩ <;> simp [h]
  | recordSuccess => rcases recordSuccess_cases b with ⟨-, -, h⟩ | ⟨-, -, h⟩ | ⟨-, h⟩ <;> simp [h]
  | recordFailure now => rcases recordFailure_cases b now with h | ⟨-, -, h⟩ <;> simp [h]

end Calls

/-! ## While the breaker is open -/

/-- The breaker is open, and its last failure was not before `t`. -/
structure OpenFrom (t recoveryTimeoutMs : ℤ) (b : CircuitBreaker) : Prop where
  recovery_eq : b.recoveryTimeoutMs = recoveryTimeoutMs
  isOpen : b.state = .OPEN
  le_last : t ≤ b.lastFailureTime

section Open

variable {b : CircuitBreaker} {t u r : ℤ}

/-- **An open breaker refuses** until the timeout is over. -/
theorem OpenFrom.canPass (h : OpenFrom t r b) (hu : u ≤ t + r) : b.canPass u = (b, false) := by
  have hr := h.recovery_eq
  have hlast := h.le_last
  rcases canPass_cases b u with ⟨-, hlt, -⟩ | ⟨-, -, hb⟩ | ⟨ho, -⟩
  · omega
  · exact hb
  · exact absurd h.isOpen ho

theorem OpenFrom.next (h : OpenFrom t r b) (c : BreakerCall)
    (hclock : ∀ now ∈ c.clock, t ≤ now ∧ now ≤ t + r) : OpenFrom t r (breakerMachine.next b c) where
  recovery_eq := (config_next b c).2.1.trans h.recovery_eq
  isOpen := by
    cases c with
    | canPass now =>
      change (b.canPass now).1.state = _
      rw [h.canPass (hclock now rfl).2]
      exact h.isOpen
    | recordSuccess =>
      change b.recordSuccess.state = _
      rcases recordSuccess_cases b with ⟨hh, -⟩ | ⟨hh, -⟩ | ⟨-, hb⟩
      · cases hh.symm.trans h.isOpen
      · cases hh.symm.trans h.isOpen
      · rw [hb]
        exact h.isOpen
    | recordFailure now => exact state_recordFailure_of_open h.isOpen
  le_last := by
    cases c with
    | canPass now =>
      change t ≤ (b.canPass now).1.lastFailureTime
      rw [h.canPass (hclock now rfl).2]
      exact h.le_last
    | recordSuccess =>
      change t ≤ b.recordSuccess.lastFailureTime
      rcases recordSuccess_cases b with ⟨-, -, hb⟩ | ⟨-, -, hb⟩ | ⟨-, hb⟩ <;> rw [hb] <;>
        exact h.le_last
    | recordFailure now =>
      exact (hclock now rfl).1.trans_eq (lastFailureTime_recordFailure b now).symm

end Open

/-! ## The invariant -/

/-- The call turned the breaker half open. -/
def EntersHalfOpen (e : BreakerEvent) : Prop :=
  e.before.state ≠ .HALF_OPEN ∧ e.after.state = .HALF_OPEN

/-- **A trial**: `mid` is the calls since the breaker became half open, which it has been since. -/
def Trial (es mid : List BreakerEvent) : Prop :=
  ∃ pre a, es = pre ++ a :: mid ∧ EntersHalfOpen a ∧ ∀ e ∈ mid, e.after.state = .HALF_OPEN

/-- The call was a `recordSuccess`. -/
def IsSuccess (e : BreakerEvent) : Prop := e.input = .recordSuccess

instance : DecidablePred IsSuccess := fun _ => inferInstanceAs (Decidable (_ = _))

/-- The call was a `recordFailure`. -/
def IsFailure (e : BreakerEvent) : Prop := ∃ now, e.input = .recordFailure now

/-- **The invariant**, on the calls so far and the breaker. -/
structure Guarded (es : List BreakerEvent) (b : CircuitBreaker) : Prop where
  positive : 1 ≤ b.failureThreshold ∧ 1 ≤ b.halfOpenSuccessThreshold
  closed : b.state = .CLOSED → b.failureCount < b.failureThreshold
  halfOpen : b.state = .HALF_OPEN → b.successCount < b.halfOpenSuccessThreshold ∧
    ∃ mid, Trial es mid ∧ mid.countP IsSuccess = b.successCount ∧ ∀ e ∈ mid, ¬ IsFailure e

section Invariant

variable {es mid : List BreakerEvent} {b : CircuitBreaker} {e : BreakerEvent} {now : ℤ}

theorem Trial.concat (h : Trial es mid) (he : e.after.state = .HALF_OPEN) :
    Trial (es ++ [e]) (mid ++ [e]) := by
  obtain ⟨pre, a, rfl, ha, hmid⟩ := h
  refine ⟨pre, a, by simp, ha, fun x hx => ?_⟩
  rcases List.mem_append.mp hx with hx | hx
  · exact hmid x hx
  · obtain rfl := List.mem_singleton.mp hx
    exact he

theorem trial_nil (he : EntersHalfOpen e) : Trial (es ++ [e]) [] :=
  ⟨es, e, rfl, he, fun _ hx => absurd hx List.not_mem_nil⟩

theorem Guarded.trial_concat {n : ℕ} (hmid : Trial es mid) (he : e.after.state = .HALF_OPEN)
    (hcount : mid.countP IsSuccess + (if IsSuccess e then 1 else 0) = n)
    (hfail : ∀ x ∈ mid, ¬ IsFailure x) (hefail : ¬ IsFailure e) :
    ∃ mid', Trial (es ++ [e]) mid' ∧ mid'.countP IsSuccess = n ∧ ∀ x ∈ mid', ¬ IsFailure x := by
  refine ⟨mid ++ [e], hmid.concat he, ?_, fun x hx => ?_⟩
  · rw [List.countP_append, List.countP_singleton, ← hcount]
    simp
  · rcases List.mem_append.mp hx with hx | hx
    · exact hfail x hx
    · obtain rfl := List.mem_singleton.mp hx
      exact hefail

theorem Guarded.canPass (h : Guarded es b) (now : ℤ) :
    Guarded (es ++ [breakerMachine.event b (.canPass now)]) (b.canPass now).1 := by
  have hnext : (breakerMachine.event b (.canPass now)).after = (b.canPass now).1 := rfl
  have hfail : ¬ IsFailure (breakerMachine.event b (.canPass now)) := fun ⟨t, ht⟩ => by cases ht
  rcases canPass_cases b now with ⟨ho, -, hb⟩ | ⟨ho, -, hb⟩ | ⟨ho, hb⟩
  · rw [hb] at hnext ⊢
    refine ⟨h.positive, fun hc => (by cases hc), fun _ => ⟨h.positive.2, [], ?_, rfl, by simp⟩⟩
    refine trial_nil ⟨fun hh => ?_, by rw [hnext]⟩
    cases hh.symm.trans ho
  · rw [hb] at hnext ⊢
    refine ⟨h.positive, h.closed, fun hh => ?_⟩
    cases hh.symm.trans ho
  · rw [hb] at hnext ⊢
    refine ⟨h.positive, h.closed, fun hh => ?_⟩
    obtain ⟨hlt, mid, hmid, hcount, hmidFail⟩ := h.halfOpen hh
    have hzero : ¬ IsSuccess (breakerMachine.event b (.canPass now)) := fun hs => by cases hs
    refine ⟨hlt, Guarded.trial_concat hmid (by rw [hnext]; exact hh) ?_ hmidFail hfail⟩
    rw [if_neg hzero, hcount, Nat.add_zero]

theorem Guarded.recordSuccess (h : Guarded es b) :
    Guarded (es ++ [breakerMachine.event b .recordSuccess]) b.recordSuccess := by
  have hnext : (breakerMachine.event b .recordSuccess).after = b.recordSuccess := rfl
  rcases recordSuccess_cases b with ⟨-, -, hb⟩ | ⟨hh, hlt, hb⟩ | ⟨hh, hb⟩
  · rw [hb]
    exact ⟨h.positive, fun _ => h.positive.1, fun hh => by cases hh⟩
  · rw [hb] at hnext ⊢
    refine ⟨h.positive, fun hc => ?_, fun _ => ?_⟩
    · cases hc.symm.trans hh
    obtain ⟨-, mid, hmid, hcount, hmidFail⟩ := h.halfOpen hh
    have hfail : ¬ IsFailure (breakerMachine.event b .recordSuccess) := fun ⟨t, ht⟩ => by cases ht
    refine ⟨hlt, Guarded.trial_concat hmid (by rw [hnext]; exact hh) ?_ hmidFail hfail⟩
    have hone : IsSuccess (breakerMachine.event b .recordSuccess) := rfl
    rw [if_pos hone, hcount]
  · rw [hb]
    exact ⟨h.positive, fun _ => h.positive.1, fun hh' => absurd hh' hh⟩

theorem Guarded.recordFailure (h : Guarded es b) (now : ℤ) :
    Guarded (es ++ [breakerMachine.event b (.recordFailure now)]) (b.recordFailure now) := by
  rcases recordFailure_cases b now with hb | ⟨hh, hlt, hb⟩
  · rw [hb]
    exact ⟨h.positive, fun hc => (by cases hc), fun hh => (by cases hh)⟩
  · rw [hb]
    exact ⟨h.positive, fun _ => hlt, fun hh' => absurd hh' hh⟩

theorem Guarded.next (h : Guarded es b) (c : BreakerCall) :
    Guarded (es ++ [breakerMachine.event b c]) (breakerMachine.next b c) := by
  cases c with
  | canPass now => exact h.canPass now
  | recordSuccess => exact h.recordSuccess
  | recordFailure now => exact h.recordFailure now

/-- **What closes a half open breaker**: the last success of a trial without failures. -/
theorem Guarded.closes (h : Guarded es b) (c : BreakerCall) (hbefore : b.state = .HALF_OPEN)
    (hafter : (breakerMachine.next b c).state = .CLOSED) :
    ∃ mid, Trial es mid ∧
      (mid ++ [breakerMachine.event b c]).countP IsSuccess = b.halfOpenSuccessThreshold ∧
      ∀ e ∈ mid ++ [breakerMachine.event b c], ¬ IsFailure e := by
  obtain ⟨hlt, mid, hmid, hcount, hfail⟩ := h.halfOpen hbefore
  have hc : c = .recordSuccess ∧ b.halfOpenSuccessThreshold ≤ b.successCount + 1 := by
    cases c with
    | canPass now =>
      change (b.canPass now).1.state = _ at hafter
      rcases canPass_cases b now with ⟨ho, -⟩ | ⟨ho, -⟩ | ⟨-, hb⟩
      · cases hbefore.symm.trans ho
      · cases hbefore.symm.trans ho
      · rw [hb] at hafter
        cases hbefore.symm.trans hafter
    | recordSuccess =>
      change b.recordSuccess.state = _ at hafter
      rcases recordSuccess_cases b with ⟨-, hle, -⟩ | ⟨-, -, hb⟩ | ⟨hh, -⟩
      · exact ⟨rfl, hle⟩
      · rw [hb] at hafter
        cases hbefore.symm.trans hafter
      · exact absurd hbefore hh
    | recordFailure now =>
      change (b.recordFailure now).state = _ at hafter
      rcases recordFailure_cases b now with hb | ⟨hh, -⟩
      · rw [hb] at hafter
        cases hafter
      · exact absurd hbefore hh
  obtain ⟨rfl, hle⟩ := hc
  refine ⟨mid, hmid, ?_, fun e he => ?_⟩
  · rw [List.countP_append, List.countP_singleton, hcount]
    simp only [IsSuccess, Machine.event, decide_true, if_true]
    omega
  · rcases List.mem_append.mp he with he | he
    · exact hfail e he
    · obtain rfl := List.mem_singleton.mp he
      rintro ⟨t, ht⟩
      cases ht

end Invariant

/-! ## Runs -/

theorem guarded_run {failureThreshold halfOpenSuccessThreshold : ℕ} (recoveryTimeoutMs : ℤ)
    (hfail : 1 ≤ failureThreshold) (hsuccess : 1 ≤ halfOpenSuccessThreshold)
    (calls : List BreakerCall) :
    Guarded
      (breakerMachine.history
        (.new failureThreshold recoveryTimeoutMs halfOpenSuccessThreshold) calls)
      (breakerMachine.run
        (.new failureThreshold recoveryTimeoutMs halfOpenSuccessThreshold) calls) := by
  refine Machine.history_induction ?_ (fun _ _ c h => h.next c) calls
  exact ⟨⟨hfail, hsuccess⟩, fun _ => hfail, fun hh => by cases hh⟩

theorem config_run (b : CircuitBreaker) (calls : List BreakerCall) :
    (breakerMachine.run b calls).failureThreshold = b.failureThreshold ∧
    (breakerMachine.run b calls).recoveryTimeoutMs = b.recoveryTimeoutMs ∧
    (breakerMachine.run b calls).halfOpenSuccessThreshold = b.halfOpenSuccessThreshold := by
  refine Machine.history_induction (M := breakerMachine) (s := b)
    (J := fun _ b' => b'.failureThreshold = b.failureThreshold ∧
      b'.recoveryTimeoutMs = b.recoveryTimeoutMs ∧
      b'.halfOpenSuccessThreshold = b.halfOpenSuccessThreshold) ⟨rfl, rfl, rfl⟩ ?_ calls
  intro _ b' c ⟨h₁, h₂, h₃⟩
  obtain ⟨hc₁, hc₂, hc₃⟩ := config_next b' c
  exact ⟨hc₁.trans h₁, hc₂.trans h₂, hc₃.trans h₃⟩

/-- A breaker that a failure leaves open refuses until the timeout is over, whatever is called in
between. -/
theorem refuses_after_failure {b₀ : CircuitBreaker} {calls : List BreakerCall}
    (hclock : (calls.filterMap BreakerCall.clock).Pairwise (· ≤ ·))
    {pre mid post : List BreakerEvent} {a e : BreakerEvent} {t u : ℤ}
    (hes : breakerMachine.history b₀ calls = (pre ++ a :: mid) ++ e :: post)
    (ha : a.input = .recordFailure t) (hopen : a.after.state = .OPEN) (he : e.input = .canPass u)
    (hu : u ≤ t + b₀.recoveryTimeoutMs) : e.result = some false := by
  obtain ⟨js, c, ks, rfl, hjs, rfl⟩ := Machine.exists_of_history_eq hes
  obtain ⟨js₁, c₁, js₂, rfl, -, rfl⟩ := Machine.exists_of_history_eq hjs.symm
  obtain rfl : c₁ = .recordFailure t := ha
  obtain rfl : c = .canPass u := he
  set b := breakerMachine.run b₀ js₁ with hb
  have hmid : ∀ i ∈ js₂, ∀ now ∈ i.clock, t ≤ now ∧ now ≤ u := fun _ hi _ hnow =>
    Machine.clock_between hclock rfl rfl hi hnow
  have hstart : OpenFrom t b₀.recoveryTimeoutMs (b.recordFailure t) :=
    ⟨(config_next b (.recordFailure t)).2.1.trans (config_run b₀ js₁).2.1, hopen,
      (lastFailureTime_recordFailure b t).ge⟩
  have hrun : OpenFrom t b₀.recoveryTimeoutMs (breakerMachine.run (b.recordFailure t) js₂) := by
    have hok : ∀ e ∈ breakerMachine.history (b.recordFailure t) js₂, e.input ∈ js₂ :=
      fun _ he => Machine.input_mem_of_mem_history he
    refine Machine.run_invariant hstart ?_ js₂ hok
    exact fun s i h hi => h.next i fun now hnow =>
      ⟨(hmid i hi now hnow).1, (hmid i hi now hnow).2.trans hu⟩
  have hsplit : breakerMachine.run b₀ (js₁ ++ .recordFailure t :: js₂) =
      breakerMachine.run (b.recordFailure t) js₂ := Machine.run_append _ _
  change some ((breakerMachine.run b₀ (js₁ ++ .recordFailure t :: js₂)).canPass u).2 = _
  rw [hsplit, hrun.canPass hu]

/-- **The safety of the breaker**, in every run: while it is closed its failures are below the
threshold; after a failure that leaves it open it refuses up to the end of the timeout; and it
closes a trial after exactly `halfOpenSuccessThreshold` successes and no failure. -/
theorem circuitBreaker_safe (failureThreshold : ℕ) (recoveryTimeoutMs : ℤ)
    (halfOpenSuccessThreshold : ℕ) (hfail : 1 ≤ failureThreshold)
    (hsuccess : 1 ≤ halfOpenSuccessThreshold) (calls : List BreakerCall)
    (hclock : (calls.filterMap BreakerCall.clock).Pairwise (· ≤ ·)) :
    ((breakerMachine.run (.new failureThreshold recoveryTimeoutMs halfOpenSuccessThreshold)
        calls).state = .CLOSED →
      (breakerMachine.run (.new failureThreshold recoveryTimeoutMs halfOpenSuccessThreshold)
        calls).failureCount < failureThreshold) ∧
    (∀ pre a mid e post,
      breakerMachine.history (.new failureThreshold recoveryTimeoutMs halfOpenSuccessThreshold)
        calls = (pre ++ a :: mid) ++ e :: post →
      ∀ t u, a.input = .recordFailure t → a.after.state = .OPEN → e.input = .canPass u →
        u ≤ t + recoveryTimeoutMs → e.result = some false) ∧
    ∀ pre e post,
      breakerMachine.history (.new failureThreshold recoveryTimeoutMs halfOpenSuccessThreshold)
        calls = pre ++ e :: post →
      e.before.state = .HALF_OPEN → e.after.state = .CLOSED →
        ∃ mid, Trial pre mid ∧ (mid ++ [e]).countP IsSuccess = halfOpenSuccessThreshold ∧
          ∀ x ∈ mid ++ [e], ¬ IsFailure x := by
  refine ⟨fun hc => ?_, fun pre a mid e post hes t u ha hopen he hu => ?_,
    fun pre e post hes hbefore hafter => ?_⟩
  · have hlt := (guarded_run recoveryTimeoutMs hfail hsuccess calls).closed hc
    rwa [(config_run _ calls).1] at hlt
  · exact refuses_after_failure hclock hes ha hopen he hu
  · obtain ⟨js, c, ks, rfl, rfl, rfl⟩ := Machine.exists_of_history_eq hes
    have hclose := (guarded_run recoveryTimeoutMs hfail hsuccess js).closes c hbefore hafter
    rwa [(config_run _ js).2.2] at hclose

/-- One failure opens the breaker, and one success closes it again. -/
theorem circuitBreaker_safe_recovered :
    (breakerMachine.run (.new 1 5000 1) [.recordFailure 0, .canPass 5000, .canPass 5001,
      .recordSuccess]).failureCount < 1 :=
  (circuitBreaker_safe 1 5000 1 (by decide) (by decide) [.recordFailure 0, .canPass 5000,
    .canPass 5001, .recordSuccess] (by decide)).1 (by decide)

end Logix.Gateway
