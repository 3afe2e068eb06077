import Mathlib.Algebra.Order.Field.Rat
import Mathlib.Tactic.Linarith
import Mathlib.Tactic.FieldSimp
import Logix.Js.Map
import Logix.Gateway.CircuitBreaker

/-!
# The adaptive circuit breaker of the gateway

`AdaptiveCircuitBreakerEngine` keeps one circuit for each service and opens it when, with enough
results counted, at least half of them are failures. The share of the failures is rational.

* `recordSuccess`, `recordFailure`, `allow`, `adaptiveMachine`: the code;
* `AtThreshold`: the counters are such that a failure opens the circuit;
* **`recordResult_reopens_iff`**: when a failed probe opens a half open circuit again;
* **`closed_below_threshold_iff`**: the runs whose closed circuits stay below the threshold.
-/

namespace Logix.Gateway

open Spec

/-- `failureThresholdPct`. -/
def failureThresholdPct : ℚ := 50

/-- `minimumRequestsInWindow`. -/
def minimumRequestsInWindow : ℕ := 20

/-- `openDurationMs`. -/
def openDurationMs : ℤ := 15000

/-- `ICircuitState`. -/
structure ICircuitState where
  serviceName : String
  state : CircuitState
  failureCount : ℕ
  successCount : ℕ
  lastStateChangeTimestamp : ℤ
  nextAttemptAllowedTimestamp : ℤ
  deriving DecidableEq, Repr

namespace ICircuitState

/-- A circuit that `getCircuit` makes. -/
def new (serviceName : String) (now : ℤ) : ICircuitState where
  serviceName := serviceName
  state := .CLOSED
  failureCount := 0
  successCount := 0
  lastStateChangeTimestamp := now
  nextAttemptAllowedTimestamp := 0

/-- The `isSuccess` branch of `recordResult`. -/
def recordSuccess (c : ICircuitState) (now : ℤ) : ICircuitState :=
  let c := { c with successCount := c.successCount + 1 }
  if c.state = .HALF_OPEN ∧ 5 ≤ c.successCount then
    { c with state := .CLOSED, failureCount := 0, successCount := 0, lastStateChangeTimestamp := now }
  else c

/-- The `else` branch of `recordResult`. -/
def recordFailure (c : ICircuitState) (now : ℤ) : ICircuitState :=
  let c := { c with failureCount := c.failureCount + 1 }
  let total := c.successCount + c.failureCount
  if minimumRequestsInWindow ≤ total then
    let failurePct : ℚ := c.failureCount / total * 100
    if failureThresholdPct ≤ failurePct then
      { c with
        state := .OPEN
        lastStateChangeTimestamp := now
        nextAttemptAllowedTimestamp := now + openDurationMs }
    else c
  else c

/-- The body of `allowRequest`. -/
def allow (c : ICircuitState) (now : ℤ) : ICircuitState × Bool :=
  match c.state with
  | .CLOSED => (c, true)
  | .OPEN =>
    if c.nextAttemptAllowedTimestamp ≤ now then
      ({ c with state := .HALF_OPEN, lastStateChangeTimestamp := now, successCount := 0 }, true)
    else (c, false)
  | .HALF_OPEN => (c, true)

/-- `total >= minimumRequestsInWindow` and `failurePct >= failureThresholdPct`. -/
def AtThreshold (c : ICircuitState) : Prop :=
  minimumRequestsInWindow ≤ c.successCount + c.failureCount ∧
    failureThresholdPct ≤ (c.failureCount / (c.successCount + c.failureCount : ℕ) * 100 : ℚ)

instance : DecidablePred AtThreshold := fun _ => inferInstanceAs (Decidable (_ ∧ _))

end ICircuitState

/-- **`AdaptiveCircuitBreakerEngine`.** -/
structure AdaptiveCircuitBreakerEngine where
  circuits : JsMap String ICircuitState

namespace AdaptiveCircuitBreakerEngine

/-- `new AdaptiveCircuitBreakerEngine()`. -/
def new : AdaptiveCircuitBreakerEngine := ⟨.empty⟩

/-- **`getCircuit(serviceName)`** at the time `now`. -/
def getCircuit (e : AdaptiveCircuitBreakerEngine) (serviceName : String) (now : ℤ) :
    AdaptiveCircuitBreakerEngine × ICircuitState :=
  match e.circuits.get serviceName with
  | some c => (e, c)
  | none => (⟨e.circuits.set serviceName (.new serviceName now)⟩, .new serviceName now)

/-- **`recordResult(serviceName, isSuccess)`** at the time `now`. -/
def recordResult (e : AdaptiveCircuitBreakerEngine) (serviceName : String) (isSuccess : Bool)
    (now : ℤ) : AdaptiveCircuitBreakerEngine :=
  let (e, c) := e.getCircuit serviceName now
  ⟨e.circuits.set serviceName (if isSuccess then c.recordSuccess now else c.recordFailure now)⟩

/-- **`allowRequest(serviceName)`** at the time `now`. -/
def allowRequest (e : AdaptiveCircuitBreakerEngine) (serviceName : String) (now : ℤ) :
    AdaptiveCircuitBreakerEngine × Bool :=
  let (e, c) := e.getCircuit serviceName now
  (⟨e.circuits.set serviceName (c.allow now).1⟩, (c.allow now).2)

end AdaptiveCircuitBreakerEngine

/-- The calls; `now` is the clock that the call reads. -/
inductive AdaptiveCall where
  | getCircuit (serviceName : String) (now : ℤ)
  | recordResult (serviceName : String) (isSuccess : Bool) (now : ℤ)
  | allowRequest (serviceName : String) (now : ℤ)
  deriving DecidableEq, Repr

/-- What a call returns. -/
inductive AdaptiveResult where
  | circuit (c : ICircuitState)
  | recorded
  | allowed (isAllowed : Bool)
  deriving DecidableEq, Repr

/-- The engine under its calls. -/
def adaptiveMachine : Machine AdaptiveCircuitBreakerEngine AdaptiveCall AdaptiveResult where
  call
    | .getCircuit serviceName now, e =>
      let (e', c) := e.getCircuit serviceName now
      (e', .circuit c)
    | .recordResult serviceName isSuccess now, e =>
      (e.recordResult serviceName isSuccess now, .recorded)
    | .allowRequest serviceName now, e =>
      let (e', isAllowed) := e.allowRequest serviceName now
      (e', .allowed isAllowed)

abbrev AdaptiveEvent := Event AdaptiveCircuitBreakerEngine AdaptiveCall AdaptiveResult

/-! ## One circuit -/

namespace ICircuitState

theorem atThreshold_iff (c : ICircuitState) :
    c.AtThreshold ↔ 20 ≤ c.successCount + c.failureCount ∧ c.successCount ≤ c.failureCount := by
  refine and_congr_right fun htotal => ?_
  have hpos : (0 : ℚ) < (c.successCount + c.failureCount : ℕ) :=
    Nat.cast_pos.mpr (Nat.lt_of_lt_of_le (by decide) htotal)
  rw [failureThresholdPct, div_mul_eq_mul_div, le_div_iff₀ hpos]
  have hcast : (50 : ℚ) * (c.successCount + c.failureCount : ℕ) ≤ c.failureCount * 100 ↔
      50 * (c.successCount + c.failureCount) ≤ c.failureCount * 100 := by exact_mod_cast Iff.rfl
  rw [hcast]
  omega

/-- **A failure** opens the circuit if the counters, the failure included, are at the threshold. -/
theorem recordFailure_eq (c : ICircuitState) (now : ℤ) :
    c.recordFailure now =
      if ({ c with failureCount := c.failureCount + 1 } : ICircuitState).AtThreshold then
        { c with
          state := .OPEN
          failureCount := c.failureCount + 1
          lastStateChangeTimestamp := now
          nextAttemptAllowedTimestamp := now + openDurationMs }
      else { c with failureCount := c.failureCount + 1 } := by
  unfold recordFailure AtThreshold
  by_cases htotal : minimumRequestsInWindow ≤ c.successCount + (c.failureCount + 1)
  · simp only [htotal, if_true, true_and]
  · simp only [htotal, if_false, false_and]

theorem recordSuccess_cases (c : ICircuitState) (now : ℤ) :
    (c.state = .HALF_OPEN ∧ 4 ≤ c.successCount ∧ c.recordSuccess now = { c with
      state := .CLOSED, failureCount := 0, successCount := 0, lastStateChangeTimestamp := now }) ∨
    (¬ (c.state = .HALF_OPEN ∧ 4 ≤ c.successCount) ∧
      c.recordSuccess now = { c with successCount := c.successCount + 1 }) := by
  unfold recordSuccess
  by_cases h : c.state = .HALF_OPEN ∧ 5 ≤ c.successCount + 1
  · exact Or.inl ⟨h.1, by omega, by simp only [if_pos h]⟩
  · refine Or.inr ⟨fun h' => h ⟨h'.1, by omega⟩, by simp only [if_neg h]⟩

/-- **`allowRequest`** turns an open circuit half open, or changes nothing. -/
theorem allow_cases (c : ICircuitState) (now : ℤ) :
    (c.state = .OPEN ∧ (c.allow now).1 =
      { c with state := .HALF_OPEN, lastStateChangeTimestamp := now, successCount := 0 }) ∨
    (c.allow now).1 = c := by
  unfold allow
  cases hs : c.state with
  | CLOSED => exact Or.inr rfl
  | OPEN =>
    by_cases h : c.nextAttemptAllowedTimestamp ≤ now
    · exact Or.inl ⟨rfl, by simp only [if_pos h]⟩
    · exact Or.inr (by simp only [if_neg h])
  | HALF_OPEN => exact Or.inr rfl

end ICircuitState

/-! ## One call -/

/-- The service of a call. -/
def AdaptiveCall.serviceName : AdaptiveCall → String
  | .getCircuit serviceName _ | .recordResult serviceName _ _ | .allowRequest serviceName _ =>
    serviceName

/-- The clock of a call. -/
def AdaptiveCall.now : AdaptiveCall → ℤ
  | .getCircuit _ now | .recordResult _ _ now | .allowRequest _ now => now

/-- What a call does to the circuit of its service. -/
def AdaptiveCall.effect : AdaptiveCall → ICircuitState → ICircuitState
  | .getCircuit _ _, c => c
  | .recordResult _ true now, c => c.recordSuccess now
  | .recordResult _ false now, c => c.recordFailure now
  | .allowRequest _ now, c => (c.allow now).1

/-- The circuit that a call finds or makes. -/
def AdaptiveCircuitBreakerEngine.circuitFor (e : AdaptiveCircuitBreakerEngine)
    (call : AdaptiveCall) : ICircuitState :=
  (e.circuits.get call.serviceName).getD (.new call.serviceName call.now)

section Calls

variable {e : AdaptiveCircuitBreakerEngine} {serviceName name : String} {now : ℤ}

theorem getCircuit_snd (e : AdaptiveCircuitBreakerEngine) (serviceName : String) (now : ℤ) :
    (e.getCircuit serviceName now).2 =
      (e.circuits.get serviceName).getD (.new serviceName now) := by
  unfold AdaptiveCircuitBreakerEngine.getCircuit
  cases e.circuits.get serviceName with
  | none => rfl
  | some c => rfl

theorem get_getCircuit_fst (e : AdaptiveCircuitBreakerEngine) (serviceName name : String) (now : ℤ) :
    (e.getCircuit serviceName now).1.circuits.get name =
      if name = serviceName then some (e.getCircuit serviceName now).2
      else e.circuits.get name := by
  unfold AdaptiveCircuitBreakerEngine.getCircuit
  cases hg : e.circuits.get serviceName with
  | none => exact JsMap.get_set _ _ _ _
  | some c =>
    by_cases h : name = serviceName
    · rw [if_pos h, h]
      exact hg
    · rw [if_neg h]

theorem get_set_getCircuit (e : AdaptiveCircuitBreakerEngine) (serviceName name : String) (now : ℤ)
    (c : ICircuitState) :
    ((e.getCircuit serviceName now).1.circuits.set serviceName c).get name =
      if name = serviceName then some c else e.circuits.get name := by
  rw [JsMap.get_set, get_getCircuit_fst]
  by_cases h : name = serviceName
  · rw [if_pos h, if_pos h]
  · rw [if_neg h, if_neg h, if_neg h]

theorem circuitFor_of_get {call : AdaptiveCall} {c : ICircuitState}
    (h : e.circuits.get call.serviceName = some c) : e.circuitFor call = c := by
  rw [AdaptiveCircuitBreakerEngine.circuitFor, h, Option.getD_some]

theorem get_adaptive_next (e : AdaptiveCircuitBreakerEngine) (call : AdaptiveCall) (name : String) :
    (adaptiveMachine.next e call).circuits.get name =
      if name = call.serviceName then some (call.effect (e.circuitFor call))
      else e.circuits.get name := by
  cases call with
  | getCircuit serviceName now =>
    change (e.getCircuit serviceName now).1.circuits.get name = _
    rw [get_getCircuit_fst, getCircuit_snd]
    rfl
  | recordResult serviceName isSuccess now =>
    have hnext : (adaptiveMachine.next e (.recordResult serviceName isSuccess now)).circuits =
        (e.getCircuit serviceName now).1.circuits.set serviceName
          (if isSuccess then (e.getCircuit serviceName now).2.recordSuccess now
            else (e.getCircuit serviceName now).2.recordFailure now) := rfl
    rw [hnext, get_set_getCircuit, getCircuit_snd]
    cases isSuccess <;> rfl
  | allowRequest serviceName now =>
    have hnext : (adaptiveMachine.next e (.allowRequest serviceName now)).circuits =
        (e.getCircuit serviceName now).1.circuits.set serviceName
          ((e.getCircuit serviceName now).2.allow now).1 := rfl
    rw [hnext, get_set_getCircuit, getCircuit_snd]
    rfl

theorem forall_circuits_next {P : ICircuitState → Prop} {call : AdaptiveCall}
    (h : ∀ name c, e.circuits.get name = some c → P c) (hnew : ∀ name now, P (.new name now))
    (heffect : P (e.circuitFor call) → P (call.effect (e.circuitFor call))) :
    ∀ name c, (adaptiveMachine.next e call).circuits.get name = some c → P c := by
  intro name c hg
  rw [get_adaptive_next] at hg
  split_ifs at hg
  · obtain rfl := Option.some.inj hg
    refine heffect ?_
    unfold AdaptiveCircuitBreakerEngine.circuitFor
    cases hc : e.circuits.get call.serviceName with
    | none => exact hnew _ _
    | some c => exact h _ c hc
  · exact h name c hg

end Calls

/-! ## A failed probe -/

/-- **The invariant of a circuit**: it opens with ten failures at least, which only closing it
clears; and a trial has at most four successes. -/
structure Counted (c : ICircuitState) : Prop where
  opened : c.state = .OPEN → 10 ≤ c.failureCount
  halfOpen : c.state = .HALF_OPEN → 10 ≤ c.failureCount ∧ c.successCount ≤ 4

section Probe

variable {c : ICircuitState}

theorem counted_new (name : String) (now : ℤ) : Counted (.new name now) where
  opened h := by cases h
  halfOpen h := by cases h

theorem Counted.effect (h : Counted c) (call : AdaptiveCall) : Counted (call.effect c) := by
  match call with
  | .getCircuit _ _ => exact h
  | .recordResult _ true now =>
    rcases c.recordSuccess_cases now with ⟨-, -, hc⟩ | ⟨hn, hc⟩
    · change Counted (c.recordSuccess now)
      rw [hc]
      exact ⟨fun ho => (by cases ho), fun hh => (by cases hh)⟩
    · change Counted (c.recordSuccess now)
      rw [hc]
      refine ⟨h.opened, fun hh => ⟨(h.halfOpen hh).1, ?_⟩⟩
      exact Nat.lt_of_not_le fun hle => hn ⟨hh, hle⟩
  | .recordResult _ false now =>
    change Counted (c.recordFailure now)
    rw [ICircuitState.recordFailure_eq]
    split_ifs with hat
    · obtain ⟨htotal, hshare⟩ := (ICircuitState.atThreshold_iff _).mp hat
      change 20 ≤ c.successCount + (c.failureCount + 1) at htotal
      change c.successCount ≤ c.failureCount + 1 at hshare
      have hten : 10 ≤ c.failureCount + 1 := by omega
      exact ⟨fun _ => hten, fun hh => (by cases hh)⟩
    · exact ⟨fun ho => Nat.le_succ_of_le (h.opened ho),
        fun hh => ⟨Nat.le_succ_of_le (h.halfOpen hh).1, (h.halfOpen hh).2⟩⟩
  | .allowRequest _ now =>
    change Counted (c.allow now).1
    rcases c.allow_cases now with ⟨ho, hc⟩ | hc
    · rw [hc]
      exact ⟨fun ho' => (by cases ho'), fun _ => ⟨h.opened ho, Nat.zero_le _⟩⟩
    · rw [hc]
      exact h

theorem counted_run (calls : List AdaptiveCall) :
    ∀ name c, (adaptiveMachine.run .new calls).circuits.get name = some c → Counted c := by
  refine Machine.history_induction (M := adaptiveMachine) (s := .new)
    (J := fun _ e => ∀ name c, e.circuits.get name = some c → Counted c) ?_ ?_ calls
  · exact fun name c hg => by cases hg
  · exact fun _ e call h => forall_circuits_next h counted_new fun hc => hc.effect call

/-- **When a failed probe reopens.** A failure opens a half open circuit exactly if, with it, at
least `minimumRequestsInWindow` results are counted: the failures from before the trial and the
results of the trial. -/
theorem recordResult_reopens_iff (calls : List AdaptiveCall) (serviceName : String) (now : ℤ)
    (c : ICircuitState) (hget : (adaptiveMachine.run .new calls).circuits.get serviceName = some c)
    (hstate : c.state = .HALF_OPEN) :
    (∃ c', (adaptiveMachine.run .new (calls ++ [.recordResult serviceName false now])).circuits.get
        serviceName = some c' ∧ c'.state = .OPEN ∧
        c'.nextAttemptAllowedTimestamp = now + openDurationMs) ↔
      minimumRequestsInWindow ≤ c.successCount + c.failureCount + 1 := by
  obtain ⟨hfailures, hsuccesses⟩ := (counted_run calls serviceName c hget).halfOpen hstate
  have hnext : (adaptiveMachine.run .new
      (calls ++ [.recordResult serviceName false now])).circuits.get serviceName =
        some (c.recordFailure now) := by
    rw [Machine.run_concat, get_adaptive_next]
    refine (if_pos rfl).trans ?_
    rw [circuitFor_of_get hget]
    rfl
  have hat : ({ c with failureCount := c.failureCount + 1 } : ICircuitState).AtThreshold ↔
      minimumRequestsInWindow ≤ c.successCount + c.failureCount + 1 := by
    rw [ICircuitState.atThreshold_iff]
    change 20 ≤ c.successCount + (c.failureCount + 1) ∧ c.successCount ≤ c.failureCount + 1 ↔
      20 ≤ c.successCount + c.failureCount + 1
    omega
  rw [hnext, ICircuitState.recordFailure_eq, ← hat]
  split_ifs with h
  · exact ⟨fun _ => h, fun _ => ⟨_, rfl, rfl, rfl⟩⟩
  · refine ⟨fun ⟨c', hc', ho, _⟩ => ?_, fun h' => absurd h' h⟩
    obtain rfl := Option.some.inj hc'
    cases hstate.symm.trans ho

/-- Nine successes and eleven failures, and a probe once the circuit may be tried again. -/
def tripped : List AdaptiveCall :=
  List.replicate 9 (.recordResult "orders" true 0) ++
    List.replicate 11 (.recordResult "orders" false 0) ++ [.allowRequest "orders" 15000]

/-- With eight more failures counted, the ninth one reopens. -/
theorem recordResult_reopens_after_nine :
    ∃ c', (adaptiveMachine.run .new ((tripped ++
        List.replicate 8 (.recordResult "orders" false 15000)) ++
          [.recordResult "orders" false 15001])).circuits.get "orders" = some c' ∧
      c'.state = .OPEN ∧ c'.nextAttemptAllowedTimestamp = 15001 + openDurationMs :=
  (recordResult_reopens_iff (tripped ++ List.replicate 8 (.recordResult "orders" false 15000))
    "orders" 15001 ⟨"orders", .HALF_OPEN, 19, 0, 15000, 15000⟩ (by decide +kernel) rfl).mpr
    (by decide)

/-- The first failure of the trial does not. -/
theorem failed_probe_stays_half_open :
    ¬ ∀ calls serviceName now c,
      (adaptiveMachine.run .new calls).circuits.get serviceName = some c → c.state = .HALF_OPEN →
      ∃ c', (adaptiveMachine.run .new
          (calls ++ [.recordResult serviceName false now])).circuits.get serviceName = some c' ∧
        c'.state = .OPEN ∧ c'.nextAttemptAllowedTimestamp = now + openDurationMs := by
  intro h
  obtain ⟨c', hc', ho, -⟩ := h tripped "orders" 15001 ⟨"orders", .HALF_OPEN, 11, 0, 15000, 15000⟩
    (by decide +kernel) rfl
  have hc : (adaptiveMachine.run .new (tripped ++
      [.recordResult "orders" false 15001])).circuits.get "orders" =
        some ⟨"orders", .HALF_OPEN, 12, 0, 15000, 15000⟩ := by decide +kernel
  obtain rfl := Option.some.inj (hc.symm.trans hc')
  cases ho

end Probe

/-! ## Closed circuits -/

/-- Every closed circuit is below the threshold. -/
def ClosedBelowThreshold (e : AdaptiveCircuitBreakerEngine) : Prop :=
  ∀ name c, e.circuits.get name = some c → c.state = .CLOSED → ¬ c.AtThreshold

/-- The call records a success as the twentieth result of a closed circuit, with ten failures or
more among the other nineteen. -/
def SucceedsAtThreshold (e : AdaptiveEvent) : Prop :=
  ∃ serviceName now c, e.input = .recordResult serviceName true now ∧
    e.before.circuits.get serviceName = some c ∧ c.state = .CLOSED ∧
    c.successCount + c.failureCount = 19 ∧ 10 ≤ c.failureCount

section Closed

variable {e : AdaptiveCircuitBreakerEngine} {c : ICircuitState}

theorem not_atThreshold_of_zero (hs : c.successCount = 0) (hf : c.failureCount = 0) :
    ¬ c.AtThreshold := by
  rw [ICircuitState.atThreshold_iff, hs, hf]
  omega

/-- **A call** leaves a closed circuit below the threshold, unless it is the twentieth result. -/
theorem not_atThreshold_effect (call : AdaptiveCall) (hc : c.state = .CLOSED → ¬ c.AtThreshold)
    (hsuccess : ∀ serviceName now, call = .recordResult serviceName true now → c.state = .CLOSED →
      ¬ (c.successCount + c.failureCount = 19 ∧ 10 ≤ c.failureCount)) :
    (call.effect c).state = .CLOSED → ¬ (call.effect c).AtThreshold := by
  match call with
  | .getCircuit _ _ => exact hc
  | .recordResult serviceName true now =>
    change (c.recordSuccess now).state = .CLOSED → ¬ (c.recordSuccess now).AtThreshold
    rcases c.recordSuccess_cases now with ⟨-, -, hnext⟩ | ⟨-, hnext⟩
    · rw [hnext]
      exact fun _ => not_atThreshold_of_zero rfl rfl
    · rw [hnext]
      intro hclosed hat
      have hbelow := mt (ICircuitState.atThreshold_iff c).mpr (hc hclosed)
      have hlate := hsuccess serviceName now rfl hclosed
      obtain ⟨htotal, hshare⟩ := (ICircuitState.atThreshold_iff _).mp hat
      change 20 ≤ c.successCount + 1 + c.failureCount at htotal
      change c.successCount + 1 ≤ c.failureCount at hshare
      omega
  | .recordResult _ false now =>
    change (c.recordFailure now).state = .CLOSED → ¬ (c.recordFailure now).AtThreshold
    rw [ICircuitState.recordFailure_eq]
    split_ifs with hat
    · exact fun ho => by cases ho
    · exact fun _ => hat
  | .allowRequest _ now =>
    change (c.allow now).1.state = .CLOSED → ¬ (c.allow now).1.AtThreshold
    rcases c.allow_cases now with ⟨-, hnext⟩ | hnext
    · rw [hnext]
      exact fun ho => by cases ho
    · rw [hnext]
      exact hc

theorem ClosedBelowThreshold.next (h : ClosedBelowThreshold e) (call : AdaptiveCall)
    (hok : ¬ SucceedsAtThreshold (adaptiveMachine.event e call)) :
    ClosedBelowThreshold (adaptiveMachine.next e call) := by
  refine forall_circuits_next h (fun _ _ _ => not_atThreshold_of_zero rfl rfl) fun hc => ?_
  refine not_atThreshold_effect call hc fun serviceName now hcall hclosed hlate => hok ?_
  subst hcall
  -- A circuit with nineteen results was there before the call.
  cases hg : e.circuits.get serviceName with
  | none =>
    have hnew : e.circuitFor (.recordResult serviceName true now) = .new serviceName now := by
      rw [AdaptiveCircuitBreakerEngine.circuitFor, AdaptiveCall.serviceName, hg]
      rfl
    rw [hnew] at hlate
    exact absurd hlate.2 (Nat.not_succ_le_zero 9)
  | some c =>
    have hcircuit : e.circuitFor (.recordResult serviceName true now) = c := circuitFor_of_get hg
    rw [hcircuit] at hclosed hlate
    exact ⟨serviceName, now, c, rfl, hg, hclosed, hlate⟩

theorem not_closedBelowThreshold_next {call : AdaptiveCall}
    (h : SucceedsAtThreshold (adaptiveMachine.event e call)) :
    ¬ ClosedBelowThreshold (adaptiveMachine.next e call) := by
  obtain ⟨serviceName, now, c, hcall, hg, hclosed, htotal, hfailures⟩ := h
  obtain rfl : call = .recordResult serviceName true now := hcall
  have hnext : (adaptiveMachine.next e (.recordResult serviceName true now)).circuits.get
      serviceName = some (c.recordSuccess now) := by
    rw [get_adaptive_next]
    refine (if_pos rfl).trans ?_
    rw [circuitFor_of_get hg]
    rfl
  intro hbelow
  refine hbelow serviceName _ hnext ?_ ?_
  · rcases c.recordSuccess_cases now with ⟨hh, -, -⟩ | ⟨-, hs⟩
    · cases hclosed.symm.trans hh
    · rw [hs]
      exact hclosed
  · rcases c.recordSuccess_cases now with ⟨hh, -, -⟩ | ⟨-, hs⟩
    · cases hclosed.symm.trans hh
    · rw [hs, ICircuitState.atThreshold_iff]
      change 20 ≤ c.successCount + 1 + c.failureCount ∧ c.successCount + 1 ≤ c.failureCount
      omega

/-- **The runs whose closed circuits stay below the threshold** are those in which no success is
the twentieth result of a closed circuit with ten failures or more. -/
theorem closed_below_threshold_iff (calls : List AdaptiveCall) :
    (∀ e ∈ adaptiveMachine.history .new calls, ClosedBelowThreshold e.after) ↔
      ∀ e ∈ adaptiveMachine.history .new calls, ¬ SucceedsAtThreshold e := by
  constructor
  · intro h e he hat
    obtain ⟨js, call, ks, rfl, rfl⟩ := Machine.mem_history_iff.mp he
    exact not_closedBelowThreshold_next hat (h _ he)
  · intro hok
    have hrun : (∀ e ∈ adaptiveMachine.history .new calls, ClosedBelowThreshold e.after) ∧
        ClosedBelowThreshold (adaptiveMachine.run .new calls) := by
      refine Machine.history_invariant (J := fun es s => (∀ e ∈ es, ClosedBelowThreshold e.after) ∧
        ClosedBelowThreshold s) ?_ ?_ calls hok
      · exact ⟨fun _ he => absurd he List.not_mem_nil, fun name c hg => by cases hg⟩
      · intro es s call ⟨hes, hs⟩ hcall
        have hnext := hs.next call hcall
        refine ⟨fun e he => ?_, hnext⟩
        rcases List.mem_append.mp he with he | he
        · exact hes e he
        · obtain rfl := List.mem_singleton.mp he
          exact hnext
    exact hrun.1

/-- Ten failures and then ten successes: half of twenty results, and the circuit is closed. -/
theorem closed_at_threshold :
    ¬ ∀ calls, ClosedBelowThreshold (adaptiveMachine.run .new calls) := by
  intro h
  have hc : (adaptiveMachine.run .new (List.replicate 10 (.recordResult "orders" false 0) ++
      List.replicate 10 (.recordResult "orders" true 0))).circuits.get "orders" =
        some ⟨"orders", .CLOSED, 10, 10, 0, 0⟩ := by decide +kernel
  exact h _ "orders" _ hc rfl ((ICircuitState.atThreshold_iff _).mpr (by decide))

end Closed

end Logix.Gateway
