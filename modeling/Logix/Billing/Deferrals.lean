import Mathlib.Logic.Function.Iterate
import Logix.Js.Cents
import Logix.Js.Text

/-!
# Deferred revenue

The total of a contract is recognized month by month. Amounts are rounded to the nearest cent.

* `DeferredRevenueAmortizationScheduleEngine.generateStraightLineSchedule`: the code;
* `deferred`: the plan, in whole cents: what is deferred at the start of each month;
* **`generateStraightLineSchedule_eq`**: the code computes the plan;
* `ExactSchedule`, **`generateStraightLineSchedule_exact`**: consecutive months, no amount is
  negative, the balances are carried on, and the revenue makes up the total.
-/

namespace Logix.Billing

/-- `ISubscriptionAmortizationEntry`. -/
structure AmortizationEntry where
  periodMonthYear : JsString
  beginningDeferredBalanceUSD : ℚ
  recognizedRevenueUSD : ℚ
  endingDeferredBalanceUSD : ℚ
  deriving DecidableEq, Repr

namespace DeferredRevenueAmortizationScheduleEngine

/-- `periodKey`. -/
def periodKey (year month : ℤ) : JsString :=
  intToBase 10 year ++ js "-" ++ padStart (intToBase 10 month) 2 48

/-- `actualYear`. -/
def actualYear (startYear startMonth : ℤ) (m : ℕ) : ℤ := startYear + (startMonth - 1 + m) / 12

/-- `actualMonth`. -/
def actualMonth (startMonth : ℤ) (m : ℕ) : ℤ := (startMonth - 1 + m).tmod 12 + 1

section Loop

variable (contractTotalUSD : ℚ) (startYear startMonth : ℤ) (durationMonths : ℕ)

/-- `monthlyRate`. -/
def monthlyRate : ℚ := toNearestCent (contractTotalUSD / durationMonths)

/-- `recognized`. -/
def recognized (m : ℕ) (currentDeferred : ℚ) : ℚ :=
  if (m : ℤ) = durationMonths - 1 then currentDeferred
  else min currentDeferred (monthlyRate contractTotalUSD durationMonths)

/-- `schedule` and `currentDeferred` before the round `m` of the loop. -/
def scheduleUntil : ℕ → List AmortizationEntry × ℚ
  | 0 => ([], contractTotalUSD)
  | m + 1 =>
    let (schedule, currentDeferred) := scheduleUntil m
    let recognized := recognized contractTotalUSD durationMonths m currentDeferred
    let endBalance := toNearestCent (currentDeferred - recognized)
    (schedule ++
      [{ periodMonthYear :=
          periodKey (actualYear startYear startMonth m) (actualMonth startMonth m)
         beginningDeferredBalanceUSD := toNearestCent currentDeferred
         recognizedRevenueUSD := toNearestCent recognized
         endingDeferredBalanceUSD := max 0 endBalance }], endBalance)

/-- **`generateStraightLineSchedule`**. -/
def generateStraightLineSchedule : List AmortizationEntry :=
  (scheduleUntil contractTotalUSD startYear startMonth durationMonths durationMonths).1

end Loop

end DeferredRevenueAmortizationScheduleEngine

open DeferredRevenueAmortizationScheduleEngine

/-! ## The plan -/

/-- **What is deferred at the start of month `m`**, in cents, when `rate` is recognized each month
and the rest in the last one. -/
def deferred (total rate durationMonths : ℕ) : ℕ → ℕ
  | 0 => total
  | m + 1 => if m + 1 = durationMonths then 0 else deferred total rate durationMonths m - rate

/-- The month after `month` of `year`. -/
def nextMonth : ℤ × ℤ → ℤ × ℤ
  | (year, month) => if month = 12 then (year + 1, 1) else (year, month + 1)

/-- The entry of month `m` in the plan. -/
def plannedEntry (total rate durationMonths : ℕ) (start : ℤ × ℤ) (m : ℕ) : AmortizationEntry where
  periodMonthYear := periodKey (nextMonth^[m] start).1 (nextMonth^[m] start).2
  beginningDeferredBalanceUSD := inCents (deferred total rate durationMonths m)
  recognizedRevenueUSD := inCents (deferred total rate durationMonths m) -
    inCents (deferred total rate durationMonths (m + 1))
  endingDeferredBalanceUSD := inCents (deferred total rate durationMonths (m + 1))

section Plan

variable {total rate durationMonths : ℕ} {m : ℕ}

theorem deferred_succ_le : deferred total rate durationMonths (m + 1) ≤
    deferred total rate durationMonths m := by
  rw [deferred]
  split_ifs
  · exact Nat.zero_le _
  · exact Nat.sub_le _ _

theorem deferred_duration (h : 1 ≤ durationMonths) :
    deferred total rate durationMonths durationMonths = 0 := by
  obtain ⟨n, rfl⟩ := Nat.exists_eq_add_of_le' h
  rw [deferred, if_pos rfl]

theorem sum_plannedEntry (start : ℤ × ℤ) (n : ℕ) :
    ((List.range n).map fun m =>
        (plannedEntry total rate durationMonths start m).recognizedRevenueUSD).sum =
      inCents total - inCents (deferred total rate durationMonths n) := by
  induction n with
  | zero => rw [deferred, sub_self]; rfl
  | succ n ih =>
    rw [List.range_succ, List.map_append, List.sum_append, ih, List.map_singleton,
      List.sum_singleton, plannedEntry]
    ring

end Plan

/-! ## The calendar -/

theorem actualMonth_eq {startMonth : ℤ} (h₁ : 1 ≤ startMonth) (m : ℕ) :
    actualMonth startMonth m = (startMonth - 1 + m) % 12 + 1 := by
  rw [actualMonth, Int.tmod_eq_emod_of_nonneg (by omega)]

theorem iterate_nextMonth {startYear startMonth : ℤ} (h₁ : 1 ≤ startMonth) (h₁₂ : startMonth ≤ 12)
    (m : ℕ) : nextMonth^[m] (startYear, startMonth) =
      (actualYear startYear startMonth m, actualMonth startMonth m) := by
  induction m with
  | zero =>
    rw [actualMonth_eq h₁, actualYear, Function.iterate_zero_apply, Prod.mk.injEq]
    omega
  | succ m ih =>
    rw [Function.iterate_succ_apply', ih, actualMonth_eq h₁, actualMonth_eq h₁, nextMonth,
      actualYear, actualYear]
    -- after month 12 the year rolls over
    split_ifs with hlast <;> rw [Prod.mk.injEq] <;> omega

/-! ## The code computes the plan -/

/-- The rounded rate, in cents. -/
def rateCents (total durationMonths : ℕ) : ℕ :=
  (nearestCents (inCents total / durationMonths)).toNat

section Refinement

variable {total durationMonths : ℕ} {startYear startMonth : ℤ}

theorem monthlyRate_eq :
    monthlyRate (inCents total) durationMonths = inCents (rateCents total durationMonths) := by
  have hrate : 0 ≤ inCents total / durationMonths :=
    div_nonneg (inCents_nonneg.mpr (Int.natCast_nonneg total)) (Nat.cast_nonneg durationMonths)
  rw [monthlyRate, toNearestCent, rateCents, Int.toNat_of_nonneg (nearestCents_nonneg hrate)]

theorem recognized_eq {m balance : ℕ}
    (hbalance : balance = deferred total (rateCents total durationMonths) durationMonths m) :
    recognized (inCents total) durationMonths m (inCents balance) = inCents (balance -
      deferred total (rateCents total durationMonths) durationMonths (m + 1)) := by
  rw [recognized, monthlyRate_eq, ← inCents_min, deferred, ← hbalance]
  split_ifs with hlast hlast' hlast'
  · rw [Nat.cast_zero, sub_zero]
  · omega
  · omega
  · congr 1
    omega

theorem scheduleUntil_eq (h₁ : 1 ≤ startMonth) (h₁₂ : startMonth ≤ 12) {n : ℕ}
    (hn : n ≤ durationMonths) :
    scheduleUntil (inCents total) startYear startMonth durationMonths n =
      ((List.range n).map (plannedEntry total (rateCents total durationMonths) durationMonths
        (startYear, startMonth)),
        inCents (deferred total (rateCents total durationMonths) durationMonths n)) := by
  induction n with
  | zero => rfl
  | succ n ih =>
    have hend : inCents (deferred total (rateCents total durationMonths) durationMonths n) -
        inCents (deferred total (rateCents total durationMonths) durationMonths n -
          deferred total (rateCents total durationMonths) durationMonths (n + 1)) =
        inCents (deferred total (rateCents total durationMonths) durationMonths (n + 1)) := by
      rw [← inCents_sub, sub_sub_cancel]
    rw [scheduleUntil, ih (Nat.le_of_succ_le hn)]
    simp only [recognized_eq rfl, hend, toNearestCent_inCents]
    rw [List.range_succ, List.map_append, List.map_singleton, plannedEntry,
      iterate_nextMonth h₁ h₁₂, inCents_sub,
      max_eq_right (inCents_nonneg.mpr (Int.natCast_nonneg _))]

theorem generateStraightLineSchedule_eq (h₁ : 1 ≤ startMonth) (h₁₂ : startMonth ≤ 12) :
    generateStraightLineSchedule (inCents total) startYear startMonth durationMonths =
      (List.range durationMonths).map (plannedEntry total (rateCents total durationMonths)
        durationMonths (startYear, startMonth)) := by
  rw [generateStraightLineSchedule, scheduleUntil_eq h₁ h₁₂ le_rfl]

end Refinement

/-! ## The schedule is exact -/

/-- **An exact schedule** of `durationMonths` months from `start`, for a contract total. -/
structure ExactSchedule (total : ℚ) (start : ℤ × ℤ) (durationMonths : ℕ)
    (schedule : List AmortizationEntry) : Prop where
  length : schedule.length = durationMonths
  months : ∀ m entry, schedule[m]? = some entry →
    entry.periodMonthYear = periodKey (nextMonth^[m] start).1 (nextMonth^[m] start).2
  nonneg : ∀ entry ∈ schedule, 0 ≤ entry.beginningDeferredBalanceUSD ∧
    0 ≤ entry.recognizedRevenueUSD ∧ 0 ≤ entry.endingDeferredBalanceUSD
  balance : ∀ entry ∈ schedule, entry.endingDeferredBalanceUSD =
    entry.beginningDeferredBalanceUSD - entry.recognizedRevenueUSD
  starts : ∀ entry ∈ schedule.head?, entry.beginningDeferredBalanceUSD = total
  carried : ∀ m entry next, schedule[m]? = some entry → schedule[m + 1]? = some next →
    next.beginningDeferredBalanceUSD = entry.endingDeferredBalanceUSD
  ends : ∀ entry ∈ schedule.getLast?, entry.endingDeferredBalanceUSD = 0
  sum : (schedule.map AmortizationEntry.recognizedRevenueUSD).sum = total

theorem eq_of_getElem?_map_range {α : Type} {f : ℕ → α} {n m : ℕ} {a : α}
    (h : ((List.range n).map f)[m]? = some a) : a = f m := by
  rw [List.getElem?_map] at h
  obtain ⟨k, hk, rfl⟩ := Option.map_eq_some_iff.mp h
  obtain ⟨-, rfl⟩ := List.getElem?_eq_some_iff.mp hk
  rw [List.getElem_range]

theorem planned_exact (total rate : ℕ) {durationMonths : ℕ} (hduration : 1 ≤ durationMonths)
    (start : ℤ × ℤ) : ExactSchedule (inCents total) start durationMonths
      ((List.range durationMonths).map (plannedEntry total rate durationMonths start)) where
  length := by rw [List.length_map, List.length_range]
  months := by
    intro m entry h
    rw [eq_of_getElem?_map_range h, plannedEntry]
  nonneg := by
    refine List.forall_mem_map.mpr fun m _ => ⟨?_, ?_, ?_⟩
    · exact inCents_nonneg.mpr (Int.natCast_nonneg _)
    · exact sub_nonneg.mpr (inCents_le.mpr (Int.ofNat_le.mpr deferred_succ_le))
    · exact inCents_nonneg.mpr (Int.natCast_nonneg _)
  balance := List.forall_mem_map.mpr fun m _ => (sub_sub_cancel _ _).symm
  starts := by
    intro entry h
    rw [Option.mem_def, List.head?_eq_getElem?] at h
    rw [eq_of_getElem?_map_range h, plannedEntry, deferred]
  carried := by
    intro m entry next h h'
    rw [eq_of_getElem?_map_range h, eq_of_getElem?_map_range h', plannedEntry, plannedEntry]
  ends := by
    intro entry h
    rw [Option.mem_def, List.getLast?_eq_getElem?, List.length_map, List.length_range] at h
    rw [eq_of_getElem?_map_range h, plannedEntry, Nat.sub_add_cancel hduration,
      deferred_duration hduration, Nat.cast_zero, inCents_zero]
  sum := by
    rw [List.map_map]
    exact (sum_plannedEntry start durationMonths).trans
      (by rw [deferred_duration hduration, Nat.cast_zero, inCents_zero, sub_zero])

/-- **The deferred revenue schedule is exact**, for every total in whole cents. -/
theorem generateStraightLineSchedule_exact (total : ℕ) (startYear : ℤ) {startMonth : ℤ}
    (h₁ : 1 ≤ startMonth) (h₁₂ : startMonth ≤ 12) {durationMonths : ℕ}
    (hduration : 1 ≤ durationMonths) :
    ExactSchedule (inCents total) (startYear, startMonth) durationMonths
      (generateStraightLineSchedule (inCents total) startYear startMonth durationMonths) := by
  rw [generateStraightLineSchedule_eq h₁ h₁₂]
  exact planned_exact total _ hduration _

/-- A case: 100 dollars in three months, over the end of a year. -/
theorem generateStraightLineSchedule_exact_winter :
    ExactSchedule (inCents (10000 : ℕ)) (2024, 11) 3
      (generateStraightLineSchedule (inCents (10000 : ℕ)) 2024 11 3) :=
  generateStraightLineSchedule_exact 10000 2024 (by decide) (by decide) (by decide)

example : (generateStraightLineSchedule (inCents 10000) 2024 11 3).map
    (fun e => (e.periodMonthYear, e.recognizedRevenueUSD)) =
      [(js "2024-11", 3333 / 100), (js "2024-12", 3333 / 100), (js "2025-01", 3334 / 100)] := by
  decide +kernel

end Logix.Billing
