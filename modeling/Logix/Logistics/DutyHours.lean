import Mathlib.Algebra.Order.Ring.Int
import Logix.Spec.Grouping

/-!
# Hours of service

Two engines tell a driver when the next break is due: one counts the driving minutes since the last
multiple of eight hours, the other those that are left of the first eight hours. Minutes are whole.

* `evaluateDriverCompliance`, `validateBreakCompliance`: the code;
* `drivingMinutes`, `onDutyMinutes`: what the logs add up to;
* `requiresBreakInMinutes_eq`, `minutesUntilMandatoryBreak_eq`: the two answers;
* **`requiresBreakInMinutes_le_iff`**: the first is within the second before the eighth hour, and at
  the driving limit.
-/

namespace Logix.Logistics

open Spec

/-- `status` of a duty log. -/
inductive DutyStatus where
  | OFF_DUTY | SLEEPER_BERTH | DRIVING | ON_DUTY_NOT_DRIVING
  deriving DecidableEq, Repr

/-- `IDriverDutyLog`: what the engine reads of it. -/
structure IDriverDutyLog where
  status : DutyStatus
  durationMinutes : ℤ
  deriving DecidableEq, Repr

/-- `IHosComplianceStatus`. -/
structure IHosComplianceStatus where
  driverId : String
  drivingMinutesRemaining : ℤ
  shiftMinutesRemaining : ℤ
  cycleMinutesRemaining : ℤ
  requiresBreakInMinutes : ℤ
  isViolation : Bool
  activeViolations : List String
  deriving DecidableEq, Repr

namespace DriverHoursOfServiceComplianceEngine

/-- `MAX_DRIVING_MINUTES`. -/
def MAX_DRIVING_MINUTES : ℤ := 11 * 60

/-- `MAX_SHIFT_MINUTES`. -/
def MAX_SHIFT_MINUTES : ℤ := 14 * 60

/-- `MAX_CYCLE_MINUTES`. -/
def MAX_CYCLE_MINUTES : ℤ := 70 * 60

/-- `totalDrivingMinutes` and `totalOnDutyMinutes`. -/
structure DutyTotals where
  totalDrivingMinutes : ℤ
  totalOnDutyMinutes : ℤ
  deriving DecidableEq, Repr

/-- One round of the loop over the logs. -/
def addLog (totals : DutyTotals) (l : IDriverDutyLog) : DutyTotals :=
  if l.status = .DRIVING then
    ⟨totals.totalDrivingMinutes + l.durationMinutes, totals.totalOnDutyMinutes + l.durationMinutes⟩
  else if l.status = .ON_DUTY_NOT_DRIVING then
    { totals with totalOnDutyMinutes := totals.totalOnDutyMinutes + l.durationMinutes }
  else totals

/-- **`evaluateDriverCompliance(driverId, dutyLogs)`.** -/
def evaluateDriverCompliance (driverId : String) (dutyLogs : List IDriverDutyLog) :
    IHosComplianceStatus :=
  let ⟨totalDrivingMinutes, totalOnDutyMinutes⟩ := dutyLogs.foldl addLog ⟨0, 0⟩
  let activeViolations :=
    (if MAX_DRIVING_MINUTES < totalDrivingMinutes then ["11_HOUR_DRIVING_LIMIT_EXCEEDED"]
      else []) ++
    if MAX_SHIFT_MINUTES < totalOnDutyMinutes then ["14_HOUR_ON_DUTY_SHIFT_LIMIT_EXCEEDED"] else []
  let drivingRemaining := max 0 (MAX_DRIVING_MINUTES - totalDrivingMinutes)
  let shiftRemaining := max 0 (MAX_SHIFT_MINUTES - totalOnDutyMinutes)
  let cycleRemaining := max 0 (MAX_CYCLE_MINUTES - totalOnDutyMinutes)
  { driverId := driverId
    drivingMinutesRemaining := drivingRemaining
    shiftMinutesRemaining := shiftRemaining
    cycleMinutesRemaining := cycleRemaining
    requiresBreakInMinutes := min drivingRemaining (480 - totalDrivingMinutes.tmod 480)
    isViolation := decide (0 < activeViolations.length)
    activeViolations := activeViolations }

end DriverHoursOfServiceComplianceEngine

/-- `IRestBreakLog`: what the validator reads of it. -/
structure IRestBreakLog where
  durationMinutes : ℤ
  deriving DecidableEq, Repr

/-- What `validateBreakCompliance` returns. -/
structure BreakCompliance where
  isCompliant : Bool
  qualifyingRestMinutes : ℤ
  minutesUntilMandatoryBreak : ℤ
  deriving DecidableEq, Repr

namespace DriverMandatoryRestPeriodValidator

/-- **`validateBreakCompliance(continuousDrivingMinutes, breaks)`.** -/
def validateBreakCompliance (continuousDrivingMinutes : ℤ) (breaks : List IRestBreakLog) :
    BreakCompliance :=
  let qualifying := (breaks.filter fun b => 30 ≤ b.durationMinutes).foldl
    (fun sum b => sum + b.durationMinutes) 0
  { isCompliant := decide (continuousDrivingMinutes ≤ 480) || decide (30 ≤ qualifying)
    qualifyingRestMinutes := qualifying
    minutesUntilMandatoryBreak := max 0 (480 - continuousDrivingMinutes) }

end DriverMandatoryRestPeriodValidator

open DriverHoursOfServiceComplianceEngine DriverMandatoryRestPeriodValidator

/-- What the driving logs add up to. -/
def drivingMinutes (dutyLogs : List IDriverDutyLog) : ℤ :=
  (dutyLogs.map fun l => if l.status = .DRIVING then l.durationMinutes else 0).sum

/-- What the logs add up to that count as work. -/
def onDutyMinutes (dutyLogs : List IDriverDutyLog) : ℤ :=
  (dutyLogs.map fun l =>
    if l.status = .DRIVING ∨ l.status = .ON_DUTY_NOT_DRIVING then l.durationMinutes else 0).sum

theorem totalDrivingMinutes_addLog (totals : DutyTotals) (l : IDriverDutyLog) :
    (addLog totals l).totalDrivingMinutes =
      totals.totalDrivingMinutes + if l.status = .DRIVING then l.durationMinutes else 0 := by
  rcases l with ⟨_ | _ | _ | _, d⟩ <;> simp [addLog]

theorem totalOnDutyMinutes_addLog (totals : DutyTotals) (l : IDriverDutyLog) :
    (addLog totals l).totalOnDutyMinutes = totals.totalOnDutyMinutes +
      if l.status = .DRIVING ∨ l.status = .ON_DUTY_NOT_DRIVING then l.durationMinutes else 0 := by
  rcases l with ⟨_ | _ | _ | _, d⟩ <;> simp [addLog]

theorem foldl_addLog (dutyLogs : List IDriverDutyLog) :
    dutyLogs.foldl addLog ⟨0, 0⟩ = ⟨drivingMinutes dutyLogs, onDutyMinutes dutyLogs⟩ := by
  have hdriving := foldl_field_eq (g := DutyTotals.totalDrivingMinutes) totalDrivingMinutes_addLog
    dutyLogs ⟨0, 0⟩
  have honDuty := foldl_field_eq (g := DutyTotals.totalOnDutyMinutes) totalOnDutyMinutes_addLog
    dutyLogs ⟨0, 0⟩
  rw [zero_add] at hdriving honDuty
  rw [drivingMinutes, onDutyMinutes, ← hdriving, ← honDuty]

/-- **The first answer**: what is left of the driving limit, or until the next multiple of eight
hours. -/
theorem requiresBreakInMinutes_eq (driverId : String) (dutyLogs : List IDriverDutyLog) :
    (evaluateDriverCompliance driverId dutyLogs).requiresBreakInMinutes =
      min (max 0 (660 - drivingMinutes dutyLogs)) (480 - (drivingMinutes dutyLogs).tmod 480) := by
  rw [evaluateDriverCompliance, foldl_addLog]
  rfl

/-- **The second answer**: what is left of the first eight hours. -/
theorem minutesUntilMandatoryBreak_eq (minutes : ℤ) (breaks : List IRestBreakLog) :
    (validateBreakCompliance minutes breaks).minutesUntilMandatoryBreak = max 0 (480 - minutes) :=
  rfl

theorem drivingMinutes_of_driving {dutyLogs : List IDriverDutyLog}
    (h : ∀ l ∈ dutyLogs, l.status = .DRIVING) :
    drivingMinutes dutyLogs = (dutyLogs.map IDriverDutyLog.durationMinutes).sum :=
  congrArg List.sum (List.map_congr_left fun l hl => if_pos (h l hl))

/-- **The first engine tells of a break no later than the second exactly when** less than eight
hours were driven, or all of the driving limit. -/
theorem requiresBreakInMinutes_le_iff (driverId : String) (dutyLogs : List IDriverDutyLog) (T : ℤ)
    (hdriving : ∀ l ∈ dutyLogs, l.status = .DRIVING ∧ 0 ≤ l.durationMinutes)
    (htotal : (dutyLogs.map IDriverDutyLog.durationMinutes).sum = T) (hlimit : T ≤ 660) :
    (evaluateDriverCompliance driverId dutyLogs).requiresBreakInMinutes ≤
        (validateBreakCompliance T []).minutesUntilMandatoryBreak ↔
      T < 480 ∨ T = 660 := by
  have hnonneg : 0 ≤ T := htotal ▸ List.sum_nonneg
    (List.forall_mem_map.mpr fun l hl => (hdriving l hl).2)
  rw [requiresBreakInMinutes_eq, minutesUntilMandatoryBreak_eq,
    drivingMinutes_of_driving fun l hl => (hdriving l hl).1, htotal,
    Int.tmod_eq_emod_of_nonneg hnonneg]
  omega

/-- A case: five hours and two hours. -/
theorem requiresBreakInMinutes_le_iff_seven :
    (evaluateDriverCompliance "DRV-1" [⟨.DRIVING, 300⟩, ⟨.DRIVING, 120⟩]).requiresBreakInMinutes ≤
        (validateBreakCompliance 420 []).minutesUntilMandatoryBreak ↔
      (420 : ℤ) < 480 ∨ (420 : ℤ) = 660 :=
  requiresBreakInMinutes_le_iff "DRV-1" _ 420 (by decide) (by decide) (by decide)

/-- **Three more hours after eight**: the break is due, and the first engine tells of it in three
hours. -/
theorem eight_hours_told_late : ¬ ∀ (driverId : String) (dutyLogs : List IDriverDutyLog) (T : ℤ),
    (∀ l ∈ dutyLogs, l.status = .DRIVING ∧ 0 ≤ l.durationMinutes) →
      (dutyLogs.map IDriverDutyLog.durationMinutes).sum = T → T ≤ 660 →
        (evaluateDriverCompliance driverId dutyLogs).requiresBreakInMinutes ≤
          (validateBreakCompliance T []).minutesUntilMandatoryBreak := fun h =>
  absurd (h "DRV-1" [⟨.DRIVING, 480⟩] 480 (by decide) (by decide) (by decide)) (by decide)

end Logix.Logistics
