import Logix.Js.Map
import Logix.Spec.Slots
import Logix.Spec.Streak
import Mathlib.Algebra.Order.Ring.Rat
import Mathlib.Tactic.Linarith
import Mathlib.Tactic.Ring

/-!
# The cold chain

Five minutes are added to the excursion of a shipment for every reading out of range, whichever
sensor took it, and any reading in range ends the excursion. So a sensor can end the excursion that
another one reads. Numbers are rational.

* `ColdChainTemperatureSensorMonitor.ingestReading`: the code, and the machine of its runs under one
  threshold;
* `monitorMachine_slotted`: every shipment has an excursion of its own;
* `Overdue`: the last readings are out of range, and enough of them; **`critical_iff`**: a reading
  is critical exactly when those of its shipment are overdue;
* **`excursionReported_iff`**: when this reports the excursions that a sensor reads.
-/

namespace Logix.Logistics

open Spec

/-- `ITemperatureReading`: what the monitor reads of it, and its sensor. -/
structure ITemperatureReading where
  sensorId : String
  shipmentId : String
  temperatureCelsius : ℚ
  deriving DecidableEq, Repr

/-- `IColdChainThreshold`. -/
structure IColdChainThreshold where
  minTempCelsius : ℚ
  maxTempCelsius : ℚ
  maxExcursionMinutes : ℚ
  deriving DecidableEq, Repr

/-- `alertSeverity`. -/
inductive AlertSeverity where
  | WARNING | CRITICAL
  deriving DecidableEq, Repr

/-- What `ingestReading` returns. -/
structure ReadingResult where
  isWithinRange : Bool
  alertSeverity : Option AlertSeverity
  deriving DecidableEq, Repr

/-- **`ColdChainTemperatureSensorMonitor`.** -/
structure ColdChainTemperatureSensorMonitor where
  excursions : JsMap String ℚ

/-- `isExcursion`. -/
def IColdChainThreshold.isExcursion (threshold : IColdChainThreshold)
    (reading : ITemperatureReading) : Bool :=
  decide (reading.temperatureCelsius < threshold.minTempCelsius) ||
    decide (threshold.maxTempCelsius < reading.temperatureCelsius)

namespace ColdChainTemperatureSensorMonitor

/-- `new ColdChainTemperatureSensorMonitor()`. -/
def new : ColdChainTemperatureSensorMonitor := ⟨.empty⟩

/-- `this.excursions.get(shipmentId) || 0`. -/
def minutes (shipmentId : String) (s : ColdChainTemperatureSensorMonitor) : ℚ :=
  (s.excursions.get shipmentId).getD 0

/-- **`ingestReading(reading, threshold)`.** -/
def ingestReading (s : ColdChainTemperatureSensorMonitor) (reading : ITemperatureReading)
    (threshold : IColdChainThreshold) : ColdChainTemperatureSensorMonitor × ReadingResult :=
  if ¬ threshold.isExcursion reading then
    (⟨s.excursions.delete reading.shipmentId⟩, { isWithinRange := true, alertSeverity := none })
  else
    let currentExcursionMinutes := s.minutes reading.shipmentId + 5
    (⟨s.excursions.set reading.shipmentId currentExcursionMinutes⟩,
      { isWithinRange := false
        alertSeverity := some (if threshold.maxExcursionMinutes ≤ currentExcursionMinutes
          then .CRITICAL else .WARNING) })

end ColdChainTemperatureSensorMonitor

open ColdChainTemperatureSensorMonitor

variable {threshold : IColdChainThreshold}

/-- The runs of the monitor under one threshold. -/
def monitorMachine (threshold : IColdChainThreshold) :
    Machine ColdChainTemperatureSensorMonitor ITemperatureReading ReadingResult where
  call reading s := s.ingestReading reading threshold

/-- The monitor after a stream of readings. -/
def monitorAfter (threshold : IColdChainThreshold) (readings : List ITemperatureReading) :
    ColdChainTemperatureSensorMonitor :=
  (monitorMachine threshold).run new readings

/-! ## One shipment -/

/-- **The excursion of one shipment**, in minutes. -/
def excursion (threshold : IColdChainThreshold) : Machine ℚ ITemperatureReading ReadingResult where
  call reading minutes :=
    if threshold.isExcursion reading then
      (minutes + 5, ⟨false, some (if threshold.maxExcursionMinutes ≤ minutes + 5
        then .CRITICAL else .WARNING)⟩)
    else (0, ⟨true, none⟩)

/-- **Every shipment has an excursion of its own.** -/
theorem monitorMachine_slotted (threshold : IColdChainThreshold) :
    (monitorMachine threshold).Slotted (excursion threshold) ITemperatureReading.shipmentId
      minutes where
  own s reading := by
    simp only [Machine.next, monitorMachine, ingestReading, excursion]
    cases threshold.isExcursion reading with
    | true => simp [minutes, JsMap.get_set_self]
    | false => simp [minutes, JsMap.get_delete]
  other s reading shipmentId h := by
    simp only [Machine.next, monitorMachine, ingestReading]
    cases threshold.isExcursion reading with
    | true => simp [minutes, JsMap.get_set_ne h]
    | false => simp [minutes, JsMap.get_delete, h]

theorem excursion_run (readings : List ITemperatureReading) :
    (excursion threshold).run 0 readings = 5 * streak threshold.isExcursion readings := by
  induction readings using List.reverseRecOn with
  | nil => simp
  | append_singleton readings reading ih =>
    rw [Machine.run_concat, ih]
    by_cases h : threshold.isExcursion reading = true
    · simp only [Machine.next, excursion, if_pos h, streak_concat_of_pos h]
      push_cast
      ring
    · simp only [Machine.next, excursion, if_neg h, streak_concat_of_neg h]
      simp

/-! ## Overdue excursions -/

/-- **An excursion is overdue**: the last readings are out of range, and enough of them. -/
def Overdue (threshold : IColdChainThreshold) (readings : List ITemperatureReading) : Prop :=
  ∃ k : ℕ, 1 ≤ k ∧ threshold.maxExcursionMinutes ≤ 5 * k ∧
    LastAll threshold.isExcursion k readings

theorem overdue_iff {readings : List ITemperatureReading} : Overdue threshold readings ↔
    1 ≤ streak threshold.isExcursion readings ∧
      threshold.maxExcursionMinutes ≤ 5 * streak threshold.isExcursion readings := by
  constructor
  · rintro ⟨k, hk, hmax, hlast⟩
    have hle : k ≤ streak threshold.isExcursion readings := lastAll_iff.mp hlast
    have hcast : (k : ℚ) ≤ streak threshold.isExcursion readings := Nat.cast_le.mpr hle
    exact ⟨hk.trans hle, by linarith⟩
  · exact fun ⟨hpos, hmax⟩ => ⟨_, hpos, hmax, lastAll_iff.mpr le_rfl⟩

/-- The readings of a sensor. -/
def ofSensor (sensorId : String) (readings : List ITemperatureReading) :
    List ITemperatureReading :=
  readings.filter fun reading => reading.sensorId = sensorId

/-- The readings of a shipment. -/
def ofShipment (shipmentId : String) (readings : List ITemperatureReading) :
    List ITemperatureReading :=
  readings.filter fun reading => reading.shipmentId = shipmentId

variable {readings : List ITemperatureReading} {reading : ITemperatureReading}

/-- The reading is reported critical after the others. -/
def IsCritical (threshold : IColdChainThreshold) (readings : List ITemperatureReading)
    (reading : ITemperatureReading) : Prop :=
  ((monitorAfter threshold readings).ingestReading reading threshold).2.alertSeverity =
    some .CRITICAL

/-- **A reading is critical** exactly when the readings of its shipment are overdue. -/
theorem critical_iff : IsCritical threshold readings reading ↔
    Overdue threshold (ofShipment reading.shipmentId (readings ++ [reading])) := by
  have hslotted := monitorMachine_slotted threshold
  have hminutes : (monitorAfter threshold readings).minutes reading.shipmentId =
      5 * streak threshold.isExcursion (ofShipment reading.shipmentId readings) := by
    rw [monitorAfter, hslotted.slot_run]
    exact excursion_run _
  have hconcat : ofShipment reading.shipmentId (readings ++ [reading]) =
      ofShipment reading.shipmentId readings ++ [reading] := by
    simp [ofShipment]
  rw [overdue_iff, hconcat, IsCritical, ingestReading, hminutes]
  by_cases h : threshold.isExcursion reading = true
  · rw [if_neg (not_not.mpr h), streak_concat_of_pos h, Nat.cast_succ, mul_add, mul_one,
      and_iff_right (Nat.le_add_left 1 _)]
    dsimp only
    split_ifs with hmax
    · exact iff_of_true rfl hmax
    · exact iff_of_false (by simp) hmax
  · rw [if_pos h, streak_concat_of_neg h]
    exact iff_of_false (by simp) (by simp)

/-- **The excursion that a sensor reads is reported**: where its last `k` readings are out of range,
and `k` are enough, the last of them is critical. -/
def ExcursionReported (threshold : IColdChainThreshold) (readings : List ITemperatureReading)
    (reading : ITemperatureReading) : Prop :=
  ∀ k : ℕ, 1 ≤ k → threshold.maxExcursionMinutes ≤ 5 * k →
    LastAll threshold.isExcursion k (ofSensor reading.sensorId (readings ++ [reading])) →
      IsCritical threshold readings reading

/-- **The excursion that a sensor reads is reported** exactly when it is one of the whole shipment,
or not overdue. -/
theorem excursionReported_iff (threshold : IColdChainThreshold)
    (readings : List ITemperatureReading) (reading : ITemperatureReading) :
    ExcursionReported threshold readings reading ↔
      (Overdue threshold (ofSensor reading.sensorId (readings ++ [reading])) →
        Overdue threshold (ofShipment reading.shipmentId (readings ++ [reading]))) := by
  rw [← critical_iff, ExcursionReported]
  constructor
  · exact fun h ⟨k, hk, hmax, hlast⟩ => h k hk hmax hlast
  · exact fun h k hk hmax hlast => h ⟨k, hk, hmax, hlast⟩

/-- A reading of a sensor in the container `C-1`. -/
def readingAt (sensorId : String) (temperatureCelsius : ℚ) : ITemperatureReading :=
  ⟨sensorId, "C-1", temperatureCelsius⟩

/-- **An excursion is hidden**: the sensor at the door reads ten degrees twice, and the one at the
rear reads four degrees in between. -/
theorem excursion_hidden : ¬ ∀ (threshold : IColdChainThreshold)
    (readings : List ITemperatureReading) (reading : ITemperatureReading),
    ExcursionReported threshold readings reading := fun h => by
  have hcritical := h ⟨2, 8, 10⟩ [readingAt "door" 10, readingAt "rear" 4] (readingAt "door" 10) 2
    (by decide) (by norm_num) (by decide +kernel)
  rw [IsCritical] at hcritical
  exact absurd hcritical (by decide +kernel)

end Logix.Logistics
