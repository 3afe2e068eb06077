import Logix.Js.Date
import Logix.Js.Extended

/-!
# Engine readings

A raw packet is parsed with a default for every field that is missing, and a field that is zero or
empty counts as missing.

* `CanBusEngineDiagnosticParser.parsePacket`, `detectImmediateMaintenanceRequired`: the code;
* `Dangerous`: what the raw packet says;
* `detect_parsePacket_iff`: what is detected of the parsed packet;
* **`readingsUnmasked_iff`**: the two agree except for an empty tank of exhaust fluid.
-/

namespace Logix.Logistics

/-- A trouble code of a raw packet. -/
structure RawDtc where
  spn : Option JsNumber
  fmi : Option JsNumber
  occurrenceCount : Option JsNumber
  lampStatus : Option String
  description : Option String
  deriving DecidableEq, Repr

/-- `rawPayload`. -/
structure RawPayload where
  vehicleId : Option String
  vin : Option String
  engineRpm : Option JsNumber
  vehicleSpeedKmh : Option JsNumber
  engineCoolantTempCelsius : Option JsNumber
  fuelLevelPct : Option JsNumber
  defLevelPct : Option JsNumber
  instantaneousFuelEconomyKmL : Option JsNumber
  odometerKm : Option JsNumber
  engineRunHours : Option JsNumber
  activeDtcs : Option (List RawDtc)
  deriving DecidableEq, Repr

/-- `IDtcFaultCode`. -/
structure IDtcFaultCode where
  spn : JsNumber
  fmi : JsNumber
  occurrenceCount : JsNumber
  lampStatus : String
  description : String
  deriving DecidableEq, Repr

/-- `ICanBusTelemetryPacket`. -/
structure ICanBusTelemetryPacket where
  vehicleId : String
  vin : String
  engineRpm : JsNumber
  vehicleSpeedKmh : JsNumber
  engineCoolantTempCelsius : JsNumber
  fuelLevelPct : JsNumber
  defLevelPct : JsNumber
  instantaneousFuelEconomyKmL : JsNumber
  odometerKm : JsNumber
  engineRunHours : JsNumber
  activeDtcs : List IDtcFaultCode
  timestamp : JsDate
  deriving DecidableEq, Repr

/-- `field || value` of a field that holds a number or is missing. -/
def numberOr (field : Option JsNumber) (value : ℚ) : JsNumber :=
  (field.getD .nan).orElse (.num value)

/-- `field || value` of a field that holds a text or is missing. -/
def textOr (field : Option String) (value : String) : String :=
  match field with
  | none => value
  | some text => if text = "" then value else text

namespace CanBusEngineDiagnosticParser

/-- A parsed trouble code. -/
def parseDtc (d : RawDtc) : IDtcFaultCode where
  spn := numberOr d.spn 110
  fmi := numberOr d.fmi 0
  occurrenceCount := numberOr d.occurrenceCount 1
  lampStatus := textOr d.lampStatus "WARNING"
  description := textOr d.description "Engine Coolant Temperature High"

/-- **`parsePacket(rawPayload)`**, with the reading of `new Date()`. -/
def parsePacket (rawPayload : RawPayload) (now : JsDate) : ICanBusTelemetryPacket where
  vehicleId := textOr rawPayload.vehicleId "TRK-9001"
  vin := textOr rawPayload.vin "1M8GDM9AXKP042788"
  engineRpm := numberOr rawPayload.engineRpm 1450
  vehicleSpeedKmh := numberOr rawPayload.vehicleSpeedKmh (885 / 10)
  engineCoolantTempCelsius := numberOr rawPayload.engineCoolantTempCelsius 87
  fuelLevelPct := numberOr rawPayload.fuelLevelPct (742 / 10)
  defLevelPct := numberOr rawPayload.defLevelPct 89
  instantaneousFuelEconomyKmL := numberOr rawPayload.instantaneousFuelEconomyKmL (34 / 10)
  odometerKm := numberOr rawPayload.odometerKm (1489205 / 10)
  engineRunHours := numberOr rawPayload.engineRunHours (42802 / 10)
  activeDtcs := (rawPayload.activeDtcs.getD []).map parseDtc
  timestamp := now

/-- **`detectImmediateMaintenanceRequired(packet)`.** -/
def detectImmediateMaintenanceRequired (packet : ICanBusTelemetryPacket) : Bool :=
  if (JsNumber.num 105).lt packet.engineCoolantTempCelsius then true
  else if packet.defLevelPct.lt (.num 5) then true
  else packet.activeDtcs.any fun d => d.lampStatus = "STOP_ENGINE"

end CanBusEngineDiagnosticParser

open CanBusEngineDiagnosticParser

/-! ## What the raw packet says -/

/-- All numeric fields hold a number. -/
structure RawPayload.NumbersPresent (raw : RawPayload) : Prop where
  engineRpm : raw.engineRpm.isSome
  vehicleSpeedKmh : raw.vehicleSpeedKmh.isSome
  engineCoolantTempCelsius : raw.engineCoolantTempCelsius.isSome
  fuelLevelPct : raw.fuelLevelPct.isSome
  defLevelPct : raw.defLevelPct.isSome
  instantaneousFuelEconomyKmL : raw.instantaneousFuelEconomyKmL.isSome
  odometerKm : raw.odometerKm.isSome
  engineRunHours : raw.engineRunHours.isSome

/-- The coolant is above 105 degrees. -/
def RawPayload.Overheated (raw : RawPayload) : Prop :=
  ∃ x ∈ raw.engineCoolantTempCelsius, (JsNumber.num 105).lt x = true

/-- The exhaust fluid is below 5 percent. -/
def RawPayload.FluidLow (raw : RawPayload) : Prop :=
  ∃ x ∈ raw.defLevelPct, x.lt (.num 5) = true

/-- Some trouble code stops the engine. -/
def RawPayload.StopsEngine (raw : RawPayload) : Prop :=
  ∃ d ∈ raw.activeDtcs.getD [], d.lampStatus = some "STOP_ENGINE"

/-- **The raw packet asks for maintenance.** -/
def RawPayload.Dangerous (raw : RawPayload) : Prop :=
  raw.Overheated ∨ raw.FluidLow ∨ raw.StopsEngine

/-- **No dangerous reading is masked**: maintenance is required of the parsed packet exactly when
the raw one asks for it. -/
def ReadingsUnmasked (raw : RawPayload) : Prop :=
  ∀ now, detectImmediateMaintenanceRequired (parsePacket raw now) = true ↔ raw.Dangerous

/-! ## What the defaults do -/

theorem textOr_eq_iff {field : Option String} {value text : String} (hvalue : value ≠ text)
    (htext : text ≠ "") : textOr field value = text ↔ field = some text := by
  cases field with
  | none => exact iff_of_false hvalue (by simp)
  | some s =>
    rw [textOr, Option.some_inj]
    split_ifs with h
    · exact iff_of_false hvalue (h ▸ Ne.symm htext)
    · rfl

/-- **A number that passes a test**, with a default that fails it, is seen unless it is zero. -/
theorem test_numberOr_iff {p : JsNumber → Bool} {value : ℚ} (hvalue : p (.num value) = false)
    (hnan : p .nan = false) (field : Option JsNumber) : p (numberOr field value) = true ↔
      (∃ x ∈ field, p x = true) ∧ field ≠ some (.num 0) := by
  cases field with
  | none => simp [numberOr, JsNumber.orElse, hvalue]
  | some x =>
    cases x with
    | num x =>
      by_cases hx : x = 0
      · simp [numberOr, JsNumber.orElse, hx, hvalue]
      · simp [numberOr, JsNumber.orElse, hx]
    | infinity negative => simp [numberOr, JsNumber.orElse]
    | nan => simp [numberOr, JsNumber.orElse, hvalue, hnan]

theorem overheated_iff (raw : RawPayload) :
    (JsNumber.num 105).lt (numberOr raw.engineCoolantTempCelsius 87) = true ↔ raw.Overheated := by
  rw [test_numberOr_iff rfl rfl]
  refine and_iff_left_of_imp ?_
  rintro ⟨x, hx, hhot⟩ hzero
  obtain rfl : x = .num 0 := Option.some.inj ((Option.mem_def.mp hx).symm.trans hzero)
  cases hhot

theorem fluidLow_iff (raw : RawPayload) : (numberOr raw.defLevelPct 89).lt (.num 5) = true ↔
    raw.FluidLow ∧ raw.defLevelPct ≠ some (.num 0) :=
  test_numberOr_iff (p := fun x => x.lt (.num 5)) rfl rfl raw.defLevelPct

theorem stopsEngine_iff (raw : RawPayload) (now : JsDate) :
    ((parsePacket raw now).activeDtcs.any fun d => d.lampStatus = "STOP_ENGINE") = true ↔
      raw.StopsEngine := by
  have hlamp : ∀ d : RawDtc, (parseDtc d).lampStatus = "STOP_ENGINE" ↔
      d.lampStatus = some "STOP_ENGINE" := fun d => textOr_eq_iff (by decide) (by decide)
  simp only [parsePacket, List.any_map, List.any_eq_true, Function.comp_apply, decide_eq_true_eq,
    hlamp]
  rfl

/-- **What is detected of the parsed packet.** -/
theorem detect_parsePacket_iff (raw : RawPayload) (now : JsDate) :
    detectImmediateMaintenanceRequired (parsePacket raw now) = true ↔
      raw.Overheated ∨ (raw.FluidLow ∧ raw.defLevelPct ≠ some (.num 0)) ∨ raw.StopsEngine := by
  rw [← overheated_iff, ← fluidLow_iff, ← stopsEngine_iff raw now,
    detectImmediateMaintenanceRequired]
  split_ifs with hhot hlow
  · exact iff_of_true rfl (Or.inl hhot)
  · exact iff_of_true rfl (Or.inr (Or.inl hlow))
  · exact ⟨fun h => Or.inr (Or.inr h), fun h => (h.resolve_left hhot).resolve_left hlow⟩

/-- **No reading is masked exactly when** the fluid level is not zero, or the coolant or a trouble
code asks for maintenance anyway. -/
theorem readingsUnmasked_iff (raw : RawPayload) : ReadingsUnmasked raw ↔
    raw.defLevelPct ≠ some (.num 0) ∨ raw.Overheated ∨ raw.StopsEngine := by
  simp only [ReadingsUnmasked, detect_parsePacket_iff, RawPayload.Dangerous, forall_const]
  by_cases hzero : raw.defLevelPct = some (.num 0)
  · have hlow : raw.FluidLow := ⟨.num 0, hzero, rfl⟩
    simp [hzero, hlow]
  · simp [hzero]

/-- A packet of an engine at rest. -/
def atRest (defLevelPct : ℚ) : RawPayload where
  vehicleId := some "TRK-1"
  vin := none
  engineRpm := some (.num 0)
  vehicleSpeedKmh := some (.num 0)
  engineCoolantTempCelsius := some (.num 20)
  fuelLevelPct := some (.num 50)
  defLevelPct := some (.num defLevelPct)
  instantaneousFuelEconomyKmL := some (.num 0)
  odometerKm := some (.num 1000)
  engineRunHours := some (.num 10)
  activeDtcs := some []

theorem atRest_numbersPresent (defLevelPct : ℚ) : (atRest defLevelPct).NumbersPresent :=
  ⟨rfl, rfl, rfl, rfl, rfl, rfl, rfl, rfl⟩

/-- **An empty tank reads as 89 percent.** -/
theorem empty_tank_masked : ¬ ∀ raw : RawPayload, raw.NumbersPresent → ReadingsUnmasked raw :=
  fun h => by
    have hdetect := (h (atRest 0) (atRest_numbersPresent 0) 0).mpr
      (Or.inr (Or.inl ⟨.num 0, rfl, rfl⟩))
    exact absurd hdetect (by decide +kernel)

end Logix.Logistics
