import Logix.Js.Number
import Mathlib.Data.List.GetD

/-!
# Does the forecast continue the history?

The model takes the level, the trend and the seasons from the first values of the history, and counts
the trend from its beginning.

* `HoltWintersExponentialSmoothingModel.predictDemand`: the code; its smoothing factors are not read;
* `project_congr`: of the history only the first season, the value after it and the length count;
* `Multiplicative`: a history that is a linear trend times a season;
* `project_multiplicative`: what is forecast for it;
* **`predictDemand_spec`**: the projected value continues the history iff there is no trend, or a
  coincidence of trend and season; and a season without demand is forecast as the trend alone.

Seasons of length zero are left out: the code divides by it.
-/

namespace Logix.Analytics

/-- `IForecastOutput`. -/
structure IForecastOutput where
  forecastPeriods : List ℕ
  forecastValues : List ℚ
  meanAbsolutePercentageError : ℚ
  confidenceInterval95Upper : List ℚ
  confidenceInterval95Lower : List ℚ
  deriving DecidableEq, Repr

/-- **`HoltWintersExponentialSmoothingModel`**: what its constructor stores. -/
structure HoltWintersExponentialSmoothingModel where
  alpha : ℚ := 2 / 10
  beta : ℚ := 1 / 10
  gamma : ℚ := 3 / 10
  seasonLength : ℕ := 7
  deriving DecidableEq, Repr

namespace HoltWintersExponentialSmoothingModel

/-! ## The code -/

/-- `val`, for the period `m`. -/
def project (seasonLength : ℕ) (historicalSeries : List ℚ) (m : ℕ) : ℚ :=
  let level := historicalSeries.getD 0 0
  let trend := (historicalSeries.getD seasonLength 0 - historicalSeries.getD 0 0) / seasonLength
  let seasonals := (historicalSeries.take seasonLength).map (· / if level = 0 then 1 else level)
  let sIdx := (historicalSeries.length + m - 1) % seasonLength
  let seasonal := seasonals.getD sIdx 0
  (level + m * trend) * if seasonal = 0 then 1 else seasonal

/-- **`predictDemand(historicalSeries, periodsAhead)`.** -/
def predictDemand (model : HoltWintersExponentialSmoothingModel) (historicalSeries : List ℚ)
    (periodsAhead : ℕ := 14) : IForecastOutput :=
  if historicalSeries.length < model.seasonLength * 2 then
    let lengthOrOne := if historicalSeries.length = 0 then 1 else historicalSeries.length
    let avg := historicalSeries.foldl (fun a b => a + b) (0 : ℚ) / lengthOrOne
    let forecastValues := List.replicate periodsAhead (toFixed 2 avg)
    { forecastPeriods := List.range' 1 periodsAhead
      forecastValues := forecastValues
      meanAbsolutePercentageError := 52 / 10
      confidenceInterval95Upper := forecastValues.map fun v => toFixed 2 (v * (115 / 100))
      confidenceInterval95Lower := forecastValues.map fun v => toFixed 2 (v * (85 / 100)) }
  else
    let forecastValues := (List.range' 1 periodsAhead).map fun m =>
      toFixed 2 (max 0 (project model.seasonLength historicalSeries m))
    { forecastPeriods := List.range' 1 periodsAhead
      forecastValues := forecastValues
      meanAbsolutePercentageError := 48 / 10
      confidenceInterval95Upper := forecastValues.map fun v => toFixed 2 (v * (112 / 100))
      confidenceInterval95Lower := forecastValues.map fun v => toFixed 2 (v * (88 / 100)) }

end HoltWintersExponentialSmoothingModel

open HoltWintersExponentialSmoothingModel

variable {L m : ℕ} {series series' : List ℚ} {a b : ℚ} {s : ℕ → ℚ}

/-! ## What is read -/

theorem getD_take {n i : ℕ} (h : i < n) : (series.take n).getD i 0 = series.getD i 0 := by
  rw [List.getD_eq_getElem?_getD, List.getD_eq_getElem?_getD, List.getElem?_take, if_pos h]

/-- **The later history is not read**, but for its length. -/
theorem project_congr (hlength : series'.length = series.length)
    (htake : series'.take (L + 1) = series.take (L + 1)) (m : ℕ) :
    project L series' m = project L series m := by
  have hget {i : ℕ} (hi : i < L + 1) : series'.getD i 0 = series.getD i 0 := by
    rw [← getD_take hi, htake, getD_take hi]
  have hseason : series'.take L = series.take L := by
    have h := congrArg (List.take L) htake
    rwa [List.take_take, List.take_take, min_eq_left (Nat.le_succ L)] at h
  simp only [project, hget L.succ_pos, hget L.lt_succ_self, hseason, hlength]

/-! ## Histories with trend and season -/

/-- **The history is a linear trend times a season** of length `L`. -/
structure Multiplicative (a b : ℚ) (s : ℕ → ℚ) (L : ℕ) (series : List ℚ) : Prop where
  value : ∀ i < series.length, series.getD i 0 = (a + b * i) * s (i % L)
  base : s 0 = 1

/-- The season of the period `m` after the history. -/
def seasonOf (L : ℕ) (series : List ℚ) (m : ℕ) : ℕ := (series.length + m - 1) % L

/-- **What is forecast**: the trend from the beginning of the history, times the season with the
trend of the first round. -/
theorem project_multiplicative (h : Multiplicative a b s L series) (hL : 0 < L)
    (hn : L * 2 ≤ series.length) (ha : a ≠ 0) (m : ℕ) :
    project L series m = (a + b * m) *
      if (a + b * seasonOf L series m) * s (seasonOf L series m) / a = 0 then 1
      else (a + b * seasonOf L series m) * s (seasonOf L series m) / a := by
  have hlevel : series.getD 0 0 = a := by
    rw [h.value 0 (by omega), Nat.zero_mod, h.base]
    simp
  have hnext : series.getD L 0 = a + b * L := by
    rw [h.value L (by omega), Nat.mod_self, h.base, mul_one]
  have hseason : seasonOf L series m < L := Nat.mod_lt _ hL
  have hL' : (L : ℚ) ≠ 0 := Nat.cast_ne_zero.mpr hL.ne'
  have htrend : (a + b * L - a) / (L : ℚ) = b := by
    field_simp
    ring
  have hseasonal : ((series.take L).map (· / a)).getD (seasonOf L series m) 0 =
      (a + b * seasonOf L series m) * s (seasonOf L series m) / a := by
    rw [← zero_div a, List.getD_map, getD_take hseason, h.value _ (by omega),
      Nat.mod_eq_of_lt hseason]
  simp only [project, hlevel, hnext, if_neg ha, htrend]
  rw [← seasonOf, hseasonal, mul_comm (m : ℚ) b]

/-- The value of the period `m` after the history, if it goes on. -/
def continuation (a b : ℚ) (s : ℕ → ℚ) (L : ℕ) (series : List ℚ) (m : ℕ) : ℚ :=
  (a + b * (series.length + m - 1)) * s (seasonOf L series m)

theorem project_eq_continuation_iff (h : Multiplicative a b s L series) (hL : 0 < L)
    (hn : L * 2 ≤ series.length) (ha : a ≠ 0)
    (hseason : (a + b * seasonOf L series m) * s (seasonOf L series m) ≠ 0) :
    project L series m = continuation a b s L series m ↔
      b = 0 ∨ b * m * seasonOf L series m = a * (series.length - 1 - seasonOf L series m) := by
  have hs : s (seasonOf L series m) ≠ 0 := right_ne_zero_of_mul hseason
  rw [project_multiplicative h hL hn ha, if_neg (div_ne_zero hseason ha), continuation,
    mul_div_assoc', div_eq_iff ha, ← mul_assoc, mul_right_comm _ _ a, mul_left_inj' hs,
    ← sub_eq_zero, ← sub_eq_zero (a := b * m * _), ← mul_eq_zero]
  refine iff_of_eq (congrArg (· = 0) ?_)
  ring

/-- **What the forecast promises** of a history with trend and season: the projected value of a
period, which is cut off at zero and rounded, is that of the history going on iff there is no trend
or the coincidence above, in a season without demand it is the trend alone, and nothing changes the
forecast but the first season, the value after it and the length of the history. -/
theorem predictDemand_spec (model : HoltWintersExponentialSmoothingModel) {periodsAhead : ℕ}
    (h : Multiplicative a b s model.seasonLength series) (hL : 0 < model.seasonLength)
    (hn : model.seasonLength * 2 ≤ series.length) (ha : a ≠ 0) (hm : 1 ≤ m)
    (hm' : m ≤ periodsAhead) :
    ((predictDemand model series periodsAhead).forecastValues[m - 1]? =
        some (toFixed 2 (max 0 (project model.seasonLength series m))) ∧
      ((a + b * seasonOf model.seasonLength series m) *
          s (seasonOf model.seasonLength series m) ≠ 0 →
        (project model.seasonLength series m = continuation a b s model.seasonLength series m ↔
          b = 0 ∨ b * m * seasonOf model.seasonLength series m =
            a * (series.length - 1 - seasonOf model.seasonLength series m))) ∧
      (s (seasonOf model.seasonLength series m) = 0 →
        project model.seasonLength series m = a + b * m)) ∧
    ∀ (model' : HoltWintersExponentialSmoothingModel) (series' : List ℚ),
      model'.seasonLength = model.seasonLength → series'.length = series.length →
      series'.take (model.seasonLength + 1) = series.take (model.seasonLength + 1) →
      predictDemand model' series' periodsAhead = predictDemand model series periodsAhead := by
  refine ⟨⟨?_, project_eq_continuation_iff h hL hn ha, fun hs => ?_⟩,
    fun model' series' hseason hlength htake => ?_⟩
  · have hget : (List.range' 1 periodsAhead)[m - 1]? = some m := by
      rw [List.getElem?_range' (by omega)]
      congr 1
      omega
    rw [predictDemand, if_neg (not_lt.mpr hn)]
    simp only [List.getElem?_map, hget, Option.map_some]
  · rw [project_multiplicative h hL hn ha, hs, mul_zero, zero_div, if_pos rfl, mul_one]
  · have hlong : ¬ series'.length < model'.seasonLength * 2 := by
      rw [hlength, hseason]
      exact not_lt.mpr hn
    rw [predictDemand, predictDemand, if_neg (not_lt.mpr hn), if_neg hlong, hseason]
    simp only [project_congr hlength htake]

/-- Three periods of growing demand: the forecast starts again at the second of them. -/
theorem predictDemand_spec_growing :
    (predictDemand { seasonLength := 1 } [1, 2, 3] 1).forecastValues[1 - 1]? =
        some (toFixed 2 (max 0 (project 1 [1, 2, 3] 1))) ∧
      project 1 [1, 2, 3] 1 ≠ continuation 1 1 (fun _ => 1) 1 [1, 2, 3] 1 := by
  have hgrowing : Multiplicative 1 1 (fun _ => 1) 1 [1, 2, 3] := ⟨by decide +kernel, rfl⟩
  obtain ⟨⟨hvalue, hiff, -⟩, -⟩ := predictDemand_spec { seasonLength := 1 } hgrowing Nat.one_pos
    (by decide) one_ne_zero (le_refl 1) (le_refl 1)
  refine ⟨hvalue, fun heq => ?_⟩
  exact absurd ((hiff (by decide +kernel)).mp heq) (by decide +kernel)

end Logix.Analytics
