import Logix.Js.Number
import Logix.Spec.Grouping
import Logix.Spec.LinearTrend

/-!
# Demand projections

The slope of the least squares through a history is added to the mean of the history for every week
up to the projected one, and not for the weeks from the middle of the history on. Numbers are
rational; the square root is a parameter.

* `DeepAutoregressiveDemandForecastingEngine.generateForecast`: the code;
* `centre_linear`: on a linear history it is off by half the slope for every week, and one more;
* `Projects`: the units of a week;
* **`projects_iff`**: when rounding and the lower bound of ten units hide this.
-/

namespace Logix.Analytics

open Spec

/-- `IDemandHistoryPoint`: what the engine reads of it, and its week and SKU. -/
structure IDemandHistoryPoint where
  dateIso : String
  sku : String
  actualDemandUnits : ℚ
  deriving DecidableEq, Repr

/-- A projected week. -/
structure WeekProjection where
  weekNumber : ℕ
  projectedUnits : ℤ
  confidenceLow : ℤ
  confidenceHigh : ℤ
  deriving DecidableEq, Repr

namespace DeepAutoregressiveDemandForecastingEngine

variable (sqrt : ℚ → ℚ)

/-- `demands.length || 1`. -/
def lengthOrOne (demands : List ℚ) : ℚ := if demands.length = 0 then 1 else demands.length

/-- `mean`. -/
def mean (demands : List ℚ) : ℚ := demands.foldl (fun a b => a + b) 0 / lengthOrOne demands

/-- `stdDev`. -/
def stdDev (demands : List ℚ) : ℚ :=
  let variance := demands.foldl (fun acc curr => acc + (curr - mean demands) ^ 2) 0 /
    lengthOrOne demands
  if sqrt variance = 0 then 5 else sqrt variance

/-- `sumX`, `sumY`, `sumXY` and `sumX2`. -/
structure TrendSums where
  sumX : ℚ
  sumY : ℚ
  sumXY : ℚ
  sumX2 : ℚ
  deriving DecidableEq, Repr

/-- One round of the loop over the demands, with the demand and its index. -/
def addDemand (s : TrendSums) (e : ℚ × ℕ) : TrendSums where
  sumX := s.sumX + e.2
  sumY := s.sumY + e.1
  sumXY := s.sumXY + e.2 * e.1
  sumX2 := s.sumX2 + e.2 * e.2

/-- The linear trend slope. -/
def trendSlope (demands : List ℚ) : ℚ :=
  let n : ℚ := demands.length
  let s := demands.zipIdx.foldl addDemand ⟨0, 0, 0, 0⟩
  if 1 < demands.length then (n * s.sumXY - s.sumX * s.sumY) / (n * s.sumX2 - s.sumX * s.sumX)
  else 0

/-- The projection of a week. -/
def project (demands : List ℚ) (w : ℕ) : WeekProjection :=
  let proj := max 10 (mathRound (mean demands + trendSlope demands * (demands.length + w)))
  { weekNumber := w
    projectedUnits := proj
    confidenceLow := max 0 (mathRound (proj - 196 / 100 * stdDev sqrt demands))
    confidenceHigh := mathRound (proj + 196 / 100 * stdDev sqrt demands) }

/-- **`generateForecast(series, forecastWeeks)`.** -/
def generateForecast (series : List IDemandHistoryPoint) (forecastWeeks : ℕ := 4) :
    List WeekProjection :=
  if series.length = 0 then []
  else
    let demands := series.map IDemandHistoryPoint.actualDemandUnits
    (List.range' 1 forecastWeeks).map (project sqrt demands)

end DeepAutoregressiveDemandForecastingEngine

open DeepAutoregressiveDemandForecastingEngine

variable {sqrt : ℚ → ℚ} {a b : ℚ} {demands : List ℚ}

theorem foldl_addDemand (es : List (ℚ × ℕ)) : es.foldl addDemand ⟨0, 0, 0, 0⟩ =
    { sumX := (es.map fun e => (e.2 : ℚ)).sum
      sumY := (es.map fun e => e.1).sum
      sumXY := (es.map fun e => (e.2 : ℚ) * e.1).sum
      sumX2 := (es.map fun e => (e.2 : ℚ) * e.2).sum } := by
  induction es using List.reverseRecOn with
  | nil => rfl
  | append_singleton es e ih => simp [addDemand, ih]

theorem trendSlope_eq (h : 2 ≤ demands.length) : trendSlope demands = Spec.slope demands := by
  rw [trendSlope, if_pos (Nat.lt_of_succ_le h), foldl_addDemand, Spec.slope]

theorem mean_eq (h : demands ≠ []) : mean demands = demands.sum / demands.length := by
  have hlength : demands.length ≠ 0 := List.length_eq_zero_iff.not.mpr h
  rw [mean, lengthOrOne, if_neg hlength, foldl_add_eq (fun x => x), zero_add, List.map_id']

/-- **What is rounded for the week `w`** on a linear history: not the value of that week, but half
the slope more for every week of the history, and for one more. -/
theorem centre_linear (h : Linear a b demands) (hn : 2 ≤ demands.length) (w : ℕ) :
    mean demands + trendSlope demands * (demands.length + w) =
      a + b * (demands.length - 1 + w) + b * (demands.length + 1) / 2 := by
  have hne : demands ≠ [] := List.ne_nil_of_length_pos (Nat.zero_lt_of_lt hn)
  rw [mean_eq hne, trendSlope_eq hn, h.mean hne, h.slope hn]
  ring

/-- **The forecast projects `units` for the week `w`.** -/
def Projects (forecast : List WeekProjection) (w : ℕ) (units : ℤ) : Prop :=
  ∃ p, forecast[w - 1]? = some p ∧ p.weekNumber = w ∧ p.projectedUnits = units

theorem projects_generateForecast_iff {series : List IDemandHistoryPoint} {forecastWeeks w : ℕ}
    {units : ℤ} (hseries : series ≠ []) (h₁ : 1 ≤ w) (hw : w ≤ forecastWeeks) :
    Projects (generateForecast sqrt series forecastWeeks) w units ↔
      (project sqrt (series.map IDemandHistoryPoint.actualDemandUnits) w).projectedUnits =
        units := by
  have hget : (generateForecast sqrt series forecastWeeks)[w - 1]? =
      some (project sqrt (series.map IDemandHistoryPoint.actualDemandUnits) w) := by
    rw [generateForecast, if_neg (List.length_eq_zero_iff.not.mpr hseries), List.getElem?_map,
      List.getElem?_range' (by omega), Option.map_some, Nat.one_mul, Nat.add_sub_cancel' h₁]
  rw [Projects, hget]
  constructor
  · rintro ⟨p, hp, -, hunits⟩
    rwa [Option.some.inj hp]
  · exact fun hunits => ⟨_, rfl, rfl, hunits⟩

/-- Rounding and the bound hide a difference `x` of less than a half, and at the bound any one that
is not above. -/
theorem max_mathRound_eq_iff {k : ℤ} {x : ℚ} (hk : 10 ≤ k) :
    max 10 (mathRound (k + x)) = k ↔ x < 1 / 2 ∧ (-(1 / 2) ≤ x ∨ k = 10) := by
  have hround : mathRound (k + x) = k + mathRound x := by
    rw [mathRound, mathRound, add_assoc, Int.floor_intCast_add]
  have hle : mathRound x ≤ 0 ↔ x < 1 / 2 := by
    rw [mathRound, ← Int.lt_add_one_iff, zero_add, Int.floor_lt]
    constructor <;> intro h <;> push_cast at * <;> linarith
  have hge : 0 ≤ mathRound x ↔ -(1 / 2) ≤ x := by
    rw [mathRound, Int.floor_nonneg]
    constructor <;> intro h <;> linarith
  rw [hround, ← hle, ← hge]
  omega

/-- **A week is projected right** exactly when half the slope for every week of the history, and for
one more, is lost in rounding; at ten units it may also be negative. -/
theorem projects_iff (sqrt : ℚ → ℚ) (a b : ℚ) (series : List IDemandHistoryPoint)
    (forecastWeeks w : ℕ) (units : ℤ)
    (hlinear : Linear a b (series.map IDemandHistoryPoint.actualDemandUnits))
    (hn : 2 ≤ series.length) (h₁ : 1 ≤ w) (hw : w ≤ forecastWeeks)
    (hunits : (units : ℚ) = a + b * (series.length - 1 + w)) (hten : 10 ≤ units) :
    Projects (generateForecast sqrt series forecastWeeks) w units ↔
      b * (series.length + 1) < 1 ∧ (-1 ≤ b * (series.length + 1) ∨ units = 10) := by
  have hne : series ≠ [] := List.ne_nil_of_length_pos (Nat.zero_lt_of_lt hn)
  have hcentre := centre_linear hlinear (by rwa [List.length_map]) w
  rw [List.length_map, ← hunits] at hcentre
  rw [projects_generateForecast_iff hne h₁ hw, project, List.length_map, hcentre,
    max_mathRound_eq_iff hten]
  generalize b * (series.length + 1) = x
  have hlt : x / 2 < 1 / 2 ↔ x < 1 := div_lt_div_iff_of_pos_right two_pos
  have hle : -(1 / 2) ≤ x / 2 ↔ -1 ≤ x := by
    rw [← neg_div]
    exact div_le_div_iff_of_pos_right two_pos
  rw [hlt, hle]

/-- The demands of two weeks. -/
def twoWeeks (first second : ℚ) : List IDemandHistoryPoint :=
  [⟨"2026-01-05", "SKU-1", first⟩, ⟨"2026-01-12", "SKU-1", second⟩]

theorem linear_twoWeeks (first second : ℚ) : Linear first (second - first)
    ((twoWeeks first second).map IDemandHistoryPoint.actualDemandUnits) :=
  linear_cons.mpr ⟨rfl, linear_cons.mpr ⟨(add_sub_cancel _ _).symm, linear_nil⟩⟩

/-- A case: a demand that stays at 20. -/
theorem projects_iff_constant :
    Projects (generateForecast (fun x => x) (twoWeeks 20 20) 4) 1 20 ↔
      ((20 - 20 : ℚ) * ((twoWeeks 20 20).length + 1) < 1 ∧
        (-1 ≤ (20 - 20 : ℚ) * ((twoWeeks 20 20).length + 1) ∨ (20 : ℤ) = 10)) :=
  projects_iff (fun x => x) 20 (20 - 20) (twoWeeks 20 20) 4 1 20 (linear_twoWeeks 20 20) le_rfl
    le_rfl (by decide) (by norm_num [twoWeeks]) (by decide)

/-- **Three units too many**: 100 and 102 are to go on with 104, and 107 is projected. -/
theorem three_units_too_many : ¬ ∀ (sqrt : ℚ → ℚ) (a b : ℚ) (series : List IDemandHistoryPoint)
    (forecastWeeks w : ℕ) (units : ℤ),
    Linear a b (series.map IDemandHistoryPoint.actualDemandUnits) → 2 ≤ series.length → 1 ≤ w →
      w ≤ forecastWeeks → (units : ℚ) = a + b * (series.length - 1 + w) → 10 ≤ units →
        Projects (generateForecast sqrt series forecastWeeks) w units := fun h => by
  obtain ⟨p, hp, -, hunits⟩ := h (fun x => x) 100 (102 - 100) (twoWeeks 100 102) 4 1 104
    (linear_twoWeeks 100 102) le_rfl le_rfl (by decide) (by norm_num [twoWeeks]) (by decide)
  have hfirst : ((generateForecast (fun x => x) (twoWeeks 100 102) 4)[0]?).map
      WeekProjection.projectedUnits = some 107 := by decide +kernel
  rw [hp, Option.map_some, hunits] at hfirst
  cases hfirst

end Logix.Analytics
