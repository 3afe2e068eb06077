import Logix.Js.Number
import Logix.Spec.LinearTrend

/-!
# Demand forecasts

Holt's smoothing keeps a level and a trend, which it moves towards each value of the history by the
shares `alpha` and `beta`. The forecast goes on from the level along the trend. Numbers are
rational.

* `forecastDemand`: the code;
* `smooth_linear`: a value that is on the trend leaves the trend;
* **`forecastDemand_linear`**: a linear history goes on, whatever the shares are.
-/

namespace Logix.MathOptimizationEngine

open Spec

/-- `level` and `trend`. -/
structure Smoothing where
  level : ℚ
  trend : ℚ
  deriving DecidableEq, Repr

/-- One round of the loop over the history. -/
def smooth (alpha beta : ℚ) (s : Smoothing) (value : ℚ) : Smoothing :=
  let prevLevel := s.level
  let level := alpha * value + (1 - alpha) * (prevLevel + s.trend)
  { level := level
    trend := beta * (level - prevLevel) + (1 - beta) * s.trend }

/-- **`forecastDemand(historicalSales, forecastPeriods, alpha, beta)`.** -/
def forecastDemand (historicalSales : List ℚ) (forecastPeriods : ℕ := 7) (alpha : ℚ := 3 / 10)
    (beta : ℚ := 1 / 10) : List ℚ :=
  match historicalSales with
  | [] => List.replicate forecastPeriods 0
  | [sales] => List.replicate forecastPeriods sales
  | first :: second :: later =>
    let s := (second :: later).foldl (smooth alpha beta) ⟨first, second - first⟩
    (List.range' 1 forecastPeriods).map fun m : ℕ =>
      max 0 (mathRound (s.level + m * s.trend) : ℚ)

variable {alpha beta a b : ℚ} {values : List ℚ}

/-- **A value on the trend** leaves the trend, and is the new level. -/
theorem smooth_linear (alpha beta level trend : ℚ) :
    smooth alpha beta ⟨level, trend⟩ (level + trend) = ⟨level + trend, trend⟩ := by
  have hlevel : alpha * (level + trend) + (1 - alpha) * (level + trend) = level + trend := by ring
  have htrend : beta * (level + trend - level) + (1 - beta) * trend = trend := by ring
  rw [smooth, hlevel, htrend]

theorem foldl_smooth_linear (h : Linear (a + b) b values) :
    values.foldl (smooth alpha beta) ⟨a, b⟩ = ⟨a + b * values.length, b⟩ := by
  induction values generalizing a with
  | nil => simp
  | cons value values ih =>
    obtain ⟨rfl, hvalues⟩ := linear_cons.mp h
    rw [List.foldl_cons, smooth_linear, ih hvalues, List.length_cons]
    congr 1
    push_cast
    ring

/-- **A linear history goes on** in the forecast, whatever the shares are. -/
theorem forecastDemand_linear (alpha beta a b : ℚ) (historicalSales : List ℚ)
    (forecastPeriods : ℕ) (hlinear : Linear a b historicalSales)
    (hn : 2 ≤ historicalSales.length) :
    forecastDemand historicalSales forecastPeriods alpha beta =
      (List.range' 1 forecastPeriods).map fun m : ℕ =>
        max 0 (mathRound (a + b * (historicalSales.length - 1 + m)) : ℚ) := by
  obtain _ | ⟨first, _ | ⟨second, later⟩⟩ := historicalSales
  · simp at hn
  · simp at hn
  · obtain ⟨rfl, hvalues⟩ := linear_cons.mp hlinear
    obtain ⟨rfl, -⟩ := linear_cons.mp hvalues
    rw [forecastDemand, add_sub_cancel_left, foldl_smooth_linear hvalues]
    refine List.map_congr_left fun m _ => ?_
    have hlevel : first + b * ((first + b) :: later).length + m * b =
        first + b * ((first :: (first + b) :: later).length - 1 + m) := by
      simp only [List.length_cons]
      push_cast
      ring
    rw [hlevel]

/-- A case: three values that go up by 2. -/
theorem forecastDemand_linear_three : forecastDemand [10, 12, 14] 2 (3 / 10) (1 / 10) =
    (List.range' 1 2).map fun m : ℕ =>
      max 0 (mathRound (10 + 2 * (([10, 12, 14] : List ℚ).length - 1 + m)) : ℚ) :=
  forecastDemand_linear (3 / 10) (1 / 10) 10 2 [10, 12, 14] 2
    (by norm_num [linear_cons, linear_nil]) (by decide)

end Logix.MathOptimizationEngine
