import Logix.Js.Date
import Logix.Js.Number
import Logix.Spec.Grouping
import Logix.Spec.Outlier

/-!
# Spikes of cancellations

A point is an anomaly when its ratio of cancelled orders is at least two and a half standard
deviations away from the mean. A spike enters both, so that it needs enough other points to be one.
The numbers are those of an ordered field; the square root is a parameter.

* `FulfillmentAnomalyDetectionEngine.computeZScoreAnomalies`: the code;
* `Spikes`: all points but one have the same ratio;
* `anomalies_spike`: what is found there, over the real numbers;
* **`detects_spike_iff`**: the spike is found exactly in a series of at least eight points.
-/

namespace Logix.Analytics

open Spec

/-- `IFulfillmentMetricPoint`: what the engine reads of it, and its time. -/
structure IFulfillmentMetricPoint (K : Type) where
  timestamp : JsDate
  ordersCreated : K
  ordersCancelled : K

/-- `anomalyType`. -/
inductive AnomalyType where
  | HIGH_CANCELLATION_SPIKE | UNUSUAL_ZERO_CANCELLATION
  deriving DecidableEq, Repr

/-- An anomaly. -/
structure FulfillmentAnomaly (K : Type) where
  metricPoint : IFulfillmentMetricPoint K
  zScore : K
  anomalyType : AnomalyType

namespace FulfillmentAnomalyDetectionEngine

variable {K : Type} [Field K] [LinearOrder K] [FloorRing K] (sqrt : K → K)

/-- `p.ordersCancelled / (p.ordersCreated || 1)`. -/
def cancelRatio (p : IFulfillmentMetricPoint K) : K :=
  p.ordersCancelled / if p.ordersCreated = 0 then 1 else p.ordersCreated

/-- `mean`. -/
def mean (cancelRatios : List K) : K :=
  cancelRatios.foldl (fun a b => a + b) 0 / cancelRatios.length

/-- `stdDev`. -/
def stdDev (cancelRatios : List K) : K :=
  let variance := cancelRatios.foldl (fun acc curr => acc + (curr - mean cancelRatios) ^ 2) 0 /
    cancelRatios.length
  if sqrt variance = 0 then 1 / 100 else sqrt variance

/-- `zScore`. -/
def zScore (cancelRatios : List K) (ratio : K) : K :=
  toFixedIn 2 ((ratio - mean cancelRatios) / stdDev sqrt cancelRatios)

/-- **`computeZScoreAnomalies(series)`.** -/
def computeZScoreAnomalies (series : List (IFulfillmentMetricPoint K)) :
    List (FulfillmentAnomaly K) :=
  if series.length < 5 then []
  else
    let cancelRatios := series.map cancelRatio
    (series.zip cancelRatios).filterMap fun e =>
      let zScore := zScore sqrt cancelRatios e.2
      if 250 / 100 ≤ |zScore| then
        some
          { metricPoint := e.1
            zScore := zScore
            anomalyType := if 0 < zScore then .HIGH_CANCELLATION_SPIKE
              else .UNUSUAL_ZERO_CANCELLATION }
      else none

end FulfillmentAnomalyDetectionEngine

open FulfillmentAnomalyDetectionEngine

section Field

variable {K : Type} [Field K] {l : List K}

theorem mean_eq_mean (l : List K) : FulfillmentAnomalyDetectionEngine.mean l = Spec.mean l := by
  rw [FulfillmentAnomalyDetectionEngine.mean, foldl_add_eq (fun x => x), zero_add, List.map_id',
    Spec.mean]

variable [LinearOrder K] {sqrt : K → K}

theorem stdDev_eq (h : sqrt (variance l) ≠ 0) : stdDev sqrt l = sqrt (variance l) := by
  rw [stdDev, foldl_add_eq (fun x => (x - FulfillmentAnomalyDetectionEngine.mean l) ^ 2), zero_add,
    mean_eq_mean, ← variance, if_neg h]

variable [FloorRing K]

theorem metricPoint_computeZScoreAnomalies {series : List (IFulfillmentMetricPoint K)}
    (h : 5 ≤ series.length) :
    (computeZScoreAnomalies sqrt series).map FulfillmentAnomaly.metricPoint =
      series.filter fun p =>
        250 / 100 ≤ |zScore sqrt (series.map cancelRatio) (cancelRatio p)| := by
  rw [computeZScoreAnomalies, if_neg (not_lt.mpr h)]
  dsimp only
  rw [← List.map_prod_left_eq_zip, List.filterMap_map, List.map_filterMap,
    ← List.filterMap_eq_filter]
  refine List.filterMap_congr fun p _ => ?_
  simp only [Function.comp_apply, Option.guard, decide_eq_true_eq]
  split_ifs <;> rfl

end Field

/-! ## One spike -/

variable {pre post : List (IFulfillmentMetricPoint ℝ)} {p : IFulfillmentMetricPoint ℝ}

/-- **All points but `p` have the same ratio**, and `p` has another one. -/
def Spikes (pre : List (IFulfillmentMetricPoint ℝ)) (p : IFulfillmentMetricPoint ℝ)
    (post : List (IFulfillmentMetricPoint ℝ)) : Prop :=
  ∃ a, (∀ q ∈ pre ++ post, cancelRatio q = a) ∧ cancelRatio p ≠ a

theorem Spikes.outlier (h : Spikes pre p post) :
    ∃ a, (∀ q ∈ pre ++ post, cancelRatio q = a) ∧ a ≠ cancelRatio p ∧
      Outlier a (cancelRatio p) ((pre ++ p :: post).map cancelRatio) := by
  obtain ⟨a, hothers, hne⟩ := h
  refine ⟨a, hothers, hne.symm, pre.map cancelRatio, post.map cancelRatio, by simp, fun x hx => ?_⟩
  rw [← List.map_append] at hx
  obtain ⟨q, hq, rfl⟩ := List.mem_map.mp hx
  exact hothers q hq

theorem threshold_le_iff (z : ℝ) : 250 / 100 ≤ |toFixedIn 2 z| ↔ 499 / 200 ≤ |z| := by
  have h := le_abs_toFixedIn_iff (d := 2) (k := 250) (by norm_num) z
  norm_num at h ⊢
  exact h

theorem threshold_le_sqrt_iff {n : ℕ} : 499 / 200 ≤ √((n : ℝ) - 1) ↔ 8 ≤ n := by
  rw [Real.le_sqrt' (by norm_num)]
  constructor
  · intro h
    by_contra hn
    have hcast : (n : ℝ) ≤ 7 := by exact_mod_cast Nat.le_of_lt_succ (not_le.mp hn)
    norm_num at h
    linarith
  · intro hn
    have hcast : (8 : ℝ) ≤ n := by exact_mod_cast hn
    norm_num
    linarith

/-- **What is found in a series with one spike.** -/
theorem anomalies_spike (hlength : 5 ≤ (pre ++ p :: post).length) (h : Spikes pre p post) :
    (computeZScoreAnomalies Real.sqrt (pre ++ p :: post)).map FulfillmentAnomaly.metricPoint =
      if 8 ≤ (pre ++ p :: post).length then [p] else [] := by
  obtain ⟨a, hothers, hne, houtlier⟩ := h.outlier
  have hn : 2 ≤ ((pre ++ p :: post).map cancelRatio).length := by
    rw [List.length_map]
    omega
  have hscore : ∀ x, 250 / 100 ≤ |zScore Real.sqrt ((pre ++ p :: post).map cancelRatio) x| ↔
      499 / 200 ≤ |(x - Spec.mean ((pre ++ p :: post).map cancelRatio)) /
        √(variance ((pre ++ p :: post).map cancelRatio))| := by
    intro x
    rw [zScore, threshold_le_iff, mean_eq_mean,
      stdDev_eq (houtlier.sqrt_variance_pos hne hn).ne']
  have hspike :
      250 / 100 ≤ |zScore Real.sqrt ((pre ++ p :: post).map cancelRatio) (cancelRatio p)| ↔
        8 ≤ (pre ++ p :: post).length := by
    rw [hscore, houtlier.abs_score hne hn, threshold_le_sqrt_iff, List.length_map]
  have hquiet : ∀ q ∈ pre ++ post,
      ¬ 250 / 100 ≤ |zScore Real.sqrt ((pre ++ p :: post).map cancelRatio) (cancelRatio q)| := by
    intro q hq
    have hone : 1 ≤ √((((pre ++ p :: post).map cancelRatio).length : ℝ) - 1) := by
      have hcast : (2 : ℝ) ≤ ((pre ++ p :: post).map cancelRatio).length := by exact_mod_cast hn
      exact Real.one_le_sqrt.mpr (by linarith)
    have hle := div_le_one_of_le₀ hone (Real.sqrt_nonneg _)
    rw [hothers q hq, hscore, houtlier.abs_score_others hne hn, not_le]
    linarith
  rw [metricPoint_computeZScoreAnomalies hlength, List.filter_append,
    List.filter_eq_nil_iff.mpr fun q hq => by simpa using hquiet q (List.mem_append_left _ hq),
    List.nil_append, List.filter_cons,
    List.filter_eq_nil_iff.mpr fun q hq => by simpa using hquiet q (List.mem_append_right _ hq)]
  simp only [decide_eq_true_eq, hspike]

/-- **A spike is found** exactly in a series of at least eight points. -/
theorem detects_spike_iff (pre : List (IFulfillmentMetricPoint ℝ)) (p : IFulfillmentMetricPoint ℝ)
    (post : List (IFulfillmentMetricPoint ℝ)) (hlength : 5 ≤ (pre ++ p :: post).length)
    (h : Spikes pre p post) :
    (computeZScoreAnomalies Real.sqrt (pre ++ p :: post)).map FulfillmentAnomaly.metricPoint =
      [p] ↔ 8 ≤ (pre ++ p :: post).length := by
  rw [anomalies_spike hlength h]
  split_ifs with hn
  · exact iff_of_true rfl hn
  · exact iff_of_false not_false hn

/-- A day on which some of a hundred orders were cancelled. -/
def dayWith (ordersCancelled : ℝ) : IFulfillmentMetricPoint ℝ := ⟨0, 100, ordersCancelled⟩

theorem spikes_days (n : ℕ) : Spikes (List.replicate n (dayWith 1)) (dayWith 50) [] := by
  refine ⟨1 / 100, fun q hq => ?_, ?_⟩
  · rw [List.append_nil] at hq
    rw [List.eq_of_mem_replicate hq, cancelRatio, dayWith, if_neg (by norm_num)]
  · rw [cancelRatio, dayWith, if_neg (by norm_num)]
    norm_num

/-- A case: seven days, and then the half of all orders is cancelled. -/
theorem detects_spike_iff_eight :
    (computeZScoreAnomalies Real.sqrt (List.replicate 7 (dayWith 1) ++ [dayWith 50])).map
      FulfillmentAnomaly.metricPoint = [dayWith 50] ↔
        8 ≤ (List.replicate 7 (dayWith 1) ++ [dayWith 50]).length :=
  detects_spike_iff (List.replicate 7 (dayWith 1)) (dayWith 50) [] (by simp) (spikes_days 7)

/-- **A spike is missed**: after four days with one cancelled order, it is the half of them. -/
theorem spike_missed : ¬ ∀ (pre : List (IFulfillmentMetricPoint ℝ)) (p : IFulfillmentMetricPoint ℝ)
    (post : List (IFulfillmentMetricPoint ℝ)), 5 ≤ (pre ++ p :: post).length → Spikes pre p post →
      (computeZScoreAnomalies Real.sqrt (pre ++ p :: post)).map FulfillmentAnomaly.metricPoint =
        [p] := fun h => by
  have hfive : 5 ≤ (List.replicate 4 (dayWith 1) ++ [dayWith 50]).length := by simp
  have hfound := h (List.replicate 4 (dayWith 1)) (dayWith 50) [] hfive (spikes_days 4)
  rw [anomalies_spike hfive (spikes_days 4), if_neg (by simp)] at hfound
  exact List.cons_ne_nil (dayWith 50) [] hfound.symm

end Logix.Analytics
