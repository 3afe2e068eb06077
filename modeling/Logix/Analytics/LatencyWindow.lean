import Logix.Js.Number
import Logix.Spec.Eviction
import Logix.Spec.Machine
import Mathlib.Data.List.Sort

/-!
# The latency window

Samples are kept in the order in which they arrive. Every ingest drops stale samples from the front
of the buffer and stops at the first fresh one, so that a stale sample behind it stays. Numbers are
rational; the clock is an argument.

* `RealtimeThroughputStreamAggregator.ingestSample`, `computeWindowStats`: the code, and the machine
  of its runs;
* `buffer_run`: where the clock does not go back, a run drops what its last ingest finds stale;
* `WindowExact`: the statistics of a service count its samples of the last five minutes;
* **`windowExact_iff`**: when they do.
-/

namespace Logix.Analytics

open Spec

/-- `ILatencyTelemetryPoint`. -/
structure ILatencyTelemetryPoint where
  timestampMs : ℚ
  serviceId : String
  durationMs : ℚ
  isError : Bool
  deriving DecidableEq, Repr

/-- What `computeWindowStats` returns. -/
structure WindowStats where
  count : ℕ
  p50Ms : ℚ
  p90Ms : ℚ
  p99Ms : ℚ
  errorRatePct : ℚ
  deriving DecidableEq, Repr

/-- **`RealtimeThroughputStreamAggregator`.** -/
structure RealtimeThroughputStreamAggregator where
  buffer : List ILatencyTelemetryPoint

namespace RealtimeThroughputStreamAggregator

/-- `timestampMs < cutoff`, where the clock reads `now`. -/
def stale (now : ℚ) (p : ILatencyTelemetryPoint) : Bool := decide (p.timestampMs < now - 300000)

/-- **`ingestSample(sample)`** at the time `now`. -/
def ingestSample (s : RealtimeThroughputStreamAggregator) (now : ℚ)
    (sample : ILatencyTelemetryPoint) : RealtimeThroughputStreamAggregator where
  buffer := (s.buffer ++ [sample]).dropWhile (stale now)

/-- `Math.floor(length * share)`. -/
def percentileIdx (length : ℕ) (share : ℚ) : ℕ := ⌊length * share⌋₊

/-- `samples`: those of a service, or all where none is named. -/
def samples (s : RealtimeThroughputStreamAggregator) :
    Option String → List ILatencyTelemetryPoint
  | none => s.buffer
  | some serviceId =>
    if serviceId = "" then s.buffer else s.buffer.filter fun p => p.serviceId = serviceId

/-- The statistics of samples. They are `none` where a percentile is looked up outside of the sorted
durations, whose `toFixed` throws. -/
def statsOf (samples : List ILatencyTelemetryPoint) : Option WindowStats :=
  if samples.length = 0 then some ⟨0, 0, 0, 0, 0⟩
  else do
    let sortedDurations :=
      (samples.map ILatencyTelemetryPoint.durationMs).insertionSort fun a b => a - b ≤ 0
    let errorCount := (samples.filter ILatencyTelemetryPoint.isError).length
    let p50 ← sortedDurations[percentileIdx sortedDurations.length (50 / 100)]?
    let p90 ← sortedDurations[percentileIdx sortedDurations.length (90 / 100)]?
    let p99 ← sortedDurations[percentileIdx sortedDurations.length (99 / 100)]?
    some
      { count := samples.length
        p50Ms := toFixed 2 p50
        p90Ms := toFixed 2 p90
        p99Ms := toFixed 2 p99
        errorRatePct := toFixed 2 ((errorCount / samples.length : ℚ) * 100) }

/-- **`computeWindowStats(serviceId)`.** -/
def computeWindowStats (s : RealtimeThroughputStreamAggregator)
    (serviceId : Option String) : Option WindowStats :=
  statsOf (s.samples serviceId)

end RealtimeThroughputStreamAggregator

open RealtimeThroughputStreamAggregator

/-- An ingest, with the time of the clock. -/
structure Ingest where
  now : ℚ
  sample : ILatencyTelemetryPoint
  deriving DecidableEq, Repr

/-- The runs of the aggregator. -/
def latencyMachine : Machine RealtimeThroughputStreamAggregator Ingest Unit where
  call i s := (s.ingestSample i.now i.sample, ())

/-- The aggregator after a run. -/
def aggregatorAfter (is : List Ingest) : RealtimeThroughputStreamAggregator :=
  latencyMachine.run ⟨[]⟩ is

variable {is : List Ingest} {i : Ingest} {s : RealtimeThroughputStreamAggregator}

/-- The samples that a run ingested, in this order. -/
def samplesOf (is : List Ingest) : List ILatencyTelemetryPoint := is.map Ingest.sample

@[simp] theorem samplesOf_concat : samplesOf (is ++ [i]) = samplesOf is ++ [i.sample] :=
  List.map_append

/-- The clock does not go back. -/
def ClockMonotone (is : List Ingest) : Prop := is.Pairwise fun i j => i.now ≤ j.now

instance (is : List Ingest) : Decidable (ClockMonotone is) :=
  inferInstanceAs (Decidable (is.Pairwise fun i j => i.now ≤ j.now))

theorem ClockMonotone.init (h : ClockMonotone (is ++ [i])) : ClockMonotone is :=
  (List.pairwise_append.mp h).1

theorem ClockMonotone.le_last (h : ClockMonotone (is ++ [i])) {j : Ingest} (hj : j ∈ is) :
    j.now ≤ i.now :=
  (List.pairwise_append.mp h).2.2 j hj i List.mem_cons_self

theorem stale_mono {now now' : ℚ} (h : now ≤ now') (p : ILatencyTelemetryPoint)
    (hp : stale now p = true) : stale now' p = true := by
  simp only [stale, decide_eq_true_eq] at hp ⊢
  linarith

/-- **A run drops what its last ingest finds stale**, up to the first sample that is fresh then. -/
theorem buffer_run (h : ClockMonotone (is ++ [i])) :
    (aggregatorAfter (is ++ [i])).buffer = (samplesOf (is ++ [i])).dropWhile (stale i.now) := by
  induction is using List.reverseRecOn generalizing i with
  | nil => rfl
  | append_singleton is j ih =>
    have hlast : (aggregatorAfter (is ++ [j] ++ [i])).buffer =
        ((aggregatorAfter (is ++ [j])).buffer ++ [i.sample]).dropWhile (stale i.now) := by
      rw [aggregatorAfter, Machine.run_concat]
      rfl
    have hstale := stale_mono (h.le_last (List.mem_append_right _ List.mem_cons_self))
    rw [hlast, ih h.init, dropWhile_append_dropWhile hstale, ← samplesOf_concat]

/-! ## Statistics -/

theorem exists_percentile {sorted : List ℚ} (hne : sorted ≠ []) (share : ℚ) (h₀ : 0 ≤ share)
    (h₁ : share < 1) : ∃ d, sorted[percentileIdx sorted.length share]? = some d := by
  have hpos : (0 : ℚ) < sorted.length := Nat.cast_pos.mpr (List.length_pos_iff.mpr hne)
  have hlt : percentileIdx sorted.length share < sorted.length := by
    rw [percentileIdx, Nat.floor_lt (mul_nonneg hpos.le h₀)]
    calc (sorted.length : ℚ) * share < sorted.length * 1 := mul_lt_mul_of_pos_left h₁ hpos
      _ = sorted.length := mul_one _
  exact ⟨_, List.getElem?_eq_getElem hlt⟩

theorem statsOf_count (samples : List ILatencyTelemetryPoint) :
    ∃ stats, statsOf samples = some stats ∧ stats.count = samples.length := by
  rw [statsOf]
  split_ifs with hempty
  · exact ⟨_, rfl, hempty.symm⟩
  · generalize hsorted : List.insertionSort (fun a b : ℚ => a - b ≤ 0)
      (samples.map ILatencyTelemetryPoint.durationMs) = sorted
    have hne : sorted ≠ [] := by
      rintro rfl
      have hperm := List.perm_insertionSort (fun a b : ℚ => a - b ≤ 0)
        (samples.map ILatencyTelemetryPoint.durationMs)
      rw [hsorted] at hperm
      exact hempty (by simpa using hperm.length_eq.symm)
    obtain ⟨p50, h50⟩ := exists_percentile hne (50 / 100) (by norm_num) (by norm_num)
    obtain ⟨p90, h90⟩ := exists_percentile hne (90 / 100) (by norm_num) (by norm_num)
    obtain ⟨p99, h99⟩ := exists_percentile hne (99 / 100) (by norm_num) (by norm_num)
    simp only [h50, h90, h99, Option.bind_eq_bind, Option.bind_some]
    exact ⟨_, rfl, rfl⟩

/-! ## The window -/

/-- The samples of a service that are at most five minutes old at the time `now`. -/
def inWindow (ingested : List ILatencyTelemetryPoint) (now : ℚ) (serviceId : String) : ℕ :=
  ingested.countP fun p => now - 300000 ≤ p.timestampMs ∧ p.serviceId = serviceId

/-- **The window is exact**: the statistics of every service count its samples in it. -/
def WindowExact (s : RealtimeThroughputStreamAggregator) (ingested : List ILatencyTelemetryPoint)
    (now : ℚ) : Prop :=
  ∀ serviceId : String, serviceId ≠ "" → ∃ stats,
    s.computeWindowStats (some serviceId) = some stats ∧
      stats.count = inWindow ingested now serviceId

/-- **The samples of services arrive in order**, as far as the time `now` can tell: none that is
stale arrives after one that is not. -/
def ArriveFresh (ingested : List ILatencyTelemetryPoint) (now : ℚ) : Prop :=
  ingested.Pairwise fun p q =>
    now - 300000 ≤ p.timestampMs → q.serviceId ≠ "" → now - 300000 ≤ q.timestampMs

theorem stale_eq_false_iff {now : ℚ} {p : ILatencyTelemetryPoint} :
    stale now p = false ↔ now - 300000 ≤ p.timestampMs := by
  rw [stale, decide_eq_false_iff_not, not_lt]

theorem inWindow_eq (ingested : List ILatencyTelemetryPoint) (now : ℚ) (serviceId : String) :
    inWindow ingested now serviceId =
      ingested.countP fun p => !stale now p && decide (p.serviceId = serviceId) := by
  refine List.countP_congr fun p _ => ?_
  rw [decide_eq_true_eq, Bool.and_eq_true, Bool.not_eq_true', stale_eq_false_iff,
    decide_eq_true_eq]

theorem stats_exact_iff (hclock : ClockMonotone (is ++ [i])) {serviceId : String}
    (hid : serviceId ≠ "") :
    (∃ stats, (aggregatorAfter (is ++ [i])).computeWindowStats (some serviceId) = some stats ∧
      stats.count = inWindow (samplesOf (is ++ [i])) i.now serviceId) ↔
      ∀ p ∈ (samplesOf (is ++ [i])).dropWhile (stale i.now), p.serviceId = serviceId →
        stale i.now p = false := by
  obtain ⟨stats, hstats, hlength⟩ :=
    statsOf_count ((aggregatorAfter (is ++ [i])).samples (some serviceId))
  have hcount : stats.count = ((samplesOf (is ++ [i])).dropWhile (stale i.now)).countP fun p =>
      decide (p.serviceId = serviceId) := by
    rw [hlength, samples, if_neg hid, buffer_run hclock, List.countP_eq_length_filter]
  have hiff := countP_dropWhile_eq_iff (stale i.now) (fun p => decide (p.serviceId = serviceId))
    (samplesOf (is ++ [i]))
  simp only [decide_eq_true_eq] at hiff
  rw [← hiff, ← hcount, inWindow_eq]
  constructor
  · rintro ⟨stats', hstats', hexact⟩
    obtain rfl := Option.some.inj (hstats.symm.trans hstats')
    exact hexact
  · exact fun hexact => ⟨stats, hstats, hexact⟩

/-- **The window is exact** after an ingest exactly when no stale sample of a service has arrived
after a fresh one. -/
theorem windowExact_iff (is : List Ingest) (i : Ingest) (hclock : ClockMonotone (is ++ [i])) :
    WindowExact (aggregatorAfter (is ++ [i])) (samplesOf (is ++ [i])) i.now ↔
      ArriveFresh (samplesOf (is ++ [i])) i.now := by
  have harrive : ArriveFresh (samplesOf (is ++ [i])) i.now ↔
      ∀ p ∈ (samplesOf (is ++ [i])).dropWhile (stale i.now), p.serviceId ≠ "" →
        stale i.now p = false := by
    rw [forall_dropWhile_iff, ArriveFresh]
    simp only [stale_eq_false_iff]
  rw [harrive, WindowExact]
  constructor
  · exact fun h p hp hid => (stats_exact_iff hclock hid).mp (h p.serviceId hid) p hp rfl
  · exact fun h serviceId hid =>
      (stats_exact_iff hclock hid).mpr fun p hp hp' => h p hp (hp' ▸ hid)

/-- An ingest at a minute, of a sample that was taken at a minute. -/
def ingestAt (now timestamp : ℚ) : Ingest :=
  ⟨60000 * now, ⟨60000 * timestamp, "svc", 20, false⟩⟩

/-- A case: two samples in order. -/
theorem windowExact_iff_two :
    WindowExact (aggregatorAfter ([ingestAt 10 4] ++ [ingestAt 10 10]))
        (samplesOf ([ingestAt 10 4] ++ [ingestAt 10 10])) (ingestAt 10 10).now ↔
      ArriveFresh (samplesOf ([ingestAt 10 4] ++ [ingestAt 10 10])) (ingestAt 10 10).now :=
  windowExact_iff [ingestAt 10 4] (ingestAt 10 10) (by decide +kernel)

/-- **A late sample is counted**: one that is six minutes old, behind one that is not. -/
theorem late_sample_counted : ¬ ∀ (is : List Ingest) (i : Ingest), ClockMonotone (is ++ [i]) →
    WindowExact (aggregatorAfter (is ++ [i])) (samplesOf (is ++ [i])) i.now := fun h => by
  obtain ⟨stats, hstats, hcount⟩ := h [ingestAt 10 10] (ingestAt 10 4) (by decide +kernel) "svc"
    (by decide)
  have htwo : ((aggregatorAfter ([ingestAt 10 10] ++ [ingestAt 10 4])).computeWindowStats
      (some "svc")).map WindowStats.count = some 2 := by decide +kernel
  rw [hstats, Option.map_some, hcount] at htwo
  exact absurd htwo (by decide +kernel)

end Logix.Analytics
