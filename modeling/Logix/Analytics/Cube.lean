import Logix.Js.Double
import Logix.Js.Groups
import Logix.Spec.Ranking
import Mathlib.Data.Rat.Defs

/-!
# The cube

`MultiDimensionalCubeAggregationEngine` keeps the facts that it ingests, in their order. It sums them
up for the months of a tenant, and for its carriers.

* `sliceByTenantAndMonth`, `getTopCarriersByPerformance`: the code;
* `carriersOf`, `performance`: what the report of the carriers is about;
* **`topCarriers_ranked`**: the report lists each carrier once, with what its facts say, the most
  punctual first;
* **`breakdowns_agree`**: the months and the carriers make up the same whole, up to the roundings.

The rates are doubles, as they decide the order. The amounts of the facts are added up exactly.
-/

namespace Logix.Analytics

open Spec

/-- `IFactRecord`. -/
structure IFactRecord where
  tenantId : String
  warehouseId : String
  carrierId : String
  productCategoryId : String
  orderYear : ℤ
  orderMonth : ℤ
  orderDay : ℤ
  orderVolumeCount : ℚ
  revenueUSD : ℚ
  fulfillmentCostUSD : ℚ
  deliveryDelayMinutes : ℚ

/-- What a slice says. -/
structure CubeSlice where
  totalOrders : ℚ
  totalRevenue : ℚ
  avgDelayMinutes : ℚ

/-- What is summed up for a carrier. -/
structure CarrierStat where
  total : ℕ
  onTime : ℕ
  rev : ℚ

/-- What the report says of a carrier. -/
structure CarrierPerformance where
  carrierId : String
  onTimeRatePct : Double
  totalRevenue : ℚ

/-! ## The code -/

/-- A fact is added to the sums of a slice. -/
def CubeSlice.add (sums : CubeSlice) (f : IFactRecord) : CubeSlice where
  totalOrders := sums.totalOrders + f.orderVolumeCount
  totalRevenue := sums.totalRevenue + f.revenueUSD
  avgDelayMinutes := sums.avgDelayMinutes + f.deliveryDelayMinutes

/-- **`sliceByTenantAndMonth(tenantId, year, month)`.** -/
def sliceByTenantAndMonth (facts : List IFactRecord) (tenantId : String) (year month : ℤ) :
    CubeSlice :=
  let subset := facts.filter fun f =>
    f.tenantId = tenantId ∧ f.orderYear = year ∧ f.orderMonth = month
  if subset.length = 0 then ⟨0, 0, 0⟩
  else
    let sums := subset.foldl CubeSlice.add ⟨0, 0, 0⟩
    { totalOrders := sums.totalOrders
      totalRevenue := toFixed 2 sums.totalRevenue
      avgDelayMinutes := toFixed 1 (sums.avgDelayMinutes / subset.length) }

/-- A fact is counted for its carrier. -/
def CarrierStat.add (c : CarrierStat) (f : IFactRecord) : CarrierStat where
  total := c.total + 1
  onTime := if f.deliveryDelayMinutes ≤ 0 then c.onTime + 1 else c.onTime
  rev := c.rev + f.revenueUSD

/-- `+((onTime / total) * 100).toFixed(1)`. -/
def onTimeRate (onTime total : ℕ) : Double :=
  (Double.ofRat onTime / Double.ofRat total * 100).toFixed 1

/-- A row of the report. -/
def CarrierStat.row (carrierId : String) (stat : CarrierStat) : CarrierPerformance where
  carrierId := carrierId
  onTimeRatePct := onTimeRate stat.onTime (if stat.total = 0 then 1 else stat.total)
  totalRevenue := toFixed 2 stat.rev

/-- `b.onTimeRatePct - a.onTimeRatePct` is not positive. -/
def AheadOf (a b : CarrierPerformance) : Prop := b.onTimeRatePct - a.onTimeRatePct ≤ 0

instance : DecidableRel AheadOf := fun _ _ => inferInstanceAs (Decidable (_ ≤ _))

/-- **`getTopCarriersByPerformance(tenantId)`.** -/
def getTopCarriersByPerformance (facts : List IFactRecord) (tenantId : String) :
    List CarrierPerformance :=
  let carrierMap := groupInto IFactRecord.carrierId ⟨0, 0, 0⟩ CarrierStat.add
    (facts.filter fun f => f.tenantId = tenantId)
  (carrierMap.entries.map fun e => e.2.row e.1).insertionSort AheadOf

/-! ## Carriers -/

/-- The facts of a tenant. -/
def factsOf (facts : List IFactRecord) (tenantId : String) : List IFactRecord :=
  facts.filter fun f => f.tenantId = tenantId

/-- The carriers of a tenant, in the order of their first facts. -/
def carriersOf (facts : List IFactRecord) (tenantId : String) : List String :=
  distinct ((factsOf facts tenantId).map IFactRecord.carrierId)

/-- **What the facts say of a carrier.** -/
def performance (facts : List IFactRecord) (tenantId carrierId : String) : CarrierPerformance :=
  let own := (factsOf facts tenantId).filter fun f => f.carrierId = carrierId
  { carrierId := carrierId
    onTimeRatePct := onTimeRate (own.countP fun f => f.deliveryDelayMinutes ≤ 0) own.length
    totalRevenue := toFixed 2 (own.map IFactRecord.revenueUSD).sum }

instance : Std.Total AheadOf where
  total a b := (le_total b.onTimeRatePct a.onTimeRatePct).imp Double.sub_nonpos.mpr
    Double.sub_nonpos.mpr

instance : IsTrans CarrierPerformance AheadOf where
  trans _ _ _ hab hbc :=
    Double.sub_nonpos.mpr ((Double.sub_nonpos.mp hbc).trans (Double.sub_nonpos.mp hab))

theorem foldl_carrierStat (l : List IFactRecord) (c : CarrierStat) :
    l.foldl CarrierStat.add c = ⟨c.total + l.length,
      c.onTime + l.countP (fun f => f.deliveryDelayMinutes ≤ 0),
      c.rev + (l.map IFactRecord.revenueUSD).sum⟩ := by
  induction l generalizing c with
  | nil => exact congrArg (CarrierStat.mk c.total c.onTime) (add_zero c.rev).symm
  | cons f l ih =>
    have htotal : c.total + 1 + l.length = c.total + (l.length + 1) := by omega
    have honTime : (if f.deliveryDelayMinutes ≤ 0 then c.onTime + 1 else c.onTime) +
        l.countP (fun f => f.deliveryDelayMinutes ≤ 0) = c.onTime +
        (l.countP (fun f => f.deliveryDelayMinutes ≤ 0) +
          if f.deliveryDelayMinutes ≤ 0 then 1 else 0) := by
      split_ifs <;> omega
    simp only [List.foldl_cons, ih, CarrierStat.add, List.length_cons, List.countP_cons,
      decide_eq_true_eq, List.map_cons, List.sum_cons, htotal, honTime, add_assoc]

theorem mem_carriersOf {facts : List IFactRecord} {tenantId carrierId : String} :
    carrierId ∈ carriersOf facts tenantId ↔
      ∃ f ∈ facts, f.tenantId = tenantId ∧ f.carrierId = carrierId := by
  rw [carriersOf, mem_distinct, List.mem_map]
  simp [factsOf, and_assoc]

theorem row_groupOf {facts : List IFactRecord} {tenantId carrierId : String}
    (h : carrierId ∈ carriersOf facts tenantId) :
    (groupOf IFactRecord.carrierId ⟨0, 0, 0⟩ CarrierStat.add (factsOf facts tenantId)
      carrierId).row carrierId = performance facts tenantId carrierId := by
  obtain ⟨f, hf, htenant, hcarrier⟩ := mem_carriersOf.mp h
  have hmem : f ∈ (factsOf facts tenantId).filter fun f => f.carrierId = carrierId := by
    simp [factsOf, hf, htenant, hcarrier]
  have hpos : ((factsOf facts tenantId).filter fun f => f.carrierId = carrierId).length ≠ 0 :=
    (List.length_pos_of_mem hmem).ne'
  rw [groupOf, foldl_carrierStat, CarrierStat.row, performance]
  simp only [zero_add, if_neg hpos]

theorem ranked_rows (facts : List IFactRecord) (tenantId : String) :
    Ranked AheadOf ((carriersOf facts tenantId).map (performance facts tenantId))
      (getTopCarriersByPerformance facts tenantId) := by
  have hrows : ((groupInto IFactRecord.carrierId ⟨0, 0, 0⟩ CarrierStat.add
      (factsOf facts tenantId)).entries.map fun e => e.2.row e.1) =
      (carriersOf facts tenantId).map (performance facts tenantId) := by
    rw [entries_groupInto, List.map_map]
    exact List.map_congr_left fun carrierId h => row_groupOf h
  rw [← hrows]
  exact ranked_insertionSort _

/-- **The report of the carriers** lists every carrier that has a fact of the tenant, once; what it
says of a carrier is what the facts say; and it has the most punctual first, and of those that are
equally punctual the one whose first fact was ingested first. -/
theorem topCarriers_ranked (facts : List IFactRecord) (tenantId : String) :
    Ranked AheadOf ((carriersOf facts tenantId).map (performance facts tenantId))
        (getTopCarriersByPerformance facts tenantId) ∧
      (carriersOf facts tenantId).Nodup ∧
      ∀ carrierId, carrierId ∈ carriersOf facts tenantId ↔
        ∃ f ∈ facts, f.tenantId = tenantId ∧ f.carrierId = carrierId :=
  ⟨ranked_rows facts tenantId, nodup_distinct _, fun _ => mem_carriersOf⟩

/-- It is 28.75 in exact arithmetic, and a little less in doubles. -/
example : onTimeRate 23 80 = .ofRat (287 / 10) := by decide +kernel

/-! ## Months -/

/-- The month of a fact. -/
def IFactRecord.month (f : IFactRecord) : ℤ × ℤ := (f.orderYear, f.orderMonth)

/-- The months of a tenant, in the order of their first facts. -/
def monthsOf (facts : List IFactRecord) (tenantId : String) : List (ℤ × ℤ) :=
  distinct ((factsOf facts tenantId).map IFactRecord.month)

/-- The slices of all months of a tenant. -/
def slices (facts : List IFactRecord) (tenantId : String) : List CubeSlice :=
  (monthsOf facts tenantId).map fun m => sliceByTenantAndMonth facts tenantId m.1 m.2

theorem foldl_cubeSlice (l : List IFactRecord) (s : CubeSlice) :
    l.foldl CubeSlice.add s = ⟨s.totalOrders + (l.map IFactRecord.orderVolumeCount).sum,
      s.totalRevenue + (l.map IFactRecord.revenueUSD).sum,
      s.avgDelayMinutes + (l.map IFactRecord.deliveryDelayMinutes).sum⟩ := by
  induction l generalizing s with
  | nil => simp
  | cons f l ih =>
    simp only [List.foldl_cons, ih, CubeSlice.add, List.map_cons, List.sum_cons, add_assoc]

theorem slice_eq {facts : List IFactRecord} {tenantId : String} {m : ℤ × ℤ}
    (h : m ∈ monthsOf facts tenantId) :
    (sliceByTenantAndMonth facts tenantId m.1 m.2).totalOrders =
        groupSum IFactRecord.month IFactRecord.orderVolumeCount (factsOf facts tenantId) m ∧
      (sliceByTenantAndMonth facts tenantId m.1 m.2).totalRevenue = toFixed 2
        (groupSum IFactRecord.month IFactRecord.revenueUSD (factsOf facts tenantId) m) := by
  have hsubset : (facts.filter fun f =>
      f.tenantId = tenantId ∧ f.orderYear = m.1 ∧ f.orderMonth = m.2) =
      (factsOf facts tenantId).filter fun f => f.month = m := by
    rw [factsOf, List.filter_filter]
    refine List.filter_congr fun f _ => ?_
    rw [Bool.eq_iff_iff]
    simp [IFactRecord.month, Prod.ext_iff, and_comm]
  obtain ⟨f, hf, hmonth⟩ := List.mem_map.mp (mem_distinct.mp h)
  have hmem : f ∈ (factsOf facts tenantId).filter fun f => f.month = m :=
    List.mem_filter.mpr ⟨hf, decide_eq_true hmonth⟩
  have hpos : ((factsOf facts tenantId).filter fun f => f.month = m).length ≠ 0 :=
    (List.length_pos_of_mem hmem).ne'
  rw [sliceByTenantAndMonth]
  simp only [hsubset, if_neg hpos, foldl_cubeSlice, zero_add]
  exact ⟨rfl, rfl⟩

theorem abs_sum_toFixed_sub_le (xs : List ℚ) :
    |(xs.map (toFixed 2)).sum - xs.sum| ≤ xs.length / 200 := by
  induction xs with
  | nil => simp
  | cons x xs ih =>
    have hx := abs_toFixed_sub_le 2 x
    have hsplit : (toFixed 2 x + (xs.map (toFixed 2)).sum) - (x + xs.sum) =
        (toFixed 2 x - x) + ((xs.map (toFixed 2)).sum - xs.sum) := by ring
    rw [List.map_cons, List.sum_cons, List.sum_cons, hsplit, List.length_cons]
    refine (abs_add_le _ _).trans ?_
    push_cast
    linarith

/-- **The months and the carriers make up the same whole**: the orders of the slices are all orders;
and the revenues of the slices, as those of the carriers, are all revenues, up to half a cent for
each month, or each carrier. -/
theorem breakdowns_agree (facts : List IFactRecord) (tenantId : String) :
    let revenue := ((factsOf facts tenantId).map IFactRecord.revenueUSD).sum
    ((slices facts tenantId).map CubeSlice.totalOrders).sum =
        ((factsOf facts tenantId).map IFactRecord.orderVolumeCount).sum ∧
      |((slices facts tenantId).map CubeSlice.totalRevenue).sum - revenue| ≤
        (monthsOf facts tenantId).length / 200 ∧
      |((getTopCarriersByPerformance facts tenantId).map
          CarrierPerformance.totalRevenue).sum - revenue| ≤
        (carriersOf facts tenantId).length / 200 := by
  intro revenue
  refine ⟨?_, ?_, ?_⟩
  · rw [slices, List.map_map, ← sum_groups IFactRecord.month]
    exact congrArg List.sum (List.map_congr_left fun m hm => (slice_eq hm).1)
  · have hround := abs_sum_toFixed_sub_le ((monthsOf facts tenantId).map
      (groupSum IFactRecord.month IFactRecord.revenueUSD (factsOf facts tenantId)))
    rw [List.map_map, List.length_map, monthsOf, sum_groups] at hround
    rw [slices, List.map_map]
    refine le_of_eq_of_le (congrArg (fun x => |List.sum x - revenue|) ?_) hround
    exact List.map_congr_left fun m hm => (slice_eq hm).2
  · have hround := abs_sum_toFixed_sub_le ((carriersOf facts tenantId).map
      (groupSum IFactRecord.carrierId IFactRecord.revenueUSD (factsOf facts tenantId)))
    rw [List.map_map, List.length_map, carriersOf, sum_groups] at hround
    have hperm := ((ranked_rows facts tenantId).perm.map
      CarrierPerformance.totalRevenue).sum_eq
    rw [hperm, List.map_map]
    exact hround

end Logix.Analytics
