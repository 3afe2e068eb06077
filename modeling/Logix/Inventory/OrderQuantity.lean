import Logix.Js.Number
import Logix.Spec.Numerals
import Mathlib.Analysis.Real.Sqrt

/-!
# Is the order quantity optimal?

The yearly cost of ordering in lots falls with their size, that of holding the stock grows with it.
The least cost is at a square root, which the calculator rounds to a whole number of units.

* `EconomicOrderQuantityCalculator.calculate`: the code, for any square root;
* `lotCost`: the yearly cost of a lot size; `lotCost_sub`: the difference of two costs;
* `lotCost_round_le`: what rounding the best size costs at most;
* `isLeast_iff`: when the rounded size is the best whole number;
* **`calculate_optimal`**: what the calculator promises; the reported cost is that of the lot size up
  to rounding, and the reorder point covers the lead time and the safety days.

Lot sizes that round to zero are left out: the code divides by them.
-/

namespace Logix.Inventory

open scoped Numerals

/-- `IEoqParameters`. -/
structure IEoqParameters (K : Type) where
  sku : String
  annualDemandUnits : K
  fixedOrderCostUSD : K
  unitCostUSD : K
  annualCarryingCostRate : K
  leadTimeDays : K
  safetyStockDays : K

/-- `IEoqCalculationResult`. -/
structure IEoqCalculationResult (K : Type) where
  sku : String
  optimalEoqUnits : ℤ
  annualHoldingCostUSD : K
  annualOrderingCostUSD : K
  totalAnnualInventoryCostUSD : K
  reorderPointUnits : ℤ
  safetyStockUnits : ℤ
  ordersPerYear : K

namespace EconomicOrderQuantityCalculator

/-! ## The code -/

section Code

variable {K : Type} [Field K] [LinearOrder K] [FloorRing K] (sqrt : K → K)

/-- `H`: the cost of holding a unit for a year. -/
def holdingCost (params : IEoqParameters K) : K :=
  params.unitCostUSD * params.annualCarryingCostRate

/-- `optimalEoqUnits`. -/
def optimalEoqUnits (params : IEoqParameters K) : ℤ :=
  let H := holdingCost params
  let S := params.fixedOrderCostUSD
  let D := params.annualDemandUnits
  mathRoundIn (sqrt (2 * D * S / if H = 0 then 1 else H))

/-- **`calculate(params)`.** -/
def calculate (params : IEoqParameters K) : IEoqCalculationResult K :=
  let H := holdingCost params
  let S := params.fixedOrderCostUSD
  let D := params.annualDemandUnits
  let optimalEoqUnits := optimalEoqUnits sqrt params
  let ordersPerYear := toFixedIn 1 (D / optimalEoqUnits)
  let annualOrderingCostUSD := toFixedIn 2 (ordersPerYear * S)
  let annualHoldingCostUSD := toFixedIn 2 ((optimalEoqUnits : K) / 2 * H)
  let totalAnnualInventoryCostUSD := toFixedIn 2 (annualOrderingCostUSD + annualHoldingCostUSD)
  let dailyDemand := D / 365
  let safetyStockUnits := mathRoundIn (dailyDemand * params.safetyStockDays)
  let reorderPointUnits := mathRoundIn (dailyDemand * params.leadTimeDays + safetyStockUnits)
  { sku := params.sku
    optimalEoqUnits := optimalEoqUnits
    annualHoldingCostUSD := annualHoldingCostUSD
    annualOrderingCostUSD := annualOrderingCostUSD
    totalAnnualInventoryCostUSD := totalAnnualInventoryCostUSD
    reorderPointUnits := reorderPointUnits
    safetyStockUnits := safetyStockUnits
    ordersPerYear := ordersPerYear }

end Code

/-! ## Lot sizes -/

section Lots

variable {D S H q Q : ℝ}

/-- **The yearly cost of lots of `q` units**: orders, and half a lot on stock. -/
noncomputable def lotCost (D S H q : ℝ) : ℝ := D / q * S + q / 2 * H

/-- The square of the best lot size. -/
noncomputable def bestSq (D S H : ℝ) : ℝ := 2 * D * S / H

/-- **The difference of two costs.** -/
theorem lotCost_sub (hH : 0 < H) (hq : 0 < q) (hQ : 0 < Q) :
    lotCost D S H q - lotCost D S H Q =
      H / 2 * ((q - Q) * (q * Q - bestSq D S H) / (q * Q)) := by
  rw [lotCost, lotCost, bestSq]
  field_simp
  ring

theorem lotCost_eq (hH : 0 < H) (hq : 0 < q) {r : ℝ} (hr : r ^ 2 = bestSq D S H) :
    lotCost D S H q = H * r + H / 2 * ((q - r) ^ 2 / q) := by
  have hDS : D * S = r ^ 2 * H / 2 := by
    rw [hr, bestSq]
    field_simp
  calc lotCost D S H q = D * S / q + q / 2 * H := by
        rw [lotCost]
        ring
    _ = H * r + H / 2 * ((q - r) ^ 2 / q) := by
        rw [hDS]
        field_simp
        ring

/-- **What rounding costs**: a size within half a unit of the best one costs at most `H / (8 * Q)`
more than any other. -/
theorem lotCost_round_le (hH : 0 < H) (hq : 0 < q) (hQ : 0 < Q) {r : ℝ}
    (hr : r ^ 2 = bestSq D S H) (hround : |Q - r| ≤ 1 / 2) :
    lotCost D S H Q ≤ lotCost D S H q + H / (8 * Q) := by
  have hsq : (Q - r) ^ 2 ≤ 1 / 4 := by
    rw [← sq_abs]
    nlinarith only [hround, abs_nonneg (Q - r)]
  have hover : H / 2 * ((Q - r) ^ 2 / Q) ≤ H / (8 * Q) := by
    rw [show H / (8 * Q) = H / 2 * (1 / 4 / Q) by field_simp; ring]
    exact mul_le_mul_of_nonneg_left (div_le_div_of_nonneg_right hsq hQ.le) (by linarith)
  have hleast : 0 ≤ H / 2 * ((q - r) ^ 2 / q) := by positivity
  rw [lotCost_eq hH hQ hr, lotCost_eq hH hq hr]
  linarith

/-- **When a whole lot size is the best one** between the squares `Q * (Q - 1)` and
`(Q + 1 / 2) ^ 2`. -/
theorem isLeast_iff (hH : 0 < H) {Q : ℤ} (hQ : 0 < Q) (hlo : (Q : ℝ) * (Q - 1) ≤ bestSq D S H) :
    (∀ q : ℤ, 0 < q → lotCost D S H Q ≤ lotCost D S H q) ↔
      bestSq D S H ≤ Q * (Q + 1) := by
  have hQ' : (0 : ℝ) < Q := Int.cast_pos.mpr hQ
  constructor
  · intro hleast
    have hnext : (0 : ℝ) < ((Q + 1 : ℤ) : ℝ) := Int.cast_pos.mpr (by omega)
    have hsub := lotCost_sub (D := D) (S := S) hH hnext hQ'
    have hle := hleast (Q + 1) (by omega)
    by_contra hbetween
    have hneg : H / 2 * ((((Q + 1 : ℤ) : ℝ) - Q) * (((Q + 1 : ℤ) : ℝ) * Q - bestSq D S H) /
        (((Q + 1 : ℤ) : ℝ) * Q)) < 0 := by
      refine mul_neg_of_pos_of_neg (by linarith) (div_neg_of_neg_of_pos ?_ (mul_pos hnext hQ'))
      push_cast
      linarith [not_le.mp hbetween]
    linarith
  · intro hle q hq
    have hq' : (0 : ℝ) < q := Int.cast_pos.mpr hq
    have hsub := lotCost_sub (D := D) (S := S) hH hq' hQ'
    -- a larger size is over `Q + 1`, a smaller one below `Q - 1`
    have hsign : 0 ≤ ((q : ℝ) - Q) * (q * Q - bestSq D S H) := by
      rcases lt_trichotomy q Q with hlt | rfl | hgt
      · have hbelow : (q : ℝ) ≤ Q - 1 := by exact_mod_cast Int.le_sub_one_of_lt hlt
        refine mul_nonneg_of_nonpos_of_nonpos (by linarith) ?_
        nlinarith only [hbelow, hlo, hQ']
      · rw [sub_self, zero_mul]
      · have habove : (Q : ℝ) + 1 ≤ q := by exact_mod_cast hgt
        refine mul_nonneg (by linarith) ?_
        nlinarith only [habove, hle, hQ']
    have hnonneg : 0 ≤ H / 2 * (((q : ℝ) - Q) * (q * Q - bestSq D S H) / (q * Q)) := by positivity
    linarith

end Lots

/-! ## The calculator -/

/-- **What the calculator promises.** -/
structure Optimal (params : IEoqParameters ℝ) (result : IEoqCalculationResult ℝ) : Prop where
  positive : 0 < result.optimalEoqUnits
  /-- No lot size at all is cheaper by more than `H / (8 * Q)`. -/
  near : ∀ q, 0 < q →
    lotCost params.annualDemandUnits params.fixedOrderCostUSD (holdingCost params)
        result.optimalEoqUnits ≤
      lotCost params.annualDemandUnits params.fixedOrderCostUSD (holdingCost params) q +
        holdingCost params / (8 * result.optimalEoqUnits)
  /-- It is the best whole lot size iff the square of the best one is at most `Q * (Q + 1)`. -/
  best : (∀ q : ℤ, 0 < q →
      lotCost params.annualDemandUnits params.fixedOrderCostUSD (holdingCost params)
          result.optimalEoqUnits ≤
        lotCost params.annualDemandUnits params.fixedOrderCostUSD (holdingCost params) q) ↔
    bestSq params.annualDemandUnits params.fixedOrderCostUSD (holdingCost params) ≤
      result.optimalEoqUnits * (result.optimalEoqUnits + 1)
  /-- The reported cost is off by a twentieth of an order and one and a half cents at most. -/
  reported : |result.totalAnnualInventoryCostUSD -
      lotCost params.annualDemandUnits params.fixedOrderCostUSD (holdingCost params)
        result.optimalEoqUnits| ≤ params.fixedOrderCostUSD / 20 + 3 / 200
  /-- The reorder point is the demand of the lead time and the safety days, up to a unit. -/
  reorder : |(result.reorderPointUnits : ℝ) -
      params.annualDemandUnits / 365 * (params.leadTimeDays + params.safetyStockDays)| ≤ 1

theorem abs_mathRoundIn_sub_le (x : ℝ) : |(mathRoundIn x : ℝ) - x| ≤ 1 / 2 := by
  have hlo := Int.floor_le (x + 1 / 2)
  have hhi := Int.lt_floor_add_one (x + 1 / 2)
  rw [mathRoundIn, abs_le]
  constructor <;> linarith

theorem abs_total_sub_le {D S H Q : ℝ} (hS : 0 ≤ S) :
    |toFixedIn 2 (toFixedIn 2 (toFixedIn 1 (D / Q) * S) + toFixedIn 2 (Q / 2 * H)) -
      lotCost D S H Q| ≤ S / 20 + 3 / 200 := by
  have horders := abs_le.mp (abs_toFixedIn_sub_le 1 (D / Q))
  have hordering := abs_le.mp (abs_toFixedIn_sub_le 2 (toFixedIn 1 (D / Q) * S))
  have hholding := abs_le.mp (abs_toFixedIn_sub_le 2 (Q / 2 * H))
  have htotal := abs_le.mp (abs_toFixedIn_sub_le 2
    (toFixedIn 2 (toFixedIn 1 (D / Q) * S) + toFixedIn 2 (Q / 2 * H)))
  norm_num only at horders hordering hholding htotal
  -- the error of the orders is multiplied by the cost of an order
  have hlo : -(S / 20) ≤ toFixedIn 1 (D / Q) * S - D / Q * S := by nlinarith only [horders.1, hS]
  have hhi : toFixedIn 1 (D / Q) * S - D / Q * S ≤ S / 20 := by nlinarith only [horders.2, hS]
  rw [lotCost, abs_le]
  constructor <;> linarith

/-- **The calculator is right**, for positive amounts and a lot size that does not round to zero. -/
theorem calculate_optimal (params : IEoqParameters ℝ) (hS : 0 < params.fixedOrderCostUSD)
    (hH : 0 < holdingCost params)
    (hsize : 1 / 4 ≤ bestSq params.annualDemandUnits params.fixedOrderCostUSD
      (holdingCost params)) : Optimal params (calculate Real.sqrt params) := by
  obtain ⟨x, hx⟩ : ∃ x, x = bestSq params.annualDemandUnits params.fixedOrderCostUSD
    (holdingCost params) := ⟨_, rfl⟩
  have hQ : (calculate Real.sqrt params).optimalEoqUnits = mathRoundIn √x := by
    simp only [calculate, optimalEoqUnits, if_neg hH.ne', hx, bestSq]
  have hr : √x ^ 2 = x := Real.sq_sqrt (by linarith)
  have hhalf : 1 / 2 ≤ √x := Real.le_sqrt_of_sq_le (by rw [hx]; norm_num; linarith)
  have hround := abs_mathRoundIn_sub_le √x
  have hpos : 0 < mathRoundIn √x := by
    rw [mathRoundIn, Int.floor_pos]
    linarith
  have hpos' : (0 : ℝ) < mathRoundIn √x := Int.cast_pos.mpr hpos
  have hlo : ((mathRoundIn √x : ℤ) : ℝ) * (mathRoundIn √x - 1) ≤ x := by
    nlinarith only [(abs_le.mp hround).2, hhalf, hr, hpos']
  refine ⟨hQ ▸ hpos, fun q hq => ?_, ?_, ?_, ?_⟩
  · rw [hQ]
    exact lotCost_round_le hH hq hpos' (hr.trans hx) hround
  · rw [hQ]
    exact isLeast_iff hH hpos (hx ▸ hlo)
  · exact abs_total_sub_le (Q := (calculate Real.sqrt params).optimalEoqUnits) hS.le
  · have hsafety := abs_le.mp
      (abs_mathRoundIn_sub_le (params.annualDemandUnits / 365 * params.safetyStockDays))
    have hreorder := abs_le.mp (abs_mathRoundIn_sub_le (params.annualDemandUnits / 365 *
      params.leadTimeDays +
        mathRoundIn (params.annualDemandUnits / 365 * params.safetyStockDays)))
    simp only [calculate]
    rw [mul_add, abs_le]
    constructor <;> linarith

/-- A thousand units a year, ten dollars an order, two dollars to hold one. -/
noncomputable def thousandUnits : IEoqParameters ℝ where
  sku := "SKU-1"
  annualDemandUnits := 1000
  fixedOrderCostUSD := 10
  unitCostUSD := 8
  annualCarryingCostRate := 1 / 4
  leadTimeDays := 7
  safetyStockDays := 3

theorem calculate_optimal_thousandUnits :
    Optimal thousandUnits (calculate Real.sqrt thousandUnits) :=
  calculate_optimal thousandUnits (by norm_num [thousandUnits])
    (by norm_num [thousandUnits, holdingCost]) (by norm_num [thousandUnits, holdingCost, bestSq])

end EconomicOrderQuantityCalculator

end Logix.Inventory
