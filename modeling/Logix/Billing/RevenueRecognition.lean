import Mathlib.Algebra.BigOperators.Ring.List
import Mathlib.Algebra.Order.BigOperators.Group.List
import Logix.Js.Cents
import Logix.Js.Date

/-!
# Revenue recognition

The price of a contract is allocated to its performance obligations in proportion to their
standalone prices. Each share is rounded to the nearest cent on its own.

* `Ifrs15RevenueRecognitionEngine`: `allocateTransactionPrice` and `recognizeRevenuePeriod`;
* **`recognizeRevenuePeriod_eq`**: at every period end, what is recognized and what is deferred make
  up what was allocated;
* `KeepsPrice`: the allocated amounts make up the price;
* `RoundsEvenly`: as many shares are rounded up as their fractions of a cent make up;
* **`keepsPrice_iff`**: the first holds exactly when the second does.
-/

namespace Logix.Billing

/-- `IPerformanceObligation`; an absent date and Invalid Date are `none`. -/
structure PerformanceObligation where
  obligationId : String
  description : String
  standaloneSellingPrice : ℚ
  isSatisfied : Bool
  satisfactionDate : Option JsDate
  allocatedAmount : ℚ
  deriving DecidableEq, Repr

/-- What `recognizeRevenuePeriod` returns. -/
structure RecognizedRevenue where
  recognizedAmount : ℚ
  deferredAmount : ℚ
  deriving DecidableEq, Repr

namespace Ifrs15RevenueRecognitionEngine

/-- `totalStandalone`. -/
def totalStandalone (obligations : List PerformanceObligation) : ℚ :=
  (obligations.map PerformanceObligation.standaloneSellingPrice).sum

/-- **`allocateTransactionPrice`**. -/
def allocateTransactionPrice (totalContractPrice : ℚ) (obligations : List PerformanceObligation) :
    List PerformanceObligation :=
  if totalStandalone obligations = 0 then obligations
  else
    obligations.map fun o =>
      let ratio := o.standaloneSellingPrice / totalStandalone obligations
      { o with allocatedAmount := toNearestCent (totalContractPrice * ratio) }

/-- The obligation is satisfied at the period end. -/
def isDue (periodEndDate : Option JsDate) (o : PerformanceObligation) : Bool :=
  o.isSatisfied && dateLe o.satisfactionDate periodEndDate

/-- One round of the loop over the obligations, on `recognized` and `deferred`. -/
def addObligation (periodEndDate : Option JsDate) (sums : ℚ × ℚ) (o : PerformanceObligation) :
    ℚ × ℚ :=
  if isDue periodEndDate o then (sums.1 + o.allocatedAmount, sums.2)
  else (sums.1, sums.2 + o.allocatedAmount)

/-- **`recognizeRevenuePeriod`**. -/
def recognizeRevenuePeriod (obligations : List PerformanceObligation)
    (periodEndDate : Option JsDate) : RecognizedRevenue :=
  let (recognized, deferred) := obligations.foldl (addObligation periodEndDate) (0, 0)
  ⟨toNearestCent recognized, toNearestCent deferred⟩

end Ifrs15RevenueRecognitionEngine

open Ifrs15RevenueRecognitionEngine

/-! ## Recognized and deferred -/

/-- The amounts are in whole cents. -/
def InWholeCents (obligations : List PerformanceObligation) : Prop :=
  ∀ o ∈ obligations, ∃ n, o.allocatedAmount = inCents n

/-- The sum of the amounts. -/
def allocated (obligations : List PerformanceObligation) : ℚ :=
  (obligations.map PerformanceObligation.allocatedAmount).sum

theorem foldl_addObligation {obligations : List PerformanceObligation}
    (h : InWholeCents obligations) (periodEndDate : Option JsDate) (m n : ℤ) :
    ∃ m' n', obligations.foldl (addObligation periodEndDate) (inCents m, inCents n) =
        (inCents m', inCents n') ∧
      inCents m' + inCents n' = inCents m + inCents n + allocated obligations := by
  induction obligations generalizing m n with
  | nil => exact ⟨m, n, rfl, (add_zero _).symm⟩
  | cons o obligations ih =>
    obtain ⟨⟨k, hk⟩, hrest⟩ := List.forall_mem_cons.mp h
    have hcons : allocated (o :: obligations) = inCents k + allocated obligations := by
      rw [allocated, List.map_cons, List.sum_cons, hk, allocated]
    rw [List.foldl_cons, addObligation, hk, ← inCents_add, ← inCents_add, hcons]
    split_ifs with hdue
    · obtain ⟨m', n', hfold, hsum⟩ := ih hrest (m + k) n
      exact ⟨m', n', hfold, hsum.trans (by rw [inCents_add]; ring)⟩
    · obtain ⟨m', n', hfold, hsum⟩ := ih hrest m (n + k)
      exact ⟨m', n', hfold, hsum.trans (by rw [inCents_add]; ring)⟩

/-- **What is recognized and what is deferred** make up what was allocated, at every period end. -/
theorem recognizeRevenuePeriod_eq {obligations : List PerformanceObligation}
    (h : InWholeCents obligations) (periodEndDate : Option JsDate) :
    (recognizeRevenuePeriod obligations periodEndDate).recognizedAmount +
      (recognizeRevenuePeriod obligations periodEndDate).deferredAmount =
        allocated obligations := by
  obtain ⟨m, n, hfold, hsum⟩ := foldl_addObligation h periodEndDate 0 0
  rw [inCents_zero, add_zero, zero_add] at hsum
  rw [inCents_zero] at hfold
  rw [recognizeRevenuePeriod, hfold]
  simp only [toNearestCent_inCents, hsum]

/-! ## The allocation -/

/-- **No money is lost**: the amounts make up the price, and so do what is recognized and what is
deferred at every period end. -/
structure KeepsPrice (price : ℚ) (obligations : List PerformanceObligation) : Prop where
  sum : allocated (allocateTransactionPrice price obligations) = price
  periods : ∀ periodEndDate,
    (recognizeRevenuePeriod (allocateTransactionPrice price obligations)
        periodEndDate).recognizedAmount +
      (recognizeRevenuePeriod (allocateTransactionPrice price obligations)
        periodEndDate).deferredAmount = price

/-- The exact shares of a price, in cents and without its sign. -/
def exactShares (cents : ℤ) (obligations : List PerformanceObligation) : List ℚ :=
  obligations.map fun o => |cents| * (o.standaloneSellingPrice / totalStandalone obligations)

/-- **As many shares are rounded up as their fractions of a cent make up.** -/
def RoundsEvenly (cents : ℤ) (obligations : List PerformanceObligation) : Prop :=
  (((exactShares cents obligations).countP fun x => 1 / 2 ≤ Int.fract x : ℕ) : ℚ) =
    ((exactShares cents obligations).map Int.fract).sum

instance (cents : ℤ) (obligations : List PerformanceObligation) :
    Decidable (RoundsEvenly cents obligations) := inferInstanceAs (Decidable (_ = _))

section Allocation

variable {obligations : List PerformanceObligation}

theorem totalStandalone_pos (hne : obligations ≠ [])
    (hpos : ∀ o ∈ obligations, 0 < o.standaloneSellingPrice) :
    0 < totalStandalone obligations :=
  List.sum_pos _ (List.forall_mem_map.mpr hpos) (by simpa using hne)

theorem sum_exactShares (htotal : totalStandalone obligations ≠ 0) (cents : ℤ) :
    (exactShares cents obligations).sum = (|cents| : ℤ) := by
  simp only [exactShares, List.sum_map_mul_left, div_eq_mul_inv, List.sum_map_mul_right]
  rw [← totalStandalone, mul_inv_cancel₀ htotal, mul_one]

theorem nearestCents_inCents_mul (cents : ℤ) {ratio : ℚ} (hratio : 0 ≤ ratio) :
    nearestCents (inCents cents * ratio) =
      if 0 ≤ cents then ⌊|cents| * ratio + 1 / 2⌋ else -⌊|cents| * ratio + 1 / 2⌋ := by
  have hnonneg : ∀ n : ℤ, 0 ≤ n → nearestCents (inCents n * ratio) = ⌊n * ratio + 1 / 2⌋ :=
    fun n hn => by
      rw [nearestCents_of_nonneg (mul_nonneg (inCents_nonneg.mpr hn) hratio), inCents]
      congr 2
      ring
  split_ifs with hcents
  · rw [hnonneg cents hcents, abs_of_nonneg hcents]
  · have hneg : inCents cents * ratio = -(inCents (-cents) * ratio) := by
      rw [inCents, inCents]
      push_cast
      ring
    have habs : |cents| = -cents := abs_of_neg (not_le.mp hcents)
    rw [hneg, nearestCents_neg, hnonneg (-cents) (by omega), habs]

theorem allocated_allocateTransactionPrice (hpos : ∀ o ∈ obligations, 0 < o.standaloneSellingPrice)
    (htotal : 0 < totalStandalone obligations) (cents : ℤ) :
    allocated (allocateTransactionPrice (inCents cents) obligations) = inCents (
      if 0 ≤ cents then ((exactShares cents obligations).map fun x => ⌊x + 1 / 2⌋).sum
      else -((exactShares cents obligations).map fun x => ⌊x + 1 / 2⌋).sum) := by
  have hamounts : (allocateTransactionPrice (inCents cents) obligations).map
      PerformanceObligation.allocatedAmount = (obligations.map fun o =>
        nearestCents (inCents cents *
          (o.standaloneSellingPrice / totalStandalone obligations))).map inCents := by
    rw [allocateTransactionPrice, if_neg htotal.ne', List.map_map, List.map_map]
    rfl
  rw [allocated, hamounts, ← inCents_sum, exactShares, List.map_map]
  congr 1
  have hshares : ∀ o ∈ obligations, nearestCents (inCents cents *
      (o.standaloneSellingPrice / totalStandalone obligations)) = _ := fun o ho =>
    nearestCents_inCents_mul cents (div_pos (hpos o ho) htotal).le
  rw [List.map_congr_left hshares]
  split_ifs with hcents
  · rfl
  · rw [List.sum_neg, List.map_map]
    rfl

theorem inWholeCents_allocateTransactionPrice (htotal : 0 < totalStandalone obligations)
    (price : ℚ) : InWholeCents (allocateTransactionPrice price obligations) := by
  rw [allocateTransactionPrice, if_neg htotal.ne']
  exact List.forall_mem_map.mpr fun o _ => ⟨_, rfl⟩

/-- **The allocation loses no money exactly when its roundings even out.** -/
theorem keepsPrice_iff (cents : ℤ) (hne : obligations ≠ [])
    (hpos : ∀ o ∈ obligations, 0 < o.standaloneSellingPrice) :
    KeepsPrice (inCents cents) obligations ↔ RoundsEvenly cents obligations := by
  have htotal := totalStandalone_pos hne hpos
  have hperiods := recognizeRevenuePeriod_eq
    (inWholeCents_allocateTransactionPrice htotal (inCents cents))
  have hkeeps : KeepsPrice (inCents cents) obligations ↔
      allocated (allocateTransactionPrice (inCents cents) obligations) = inCents cents :=
    ⟨fun h => h.sum, fun h => ⟨h, fun periodEndDate => (hperiods periodEndDate).trans h⟩⟩
  rw [hkeeps, allocated_allocateTransactionPrice hpos htotal, inCents_inj, RoundsEvenly,
    ← sum_floor_add_half_eq_iff (sum_exactShares htotal.ne' cents)]
  split_ifs with hcents
  · rw [abs_of_nonneg hcents]
  · rw [abs_of_neg (not_le.mp hcents), neg_eq_iff_eq_neg]

end Allocation

/-- A case: 100 dollars for two equal obligations. -/
theorem keepsPrice_iff_two :
    KeepsPrice (inCents 10000) [⟨"a", "", 1, true, some 5, 0⟩, ⟨"b", "", 1, false, none, 0⟩] ↔
      RoundsEvenly 10000 [⟨"a", "", 1, true, some 5, 0⟩, ⟨"b", "", 1, false, none, 0⟩] :=
  keepsPrice_iff 10000 (List.cons_ne_nil _ _) (by decide +kernel)

/-- **A cent is lost**: 100 dollars for three equal obligations. -/
theorem allocateTransactionPrice_loses :
    ¬ ∀ (cents : ℤ) (obligations : List PerformanceObligation), obligations ≠ [] →
      (∀ o ∈ obligations, 0 < o.standaloneSellingPrice) →
        KeepsPrice (inCents cents) obligations := by
  intro h
  have hsum := (h 10000 [⟨"a", "", 1, false, none, 0⟩, ⟨"b", "", 1, false, none, 0⟩,
    ⟨"c", "", 1, false, none, 0⟩] (List.cons_ne_nil _ _) (by decide +kernel)).sum
  exact absurd hsum (by decide +kernel)

end Logix.Billing
