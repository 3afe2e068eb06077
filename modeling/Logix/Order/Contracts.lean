import Mathlib.Data.List.Sort
import Logix.Common.Errors
import Logix.Js.Cents
import Logix.Js.Map
import Logix.Spec.Grouping
import Logix.Spec.Machine

/-!
# Procurement contracts

The total of an order is shared out evenly among its categories, the discount of every category is
rounded on its own, and what is left of the total is added to the annual spend of the contract.
Amounts are rational.

* `EnterpriseCustomerProcurementContractEngine.evaluateOrderAgainstContract`,
  `calculateAnnualRebate`: the code; `orderMachine`: the orders, one at a time;
* `NeverPaysCustomer`: no order of a run has a negative net total, discounts and net totals make up
  the order totals, and the annual spends never decrease;
* `exactCents`: the discounts of the categories before they are rounded;
* `RoundingFits`: what the rounding adds to the discounts is at most what they leave of the total;
* **`neverPaysCustomer_iff`**: the first holds of a run exactly when the other holds of every order.
-/

namespace Logix.Order

open Spec

/-- An entry of `tieredPricingRules`. -/
structure TieredPricingRule where
  skuCategory : String
  minimumQuantity : ℚ
  discountPercentage : ℚ
  deriving DecidableEq, Repr

/-- `IProcurementContract`: what the engine reads of it. -/
structure IProcurementContract where
  contractId : String
  minimumAnnualCommitmentUSD : ℚ
  currentAnnualSpendUSD : ℚ
  tieredPricingRules : List TieredPricingRule
  deriving DecidableEq, Repr

/-- What `evaluateOrderAgainstContract` returns. -/
structure OrderEvaluation where
  appliedDiscountsUSD : ℚ
  netTotalUSD : ℚ
  eligibleForSlaPenalty : Bool
  deriving DecidableEq, Repr

/-- What `calculateAnnualRebate` returns. -/
structure AnnualRebate where
  rebateAmountUSD : ℚ
  message : String
  deriving DecidableEq, Repr

/-- The arguments of `evaluateOrderAgainstContract`. -/
structure ContractOrder where
  contractId : String
  orderTotalUSD : ℚ
  itemQuantitiesByCategory : JsMap String ℚ

/-- **`EnterpriseCustomerProcurementContractEngine`.** -/
structure EnterpriseCustomerProcurementContractEngine where
  contracts : JsMap String IProcurementContract

namespace EnterpriseCustomerProcurementContractEngine

/-- **`registerContract(contract)`.** -/
def registerContract (s : EnterpriseCustomerProcurementContractEngine)
    (contract : IProcurementContract) : EnterpriseCustomerProcurementContractEngine :=
  ⟨s.contracts.set contract.contractId contract⟩

/-- The order in which the rules are sorted. -/
def higherDiscount (a b : TieredPricingRule) : Prop := b.discountPercentage ≤ a.discountPercentage

instance : DecidableRel higherDiscount := fun _ _ => inferInstanceAs (Decidable (_ ≤ _))

/-- `applicableRule`, of a category and its quantity. -/
def applicableRule (tieredPricingRules : List TieredPricingRule) (category : String) (qty : ℚ) :
    Option TieredPricingRule :=
  ((tieredPricingRules.filter fun r =>
    r.skuCategory = category ∧ r.minimumQuantity ≤ qty).insertionSort higherDiscount).head?

/-- `totalDiscountUSD`. -/
def totalDiscountUSD (tieredPricingRules : List TieredPricingRule) (o : ContractOrder) : ℚ :=
  o.itemQuantitiesByCategory.entries.foldl (fun total e =>
    match applicableRule tieredPricingRules e.1 e.2 with
    | none => total
    | some rule =>
      let estimatedCategorySpend := o.orderTotalUSD / o.itemQuantitiesByCategory.size
      total + toNearestCent (estimatedCategorySpend * (rule.discountPercentage / 100))) 0

/-- `netTotalUSD`. -/
def netTotalUSD (tieredPricingRules : List TieredPricingRule) (o : ContractOrder) : ℚ :=
  toNearestCent (o.orderTotalUSD - totalDiscountUSD tieredPricingRules o)

/-- **`evaluateOrderAgainstContract`.** -/
def evaluateOrderAgainstContract (s : EnterpriseCustomerProcurementContractEngine)
    (o : ContractOrder) : EnterpriseCustomerProcurementContractEngine × OrderEvaluation :=
  match s.contracts.get o.contractId with
  | none => (s, ⟨0, o.orderTotalUSD, false⟩)
  | some contract =>
    let netTotal := netTotalUSD contract.tieredPricingRules o
    let currentAnnualSpendUSD := contract.currentAnnualSpendUSD + netTotal
    (⟨s.contracts.modify o.contractId fun c => { c with currentAnnualSpendUSD }⟩,
      { appliedDiscountsUSD := totalDiscountUSD contract.tieredPricingRules o
        netTotalUSD := netTotal
        eligibleForSlaPenalty :=
          contract.minimumAnnualCommitmentUSD * (1 / 2) ≤ currentAnnualSpendUSD })

/-- **`calculateAnnualRebate(contractId)`.** -/
def calculateAnnualRebate (s : EnterpriseCustomerProcurementContractEngine) (contractId : String) :
    Except DomainException AnnualRebate :=
  match s.contracts.get contractId with
  | none => .error (.error "Contract not found")
  | some contract =>
    if contract.minimumAnnualCommitmentUSD ≤ contract.currentAnnualSpendUSD then
      let surplus := contract.currentAnnualSpendUSD - contract.minimumAnnualCommitmentUSD
      .ok ⟨toNearestCent (surplus * (35 / 1000)),
        "Tier commitment achieved: 3.5% growth rebate awarded"⟩
    else .ok ⟨0, "Commitment threshold not yet met"⟩

end EnterpriseCustomerProcurementContractEngine

open EnterpriseCustomerProcurementContractEngine

/-- The engine under its orders. -/
def orderMachine :
    Machine EnterpriseCustomerProcurementContractEngine ContractOrder OrderEvaluation where
  call o s := s.evaluateOrderAgainstContract o

/-- The annual spend of a contract, 0 where there is none. -/
def annualSpend (contractId : String) (s : EnterpriseCustomerProcurementContractEngine) : ℚ :=
  ((s.contracts.get contractId).map IProcurementContract.currentAnnualSpendUSD).getD 0

/-- The pricing rules of a contract. -/
def pricingRules (contractId : String) (s : EnterpriseCustomerProcurementContractEngine) :
    Option (List TieredPricingRule) :=
  (s.contracts.get contractId).map IProcurementContract.tieredPricingRules

/-- **A run that never pays the customer.** -/
structure NeverPaysCustomer (s : EnterpriseCustomerProcurementContractEngine)
    (orders : List ContractOrder) : Prop where
  net_nonneg : ∀ e ∈ orderMachine.history s orders, 0 ≤ e.result.netTotalUSD
  adds_up : ∀ e ∈ orderMachine.history s orders,
    e.result.appliedDiscountsUSD + e.result.netTotalUSD = e.input.orderTotalUSD
  spend_mono : ∀ js ks ls, orders = js ++ ks ++ ls → ∀ contractId,
    annualSpend contractId (orderMachine.run s js) ≤
      annualSpend contractId (orderMachine.run s (js ++ ks))

/-- The percentage of a category. -/
def percentage (rules : List TieredPricingRule) (category : String) (qty : ℚ) : ℚ :=
  ((applicableRule rules category qty).map TieredPricingRule.discountPercentage).getD 0

/-- **The discounts of the categories**, in cents, before they are rounded. -/
def exactCents (rules : List TieredPricingRule) (o : ContractOrder) : List ℚ :=
  o.itemQuantitiesByCategory.entries.map fun e =>
    o.orderTotalUSD * 100 / o.itemQuantitiesByCategory.size * (percentage rules e.1 e.2 / 100)

/-- **The rounding fits**: the discounts that are rounded up, less the fractions of all, are at most
what the discounts leave of the total. -/
def RoundingFits (s : EnterpriseCustomerProcurementContractEngine) (o : ContractOrder) : Prop :=
  ∀ rules ∈ pricingRules o.contractId s,
    (((exactCents rules o).countP fun x => 1 / 2 ≤ Int.fract x : ℕ) : ℚ) -
        ((exactCents rules o).map Int.fract).sum ≤
      o.orderTotalUSD * 100 - (exactCents rules o).sum

/-- The contracts whose percentages are proper. -/
def HasPercentages (s : EnterpriseCustomerProcurementContractEngine) : Prop :=
  ∀ contract ∈ s.contracts.values, ∀ rule ∈ contract.tieredPricingRules,
    0 ≤ rule.discountPercentage ∧ rule.discountPercentage ≤ 100

instance : DecidablePred HasPercentages := fun s =>
  inferInstanceAs (Decidable (∀ contract ∈ s.contracts.values,
    ∀ rule ∈ contract.tieredPricingRules, 0 ≤ rule.discountPercentage ∧
      rule.discountPercentage ≤ 100))

/-! ## One order -/

section Order

variable {s : EnterpriseCustomerProcurementContractEngine} {rules : List TieredPricingRule}
  {o : ContractOrder} {n : ℕ}

theorem percentage_nonneg (h : ∀ rule ∈ rules, 0 ≤ rule.discountPercentage)
    (category : String) (qty : ℚ) : 0 ≤ percentage rules category qty := by
  rw [percentage]
  cases hrule : applicableRule rules category qty with
  | none => exact le_rfl
  | some rule =>
    have hmem := (List.mem_insertionSort higherDiscount).mp (List.mem_of_mem_head? hrule)
    exact h rule (List.mem_of_mem_filter hmem)

theorem totalDiscountUSD_eq_inCents (rules : List TieredPricingRule) (o : ContractOrder) :
    totalDiscountUSD rules o =
      inCents ((exactCents rules o).map fun x => nearestCents (x / 100)).sum := by
  have hround : (fun (total : ℚ) (e : String × ℚ) =>
      match applicableRule rules e.1 e.2 with
      | none => total
      | some rule =>
        let estimatedCategorySpend := o.orderTotalUSD / o.itemQuantitiesByCategory.size
        total + toNearestCent (estimatedCategorySpend * (rule.discountPercentage / 100))) =
      fun total e => total + toNearestCent (o.orderTotalUSD * 100 /
        o.itemQuantitiesByCategory.size * (percentage rules e.1 e.2 / 100) / 100) := by
    funext total e
    rw [percentage]
    cases applicableRule rules e.1 e.2 with
    | none => norm_num [toNearestCent, nearestCents, inCents]
    | some rule =>
      dsimp only [Option.map_some, Option.getD_some]
      congr 2
      ring
  rw [totalDiscountUSD, hround, foldl_add_eq, zero_add, inCents_sum, exactCents, List.map_map,
    List.map_map]
  rfl

theorem totalDiscountUSD_eq_floors (htotal : o.orderTotalUSD = inCents n)
    (h : ∀ rule ∈ rules, 0 ≤ rule.discountPercentage) :
    totalDiscountUSD rules o =
      inCents ((exactCents rules o).map fun x => ⌊x + 1 / 2⌋).sum := by
  rw [totalDiscountUSD_eq_inCents]
  congr 2
  refine List.map_congr_left fun x hx => ?_
  obtain ⟨e, -, rfl⟩ := List.mem_map.mp hx
  have hpercentage := percentage_nonneg h e.1 e.2
  have htotal' : 0 ≤ o.orderTotalUSD := htotal ▸ inCents_nonneg.mpr (Int.natCast_nonneg n)
  rw [nearestCents_of_nonneg (by positivity), div_mul_cancel₀ _ (by norm_num)]

theorem netTotalUSD_eq (htotal : o.orderTotalUSD = inCents n) (rules : List TieredPricingRule) :
    netTotalUSD rules o = o.orderTotalUSD - totalDiscountUSD rules o := by
  rw [netTotalUSD, htotal, totalDiscountUSD_eq_inCents, ← inCents_sub, toNearestCent_inCents]

theorem netTotalUSD_nonneg_iff (htotal : o.orderTotalUSD = inCents n)
    (h : ∀ rule ∈ rules, 0 ≤ rule.discountPercentage) :
    0 ≤ netTotalUSD rules o ↔
      (((exactCents rules o).countP fun x => 1 / 2 ≤ Int.fract x : ℕ) : ℚ) -
          ((exactCents rules o).map Int.fract).sum ≤
        o.orderTotalUSD * 100 - (exactCents rules o).sum := by
  have hcents : o.orderTotalUSD * 100 = ((n : ℤ) : ℚ) := by
    rw [htotal, inCents, div_mul_cancel₀ _ (by norm_num)]
  rw [netTotalUSD_eq htotal, sub_nonneg, totalDiscountUSD_eq_floors htotal h, htotal, inCents_le,
    ← Int.cast_le (R := ℚ), sum_floor_add_half, ← hcents, htotal]
  constructor <;> intro hle <;> linarith

/-- **What an order does.** Where there is no contract, nothing; else the net total is added to the
spend of the contract. -/
theorem evaluateOrderAgainstContract_cases (s : EnterpriseCustomerProcurementContractEngine)
    (o : ContractOrder) :
    (pricingRules o.contractId s = none ∧
      s.evaluateOrderAgainstContract o = (s, ⟨0, o.orderTotalUSD, false⟩)) ∨
    ∃ rules, pricingRules o.contractId s = some rules ∧
      (s.evaluateOrderAgainstContract o).2.appliedDiscountsUSD = totalDiscountUSD rules o ∧
      (s.evaluateOrderAgainstContract o).2.netTotalUSD = netTotalUSD rules o ∧
      (∀ contractId, annualSpend contractId (s.evaluateOrderAgainstContract o).1 =
        annualSpend contractId s + if contractId = o.contractId then netTotalUSD rules o else 0) ∧
      ∀ contractId, pricingRules contractId (s.evaluateOrderAgainstContract o).1 =
        pricingRules contractId s := by
  rw [pricingRules, evaluateOrderAgainstContract]
  cases hget : s.contracts.get o.contractId with
  | none => exact Or.inl ⟨rfl, rfl⟩
  | some contract =>
    refine Or.inr ⟨contract.tieredPricingRules, rfl, rfl, rfl, fun contractId => ?_,
      fun contractId => ?_⟩
    · dsimp only [annualSpend]
      by_cases hid : contractId = o.contractId
      · rw [hid, JsMap.get_modify_self hget, hget, if_pos rfl]
        rfl
      · rw [JsMap.get_modify_ne hid, if_neg hid, add_zero]
    · refine JsMap.map_get_modify_of_eq (fun _ => ?_) s.contracts o.contractId contractId
      rfl

theorem rebateAmountUSD_nonneg {contractId : String} {rebate : AnnualRebate}
    (h : s.calculateAnnualRebate contractId = .ok rebate) : 0 ≤ rebate.rebateAmountUSD := by
  rw [calculateAnnualRebate] at h
  cases hget : s.contracts.get contractId with
  | none =>
    rw [hget] at h
    cases h
  | some contract =>
    rw [hget] at h
    dsimp only at h
    split_ifs at h with hreached <;> obtain rfl := Except.ok.inj h
    · exact toNearestCent_nonneg (mul_nonneg (sub_nonneg.mpr hreached) (by norm_num))
    · exact le_rfl

end Order

/-! ## Runs -/

section Runs

variable {s : EnterpriseCustomerProcurementContractEngine} {o : ContractOrder}
  {orders : List ContractOrder}

theorem pricingRules_next (s : EnterpriseCustomerProcurementContractEngine) (o : ContractOrder)
    (contractId : String) :
    pricingRules contractId (orderMachine.next s o) = pricingRules contractId s := by
  rcases evaluateOrderAgainstContract_cases s o with ⟨-, h⟩ | ⟨rules, -, -, -, -, h⟩
  · exact congrArg (fun r => pricingRules contractId r.1) h
  · exact h contractId

theorem pricingRules_run (orders : List ContractOrder) (contractId : String) :
    pricingRules contractId (orderMachine.run s orders) = pricingRules contractId s := by
  induction orders generalizing s with
  | nil => rfl
  | cons o orders ih => exact ih.trans (pricingRules_next s o contractId)

theorem HasPercentages.nonneg (h : HasPercentages s) {contractId : String}
    {rules : List TieredPricingRule} (hrules : pricingRules contractId s = some rules) :
    ∀ rule ∈ rules, 0 ≤ rule.discountPercentage := by
  obtain ⟨contract, hget, rfl⟩ := Option.map_eq_some_iff.mp hrules
  exact fun rule hrule => (h contract (JsMap.mem_values_of_get hget) rule hrule).1

/-- **One order**: its net total is not negative exactly when its rounding fits. -/
theorem net_nonneg_iff (h : HasPercentages s) (js : List ContractOrder) {n : ℕ}
    (htotal : o.orderTotalUSD = inCents n) :
    0 ≤ (orderMachine.event (orderMachine.run s js) o).result.netTotalUSD ↔ RoundingFits s o := by
  have hrules := pricingRules_run (s := s) js o.contractId
  rcases evaluateOrderAgainstContract_cases (orderMachine.run s js) o with
    ⟨hnone, hcall⟩ | ⟨rules, hsome, -, hnet, -, -⟩
  · rw [hrules] at hnone
    have hresult : (orderMachine.event (orderMachine.run s js) o).result.netTotalUSD =
        o.orderTotalUSD := congrArg (fun r => r.2.netTotalUSD) hcall
    rw [hresult, htotal]
    refine iff_of_true (inCents_nonneg.mpr (Int.natCast_nonneg n)) fun rules hsome => ?_
    cases hnone.symm.trans hsome
  · rw [hrules] at hsome
    have hresult : (orderMachine.event (orderMachine.run s js) o).result.netTotalUSD =
        netTotalUSD rules o := hnet
    rw [hresult, netTotalUSD_nonneg_iff htotal (h.nonneg hsome), RoundingFits, hsome]
    exact ⟨fun hle _ hmem => Option.some.inj hmem ▸ hle, fun hall => hall rules rfl⟩

theorem applied_add_net (s : EnterpriseCustomerProcurementContractEngine) {n : ℕ}
    (htotal : o.orderTotalUSD = inCents n) :
    (orderMachine.event s o).result.appliedDiscountsUSD +
      (orderMachine.event s o).result.netTotalUSD = o.orderTotalUSD := by
  have hresult : (orderMachine.event s o).result = (s.evaluateOrderAgainstContract o).2 := rfl
  rw [hresult]
  rcases evaluateOrderAgainstContract_cases s o with ⟨-, hcall⟩ | ⟨rules, -, happlied, hnet, -, -⟩
  · rw [hcall, zero_add]
  · rw [happlied, hnet, netTotalUSD_eq htotal, add_sub_cancel]

theorem annualSpend_next (h : 0 ≤ (orderMachine.event s o).result.netTotalUSD)
    (contractId : String) :
    annualSpend contractId s ≤ annualSpend contractId (orderMachine.next s o) := by
  rcases evaluateOrderAgainstContract_cases s o with ⟨-, hcall⟩ | ⟨rules, -, -, hnet, hspend, -⟩
  · have hnext : orderMachine.next s o = s := congrArg Prod.fst hcall
    rw [hnext]
  · have hresult : (orderMachine.event s o).result.netTotalUSD = netTotalUSD rules o := hnet
    rw [hresult] at h
    refine le_of_le_of_eq (le_add_of_nonneg_right ?_) (hspend contractId).symm
    split_ifs
    · exact h
    · exact le_rfl

theorem annualSpend_run (h : ∀ e ∈ orderMachine.history s orders, 0 ≤ e.result.netTotalUSD)
    (contractId : String) :
    annualSpend contractId s ≤ annualSpend contractId (orderMachine.run s orders) := by
  induction orders generalizing s with
  | nil => exact le_rfl
  | cons o orders ih =>
    obtain ⟨ho, horders⟩ := List.forall_mem_cons.mp h
    exact (annualSpend_next ho contractId).trans (ih horders)

/-- **A run never pays the customer exactly when the rounding of every order fits.** -/
theorem neverPaysCustomer_iff (s : EnterpriseCustomerProcurementContractEngine)
    (orders : List ContractOrder) (hpercentages : HasPercentages s)
    (htotals : ∀ o ∈ orders, ∃ n : ℕ, o.orderTotalUSD = inCents n) :
    NeverPaysCustomer s orders ↔ ∀ o ∈ orders, RoundingFits s o := by
  constructor
  · intro h o ho
    obtain ⟨n, hn⟩ := htotals o ho
    obtain ⟨js, ks, rfl⟩ := List.append_of_mem ho
    exact (net_nonneg_iff hpercentages js hn).mp
      (h.net_nonneg _ (Machine.mem_history_iff.mpr ⟨js, o, ks, rfl, rfl⟩))
  · intro h
    have hnet : ∀ e ∈ orderMachine.history s orders, 0 ≤ e.result.netTotalUSD := by
      intro e he
      obtain ⟨js, o, ks, rfl, rfl⟩ := Machine.mem_history_iff.mp he
      have ho : o ∈ js ++ o :: ks := List.mem_append_right _ List.mem_cons_self
      obtain ⟨n, hn⟩ := htotals o ho
      exact (net_nonneg_iff hpercentages js hn).mpr (h o ho)
    refine ⟨hnet, fun e he => ?_, fun js ks ls hsplit contractId => ?_⟩
    · obtain ⟨js, o, ks, rfl, rfl⟩ := Machine.mem_history_iff.mp he
      obtain ⟨n, hn⟩ := htotals o (List.mem_append_right _ List.mem_cons_self)
      exact applied_add_net _ hn
    · subst hsplit
      rw [Machine.run_append]
      rw [Machine.history_append, Machine.history_append] at hnet
      exact annualSpend_run (fun e he => hnet e (List.mem_append_left _
        (List.mem_append_right _ he))) contractId

end Runs

/-- A contract without charge for two categories. -/
def freeContract : IProcurementContract where
  contractId := "C-1"
  minimumAnnualCommitmentUSD := 0
  currentAnnualSpendUSD := 0
  tieredPricingRules := [⟨"PALLETS", 1, 100⟩, ⟨"CRATES", 1, 100⟩]

/-- An order of one cent, of both categories. -/
def oneCent : ContractOrder where
  contractId := "C-1"
  orderTotalUSD := inCents 1
  itemQuantitiesByCategory := (JsMap.empty.set "PALLETS" 1).set "CRATES" 1

/-- A case: one order of one cent. -/
theorem neverPaysCustomer_iff_oneCent :
    NeverPaysCustomer (registerContract ⟨.empty⟩ freeContract) [oneCent] ↔
      ∀ o ∈ [oneCent], RoundingFits (registerContract ⟨.empty⟩ freeContract) o :=
  neverPaysCustomer_iff (registerContract ⟨.empty⟩ freeContract) [oneCent] (by decide +kernel)
    (fun o ho => ⟨1, by rw [List.mem_singleton.mp ho]; rfl⟩)

/-- **The customer is paid a cent**: half a cent for each category, rounded up. -/
theorem oneCent_paid : ¬ ∀ (s : EnterpriseCustomerProcurementContractEngine)
    (orders : List ContractOrder), HasPercentages s →
      (∀ o ∈ orders, (∃ n : ℕ, o.orderTotalUSD = inCents n) ∧
        o.itemQuantitiesByCategory.size ≠ 0) → NeverPaysCustomer s orders := fun h => by
  have hnet := (h (registerContract ⟨.empty⟩ freeContract) [oneCent] (by decide +kernel)
    fun o ho => List.mem_singleton.mp ho ▸ ⟨⟨1, rfl⟩, by decide +kernel⟩).net_nonneg _
      List.mem_cons_self
  exact absurd hnet (by decide +kernel)

end Logix.Order
