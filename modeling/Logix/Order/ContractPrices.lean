import Logix.Js.Extended
import Logix.Js.Map
import Logix.Js.Number
import Logix.Js.Text
import Logix.Spec.JoinedKeys
import Logix.Spec.LastWrite

/-!
# Contract prices

The pricing rules of the customers are kept in one map, under the customer's id and the SKU with an
underscore between. Amounts are rational, and a quotient may have no value.

* `B2BContractPriceTierCalculator.registerPricingRule`, `calculateFinalTierPrice`: the code;
* `tierPrice`: what a rule makes of a quantity and a cost;
* `get_registered`: the rule in effect is the last one that was registered under the key;
* `KeepsPrivate`: registering for one pair leaves the prices of another;
* **`keepsPrivate_iff`**: exactly when neither pair regroups the other.
-/

namespace Logix.Order

open Spec

/-- `+(q * 100).toFixed(1)`. -/
def toPct : JsNumber → JsNumber
  | .num x => .num (toFixed 1 (x * 100))
  | .infinity negative => .infinity negative
  | .nan => .nan

/-- `IContractPricingRule`: what the calculator reads of it. -/
structure IContractPricingRule where
  customerId : JsString
  sku : JsString
  baseContractPriceUSD : ℚ
  tier1DiscountThreshold : ℚ
  tier1DiscountPct : ℚ
  tier2DiscountThreshold : ℚ
  tier2DiscountPct : ℚ
  minimumMarginProtectionPct : ℚ
  deriving DecidableEq, Repr

/-- What `calculateFinalTierPrice` returns. -/
structure FinalTierPrice where
  finalUnitPriceUSD : ℚ
  totalExtendedPriceUSD : ℚ
  appliedDiscountPct : JsNumber
  marginPct : JsNumber
  deriving DecidableEq, Repr

/-- The key of a customer's SKU: both ids, with an underscore between. -/
def ruleKey (customerId sku : JsString) : JsString := customerId ++ js "_" ++ sku

/-- The rule of a pair without a contract. -/
def standardCommercial (customerId sku : JsString) (baseCostOfGoodsUSD : ℚ) :
    IContractPricingRule where
  customerId := customerId
  sku := sku
  baseContractPriceUSD := baseCostOfGoodsUSD * (135 / 100)
  tier1DiscountThreshold := 50
  tier1DiscountPct := 5
  tier2DiscountThreshold := 200
  tier2DiscountPct := 12
  minimumMarginProtectionPct := 15

/-- The discount of a quantity. -/
def tierDiscountPct (rule : IContractPricingRule) (quantity : ℚ) : ℚ :=
  if rule.tier2DiscountThreshold ≤ quantity then rule.tier2DiscountPct
  else if rule.tier1DiscountThreshold ≤ quantity then rule.tier1DiscountPct
  else 0

/-- The price by a rule. -/
def tierPrice (rule : IContractPricingRule) (quantity baseCostOfGoodsUSD : ℚ) : FinalTierPrice :=
  let discountPct := tierDiscountPct rule quantity
  let unitPrice := toFixed 2 (rule.baseContractPriceUSD * (1 - discountPct / 100))
  let minAllowedPrice :=
    toFixed 2 (baseCostOfGoodsUSD * (1 + rule.minimumMarginProtectionPct / 100))
  let (unitPrice, discountPct) :=
    if unitPrice < minAllowedPrice then
      (minAllowedPrice,
        toPct (divide (rule.baseContractPriceUSD - minAllowedPrice) rule.baseContractPriceUSD))
    else (unitPrice, .num discountPct)
  { finalUnitPriceUSD := unitPrice
    totalExtendedPriceUSD := toFixed 2 (unitPrice * quantity)
    appliedDiscountPct := discountPct
    marginPct := toPct (divide (unitPrice - baseCostOfGoodsUSD) unitPrice) }

/-- **`B2BContractPriceTierCalculator`.** -/
structure B2BContractPriceTierCalculator where
  rules : JsMap JsString IContractPricingRule

namespace B2BContractPriceTierCalculator

/-- **`registerPricingRule(rule)`.** -/
def registerPricingRule (s : B2BContractPriceTierCalculator) (rule : IContractPricingRule) :
    B2BContractPriceTierCalculator :=
  ⟨s.rules.set (ruleKey rule.customerId rule.sku) rule⟩

/-- **`calculateFinalTierPrice(customerId, sku, quantity, baseCostOfGoodsUSD)`.** -/
def calculateFinalTierPrice (s : B2BContractPriceTierCalculator) (customerId sku : JsString)
    (quantity baseCostOfGoodsUSD : ℚ) : FinalTierPrice :=
  let rule := (s.rules.get (ruleKey customerId sku)).getD
    (standardCommercial customerId sku baseCostOfGoodsUSD)
  tierPrice rule quantity baseCostOfGoodsUSD

/-- A new calculator after a run of registrations. -/
def registered (rules : List IContractPricingRule) : B2BContractPriceTierCalculator :=
  rules.foldl registerPricingRule ⟨.empty⟩

end B2BContractPriceTierCalculator

open B2BContractPriceTierCalculator

/-- **Registering for one pair leaves the prices of the other**: with the registration and without
it, whatever was registered before and after it. -/
def KeepsPrivate (customerId sku customerId' sku' : JsString) : Prop :=
  ∀ (before after : List IContractPricingRule) (rule : IContractPricingRule),
    rule.customerId = customerId → rule.sku = sku → ∀ quantity baseCostOfGoodsUSD : ℚ,
      (registered (before ++ rule :: after)).calculateFinalTierPrice customerId' sku' quantity
          baseCostOfGoodsUSD =
        (registered (before ++ after)).calculateFinalTierPrice customerId' sku' quantity
          baseCostOfGoodsUSD

/-- One pair is read off the key of the other, cut at an underscore inside an id. -/
def SharesKey (customerId sku customerId' sku' : JsString) : Prop :=
  Regroups 95 customerId sku customerId' sku' ∨ Regroups 95 customerId' sku' customerId sku

section Keys

variable {customerId sku customerId' sku' : JsString}

theorem ruleKey_eq_joined (customerId sku : JsString) :
    ruleKey customerId sku = joined 95 customerId sku := by
  rw [ruleKey, List.append_assoc]
  rfl

theorem ruleKey_eq_iff (h : (customerId, sku) ≠ (customerId', sku')) :
    ruleKey customerId sku = ruleKey customerId' sku' ↔
      SharesKey customerId sku customerId' sku' := by
  rw [ruleKey_eq_joined, ruleKey_eq_joined, joined_eq_joined_iff]
  refine or_iff_right ?_
  rintro ⟨rfl, rfl⟩
  exact h rfl

/-- **The rule in effect** is the last one that was registered under the key. -/
theorem get_registered (rules : List IContractPricingRule) (key : JsString) :
    (registered rules).rules.get key =
      lastWrite (rules.map fun r => (ruleKey r.customerId r.sku, r)) key := by
  induction rules using List.reverseRecOn with
  | nil => rfl
  | append_singleton rules rule ih =>
    rw [List.map_append, List.map_singleton, lastWrite_concat, Function.update_apply, ← ih,
      registered, List.foldl_append]
    exact JsMap.get_set _ _ _ _

theorem get_registered_of_ne {key : JsString} {rule : IContractPricingRule}
    (h : key ≠ ruleKey rule.customerId rule.sku) (before after : List IContractPricingRule) :
    (registered (before ++ rule :: after)).rules.get key =
      (registered (before ++ after)).rules.get key := by
  rw [get_registered, get_registered, List.map_append, List.map_append, List.map_cons,
    lastWrite_append_cons_of_ne h]

/-- A contract of one dollar for goods that cost nothing. -/
def oneDollar (customerId sku : JsString) : IContractPricingRule :=
  ⟨customerId, sku, 1, 0, 0, 0, 0, 0⟩

theorem tierPrice_oneDollar (customerId sku : JsString) :
    (tierPrice (oneDollar customerId sku) 0 0).finalUnitPriceUSD = 1 := by
  norm_num [tierPrice, tierDiscountPct, oneDollar, toFixed]

theorem tierPrice_standardCommercial (customerId sku : JsString) :
    (tierPrice (standardCommercial customerId sku 0) 0 0).finalUnitPriceUSD = 0 := by
  norm_num [tierPrice, tierDiscountPct, standardCommercial, toFixed]

/-- **Prices are private between two pairs exactly when neither is read off the key of the
other.** -/
theorem keepsPrivate_iff (h : (customerId, sku) ≠ (customerId', sku')) :
    KeepsPrivate customerId sku customerId' sku' ↔ ¬ SharesKey customerId sku customerId' sku' := by
  rw [← ruleKey_eq_iff h]
  constructor
  · intro hprivate hkey
    -- a first rule for the one pair sets the price of the other
    have hprice := congrArg FinalTierPrice.finalUnitPriceUSD
      (hprivate [] [] (oneDollar customerId sku) rfl rfl 0 0)
    have hrule : (registered ([] ++ [oneDollar customerId sku])).rules.get
        (ruleKey customerId' sku') = some (oneDollar customerId sku) := by
      rw [← hkey]
      exact JsMap.get_set_self _ _ _
    have hnone : (registered ([] ++ [])).rules.get (ruleKey customerId' sku') = none := rfl
    rw [calculateFinalTierPrice, calculateFinalTierPrice, hrule, hnone, Option.getD_some,
      Option.getD_none, tierPrice_oneDollar, tierPrice_standardCommercial] at hprice
    exact one_ne_zero hprice
  · rintro hkey before after rule rfl rfl quantity baseCostOfGoodsUSD
    rw [calculateFinalTierPrice, calculateFinalTierPrice, get_registered_of_ne (Ne.symm hkey)]

end Keys

/-- A case: ids without an underscore. -/
theorem keepsPrivate_iff_plain : KeepsPrivate (js "ACME") (js "BOLT") (js "INITECH") (js "BOLT") ↔
    ¬ SharesKey (js "ACME") (js "BOLT") (js "INITECH") (js "BOLT") :=
  keepsPrivate_iff (by decide)

/-- **The price of another customer changes**: `ACME_EU` and `BOLT` have the key of `ACME` and
`EU_BOLT`. -/
theorem price_leaked : ¬ ∀ customerId sku customerId' sku' : JsString,
    (customerId, sku) ≠ (customerId', sku') → KeepsPrivate customerId sku customerId' sku' :=
  fun h => absurd (h (js "ACME_EU") (js "BOLT") (js "ACME") (js "EU_BOLT") (by decide) [] []
    ⟨js "ACME_EU", js "BOLT", 80, 50, 5, 200, 12, 15⟩ rfl rfl 10 100) (by decide +kernel)

end Logix.Order
