import Mathlib.Algebra.BigOperators.Ring.List
import Logix.Js.Double
import Logix.Js.Map
import Logix.Spec.Grouping

/-!
# Bundles

Every bundle is compared with the whole cart, at the first price of each of its SKUs, and claims its
discount for itself.

* `TieredVolumeDiscountCalculator.evaluateBundles`: the code;
* `quantityOf`, `costOf`, `worth`: what the cart has of a SKU, and what this and the SKUs of a
  bundle cost;
* `SavingsBounded`: every eligible bundle saves at most what its SKUs cost, and where no SKU is
  listed twice, all bundles together save at most what the cart does;
* **`savings_bounded`**: this is so when all lines of a SKU have one price;
* **`overlapping_saved`**: bundles that share a SKU may save more than the cart, and so may roundings.
-/

namespace Logix.Order

open Spec

/-- `IBundleRule`: what the calculator reads of it. -/
structure IBundleRule where
  bundleId : String
  requiredSkuList : List String
  bundleDiscountPct : Option Double
  minimumPurchases : Double
  deriving DecidableEq, Repr

/-- An entry of `items`. -/
structure BundleItem where
  sku : String
  priceUSD : Double
  quantity : Double
  deriving DecidableEq, Repr

/-- What `evaluateBundles` returns. -/
structure BundleSavings where
  totalSavedUSD : Double
  matchedBundles : List String
  deriving DecidableEq, Repr

/-- **`TieredVolumeDiscountCalculator`.** -/
structure TieredVolumeDiscountCalculator where
  bundles : List IBundleRule

namespace TieredVolumeDiscountCalculator

/-- **`registerBundle(rule)`.** -/
def registerBundle (s : TieredVolumeDiscountCalculator) (rule : IBundleRule) :
    TieredVolumeDiscountCalculator :=
  ⟨s.bundles ++ [rule]⟩

/-- A round of the first loop. -/
def addQuantity (m : JsMap String Double) (i : BundleItem) : JsMap String Double :=
  m.set i.sku ((m.get i.sku).getD 0 + i.quantity)

/-- `skuQtyMap`. -/
def skuQtyMap (items : List BundleItem) : JsMap String Double := items.foldl addQuantity .empty

/-- `isEligible`. -/
def isEligible (items : List BundleItem) (bundle : IBundleRule) : Bool :=
  bundle.requiredSkuList.all fun sku =>
    bundle.minimumPurchases ≤ ((skuQtyMap items).get sku).getD 0

/-- `bundleSubtotal`. -/
def bundleSubtotal (items : List BundleItem) (bundle : IBundleRule) : Double :=
  bundle.requiredSkuList.foldl (fun acc sku =>
    acc + match items.find? fun i => i.sku = sku with
      | some item => item.priceUSD * bundle.minimumPurchases
      | none => 0) 0

/-- A round of the loop over the bundles. -/
def applyBundle (items : List BundleItem) (d : BundleSavings) (bundle : IBundleRule) :
    BundleSavings :=
  if isEligible items bundle = true then
    match bundle.bundleDiscountPct with
    | none => { d with matchedBundles := d.matchedBundles ++ [bundle.bundleId] }
    | some pct =>
      if pct = 0 then { d with matchedBundles := d.matchedBundles ++ [bundle.bundleId] }
      else
        { totalSavedUSD :=
            d.totalSavedUSD + (bundleSubtotal items bundle * (pct / 100)).toFixed 2
          matchedBundles := d.matchedBundles ++ [bundle.bundleId] }
  else d

/-- **`evaluateBundles(items)`.** -/
def evaluateBundles (s : TieredVolumeDiscountCalculator) (items : List BundleItem) :
    BundleSavings :=
  s.bundles.foldl (applyBundle items) ⟨0, []⟩

end TieredVolumeDiscountCalculator

open TieredVolumeDiscountCalculator

/-! ## What the cart has -/

section Cart

variable (items : List BundleItem)

/-- The pieces of a SKU, in all lines. -/
def quantityOf (sku : String) : Double :=
  Double.total ((items.filter fun i => i.sku = sku).map BundleItem.quantity)

/-- The price of a SKU, 0 where the cart has none. -/
def priceOf (sku : String) : Double :=
  ((items.find? fun i => i.sku = sku).map BundleItem.priceUSD).getD 0

/-- What the pieces of a SKU cost. -/
def costOf (sku : String) : Double := priceOf items sku * quantityOf items sku

/-- **What the SKUs of a bundle cost**, in the order of its list. -/
def worth (bundle : IBundleRule) : Double :=
  Double.total (bundle.requiredSkuList.map (costOf items))

/-- The exact cost of the cart. -/
def cartTotal : ℚ := (items.map fun i => (i.priceUSD * i.quantity : ℚ)).sum

/-- The bundles that the cart is eligible for. -/
def eligible (s : TieredVolumeDiscountCalculator) : List IBundleRule :=
  s.bundles.filter (isEligible items)

/-- What a bundle saves. -/
def saving (bundle : IBundleRule) : Double :=
  match bundle.bundleDiscountPct with
  | none => 0
  | some pct => if pct = 0 then 0 else (bundleSubtotal items bundle * (pct / 100)).toFixed 2

/-- All lines of a SKU have one price. -/
def OnePrice : Prop := ∀ i ∈ items, ∀ j ∈ items, i.sku = j.sku → i.priceUSD = j.priceUSD

/-- **Whole amounts**, few enough for their sums to be exact. -/
structure WholeAmounts : Prop where
  price : ∀ i ∈ items, i.priceUSD.IsWhole
  quantity : ∀ i ∈ items, i.quantity.IsWhole
  pieces : (items.map fun i => (i.quantity : ℚ)).sum ≤ 2 ^ 53
  cost : cartTotal items ≤ 2 ^ 53

/-- **The savings are bounded**: bundle by bundle by what its SKUs cost, to the cent, and by the cost
of the cart where no SKU is listed twice and nothing is rounded. -/
structure SavingsBounded (s : TieredVolumeDiscountCalculator) : Prop where
  total : (evaluateBundles s items).totalSavedUSD =
    Double.total ((eligible items s).map (saving items))
  matched : (evaluateBundles s items).matchedBundles =
    (eligible items s).map IBundleRule.bundleId
  saving_le : ∀ b ∈ eligible items s, saving items b ≤ (worth items b).toFixed 2
  total_le : (evaluateBundles s items).totalSavedUSD ≤
    Double.total ((eligible items s).map fun b => (worth items b).toFixed 2)
  within : ((eligible items s).flatMap IBundleRule.requiredSkuList).Nodup → WholeAmounts items →
    ((evaluateBundles s items).totalSavedUSD : ℚ) ≤ cartTotal items

end Cart

variable {s : TieredVolumeDiscountCalculator} {items : List BundleItem} {bundle : IBundleRule}
  {sku : String}

/-! ## Eligible bundles -/

theorem get_skuQtyMap (items : List BundleItem) (sku : String) :
    ((skuQtyMap items).get sku).getD 0 = quantityOf items sku := by
  have hfold : ∀ m : JsMap String Double, ((items.foldl addQuantity m).get sku).getD 0 =
      ((items.filter fun i => i.sku = sku).map BundleItem.quantity).foldl (· + ·)
        ((m.get sku).getD 0) := by
    induction items with
    | nil => exact fun m => rfl
    | cons i items ih =>
      intro m
      rw [List.foldl_cons, ih, addQuantity]
      by_cases hsku : i.sku = sku
      · subst hsku
        rw [List.filter_cons_of_pos (by simp), JsMap.get_set_self]
        rfl
      · rw [List.filter_cons_of_neg (by simpa using hsku), JsMap.get_set_ne (Ne.symm hsku)]
  exact hfold .empty

/-- **A bundle is eligible** when the lines of each of its SKUs reach the minimum together. -/
theorem isEligible_iff : isEligible items bundle = true ↔
    ∀ sku ∈ bundle.requiredSkuList, bundle.minimumPurchases ≤ quantityOf items sku := by
  simp only [isEligible, List.all_eq_true, decide_eq_true_eq, get_skuQtyMap]

theorem bundleSubtotal_eq (items : List BundleItem) (bundle : IBundleRule) :
    bundleSubtotal items bundle = Double.total (bundle.requiredSkuList.map fun sku =>
      priceOf items sku * bundle.minimumPurchases) := by
  rw [bundleSubtotal, Double.total, List.foldl_map]
  congr 1
  funext acc sku
  rw [priceOf]
  cases items.find? fun i => i.sku = sku with
  | none => exact congrArg (acc + ·) (Double.zero_mul _).symm
  | some item => rfl

/-! ## The savings -/

theorem applyBundle_eq (items : List BundleItem) (d : BundleSavings) (bundle : IBundleRule) :
    applyBundle items d bundle =
      if isEligible items bundle = true then
        ⟨d.totalSavedUSD + saving items bundle, d.matchedBundles ++ [bundle.bundleId]⟩
      else d := by
  rw [applyBundle, saving]
  split_ifs with heligible
  · cases bundle.bundleDiscountPct with
    | none => exact congrArg (BundleSavings.mk · _) (Double.add_zero _).symm
    | some pct =>
      dsimp only
      split_ifs with hpct
      · exact congrArg (BundleSavings.mk · _) (Double.add_zero _).symm
      · rfl
  · rfl

theorem evaluateBundles_eq (s : TieredVolumeDiscountCalculator) (items : List BundleItem) :
    evaluateBundles s items = ⟨Double.total ((eligible items s).map (saving items)),
      (eligible items s).map IBundleRule.bundleId⟩ := by
  have hfold : ∀ (bundles : List IBundleRule) (d : BundleSavings),
      bundles.foldl (applyBundle items) d =
        ⟨((bundles.filter (isEligible items)).map (saving items)).foldl (· + ·) d.totalSavedUSD,
          d.matchedBundles ++
            (bundles.filter (isEligible items)).map IBundleRule.bundleId⟩ := by
    intro bundles
    induction bundles with
    | nil => exact fun d => congrArg (BundleSavings.mk _) (List.append_nil _).symm
    | cons bundle bundles ih =>
      intro d
      rw [List.foldl_cons, ih, applyBundle_eq]
      split_ifs with heligible
      · rw [List.filter_cons_of_pos heligible, List.append_assoc]
        rfl
      · rw [List.filter_cons_of_neg heligible]
  exact hfold s.bundles ⟨0, []⟩

theorem priceOf_nonneg (hprice : ∀ i ∈ items, 0 ≤ i.priceUSD) (sku : String) :
    0 ≤ priceOf items sku := by
  rw [priceOf]
  cases hfind : items.find? fun i => i.sku = sku with
  | none => exact le_rfl
  | some item => exact hprice item (List.mem_of_find?_eq_some hfind)

theorem quantityOf_nonneg (hquantity : ∀ i ∈ items, 0 ≤ i.quantity) (sku : String) :
    0 ≤ quantityOf items sku := by
  refine Double.total_nonneg fun d hd => ?_
  obtain ⟨i, hi, rfl⟩ := List.mem_map.mp hd
  exact hquantity i (List.mem_of_mem_filter hi)

theorem worth_nonneg (hitems : ∀ i ∈ items, 0 ≤ i.priceUSD ∧ 0 ≤ i.quantity)
    (bundle : IBundleRule) : 0 ≤ worth items bundle := by
  refine Double.total_nonneg fun d hd => ?_
  obtain ⟨sku, -, rfl⟩ := List.mem_map.mp hd
  exact Double.mul_nonneg (priceOf_nonneg (fun i hi => (hitems i hi).1) sku)
    (quantityOf_nonneg (fun i hi => (hitems i hi).2) sku)

theorem bundleSubtotal_le_worth (hitems : ∀ i ∈ items, 0 ≤ i.priceUSD ∧ 0 ≤ i.quantity)
    (heligible : isEligible items bundle = true) :
    bundleSubtotal items bundle ≤ worth items bundle := by
  rw [bundleSubtotal_eq]
  refine Double.total_le_total ?_
  rw [List.forall₂_map_left_iff, List.forall₂_map_right_iff, List.forall₂_same]
  intro sku hsku
  exact Double.mul_le_mul_left (isEligible_iff.mp heligible sku hsku)
    (priceOf_nonneg (fun i hi => (hitems i hi).1) sku)

theorem saving_le_worth (hpct : ∀ pct ∈ bundle.bundleDiscountPct, 0 ≤ pct ∧ pct ≤ 100)
    (hitems : ∀ i ∈ items, 0 ≤ i.priceUSD ∧ 0 ≤ i.quantity)
    (heligible : isEligible items bundle = true) :
    saving items bundle ≤ (worth items bundle).toFixed 2 := by
  have hworth := worth_nonneg hitems bundle
  have hzero := Double.toFixed_nonneg 2 hworth
  rw [saving]
  cases hb : bundle.bundleDiscountPct with
  | none => exact hzero
  | some pct =>
    obtain ⟨hlo, hhi⟩ := hpct pct hb
    have hshare := Double.div_nonneg hlo (by decide +kernel : (0 : Double) ≤ 100)
    have hone : pct / 100 ≤ 1 := (Double.div_le_div_right hhi (by decide +kernel)).trans
      (by decide +kernel : (100 : Double) / 100 ≤ 1)
    have hle : bundleSubtotal items bundle * (pct / 100) ≤ worth items bundle :=
      calc bundleSubtotal items bundle * (pct / 100)
          ≤ worth items bundle * (pct / 100) :=
            Double.mul_le_mul_right (bundleSubtotal_le_worth hitems heligible) hshare
        _ ≤ worth items bundle * 1 := Double.mul_le_mul_left hone hworth
        _ = worth items bundle := Double.mul_one _
    dsimp only
    split_ifs
    · exact hzero
    · exact Double.toFixed_le_toFixed 2 hle

/-! ## Whole amounts -/

/-- What the lines of a SKU cost, exactly. -/
def valueOf (items : List BundleItem) : String → ℚ :=
  groupSum BundleItem.sku (fun i => (i.priceUSD * i.quantity : ℚ)) items

theorem valueOf_nonneg (hitems : ∀ i ∈ items, 0 ≤ i.priceUSD ∧ 0 ≤ i.quantity) (sku : String) :
    0 ≤ valueOf items sku := by
  refine List.sum_nonneg fun x hx => ?_
  obtain ⟨i, hi, rfl⟩ := List.mem_map.mp hx
  obtain ⟨hprice, hquantity⟩ := hitems i (List.mem_of_mem_filter hi)
  rw [Double.val_le, Double.val_zero] at hprice hquantity
  exact mul_nonneg hprice hquantity

/-- **The SKUs of a list without repetitions** cost at most what the cart does. -/
theorem sum_valueOf_le (hitems : ∀ i ∈ items, 0 ≤ i.priceUSD ∧ 0 ≤ i.quantity)
    {skus : List String} (hskus : skus.Nodup) :
    (skus.map (valueOf items)).sum ≤ cartTotal items := by
  have hall : ∑ sku ∈ skus.toFinset ∪ (items.map BundleItem.sku).toFinset, valueOf items sku =
      cartTotal items := sum_groupSum _ fun i hi =>
    Finset.mem_union_right _ (List.mem_toFinset.mpr (List.mem_map_of_mem hi))
  rw [← List.sum_toFinset _ hskus, ← hall]
  exact Finset.sum_le_sum_of_subset_of_nonneg Finset.subset_union_left
    fun sku _ _ => valueOf_nonneg hitems sku

theorem valueOf_le (hitems : ∀ i ∈ items, 0 ≤ i.priceUSD ∧ 0 ≤ i.quantity) (sku : String) :
    valueOf items sku ≤ cartTotal items := by
  have h := sum_valueOf_le hitems (List.nodup_singleton sku)
  rwa [List.map_singleton, List.sum_singleton] at h

theorem priceOf_eq (hprice : OnePrice items) {i : BundleItem} (hi : i ∈ items)
    (hsku : i.sku = sku) : priceOf items sku = i.priceUSD := by
  rw [priceOf]
  cases hfind : items.find? fun i => i.sku = sku with
  | none => exact absurd (decide_eq_true hsku) (List.find?_eq_none.mp hfind i hi)
  | some item =>
    have hitem : item.sku = sku := by simpa using List.find?_some hfind
    exact hprice item (List.mem_of_find?_eq_some hfind) i hi (hitem.trans hsku.symm)

theorem priceOf_isWhole (hwhole : WholeAmounts items) (sku : String) :
    (priceOf items sku).IsWhole := by
  rw [priceOf]
  cases hfind : items.find? fun i => i.sku = sku with
  | none => exact ⟨0, Nat.zero_le _, by simp⟩
  | some item => exact hwhole.price item (List.mem_of_find?_eq_some hfind)

theorem quantityOf_of_wholeAmounts (hwhole : WholeAmounts items) (sku : String) :
    (quantityOf items sku).IsWhole ∧ (quantityOf items sku : ℚ) =
      ((items.filter fun i => i.sku = sku).map fun i => (i.quantity : ℚ)).sum := by
  have hpieces : ((items.filter fun i => i.sku = sku).map fun i => (i.quantity : ℚ)).sum ≤
      2 ^ 53 := by
    refine le_trans (List.Sublist.sum_le_sum (List.filter_sublist.map _) fun x hx => ?_)
      hwhole.pieces
    obtain ⟨i, hi, rfl⟩ := List.mem_map.mp hx
    exact Double.val_zero ▸ Double.val_le.mp (hwhole.quantity i hi).nonneg
  have hquantity : ∀ d ∈ (items.filter fun i => i.sku = sku).map BundleItem.quantity,
      d.IsWhole := fun d hd => by
    obtain ⟨i, hi, rfl⟩ := List.mem_map.mp hd
    exact hwhole.quantity i (List.mem_of_mem_filter hi)
  obtain ⟨hq, hqval⟩ := Double.total_of_isWhole hquantity (by rwa [List.map_map])
  rw [List.map_map] at hqval
  exact ⟨hq, hqval⟩

theorem costOf_of_wholeAmounts (hprice : OnePrice items) (hwhole : WholeAmounts items)
    (hitems : ∀ i ∈ items, 0 ≤ i.priceUSD ∧ 0 ≤ i.quantity) (sku : String) :
    (costOf items sku).IsWhole ∧ (costOf items sku : ℚ) = valueOf items sku := by
  obtain ⟨hq, hqval⟩ := quantityOf_of_wholeAmounts hwhole sku
  have hvalue : (priceOf items sku * quantityOf items sku : ℚ) = valueOf items sku := by
    rw [hqval, valueOf, groupSum, ← List.sum_map_mul_left]
    refine congrArg List.sum (List.map_congr_left fun i hi => ?_)
    obtain ⟨hmem, hsku⟩ := List.mem_filter.mp hi
    rw [priceOf_eq hprice hmem (of_decide_eq_true hsku)]
  have hle := (hvalue.trans_le (valueOf_le hitems sku)).trans hwhole.cost
  obtain ⟨hc, hcval⟩ := (priceOf_isWhole hwhole sku).mul hq hle
  exact ⟨hc, hcval.trans hvalue⟩

/-- **What a bundle is worth is exact** for whole amounts, at one price. -/
theorem worth_of_wholeAmounts (hprice : OnePrice items) (hwhole : WholeAmounts items)
    (hitems : ∀ i ∈ items, 0 ≤ i.priceUSD ∧ 0 ≤ i.quantity)
    (hskus : bundle.requiredSkuList.Nodup) :
    (worth items bundle).IsWhole ∧
      (worth items bundle : ℚ) = (bundle.requiredSkuList.map (valueOf items)).sum := by
  have hcost := costOf_of_wholeAmounts hprice hwhole hitems
  have hmap : (bundle.requiredSkuList.map (costOf items)).map (fun d : Double => (d : ℚ)) =
      bundle.requiredSkuList.map (valueOf items) := by
    rw [List.map_map]
    exact List.map_congr_left fun sku _ => (hcost sku).2
  have hwhole' : ∀ d ∈ bundle.requiredSkuList.map (costOf items), d.IsWhole := fun d hd => by
    obtain ⟨sku, -, rfl⟩ := List.mem_map.mp hd
    exact (hcost sku).1
  obtain ⟨hw, hval⟩ := Double.total_of_isWhole hwhole'
    (by rw [hmap]; exact (sum_valueOf_le hitems hskus).trans hwhole.cost)
  exact ⟨hw, hval.trans (by rw [hmap])⟩

/-- **All bundles together** save at most what the cart costs, if no SKU is listed twice. -/
theorem totalSavedUSD_le_cartTotal (hprice : OnePrice items) (hwhole : WholeAmounts items)
    (hitems : ∀ i ∈ items, 0 ≤ i.priceUSD ∧ 0 ≤ i.quantity)
    (hskus : ((eligible items s).flatMap IBundleRule.requiredSkuList).Nodup)
    (hle : (evaluateBundles s items).totalSavedUSD ≤
      Double.total ((eligible items s).map fun b => (worth items b).toFixed 2)) :
    ((evaluateBundles s items).totalSavedUSD : ℚ) ≤ cartTotal items := by
  have hworth : ∀ b ∈ eligible items s, (worth items b).IsWhole ∧
      (worth items b : ℚ) = (b.requiredSkuList.map (valueOf items)).sum := fun b hb =>
    worth_of_wholeAmounts hprice hwhole hitems ((List.nodup_flatMap.mp hskus).1 b hb)
  have hfixed : ((eligible items s).map fun b => (worth items b).toFixed 2) =
      (eligible items s).map (worth items) :=
    List.map_congr_left fun b hb => (hworth b hb).1.toFixed 2
  have hmap : ((eligible items s).map (worth items)).map (fun d : Double => (d : ℚ)) =
      (eligible items s).map fun b => (b.requiredSkuList.map (valueOf items)).sum := by
    rw [List.map_map]
    exact List.map_congr_left fun b hb => (hworth b hb).2
  have hsum : (((eligible items s).map (worth items)).map fun d : Double => (d : ℚ)).sum ≤
      cartTotal items := by
    refine le_trans (le_of_eq ?_) (sum_valueOf_le hitems hskus)
    rw [hmap, List.map_flatMap, List.flatMap, List.sum_flatten, List.map_map]
    rfl
  have hwhole' : ∀ d ∈ (eligible items s).map (worth items), d.IsWhole := fun d hd => by
    obtain ⟨b, hb, rfl⟩ := List.mem_map.mp hd
    exact (hworth b hb).1
  obtain ⟨-, hval⟩ := Double.total_of_isWhole hwhole' (hsum.trans hwhole.cost)
  rw [hfixed, Double.val_le, hval] at hle
  exact hle.trans hsum

/-- **The savings are bounded**, where all lines of a SKU have one price. -/
theorem savings_bounded (s : TieredVolumeDiscountCalculator) (items : List BundleItem)
    (hpct : ∀ b ∈ s.bundles, ∀ pct ∈ b.bundleDiscountPct, 0 ≤ pct ∧ pct ≤ 100)
    (hitems : ∀ i ∈ items, 0 ≤ i.priceUSD ∧ 0 ≤ i.quantity) (hprice : OnePrice items) :
    SavingsBounded items s := by
  have htotal := congrArg BundleSavings.totalSavedUSD (evaluateBundles_eq s items)
  have hsaving : ∀ b ∈ eligible items s, saving items b ≤ (worth items b).toFixed 2 :=
    fun b hb => by
      obtain ⟨hmem, heligible⟩ := List.mem_filter.mp hb
      exact saving_le_worth (hpct b hmem) hitems heligible
  have hle : (evaluateBundles s items).totalSavedUSD ≤
      Double.total ((eligible items s).map fun b => (worth items b).toFixed 2) := by
    rw [htotal]
    refine Double.total_le_total ?_
    rw [List.forall₂_map_left_iff, List.forall₂_map_right_iff, List.forall₂_same]
    exact hsaving
  exact ⟨htotal, congrArg BundleSavings.matchedBundles (evaluateBundles_eq s items), hsaving, hle,
    fun hskus hwhole => totalSavedUSD_le_cartTotal hprice hwhole hitems hskus hle⟩

/-! ## Carts -/

/-- A bundle that gives one piece of each SKU away. -/
def giveAway (bundleId : String) (skus : List String) : IBundleRule := ⟨bundleId, skus, some 100, 1⟩

/-- Two pieces of one SKU, and one of another. -/
def threePieces : List BundleItem := [⟨"SKU-1", 10, 1⟩, ⟨"SKU-2", 5, 1⟩, ⟨"SKU-1", 10, 1⟩]

/-- Two bundles without a common SKU. -/
theorem savings_bounded_threePieces : SavingsBounded threePieces
    ⟨[giveAway "ONE" ["SKU-1"], giveAway "TWO" ["SKU-2"]]⟩ :=
  savings_bounded _ _ (by decide +kernel) (by decide +kernel) (by unfold OnePrice; decide +kernel)

/-- **20 dollars off 10**: two bundles with one SKU, or a bundle that lists it twice. And three
bundles save 0.6000000000000001 dollars of 0.1 + 0.2 + 0.3. -/
theorem overlapping_saved :
    (¬ ∀ (s : TieredVolumeDiscountCalculator) (items : List BundleItem),
      (∀ b ∈ s.bundles, ∀ pct ∈ b.bundleDiscountPct, 0 ≤ pct ∧ pct ≤ 100) →
        (∀ i ∈ items, 0 ≤ i.priceUSD ∧ 0 ≤ i.quantity) →
          ((evaluateBundles s items).totalSavedUSD : ℚ) ≤ cartTotal items) ∧
    (evaluateBundles ⟨[giveAway "ONE" ["SKU-1"], giveAway "TWO" ["SKU-1"]]⟩
      [⟨"SKU-1", 10, 1⟩]).totalSavedUSD = 20 ∧
    (evaluateBundles ⟨[giveAway "ONE" ["SKU-1", "SKU-1"]]⟩ [⟨"SKU-1", 10, 1⟩]).totalSavedUSD = 20 ∧
    let dimes : List BundleItem := [⟨"SKU-1", Double.ofRat (1 / 10), 1⟩,
      ⟨"SKU-2", Double.ofRat (2 / 10), 1⟩, ⟨"SKU-3", Double.ofRat (3 / 10), 1⟩]
    cartTotal dimes < (evaluateBundles ⟨[giveAway "ONE" ["SKU-1"], giveAway "TWO" ["SKU-2"],
      giveAway "THREE" ["SKU-3"]]⟩ dimes).totalSavedUSD := by
  refine ⟨fun h => ?_, by decide +kernel, by decide +kernel, by decide +kernel⟩
  have hle := h ⟨[giveAway "ONE" ["SKU-1"], giveAway "TWO" ["SKU-1"]]⟩ [⟨"SKU-1", 10, 1⟩]
    (by decide +kernel) (by decide +kernel)
  exact absurd hle (by decide +kernel)

end Logix.Order
