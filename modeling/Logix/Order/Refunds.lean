import Logix.Js.Cents
import Logix.Order.Returns
import Logix.Spec.Grouping

/-!
# Refunds

The price of a returned item is looked up in a map, and a missing price counts as 50 dollars. The
lookup does not tell a price of 0 from a missing one.

* `Returnable`: every item has a price of whole cents and a whole quantity;
* `AccountsForGoods`: refund and restocking fee make up the price of the goods, and neither is
  negative;
* `refund_add_fee`: the two roundings add up;
* **`accountsForGoods_iff`**: a returnable request accounts for its goods exactly when no item of
  price 0 is returned.
-/

namespace Logix.Order

open Spec RmaReturnMerchandiseAuthorizationService

namespace CreateRmaRequest

/-- The price of an item in the map. -/
def mappedPrice (c : CreateRmaRequest) (i : ReturnItem) : ℚ := (c.itemPriceMap.get i.sku).getD 0

/-- The price of the goods. -/
def goods (c : CreateRmaRequest) : ℚ :=
  (c.returnItems.map fun i => c.mappedPrice i * i.quantity).sum

/-- **A request whose items are all in the map**, at prices of whole cents, in whole quantities. -/
def Returnable (c : CreateRmaRequest) : Prop :=
  ∀ i ∈ c.returnItems, (∃ cents : ℕ, c.itemPriceMap.get i.sku = some (inCents cents)) ∧
    ∃ quantity : ℕ, i.quantity = quantity

end CreateRmaRequest

open CreateRmaRequest

/-- **A return that accounts for its goods.** -/
structure AccountsForGoods (rma : IRmaRequest) (goods : ℚ) : Prop where
  total : rma.refundAmountUSD + rma.restockingFeeUSD = goods
  refund_nonneg : 0 ≤ rma.refundAmountUSD
  fee_nonneg : 0 ≤ rma.restockingFeeUSD

variable {c : CreateRmaRequest} {i : ReturnItem}

/-! ## The gross refund -/

theorem grossRefund_eq (c : CreateRmaRequest) :
    c.grossRefund = (c.returnItems.map fun i => c.unitPrice i * i.quantity).sum := by
  rw [grossRefund, foldl_add_eq, zero_add]

theorem unitPrice_eq (c : CreateRmaRequest) (i : ReturnItem) :
    c.unitPrice i = if c.mappedPrice i = 0 then 50 else c.mappedPrice i := by
  rw [unitPrice, mappedPrice]
  cases c.itemPriceMap.get i.sku with
  | none => rfl
  | some price => rfl

theorem exists_sum_eq_inCents {α : Type} {f : α → ℚ} {l : List α}
    (h : ∀ a ∈ l, ∃ n : ℕ, f a = inCents n) : ∃ n : ℕ, (l.map f).sum = inCents n := by
  induction l with
  | nil => exact ⟨0, inCents_zero.symm⟩
  | cons a l ih =>
    obtain ⟨⟨m, hm⟩, hl⟩ := List.forall_mem_cons.mp h
    obtain ⟨n, hn⟩ := ih hl
    refine ⟨m + n, ?_⟩
    rw [List.map_cons, List.sum_cons, hm, hn, ← inCents_add]
    rfl

theorem exists_grossRefund_eq (h : c.Returnable) : ∃ n : ℕ, c.grossRefund = inCents n := by
  rw [grossRefund_eq]
  refine exists_sum_eq_inCents fun i hi => ?_
  obtain ⟨⟨cents, hprice⟩, quantity, hquantity⟩ := h i hi
  obtain ⟨m, hm⟩ : ∃ m : ℕ, c.unitPrice i = inCents m := by
    rw [unitPrice_eq, mappedPrice, hprice, Option.getD_some]
    split_ifs
    · exact ⟨5000, by norm_num [inCents]⟩
    · exact ⟨cents, rfl⟩
  refine ⟨m * quantity, ?_⟩
  rw [hm, hquantity, inCents, inCents]
  push_cast
  ring

/-- **The gross refund is the price of the goods exactly when no item of price 0 is returned.** -/
theorem grossRefund_eq_goods_iff (h : c.Returnable) : c.grossRefund = c.goods ↔
    ∀ i ∈ c.returnItems, c.mappedPrice i = 0 → i.quantity = 0 := by
  have hle : ∀ i ∈ c.returnItems, c.mappedPrice i * i.quantity ≤ c.unitPrice i * i.quantity := by
    intro i hi
    obtain ⟨-, quantity, hquantity⟩ := h i hi
    refine mul_le_mul_of_nonneg_right ?_ (hquantity ▸ Nat.cast_nonneg quantity)
    rw [unitPrice_eq]
    split_ifs with hzero
    · rw [hzero]
      norm_num
    · exact le_rfl
  rw [grossRefund_eq, goods, eq_comm, sum_eq_sum_iff_of_le hle]
  refine forall₂_congr fun i _ => ?_
  rw [unitPrice_eq]
  split_ifs with hzero
  · simp [hzero]
  · simp [hzero]

/-! ## Refund and fee -/

theorem toNearestCent_mul_le {n : ℕ} {share : ℚ} (h₀ : 0 ≤ share) (h₁ : share ≤ 1 / 2) :
    toNearestCent (inCents n * share) ≤ inCents n := by
  have hn : (0 : ℚ) ≤ inCents n := inCents_nonneg.mpr (Int.natCast_nonneg n)
  rw [toNearestCent, inCents_le, nearestCents_of_nonneg (mul_nonneg hn h₀), Int.floor_le_iff]
  have hcents : inCents (n : ℤ) * 100 = (n : ℚ) := by
    rw [inCents, div_mul_cancel₀ _ (by norm_num), Int.cast_natCast]
  have hshare : (n : ℚ) * share ≤ n * (1 / 2) := mul_le_mul_of_nonneg_left h₁ (Nat.cast_nonneg n)
  rw [mul_right_comm, hcents, Int.cast_natCast]
  linarith [(Nat.cast_nonneg n : (0 : ℚ) ≤ n)]

/-- **A rounded part, and what is left of the whole**: the fee is part of the gross refund, and
rounding the rest changes nothing. -/
theorem rest_of_toFixed (n : ℕ) :
    let fee := toFixed 2 (inCents n * (15 / 100))
    0 ≤ fee ∧ fee ≤ inCents n ∧ toFixed 2 (inCents n - fee) = inCents n - fee := by
  have hn : (0 : ℚ) ≤ inCents n := inCents_nonneg.mpr (Int.natCast_nonneg n)
  have hpart : (0 : ℚ) ≤ inCents n * (15 / 100) := by positivity
  dsimp only
  by_cases hlarge : 10 ^ 21 ≤ |inCents n * (15 / 100)|
  · -- an amount of this size is not rounded, and neither is the rest
    rw [toFixed, if_pos hlarge]
    rw [abs_of_nonneg hpart] at hlarge
    refine ⟨hpart, by linarith, ?_⟩
    rw [toFixed, if_pos (le_abs.mpr (Or.inl (by linarith)))]
  · rw [toFixed_two (not_le.mp hlarge)]
    refine ⟨toNearestCent_nonneg hpart, toNearestCent_mul_le (by norm_num) (by norm_num), ?_⟩
    rw [toNearestCent, ← inCents_sub, toFixed_two_inCents]

/-- **The two roundings add up**: refund and fee make up the gross refund. -/
theorem accountsForGoods_grossRefund {n : ℕ} (hgross : c.grossRefund = inCents n) :
    AccountsForGoods c.rma c.grossRefund := by
  obtain ⟨hnonneg, hle, hrest⟩ := rest_of_toFixed n
  have hfee : c.restockingFee = toFixed 2 (inCents n * (15 / 100)) ∨ c.restockingFee = 0 := by
    rw [restockingFee, hgross]
    split_ifs
    · exact Or.inl rfl
    · exact Or.inr rfl
  have hrefund : c.rma.refundAmountUSD = c.grossRefund - c.restockingFee := by
    have hdef : c.rma.refundAmountUSD = toFixed 2 (c.grossRefund - c.restockingFee) := rfl
    rw [hdef, hgross]
    rcases hfee with h | h <;> rw [h]
    · exact hrest
    · rw [sub_zero, toFixed_two_inCents]
  have hdef : c.rma.restockingFeeUSD = c.restockingFee := rfl
  refine ⟨by rw [hrefund, hdef, sub_add_cancel], ?_, ?_⟩
  · rw [hrefund, hgross, sub_nonneg]
    rcases hfee with h | h <;> rw [h]
    · exact hle
    · exact inCents_nonneg.mpr (Int.natCast_nonneg n)
  · rw [hdef]
    rcases hfee with h | h <;> rw [h]
    exact hnonneg

/-- **A returnable request accounts for its goods exactly when no item of price 0 is returned.** -/
theorem accountsForGoods_iff (s : RmaReturnMerchandiseAuthorizationService) (c : CreateRmaRequest)
    (h : c.Returnable) : AccountsForGoods (s.createRmaRequest c).2 c.goods ↔
      ∀ i ∈ c.returnItems, c.mappedPrice i = 0 → i.quantity = 0 := by
  obtain ⟨n, hgross⟩ := exists_grossRefund_eq h
  have haccounts := accountsForGoods_grossRefund hgross
  rw [← grossRefund_eq_goods_iff h]
  constructor
  · exact fun hgoods => haccounts.total.symm.trans hgoods.total
  · exact fun hgoods => hgoods ▸ haccounts

/-- A return of one free sample. -/
def freeSample : CreateRmaRequest :=
  { returnOne with itemPriceMap := JsMap.empty.set "SKU-1" (inCents 0) }

theorem freeSample_returnable : freeSample.Returnable := by
  intro i hi
  obtain rfl := List.mem_singleton.mp hi
  exact ⟨⟨0, by decide +kernel⟩, 1, rfl⟩

/-- A case: the free sample. -/
theorem accountsForGoods_iff_freeSample :
    AccountsForGoods (RmaReturnMerchandiseAuthorizationService.new.createRmaRequest freeSample).2
        freeSample.goods ↔
      ∀ i ∈ freeSample.returnItems, freeSample.mappedPrice i = 0 → i.quantity = 0 :=
  accountsForGoods_iff .new freeSample freeSample_returnable

/-- **50 dollars for a free sample.** -/
theorem freeSample_refunded : ¬ ∀ (s : RmaReturnMerchandiseAuthorizationService)
    (c : CreateRmaRequest), c.Returnable → AccountsForGoods (s.createRmaRequest c).2 c.goods :=
  fun h => absurd (h .new freeSample freeSample_returnable).total (by decide +kernel)

end Logix.Order
