import Logix.Js.Capitals
import Logix.Js.Double
import Logix.Js.Date
import Logix.Js.Map

/-!
# Coupons

The codes of a cart are tried in order. A code whose promotion is exclusive is refused behind an
accepted code, and a stackable one never is. `toUpperCase` is any function on the codes, and every
applied code comes with the clock reading of its round.

* `CouponEngineWithCartStackingRules.evaluateCartDiscounts`: the code;
* `usable`: the promotion of a code, where it applies; `combine`: the first coupon, and the
  stackable ones behind it;
* **`evaluated_eq`**: the accepted codes are the combined ones, and the total is that of their
  discounts;
* `StaysExclusive`: an accepted exclusive code is the only one;
* **`staysExclusive_iff`**: exactly when no stackable usable code stands behind an exclusive first
  one.
-/

namespace Logix.Order

/-- `discountType`. -/
inductive DiscountType where
  | PERCENTAGE | FIXED_AMOUNT | FREE_SHIPPING
  deriving DecidableEq, Repr

/-- `IPromotionRule`: what the engine reads of it. -/
structure IPromotionRule where
  promoCode : JsString
  discountType : DiscountType
  discountValue : Double
  minimumCartSpendUSD : Double
  maximumDiscountCapUSD : Double
  isStackableWithOtherPromos : Bool
  expiresAt : Option JsDate
  deriving DecidableEq, Repr

/-- An entry of `appliedPromoCodes`, and `new Date()` in its round of the loop. -/
structure AppliedCode where
  code : JsString
  now : JsDate
  deriving DecidableEq, Repr

/-- `ICartEvaluationContext`: what the engine reads of it. -/
structure ICartEvaluationContext where
  cartSubtotalUSD : Double
  shippingFeeUSD : Double
  appliedPromoCodes : List AppliedCode
  deriving DecidableEq, Repr

/-- What `evaluateCartDiscounts` returns. -/
structure CartDiscounts where
  totalDiscountUSD : Double
  effectiveShippingUSD : Double
  acceptedPromoCodes : List JsString
  rejectedPromoCodes : List JsString
  deriving DecidableEq, Repr

namespace CartDiscounts

/-- `rejectedPromoCodes.push(code)`. -/
def reject (d : CartDiscounts) (code : JsString) : CartDiscounts :=
  { d with rejectedPromoCodes := d.rejectedPromoCodes ++ [code] }

/-- An accepted code, by the type of its discount. -/
def accept (d : CartDiscounts) (cartSubtotalUSD : Double) (code : JsString)
    (rule : IPromotionRule) : CartDiscounts :=
  match rule.discountType with
  | .PERCENTAGE =>
    let discount := min rule.maximumDiscountCapUSD
      ((cartSubtotalUSD * (rule.discountValue / 100)).toFixed 2)
    { d with
      totalDiscountUSD := d.totalDiscountUSD + discount
      acceptedPromoCodes := d.acceptedPromoCodes ++ [code] }
  | .FIXED_AMOUNT =>
    let discount := min rule.maximumDiscountCapUSD rule.discountValue
    { d with
      totalDiscountUSD := d.totalDiscountUSD + discount
      acceptedPromoCodes := d.acceptedPromoCodes ++ [code] }
  | .FREE_SHIPPING =>
    { d with
      effectiveShippingUSD := 0
      acceptedPromoCodes := d.acceptedPromoCodes ++ [code] }

end CartDiscounts

/-- **`CouponEngineWithCartStackingRules`.** -/
structure CouponEngineWithCartStackingRules where
  promoRegistry : JsMap JsString IPromotionRule

namespace CouponEngineWithCartStackingRules

variable (toUpperCase : JsString → JsString)

/-- **`registerRule(rule)`.** -/
def registerRule (s : CouponEngineWithCartStackingRules) (rule : IPromotionRule) :
    CouponEngineWithCartStackingRules :=
  ⟨s.promoRegistry.set (toUpperCase rule.promoCode) rule⟩

/-- The first promotion of the constructor. -/
def supplyChain2026 (now : JsDate) : IPromotionRule where
  promoCode := js "SUPPLYCHAIN2026"
  discountType := .PERCENTAGE
  discountValue := 15
  minimumCartSpendUSD := 1000
  maximumDiscountCapUSD := 500
  isStackableWithOtherPromos := false
  expiresAt := dateOf ((now + 365 * 86400000 : ℤ) : ℚ)

/-- The second promotion of the constructor. -/
def freeShip100 (now : JsDate) : IPromotionRule where
  promoCode := js "FREESHIP100"
  discountType := .FREE_SHIPPING
  discountValue := 100
  minimumCartSpendUSD := 500
  maximumDiscountCapUSD := 250
  isStackableWithOtherPromos := true
  expiresAt := dateOf ((now + 365 * 86400000 : ℤ) : ℚ)

/-- `new CouponEngineWithCartStackingRules()`, and the clock readings of the two promotions. -/
def new (now now' : JsDate) : CouponEngineWithCartStackingRules :=
  (registerRule toUpperCase ⟨.empty⟩ (supplyChain2026 now)).registerRule toUpperCase
    (freeShip100 now')

variable (s : CouponEngineWithCartStackingRules) (ctx : ICartEvaluationContext)

/-- `nonStackableFound`. -/
def nonStackableFound : Bool := ctx.appliedPromoCodes.any fun c =>
  match s.promoRegistry.get (toUpperCase c.code) with
  | none => false
  | some r => !r.isStackableWithOtherPromos

/-- A round of the loop. -/
def applyCode (d : CartDiscounts) (c : AppliedCode) : CartDiscounts :=
  match s.promoRegistry.get (toUpperCase c.code) with
  | none => d.reject c.code
  | some rule =>
    if dateLt rule.expiresAt (some c.now) = true ∨
        ctx.cartSubtotalUSD < rule.minimumCartSpendUSD then
      d.reject c.code
    else if s.nonStackableFound toUpperCase ctx = true ∧ 0 < d.acceptedPromoCodes.length ∧
        rule.isStackableWithOtherPromos = false then
      d.reject c.code
    else d.accept ctx.cartSubtotalUSD c.code rule

/-- The state behind the loop. -/
def evaluated : CartDiscounts :=
  ctx.appliedPromoCodes.foldl (s.applyCode toUpperCase ctx) ⟨0, ctx.shippingFeeUSD, [], []⟩

/-- **`evaluateCartDiscounts(ctx)`.** -/
def evaluateCartDiscounts : CartDiscounts :=
  let d := s.evaluated toUpperCase ctx
  { totalDiscountUSD := d.totalDiscountUSD.toFixed 2
    effectiveShippingUSD := d.effectiveShippingUSD.toFixed 2
    acceptedPromoCodes := d.acceptedPromoCodes
    rejectedPromoCodes := d.rejectedPromoCodes }

end CouponEngineWithCartStackingRules

open CouponEngineWithCartStackingRules

/-! ## Combined codes -/

/-- A code with its promotion. -/
abbrev Coupon := JsString × IPromotionRule

/-- The discount of a promotion on a cart. -/
def discountOf (cartSubtotalUSD : Double) (rule : IPromotionRule) : Double :=
  match rule.discountType with
  | .PERCENTAGE => min rule.maximumDiscountCapUSD
      ((cartSubtotalUSD * (rule.discountValue / 100)).toFixed 2)
  | .FIXED_AMOUNT => min rule.maximumDiscountCapUSD rule.discountValue
  | .FREE_SHIPPING => 0

/-- A coupon that goes together with others. -/
def IsStackable (p : Coupon) : Bool := p.2.isStackableWithOtherPromos

/-- **The first coupon, and the stackable ones behind it.** -/
def combine : List Coupon → List Coupon
  | [] => []
  | p :: ps => p :: ps.filter IsStackable

section Usable

variable (toUpperCase : JsString → JsString) (s : CouponEngineWithCartStackingRules)
  (cartSubtotalUSD : Double)

/-- **A usable code**: it has a promotion, which has not expired, and the cart reaches the minimum
spend. -/
def usable (c : AppliedCode) : Option Coupon :=
  match s.promoRegistry.get (toUpperCase c.code) with
  | none => none
  | some rule =>
    if dateLt rule.expiresAt (some c.now) = true ∨ cartSubtotalUSD < rule.minimumCartSpendUSD then
      none
    else some (c.code, rule)

/-- The coupons that a cart gets for its codes. -/
def combined (codes : List AppliedCode) : List Coupon :=
  combine (codes.filterMap (usable toUpperCase s cartSubtotalUSD))

end Usable

variable {toUpperCase : JsString → JsString} {s : CouponEngineWithCartStackingRules}
  {ctx : ICartEvaluationContext} {codes : List AppliedCode} {c : AppliedCode} {d : CartDiscounts}
  {p : Coupon}

theorem usable_eq_some_iff {cartSubtotalUSD : Double} :
    usable toUpperCase s cartSubtotalUSD c = some p ↔
      s.promoRegistry.get (toUpperCase c.code) = some p.2 ∧ c.code = p.1 ∧
        dateLt p.2.expiresAt (some c.now) = false ∧ p.2.minimumCartSpendUSD ≤ cartSubtotalUSD := by
  unfold usable
  cases hget : s.promoRegistry.get (toUpperCase c.code) with
  | none => exact iff_of_false (fun h => by cases h) fun h => by cases h.1
  | some rule =>
    dsimp only
    split_ifs with hunusable
    · refine iff_of_false (fun h => by cases h) ?_
      rintro ⟨hrule, -, hexpires, hspend⟩
      obtain rfl := Option.some.inj hrule
      rcases hunusable with hexpired | hlow
      · cases hexpires.symm.trans hexpired
      · exact absurd hspend (not_le.mpr hlow)
    · obtain ⟨hexpires, hspend⟩ := not_or.mp hunusable
      constructor
      · intro h
        obtain rfl := Option.some.inj h
        exact ⟨rfl, rfl, Bool.eq_false_iff.mpr hexpires, not_lt.mp hspend⟩
      · rintro ⟨hrule, hcode, -, -⟩
        rw [Option.some.inj hrule, hcode]

theorem get_of_usable {cartSubtotalUSD : Double}
    (h : usable toUpperCase s cartSubtotalUSD c = some p) :
    s.promoRegistry.get (toUpperCase p.1) = some p.2 := by
  obtain ⟨hget, hcode, -⟩ := usable_eq_some_iff.mp h
  rwa [hcode] at hget

theorem accept_eq (d : CartDiscounts) (cartSubtotalUSD : Double) (p : Coupon) :
    d.accept cartSubtotalUSD p.1 p.2 =
      { totalDiscountUSD := d.totalDiscountUSD + discountOf cartSubtotalUSD p.2
        effectiveShippingUSD :=
          if p.2.discountType = .FREE_SHIPPING then 0 else d.effectiveShippingUSD
        acceptedPromoCodes := d.acceptedPromoCodes ++ [p.1]
        rejectedPromoCodes := d.rejectedPromoCodes } := by
  rw [CartDiscounts.accept, discountOf]
  cases p.2.discountType with
  | PERCENTAGE => rfl
  | FIXED_AMOUNT => rfl
  | FREE_SHIPPING => simp

/-- **A round of the loop**: a code that is not usable is rejected; a usable one is accepted, unless
it is exclusive and comes behind an accepted one. -/
theorem applyCode_eq (hfound : nonStackableFound toUpperCase s ctx = false →
    ∀ p ∈ usable toUpperCase s ctx.cartSubtotalUSD c, IsStackable p = true) :
    applyCode toUpperCase s ctx d c =
      match usable toUpperCase s ctx.cartSubtotalUSD c with
      | none => d.reject c.code
      | some p =>
        if d.acceptedPromoCodes = [] ∨ IsStackable p = true then
          d.accept ctx.cartSubtotalUSD p.1 p.2
        else d.reject c.code := by
  rw [applyCode]
  unfold usable at hfound ⊢
  cases hget : s.promoRegistry.get (toUpperCase c.code) with
  | none => rfl
  | some rule =>
    rw [hget] at hfound
    dsimp only at hfound ⊢
    by_cases hunusable :
        dateLt rule.expiresAt (some c.now) = true ∨ ctx.cartSubtotalUSD < rule.minimumCartSpendUSD
    · rw [if_pos hunusable, if_pos hunusable]
    · rw [if_neg hunusable] at hfound ⊢
      rw [if_neg hunusable]
      have hrejected : (nonStackableFound toUpperCase s ctx = true ∧
          0 < d.acceptedPromoCodes.length ∧ rule.isStackableWithOtherPromos = false) ↔
            ¬ (d.acceptedPromoCodes = [] ∨ IsStackable (c.code, rule) = true) := by
        rw [not_or, ← ne_eq, ← List.length_pos_iff, Bool.not_eq_true]
        refine ⟨And.right, fun h => ⟨?_, h⟩⟩
        by_contra hno
        have hstackable := hfound (Bool.eq_false_iff.mpr hno) (c.code, rule) rfl
        cases h.2.symm.trans hstackable
      exact (if_congr hrejected rfl rfl).trans (ite_not _ _ _)

/-- What a list of coupons adds to the state of the loop. -/
def CartDiscounts.acceptAll (d : CartDiscounts) (cartSubtotalUSD : Double) (ps : List Coupon)
    (rejected : List JsString) : CartDiscounts where
  totalDiscountUSD :=
    (ps.map fun p => discountOf cartSubtotalUSD p.2).foldl (· + ·) d.totalDiscountUSD
  effectiveShippingUSD :=
    if ∃ p ∈ ps, p.2.discountType = .FREE_SHIPPING then 0 else d.effectiveShippingUSD
  acceptedPromoCodes := d.acceptedPromoCodes ++ ps.map Prod.fst
  rejectedPromoCodes := d.rejectedPromoCodes ++ rejected

theorem acceptAll_nil (d : CartDiscounts) (cartSubtotalUSD : Double) :
    d.acceptAll cartSubtotalUSD [] [] = d := by
  simp [CartDiscounts.acceptAll]

theorem acceptAll_reject (d : CartDiscounts) (cartSubtotalUSD : Double) (ps : List Coupon)
    (code : JsString) (rejected : List JsString) :
    (d.reject code).acceptAll cartSubtotalUSD ps rejected =
      d.acceptAll cartSubtotalUSD ps (code :: rejected) := by
  simp [CartDiscounts.acceptAll, CartDiscounts.reject]

theorem acceptAll_accept (d : CartDiscounts) (cartSubtotalUSD : Double) (p : Coupon)
    (ps : List Coupon) (rejected : List JsString) :
    (d.accept cartSubtotalUSD p.1 p.2).acceptAll cartSubtotalUSD ps rejected =
      d.acceptAll cartSubtotalUSD (p :: ps) rejected := by
  rw [accept_eq, CartDiscounts.acceptAll, CartDiscounts.acceptAll, CartDiscounts.mk.injEq]
  refine ⟨rfl, ?_, by simp, rfl⟩
  rw [if_congr (List.exists_mem_cons_iff _ p ps) rfl rfl]
  by_cases hfree : p.2.discountType = .FREE_SHIPPING
  · simp [hfree]
  · simp only [hfree, if_false, false_or]

/-- The coupons that are accepted, behind these codes. -/
def combineBehind (accepted : List JsString) (ps : List Coupon) : List Coupon :=
  if accepted = [] then combine ps else ps.filter IsStackable

theorem combineBehind_of_ne {accepted : List JsString} (h : accepted ≠ []) (ps : List Coupon) :
    combineBehind accepted ps = ps.filter IsStackable := if_neg h

theorem combineBehind_cons_of {accepted : List JsString} (ps : List Coupon)
    (h : accepted = [] ∨ IsStackable p = true) :
    combineBehind accepted (p :: ps) = p :: ps.filter IsStackable := by
  rw [combineBehind]
  split_ifs with hempty
  · rfl
  · exact List.filter_cons_of_pos (h.resolve_left hempty)

theorem combineBehind_cons_of_not {accepted : List JsString} (ps : List Coupon)
    (h : ¬ (accepted = [] ∨ IsStackable p = true)) :
    combineBehind accepted (p :: ps) = combineBehind accepted ps := by
  obtain ⟨hne, hexclusive⟩ := not_or.mp h
  rw [combineBehind_of_ne hne, combineBehind_of_ne hne, List.filter_cons_of_neg hexclusive]

theorem foldl_applyCode (codes : List AppliedCode) (d : CartDiscounts)
    (hfound : nonStackableFound toUpperCase s ctx = false → ∀ c ∈ codes,
      ∀ p ∈ usable toUpperCase s ctx.cartSubtotalUSD c, IsStackable p = true) :
    ∃ rejected, codes.foldl (applyCode toUpperCase s ctx) d =
      d.acceptAll ctx.cartSubtotalUSD (combineBehind d.acceptedPromoCodes
        (codes.filterMap (usable toUpperCase s ctx.cartSubtotalUSD))) rejected := by
  induction codes generalizing d with
  | nil =>
    refine ⟨[], (acceptAll_nil d ctx.cartSubtotalUSD).symm.trans ?_⟩
    rw [List.filterMap_nil, combineBehind]
    split_ifs <;> rfl
  | cons c codes ih =>
    have hc := applyCode_eq (d := d) fun h => hfound h c List.mem_cons_self
    replace ih := fun d => ih d fun h c hc => hfound h c (List.mem_cons_of_mem _ hc)
    rw [List.foldl_cons, hc]
    cases husable : usable toUpperCase s ctx.cartSubtotalUSD c with
    | none =>
      obtain ⟨rejected, hrest⟩ := ih (d.reject c.code)
      refine ⟨c.code :: rejected, hrest.trans ?_⟩
      rw [acceptAll_reject, List.filterMap_cons_none husable]
      rfl
    | some p =>
      rw [List.filterMap_cons_some husable]
      dsimp only
      split_ifs with haccepted
      · obtain ⟨rejected, hrest⟩ := ih (d.accept ctx.cartSubtotalUSD p.1 p.2)
        refine ⟨rejected, hrest.trans ?_⟩
        have hne : (d.accept ctx.cartSubtotalUSD p.1 p.2).acceptedPromoCodes ≠ [] := by
          rw [accept_eq]
          exact List.append_ne_nil_of_right_ne_nil _ (List.cons_ne_nil _ _)
        rw [acceptAll_accept, combineBehind_of_ne hne, combineBehind_cons_of _ haccepted]
      · obtain ⟨rejected, hrest⟩ := ih (d.reject c.code)
        refine ⟨c.code :: rejected, hrest.trans ?_⟩
        rw [acceptAll_reject, combineBehind_cons_of_not _ haccepted]
        rfl

theorem isStackable_of_not_found (h : nonStackableFound toUpperCase s ctx = false) {c : AppliedCode}
    (hc : c ∈ ctx.appliedPromoCodes) (hp : p ∈ usable toUpperCase s ctx.cartSubtotalUSD c) :
    IsStackable p = true := by
  have hno := List.any_eq_false.mp h c hc
  rw [(usable_eq_some_iff.mp hp).1] at hno
  simpa [IsStackable] using hno

/-- **What the engine returns**: the combined codes, and the total of their discounts. -/
theorem evaluated_eq (toUpperCase : JsString → JsString) (s : CouponEngineWithCartStackingRules)
    (ctx : ICartEvaluationContext) :
    ∃ rejected, evaluated toUpperCase s ctx =
      CartDiscounts.acceptAll ⟨0, ctx.shippingFeeUSD, [], []⟩ ctx.cartSubtotalUSD
        (combined toUpperCase s ctx.cartSubtotalUSD ctx.appliedPromoCodes) rejected :=
  foldl_applyCode ctx.appliedPromoCodes ⟨0, ctx.shippingFeeUSD, [], []⟩ fun h _ hc _ hp =>
    isStackable_of_not_found h hc hp

theorem acceptedPromoCodes_eq (s : CouponEngineWithCartStackingRules)
    (ctx : ICartEvaluationContext) :
    (evaluateCartDiscounts toUpperCase s ctx).acceptedPromoCodes =
      (combined toUpperCase s ctx.cartSubtotalUSD ctx.appliedPromoCodes).map Prod.fst := by
  obtain ⟨rejected, h⟩ := evaluated_eq toUpperCase s ctx
  rw [evaluateCartDiscounts, h]
  rfl

theorem totalDiscountUSD_eq (s : CouponEngineWithCartStackingRules)
    (ctx : ICartEvaluationContext) :
    (evaluateCartDiscounts toUpperCase s ctx).totalDiscountUSD =
      (Double.total ((combined toUpperCase s ctx.cartSubtotalUSD ctx.appliedPromoCodes).map
        fun p => discountOf ctx.cartSubtotalUSD p.2)).toFixed 2 := by
  obtain ⟨rejected, h⟩ := evaluated_eq toUpperCase s ctx
  rw [evaluateCartDiscounts, h]
  rfl

/-! ## Exclusive codes -/

/-- **Exclusive codes stay exclusive**: an accepted code whose promotion does not go together with
others is the only accepted one. -/
def StaysExclusive (toUpperCase : JsString → JsString) (s : CouponEngineWithCartStackingRules)
    (ctx : ICartEvaluationContext) : Prop :=
  ∀ code ∈ (evaluateCartDiscounts toUpperCase s ctx).acceptedPromoCodes,
    ∀ rule ∈ s.promoRegistry.get (toUpperCase code), rule.isStackableWithOtherPromos = false →
      (evaluateCartDiscounts toUpperCase s ctx).acceptedPromoCodes = [code]

/-- **An exclusive first code with a stackable one behind it**, among the usable codes. -/
def ExclusiveFirst (toUpperCase : JsString → JsString) (s : CouponEngineWithCartStackingRules)
    (ctx : ICartEvaluationContext) : Prop :=
  ∃ p ps, ctx.appliedPromoCodes.filterMap (usable toUpperCase s ctx.cartSubtotalUSD) = p :: ps ∧
    IsStackable p = false ∧ ∃ q ∈ ps, IsStackable q = true

/-- **Exclusive codes stay exclusive exactly when** no stackable usable code stands behind an
exclusive first one. -/
theorem staysExclusive_iff (toUpperCase : JsString → JsString)
    (s : CouponEngineWithCartStackingRules) (ctx : ICartEvaluationContext) :
    StaysExclusive toUpperCase s ctx ↔ ¬ ExclusiveFirst toUpperCase s ctx := by
  have hget : ∀ q ∈ ctx.appliedPromoCodes.filterMap (usable toUpperCase s ctx.cartSubtotalUSD),
      s.promoRegistry.get (toUpperCase q.1) = some q.2 := fun q hq => by
    obtain ⟨c, -, hc⟩ := List.mem_filterMap.mp hq
    exact get_of_usable hc
  rw [StaysExclusive, acceptedPromoCodes_eq, combined]
  cases husable : ctx.appliedPromoCodes.filterMap (usable toUpperCase s ctx.cartSubtotalUSD) with
  | nil =>
    refine iff_of_true (fun code hcode => absurd hcode List.not_mem_nil) ?_
    rintro ⟨p, ps, hfirst, -⟩
    cases husable.symm.trans hfirst
  | cons p ps =>
    rw [husable] at hget
    rw [combine, List.map_cons]
    constructor
    · rintro h ⟨p', ps', hfirst, hexclusive, q, hq, hstackable⟩
      obtain ⟨rfl, rfl⟩ := List.cons.inj (husable.symm.trans hfirst)
      have halone := h p.1 List.mem_cons_self p.2 (hget p List.mem_cons_self) hexclusive
      have hnone : ps.filter IsStackable = [] := List.map_eq_nil_iff.mp (List.cons.inj halone).2
      exact List.ne_nil_of_mem (List.mem_filter.mpr ⟨hq, hstackable⟩) hnone
    · intro hfirst code hcode rule hrule hexclusive
      rcases List.mem_cons.mp hcode with rfl | hbehind
      · -- the first code: no stackable one is behind it
        obtain rfl := Option.some.inj ((hget p List.mem_cons_self).symm.trans hrule)
        have hnone : ps.filter IsStackable = [] := List.filter_eq_nil_iff.mpr fun q hq hstackable =>
          hfirst ⟨p, ps, husable, hexclusive, q, hq, hstackable⟩
        rw [hnone, List.map_nil]
      · -- the codes behind the first are stackable
        obtain ⟨q, hq, rfl⟩ := List.mem_map.mp hbehind
        obtain ⟨hmem, hstackable⟩ := List.mem_filter.mp hq
        obtain rfl := Option.some.inj ((hget q (List.mem_cons_of_mem _ hmem)).symm.trans hrule)
        cases hexclusive.symm.trans hstackable

/-- A cart of 1000 dollars with the two codes of the constructor. -/
def twoCodes : ICartEvaluationContext where
  cartSubtotalUSD := 1000
  shippingFeeUSD := 40
  appliedPromoCodes := [⟨js "SUPPLYCHAIN2026", 0⟩, ⟨js "freeship100", 0⟩]

/-- **An exclusive code in company**: the stackable code behind it is accepted. -/
theorem exclusive_with_freeship :
    ¬ ∀ (s : CouponEngineWithCartStackingRules) (ctx : ICartEvaluationContext),
      StaysExclusive toUpperText s ctx := fun h => by
  have halone := h (new toUpperText 0 0) twoCodes (js "SUPPLYCHAIN2026") (by decide +kernel)
    (supplyChain2026 0) (by decide +kernel) rfl
  exact absurd halone (by decide +kernel)

end Logix.Order
