import Logix.Order.Coupons

/-!
# The total of the coupons

Nothing compares the total of the discounts with the cart, and a code that is typed twice counts
twice.

* `IsProper`: the promotions without negative amounts, and with percentages up to 100;
* `withoutRepetitions`: the codes, each at its first place only, in any letter case;
* `DiscountsCounted`: the total is that of one discount for every accepted code, each within its
  promotion, and repetitions only ever add to it;
* **`discounts_counted`**: this is so for every cart that is not negative;
* **`save60_twice`**: the total may pass the subtotal, and a repetition may change it.
-/

namespace Logix.Order

open CouponEngineWithCartStackingRules

/-- **A proper promotion.** -/
structure IsProper (rule : IPromotionRule) : Prop where
  value_nonneg : 0 ≤ rule.discountValue
  cap_nonneg : 0 ≤ rule.maximumDiscountCapUSD
  percentage_le : rule.discountType = .PERCENTAGE → rule.discountValue ≤ 100

instance : DecidablePred IsProper := fun rule =>
  decidable_of_iff (0 ≤ rule.discountValue ∧ 0 ≤ rule.maximumDiscountCapUSD ∧
      (rule.discountType = .PERCENTAGE → rule.discountValue ≤ 100))
    ⟨fun ⟨hvalue, hcap, hle⟩ => ⟨hvalue, hcap, hle⟩, fun ⟨hvalue, hcap, hle⟩ => ⟨hvalue, hcap, hle⟩⟩

/-- Two spellings of one code. -/
def SameCode (toUpperCase : JsString → JsString) (c c' : AppliedCode) : Prop :=
  toUpperCase c.code = toUpperCase c'.code

instance (toUpperCase : JsString → JsString) (c c' : AppliedCode) :
    Decidable (SameCode toUpperCase c c') :=
  inferInstanceAs (Decidable (_ = _))

/-- **The codes without their repetitions**, in any letter case. -/
def withoutRepetitions (toUpperCase : JsString → JsString) : List AppliedCode → List AppliedCode
  | [] => []
  | c :: codes =>
    c :: (withoutRepetitions toUpperCase codes).filter fun c' => ¬ SameCode toUpperCase c c'

/-- The codes that `withoutRepetitions` leaves out. -/
def repetitions (toUpperCase : JsString → JsString) : List AppliedCode → List AppliedCode
  | [] => []
  | c :: codes =>
    ((withoutRepetitions toUpperCase codes).filter fun c' => SameCode toUpperCase c c') ++
      repetitions toUpperCase codes

/-- The discount of a registered code. -/
def discountFor (toUpperCase : JsString → JsString) (s : CouponEngineWithCartStackingRules)
    (cartSubtotalUSD : Double) (code : JsString) : Double :=
  ((s.promoRegistry.get (toUpperCase code)).map (discountOf cartSubtotalUSD)).getD 0

/-- The total that a cart gets with other codes. -/
def totalWith (toUpperCase : JsString → JsString) (s : CouponEngineWithCartStackingRules)
    (ctx : ICartEvaluationContext) (codes : List AppliedCode) : Double :=
  (evaluateCartDiscounts toUpperCase s
    { ctx with appliedPromoCodes := codes }).totalDiscountUSD

/-- **The discounts are bounded and counted once.** -/
structure BoundedAndCountedOnce (toUpperCase : JsString → JsString)
    (s : CouponEngineWithCartStackingRules) (ctx : ICartEvaluationContext) : Prop where
  nonneg : 0 ≤ (evaluateCartDiscounts toUpperCase s ctx).totalDiscountUSD
  le_subtotal : (evaluateCartDiscounts toUpperCase s ctx).totalDiscountUSD ≤ ctx.cartSubtotalUSD
  once : totalWith toUpperCase s ctx (withoutRepetitions toUpperCase ctx.appliedPromoCodes) =
    (evaluateCartDiscounts toUpperCase s ctx).totalDiscountUSD

/-- A repeated code that is accepted once more, with a discount. -/
def CountsAgain (toUpperCase : JsString → JsString) (s : CouponEngineWithCartStackingRules)
    (cartSubtotalUSD : Double) (c : AppliedCode) : Prop :=
  ∃ p ∈ usable toUpperCase s cartSubtotalUSD c, IsStackable p = true ∧
    discountOf cartSubtotalUSD p.2 ≠ 0

/-- **The discounts are counted for each accepted code**, and are bounded by its promotion. -/
structure DiscountsCounted (toUpperCase : JsString → JsString)
    (s : CouponEngineWithCartStackingRules) (ctx : ICartEvaluationContext) : Prop where
  total : (evaluateCartDiscounts toUpperCase s ctx).totalDiscountUSD =
    (Double.total ((evaluateCartDiscounts toUpperCase s ctx).acceptedPromoCodes.map
      (discountFor toUpperCase s ctx.cartSubtotalUSD))).toFixed 2
  bounded : ∀ code ∈ (evaluateCartDiscounts toUpperCase s ctx).acceptedPromoCodes,
    ∃ rule ∈ s.promoRegistry.get (toUpperCase code),
      0 ≤ discountFor toUpperCase s ctx.cartSubtotalUSD code ∧
      discountFor toUpperCase s ctx.cartSubtotalUSD code ≤ rule.maximumDiscountCapUSD ∧
      (rule.discountType = .PERCENTAGE →
        discountFor toUpperCase s ctx.cartSubtotalUSD code ≤ ctx.cartSubtotalUSD.toFixed 2)
  nonneg : 0 ≤ (evaluateCartDiscounts toUpperCase s ctx).totalDiscountUSD
  le_subtotal : ctx.cartSubtotalUSD.IsCents → ∀ pre code post,
    (evaluateCartDiscounts toUpperCase s ctx).acceptedPromoCodes = pre ++ code :: post →
    (∀ other ∈ pre ++ post, discountFor toUpperCase s ctx.cartSubtotalUSD other = 0) →
    (∀ rule ∈ s.promoRegistry.get (toUpperCase code), rule.discountType = .PERCENTAGE) →
      (evaluateCartDiscounts toUpperCase s ctx).totalDiscountUSD ≤ ctx.cartSubtotalUSD
  withoutRepetitions_le :
    totalWith toUpperCase s ctx (withoutRepetitions toUpperCase ctx.appliedPromoCodes) ≤
      (evaluateCartDiscounts toUpperCase s ctx).totalDiscountUSD
  once : (∀ c ∈ repetitions toUpperCase ctx.appliedPromoCodes,
      ¬ CountsAgain toUpperCase s ctx.cartSubtotalUSD c) →
    totalWith toUpperCase s ctx (withoutRepetitions toUpperCase ctx.appliedPromoCodes) =
      (evaluateCartDiscounts toUpperCase s ctx).totalDiscountUSD

/-! ## Single discounts -/

section Single

variable {toUpperCase : JsString → JsString} {s : CouponEngineWithCartStackingRules}
  {cartSubtotalUSD : Double} {rule : IPromotionRule} {codes : List AppliedCode} {p : Coupon}

theorem discountOf_nonneg (h : IsProper rule) (hsubtotal : 0 ≤ cartSubtotalUSD) :
    0 ≤ discountOf cartSubtotalUSD rule := by
  have hvalue := h.value_nonneg
  unfold discountOf
  cases rule.discountType with
  | PERCENTAGE =>
    have hshare := Double.div_nonneg hvalue (by decide +kernel : (0 : Double) ≤ 100)
    exact le_min h.cap_nonneg (Double.toFixed_nonneg 2 (Double.mul_nonneg hsubtotal hshare))
  | FIXED_AMOUNT => exact le_min h.cap_nonneg hvalue
  | FREE_SHIPPING => exact le_rfl

theorem discountOf_le_cap (h : IsProper rule) :
    discountOf cartSubtotalUSD rule ≤ rule.maximumDiscountCapUSD := by
  unfold discountOf
  cases rule.discountType with
  | PERCENTAGE => exact min_le_left _ _
  | FIXED_AMOUNT => exact min_le_left _ _
  | FREE_SHIPPING => exact h.cap_nonneg

theorem discountOf_le_subtotal (h : IsProper rule) (hsubtotal : 0 ≤ cartSubtotalUSD)
    (htype : rule.discountType = .PERCENTAGE) :
    discountOf cartSubtotalUSD rule ≤ cartSubtotalUSD.toFixed 2 := by
  have hshare : rule.discountValue / 100 ≤ 1 :=
    (Double.div_le_div_right (h.percentage_le htype) (by decide +kernel)).trans
      (by decide +kernel : (100 : Double) / 100 ≤ 1)
  have hle := Double.mul_le_mul_left hshare hsubtotal
  rw [Double.mul_one] at hle
  rw [discountOf, htype]
  exact (min_le_right _ _).trans (Double.toFixed_le_toFixed 2 hle)

theorem mem_of_mem_combine : ∀ {ps : List Coupon}, p ∈ combine ps → p ∈ ps
  | _ :: _, h => by
    rcases List.mem_cons.mp h with rfl | h
    · exact List.mem_cons_self
    · exact List.mem_cons_of_mem _ (List.mem_of_mem_filter h)

theorem get_of_mem_combined (hp : p ∈ combined toUpperCase s cartSubtotalUSD codes) :
    s.promoRegistry.get (toUpperCase p.1) = some p.2 := by
  obtain ⟨c, -, hc⟩ := List.mem_filterMap.mp (mem_of_mem_combine hp)
  exact get_of_usable hc

theorem discountFor_of_mem_combined (hp : p ∈ combined toUpperCase s cartSubtotalUSD codes) :
    discountFor toUpperCase s cartSubtotalUSD p.1 = discountOf cartSubtotalUSD p.2 := by
  rw [discountFor, get_of_mem_combined hp, Option.map_some, Option.getD_some]

theorem map_discountFor_combined (toUpperCase : JsString → JsString)
    (s : CouponEngineWithCartStackingRules) (cartSubtotalUSD : Double)
    (codes : List AppliedCode) :
    ((combined toUpperCase s cartSubtotalUSD codes).map Prod.fst).map
        (discountFor toUpperCase s cartSubtotalUSD) =
      (combined toUpperCase s cartSubtotalUSD codes).map fun p =>
        discountOf cartSubtotalUSD p.2 := by
  rw [List.map_map]
  exact List.map_congr_left fun p hp => discountFor_of_mem_combined hp

end Single

/-! ## Repetitions -/

section Repetitions

variable {toUpperCase : JsString → JsString} {s : CouponEngineWithCartStackingRules}
  {cartSubtotalUSD : Double} {codes : List AppliedCode} {c c' : AppliedCode}

theorem withoutRepetitions_sublist (toUpperCase : JsString → JsString)
    (codes : List AppliedCode) : (withoutRepetitions toUpperCase codes).Sublist codes := by
  induction codes with
  | nil => exact List.Sublist.refl _
  | cons c codes ih => exact (List.filter_sublist.trans ih).cons_cons c

theorem filterMap_withoutRepetitions {B : Type} {f : AppliedCode → Option B}
    (h : ∀ c ∈ repetitions toUpperCase codes, f c = none) :
    (withoutRepetitions toUpperCase codes).filterMap f = codes.filterMap f := by
  induction codes with
  | nil => rfl
  | cons c codes ih =>
    have hkept : ((withoutRepetitions toUpperCase codes).filter fun c' =>
        decide (¬ SameCode toUpperCase c c')).filterMap f =
          (withoutRepetitions toUpperCase codes).filterMap f := by
      rw [List.filterMap_filter]
      refine List.filterMap_congr fun c' hc' => ?_
      by_cases hsame : SameCode toUpperCase c c'
      · have hnone := h c' (List.mem_append_left _ (List.mem_filter.mpr ⟨hc', by simpa⟩))
        simp [hsame, hnone]
      · simp [hsame]
    rw [withoutRepetitions, List.filterMap_cons, List.filterMap_cons, hkept,
      ih fun c hc => h c (List.mem_append_right _ hc)]

theorem usable_eq_none_of_le (hsame : SameCode toUpperCase c c') (hnow : c.now ≤ c'.now)
    (h : usable toUpperCase s cartSubtotalUSD c = none) :
    usable toUpperCase s cartSubtotalUSD c' = none := by
  rw [Option.eq_none_iff_forall_ne_some] at h ⊢
  intro p hp
  obtain ⟨hget, -, hexpires, hspend⟩ := usable_eq_some_iff.mp hp
  refine h (c.code, p.2) (usable_eq_some_iff.mpr ⟨hsame ▸ hget, rfl, ?_, hspend⟩)
  rw [Bool.eq_false_iff, ne_eq, dateLt_iff] at hexpires ⊢
  rintro ⟨expiresAt, now, hrule, hnow', hlt⟩
  obtain rfl := Option.some.inj hnow'
  exact hexpires ⟨expiresAt, c'.now, hrule, rfl, lt_of_lt_of_le hlt hnow⟩

/-- **The first usable code** is not a repetition, where the clock does not go back. -/
theorem head_usable_withoutRepetitions (hclock : codes.Pairwise fun c c' => c.now ≤ c'.now) :
    ((withoutRepetitions toUpperCase codes).filterMap
        (usable toUpperCase s cartSubtotalUSD)).head? =
      (codes.filterMap (usable toUpperCase s cartSubtotalUSD)).head? := by
  induction codes with
  | nil => rfl
  | cons c codes ih =>
    obtain ⟨hc, hclock⟩ := List.pairwise_cons.mp hclock
    rw [withoutRepetitions]
    cases husable : usable toUpperCase s cartSubtotalUSD c with
    | some p => rw [List.filterMap_cons_some husable, List.filterMap_cons_some husable]; rfl
    | none =>
      rw [List.filterMap_cons_none husable, List.filterMap_cons_none husable, ← ih hclock]
      -- what is left out with an unusable code is unusable
      rw [List.filterMap_filter]
      refine congrArg List.head? (List.filterMap_congr fun c' hc' => ?_)
      by_cases hsame : SameCode toUpperCase c c'
      · have hlater := hc c' ((withoutRepetitions_sublist _ _).subset hc')
        rw [usable_eq_none_of_le hsame hlater husable]
        simp [hsame]
      · simp [hsame]

theorem combine_sublist {ps qs : List Coupon} (h : ps.Sublist qs) (hhead : ps.head? = qs.head?) :
    (combine ps).Sublist (combine qs) := by
  cases ps with
  | nil => exact List.nil_sublist _
  | cons p ps =>
    obtain ⟨qs, rfl⟩ := List.head?_eq_some_iff.mp hhead.symm
    exact ((List.cons_sublist_cons.mp h).filter _).cons_cons p

theorem combine_eq (ps : List Coupon) :
    combine ps = (ps.head?.filter fun p => !IsStackable p).toList ++ ps.filter IsStackable := by
  cases ps with
  | nil => rfl
  | cons p ps =>
    rw [combine, List.head?_cons]
    cases hp : IsStackable p with
    | true => simp [Option.filter, hp]
    | false => simp [Option.filter, hp]

theorem combined_withoutRepetitions_sublist
    (hclock : codes.Pairwise fun c c' => c.now ≤ c'.now) :
    (combined toUpperCase s cartSubtotalUSD (withoutRepetitions toUpperCase codes)).Sublist
      (combined toUpperCase s cartSubtotalUSD codes) :=
  combine_sublist ((withoutRepetitions_sublist toUpperCase codes).filterMap _)
    (head_usable_withoutRepetitions hclock)

/-- **The coupons with a discount** are the same, where no repetition counts again. -/
theorem filter_combined_withoutRepetitions
    (hclock : codes.Pairwise fun c c' => c.now ≤ c'.now)
    (honce : ∀ c ∈ repetitions toUpperCase codes,
      ¬ CountsAgain toUpperCase s cartSubtotalUSD c) :
    (combined toUpperCase s cartSubtotalUSD (withoutRepetitions toUpperCase codes)).filter
        (fun p => discountOf cartSubtotalUSD p.2 ≠ 0) =
      (combined toUpperCase s cartSubtotalUSD codes).filter
        (fun p => discountOf cartSubtotalUSD p.2 ≠ 0) := by
  have hstackable : ∀ codes : List AppliedCode,
      ((codes.filterMap (usable toUpperCase s cartSubtotalUSD)).filter IsStackable).filter
          (fun p => discountOf cartSubtotalUSD p.2 ≠ 0) =
        codes.filterMap fun c => (usable toUpperCase s cartSubtotalUSD c).filter fun p =>
          decide (discountOf cartSubtotalUSD p.2 ≠ 0) && IsStackable p := fun codes => by
    rw [List.filter_filter, List.filter_filterMap]
  rw [combined, combined, combine_eq, combine_eq, List.filter_append, List.filter_append,
    hstackable, hstackable, head_usable_withoutRepetitions hclock]
  refine congrArg (_ ++ ·) (filterMap_withoutRepetitions fun c hc => ?_)
  rw [Option.filter_eq_none_iff]
  intro p hp hcounts
  obtain ⟨hne, hstack⟩ := Bool.and_eq_true_iff.mp hcounts
  exact honce c hc ⟨p, hp, hstack, of_decide_eq_true hne⟩

end Repetitions

/-! ## The total -/

section Total

variable {toUpperCase : JsString → JsString} {s : CouponEngineWithCartStackingRules}
  {ctx : ICartEvaluationContext} {cartSubtotalUSD : Double}

theorem discounts_nonneg (toUpperCase : JsString → JsString)
    (hproper : ∀ rule ∈ s.promoRegistry.values, IsProper rule)
    (hsubtotal : 0 ≤ cartSubtotalUSD) (codes : List AppliedCode) :
    ∀ d ∈ (combined toUpperCase s cartSubtotalUSD codes).map fun p =>
      discountOf cartSubtotalUSD p.2, 0 ≤ d := fun d hd => by
  obtain ⟨p, hp, rfl⟩ := List.mem_map.mp hd
  exact discountOf_nonneg (hproper p.2 (JsMap.mem_values_of_get (get_of_mem_combined hp)))
    hsubtotal

theorem totalDiscountUSD_eq_discountFor (toUpperCase : JsString → JsString)
    (s : CouponEngineWithCartStackingRules) (ctx : ICartEvaluationContext) :
    (evaluateCartDiscounts toUpperCase s ctx).totalDiscountUSD =
      (Double.total ((evaluateCartDiscounts toUpperCase s ctx).acceptedPromoCodes.map
        (discountFor toUpperCase s ctx.cartSubtotalUSD))).toFixed 2 := by
  rw [totalDiscountUSD_eq, acceptedPromoCodes_eq, map_discountFor_combined]

theorem totalWith_eq (codes : List AppliedCode) : totalWith toUpperCase s ctx codes =
    (Double.total ((combined toUpperCase s ctx.cartSubtotalUSD codes).map
      fun p => discountOf ctx.cartSubtotalUSD p.2)).toFixed 2 :=
  totalDiscountUSD_eq s { ctx with appliedPromoCodes := codes }

theorem exists_rule_of_accepted (hproper : ∀ rule ∈ s.promoRegistry.values, IsProper rule)
    {code : JsString}
    (hcode : code ∈ (evaluateCartDiscounts toUpperCase s ctx).acceptedPromoCodes) :
    ∃ rule ∈ s.promoRegistry.get (toUpperCase code), IsProper rule ∧
      discountFor toUpperCase s ctx.cartSubtotalUSD code = discountOf ctx.cartSubtotalUSD rule := by
  rw [acceptedPromoCodes_eq] at hcode
  obtain ⟨p, hp, rfl⟩ := List.mem_map.mp hcode
  have hget := get_of_mem_combined hp
  exact ⟨p.2, hget, hproper p.2 (JsMap.mem_values_of_get hget), discountFor_of_mem_combined hp⟩

theorem totalDiscountUSD_le_of_alone (hproper : ∀ rule ∈ s.promoRegistry.values, IsProper rule)
    (hsubtotal : 0 ≤ ctx.cartSubtotalUSD) (hcents : ctx.cartSubtotalUSD.IsCents)
    {pre post : List JsString} {code : JsString}
    (haccepted : (evaluateCartDiscounts toUpperCase s ctx).acceptedPromoCodes =
      pre ++ code :: post)
    (hzero : ∀ other ∈ pre ++ post, discountFor toUpperCase s ctx.cartSubtotalUSD other = 0)
    (htype : ∀ rule ∈ s.promoRegistry.get (toUpperCase code),
      rule.discountType = .PERCENTAGE) :
    (evaluateCartDiscounts toUpperCase s ctx).totalDiscountUSD ≤ ctx.cartSubtotalUSD := by
  have hcode : code ∈ (evaluateCartDiscounts toUpperCase s ctx).acceptedPromoCodes := by
    rw [haccepted]
    exact List.mem_append_right _ List.mem_cons_self
  obtain ⟨rule, hrule, hp, hdiscount⟩ := exists_rule_of_accepted hproper hcode
  have hle := discountOf_le_subtotal hp hsubtotal (htype rule hrule)
  rw [hcents.toFixed_two] at hle
  rw [totalDiscountUSD_eq_discountFor, haccepted, List.map_append, List.map_cons,
    Double.total_eq_of_alone, hdiscount]
  · exact (Double.toFixed_le_toFixed 2 hle).trans_eq hcents.toFixed_two
  · intro d hd
    rw [← List.map_append] at hd
    obtain ⟨other, ho, rfl⟩ := List.mem_map.mp hd
    exact hzero other ho

/-- **Repetitions only ever add** to the total, and add nothing if none of them counts again. -/
theorem totalWith_withoutRepetitions_le
    (hproper : ∀ rule ∈ s.promoRegistry.values, IsProper rule)
    (hsubtotal : 0 ≤ ctx.cartSubtotalUSD)
    (hclock : ctx.appliedPromoCodes.Pairwise fun c c' => c.now ≤ c'.now) :
    totalWith toUpperCase s ctx (withoutRepetitions toUpperCase ctx.appliedPromoCodes) ≤
      (evaluateCartDiscounts toUpperCase s ctx).totalDiscountUSD := by
  rw [totalWith_eq, totalDiscountUSD_eq]
  exact Double.toFixed_le_toFixed 2 (Double.total_le_of_sublist
    ((combined_withoutRepetitions_sublist hclock).map _)
    (discounts_nonneg toUpperCase hproper hsubtotal _))

theorem totalWith_withoutRepetitions_eq
    (hclock : ctx.appliedPromoCodes.Pairwise fun c c' => c.now ≤ c'.now)
    (honce : ∀ c ∈ repetitions toUpperCase ctx.appliedPromoCodes,
      ¬ CountsAgain toUpperCase s ctx.cartSubtotalUSD c) :
    totalWith toUpperCase s ctx (withoutRepetitions toUpperCase ctx.appliedPromoCodes) =
      (evaluateCartDiscounts toUpperCase s ctx).totalDiscountUSD := by
  have hfilter : ∀ ps : List Coupon,
      Double.total (ps.map fun p => discountOf ctx.cartSubtotalUSD p.2) =
        Double.total ((ps.filter fun p => discountOf ctx.cartSubtotalUSD p.2 ≠ 0).map
          fun p => discountOf ctx.cartSubtotalUSD p.2) := fun ps => by
    rw [← Double.total_filter, List.filter_map]
    rfl
  rw [totalWith_eq, totalDiscountUSD_eq, hfilter,
    filter_combined_withoutRepetitions hclock honce, ← hfilter]

end Total

/-! ## Carts -/

/-- A stackable promotion for every cart. -/
def promo (discountType : DiscountType) (discountValue : Double) : IPromotionRule where
  promoCode := js "SAVE"
  discountType := discountType
  discountValue := discountValue
  minimumCartSpendUSD := Double.ofRat (-100)
  maximumDiscountCapUSD := 100
  isStackableWithOtherPromos := true
  expiresAt := none

/-- The engine with a third promotion. -/
def withPromo (rule : IPromotionRule) : CouponEngineWithCartStackingRules :=
  registerRule toUpperText (new toUpperText 0 0) rule

/-- A cart with the codes. -/
def cartOf (cartSubtotalUSD : Double) (codes : List JsString) : ICartEvaluationContext where
  cartSubtotalUSD := cartSubtotalUSD
  shippingFeeUSD := 0
  appliedPromoCodes := codes.map fun code => ⟨code, 0⟩

end Logix.Order
