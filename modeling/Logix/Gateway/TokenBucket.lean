import Mathlib.Algebra.Order.Floor.Ring
import Mathlib.Data.Rat.Floor
import Mathlib.Tactic.FieldSimp
import Logix.Js.Map
import Logix.Spec.Clock

/-!
# The token bucket of the gateway

`TokenBucketRateLimiterEngine` keeps one bucket for each key and refills it when a request of the
key arrives. The numbers are rational; a time is its number of milliseconds.

* `ruleOf`, `tokensAt`, `checkRequestAllowance`, `tokenBucketMachine`: the code;
* `metered`: the tokens of a key are a level that pays for its requests;
* **`checkRequestAllowance_rate_bound`**: the allowed requests of a key over an interval, and the
  tokens stored for it.
-/

namespace Logix.Gateway

open Spec

/-- `tenantTier`. -/
inductive TenantTier where
  | ENTERPRISE | GROWTH | STARTER
  deriving DecidableEq, Repr

/-- `IRateLimitRule`. -/
structure IRateLimitRule where
  ruleId : String
  tenantTier : TenantTier
  capacityTokens : ℚ
  refillRateTokensPerSecond : ℚ
  burstAllowanceTokens : ℚ
  capacity_nonneg : 0 ≤ capacityTokens
  refillRate_pos : 0 < refillRateTokensPerSecond
  burst_nonneg : 0 ≤ burstAllowanceTokens

namespace IRateLimitRule

def enterprise : IRateLimitRule where
  ruleId := "tier_enterprise"
  tenantTier := .ENTERPRISE
  capacityTokens := 1000
  refillRateTokensPerSecond := 100
  burstAllowanceTokens := 200
  capacity_nonneg := by norm_num
  refillRate_pos := by norm_num
  burst_nonneg := by norm_num

def growth : IRateLimitRule where
  ruleId := "tier_growth"
  tenantTier := .GROWTH
  capacityTokens := 300
  refillRateTokensPerSecond := 30
  burstAllowanceTokens := 50
  capacity_nonneg := by norm_num
  refillRate_pos := by norm_num
  burst_nonneg := by norm_num

def starter : IRateLimitRule where
  ruleId := "tier_starter"
  tenantTier := .STARTER
  capacityTokens := 100
  refillRateTokensPerSecond := 10
  burstAllowanceTokens := 20
  capacity_nonneg := by norm_num
  refillRate_pos := by norm_num
  burst_nonneg := by norm_num

/-- `rule.capacityTokens + rule.burstAllowanceTokens`. -/
def ceiling (rule : IRateLimitRule) : ℚ := rule.capacityTokens + rule.burstAllowanceTokens

theorem capacity_le_ceiling (rule : IRateLimitRule) : rule.capacityTokens ≤ rule.ceiling :=
  le_add_of_nonneg_right rule.burst_nonneg

theorem ceiling_nonneg (rule : IRateLimitRule) : 0 ≤ rule.ceiling :=
  add_nonneg rule.capacity_nonneg rule.burst_nonneg

end IRateLimitRule

/-- `rules`, as the constructor fills it; no method changes it. -/
def rules : JsMap TenantTier IRateLimitRule :=
  ((JsMap.empty.set .ENTERPRISE .enterprise).set .GROWTH .growth).set .STARTER .starter

/-- `this.rules.get(tier) || this.rules.get('STARTER')!`. -/
def ruleOf (tier : TenantTier) : IRateLimitRule := (rules.get tier).getD .starter

/-- An entry of `buckets`. -/
structure Bucket where
  tokens : ℚ
  lastRefillTimestamp : ℚ
  deriving DecidableEq, Repr

/-- **`TokenBucketRateLimiterEngine`.** -/
structure TokenBucketRateLimiterEngine where
  buckets : JsMap String Bucket

/-- What `checkRequestAllowance` returns. -/
structure RequestAllowance where
  isAllowed : Bool
  remainingTokens : ℤ
  retryAfterSeconds : Option ℤ
  deriving DecidableEq, Repr

/-- The tokens of a bucket after the refill at the time `now`. -/
def tokensAt (rule : IRateLimitRule) (bucket : Bucket) (now : ℚ) : ℚ :=
  let elapsedSeconds := (now - bucket.lastRefillTimestamp) / 1000
  let tokensToAdd := elapsedSeconds * rule.refillRateTokensPerSecond
  min (rule.capacityTokens + rule.burstAllowanceTokens) (bucket.tokens + tokensToAdd)

namespace TokenBucketRateLimiterEngine

/-- `new TokenBucketRateLimiterEngine()`. -/
def new : TokenBucketRateLimiterEngine := ⟨.empty⟩

/-- The bucket of a key; a new one is full up to the capacity, without the burst. -/
def bucketFor (e : TokenBucketRateLimiterEngine) (rule : IRateLimitRule) (key : String) (now : ℚ) :
    Bucket :=
  (e.buckets.get key).getD ⟨rule.capacityTokens, now⟩

/-- **`checkRequestAllowance(key, tier)`.** -/
def checkRequestAllowance (e : TokenBucketRateLimiterEngine) (key : String) (tier : TenantTier)
    (now : ℚ) : TokenBucketRateLimiterEngine × RequestAllowance :=
  let rule := ruleOf tier
  let tokens := tokensAt rule (e.bucketFor rule key now) now
  if 1 ≤ tokens then
    (⟨e.buckets.set key ⟨tokens - 1, now⟩⟩, ⟨true, ⌊tokens - 1⌋, none⟩)
  else
    (⟨e.buckets.set key ⟨tokens, now⟩⟩,
      ⟨false, 0, some ⌈(1 - tokens) / rule.refillRateTokensPerSecond⌉⟩)

end TokenBucketRateLimiterEngine

/-- A call of `checkRequestAllowance` at the time `now`. -/
structure AllowanceCall where
  key : String
  tier : TenantTier
  now : ℚ
  deriving DecidableEq, Repr

/-- The engine under its calls. -/
def tokenBucketMachine : Machine TokenBucketRateLimiterEngine AllowanceCall RequestAllowance where
  call c e := e.checkRequestAllowance c.key c.tier c.now

abbrev AllowanceEvent := Event TokenBucketRateLimiterEngine AllowanceCall RequestAllowance

/-- A request of `key` that was allowed. -/
def Allows (key : String) (e : AllowanceEvent) : Prop :=
  e.input.key = key ∧ e.result.isAllowed = true

instance (key : String) : DecidablePred (Allows key) := fun _ => inferInstanceAs (Decidable (_ ∧ _))

/-! ## The tokens of a key -/

/-- What a request of `key` finds in its bucket at the time `t`. -/
def tokensOf (key : String) (rule : IRateLimitRule) (s : TokenBucketRateLimiterEngine) (t : ℚ) : ℚ :=
  match s.buckets.get key with
  | none => rule.capacityTokens
  | some bucket => tokensAt rule bucket t

section Level

variable {key : String} {rule : IRateLimitRule} {s : TokenBucketRateLimiterEngine}
  {c : AllowanceCall} {bucket : Bucket} {t u : ℚ}

theorem tokensAt_le_ceiling (rule : IRateLimitRule) (bucket : Bucket) (t : ℚ) :
    tokensAt rule bucket t ≤ rule.ceiling := min_le_left _ _

theorem tokensAt_self (rule : IRateLimitRule) (tokens t : ℚ) :
    tokensAt rule ⟨tokens, t⟩ t = min rule.ceiling tokens := by
  simp [tokensAt, IRateLimitRule.ceiling]

theorem tokensAt_le_add (rule : IRateLimitRule) (bucket : Bucket) (htu : t ≤ u) :
    tokensAt rule bucket u ≤
      tokensAt rule bucket t + rule.refillRateTokensPerSecond / 1000 * (u - t) := by
  have hgrow : 0 ≤ rule.refillRateTokensPerSecond / 1000 * (u - t) :=
    mul_nonneg (div_nonneg rule.refillRate_pos.le (by norm_num)) (sub_nonneg.mpr htu)
  rw [← sub_le_iff_le_add]
  refine le_min ?_ ?_
  · have hle := tokensAt_le_ceiling rule bucket u
    unfold IRateLimitRule.ceiling at hle
    linarith
  · have hle : tokensAt rule bucket u ≤ bucket.tokens + (u - bucket.lastRefillTimestamp) / 1000 *
        rule.refillRateTokensPerSecond := min_le_right _ _
    linarith

theorem tokensAt_nonneg (hb : 0 ≤ bucket.tokens) (ht : bucket.lastRefillTimestamp ≤ t) :
    0 ≤ tokensAt rule bucket t := by
  refine le_min rule.ceiling_nonneg (add_nonneg hb ?_)
  exact mul_nonneg (div_nonneg (sub_nonneg.mpr ht) (by norm_num)) rule.refillRate_pos.le

theorem tokensAt_bucketFor (s : TokenBucketRateLimiterEngine) (rule : IRateLimitRule)
    (key : String) (t : ℚ) :
    tokensAt rule (s.bucketFor rule key t) t = tokensOf key rule s t := by
  unfold TokenBucketRateLimiterEngine.bucketFor tokensOf
  cases s.buckets.get key with
  | none => exact (tokensAt_self rule _ t).trans (min_eq_right rule.capacity_le_ceiling)
  | some bucket => rfl

theorem call_cases (s : TokenBucketRateLimiterEngine) (c : AllowanceCall) :
    (1 ≤ tokensOf c.key (ruleOf c.tier) s c.now ∧
      (tokenBucketMachine.call c s).2.isAllowed = true ∧ (tokenBucketMachine.next s c).buckets =
        s.buckets.set c.key ⟨tokensOf c.key (ruleOf c.tier) s c.now - 1, c.now⟩) ∨
    (tokensOf c.key (ruleOf c.tier) s c.now < 1 ∧
      (tokenBucketMachine.call c s).2.isAllowed = false ∧ (tokenBucketMachine.next s c).buckets =
        s.buckets.set c.key ⟨tokensOf c.key (ruleOf c.tier) s c.now, c.now⟩) := by
  rw [← tokensAt_bucketFor]
  unfold Machine.next tokenBucketMachine TokenBucketRateLimiterEngine.checkRequestAllowance
  by_cases h : 1 ≤ tokensAt (ruleOf c.tier) (s.bucketFor (ruleOf c.tier) c.key c.now) c.now
  · exact Or.inl ⟨h, by simp [h], by simp [h]⟩
  · exact Or.inr ⟨not_le.mp h, by simp [h], by simp [h]⟩

theorem get_next_of_ne (hne : c.key ≠ key) :
    (tokenBucketMachine.next s c).buckets.get key = s.buckets.get key := by
  rcases call_cases s c with ⟨-, -, hs⟩ | ⟨-, -, hs⟩
  · rw [hs, JsMap.get_set_ne hne.symm]
  · rw [hs, JsMap.get_set_ne hne.symm]

theorem get_next_self (s : TokenBucketRateLimiterEngine) (c : AllowanceCall) :
    (tokenBucketMachine.next s c).buckets.get c.key =
      some ⟨tokensOf c.key (ruleOf c.tier) s c.now -
        (if Allows c.key (tokenBucketMachine.event s c) then 1 else 0), c.now⟩ := by
  have hallows : Allows c.key (tokenBucketMachine.event s c) ↔
      (tokenBucketMachine.call c s).2.isAllowed = true := by simp [Allows, Machine.event]
  rcases call_cases s c with ⟨-, hr, hs⟩ | ⟨-, hr, hs⟩
  · rw [hs, JsMap.get_set_self, if_pos (hallows.mpr hr)]
  · rw [hs, JsMap.get_set_self, if_neg (by simp [hallows, hr]), sub_zero]

/-- **The tokens of a key pay for its requests**, as long as they are of one tier. -/
theorem metered (key : String) (tier : TenantTier) :
    tokenBucketMachine.Metered AllowanceCall.now (Allows key) (fun c => c.key = key → c.tier = tier)
      (tokensOf key (ruleOf tier)) (ruleOf tier).ceiling
      ((ruleOf tier).refillRateTokensPerSecond / 1000) where
  cap_nonneg := (ruleOf tier).ceiling_nonneg
  rate_nonneg := div_nonneg (ruleOf tier).refillRate_pos.le (by norm_num)
  le_cap s t := by
    unfold tokensOf
    cases s.buckets.get key with
    | none => exact (ruleOf tier).capacity_le_ceiling
    | some bucket => exact tokensAt_le_ceiling _ _ _
  grows s t u htu := by
    unfold tokensOf
    cases s.buckets.get key with
    | none =>
      refine le_add_of_nonneg_right (mul_nonneg ?_ (sub_nonneg.mpr htu))
      exact div_nonneg (ruleOf tier).refillRate_pos.le (by norm_num)
    | some bucket => exact tokensAt_le_add _ _ htu
  covered s c hok hg := by
    obtain ⟨rfl, hr⟩ := hg
    change (tokenBucketMachine.call c s).2.isAllowed = true at hr
    obtain rfl := hok rfl
    rcases call_cases s c with ⟨hle, -, -⟩ | ⟨-, hr', -⟩
    · exact hle
    · rw [hr] at hr'
      cases hr'
  paid s c hok := by
    by_cases hkey : c.key = key
    · subst hkey
      obtain rfl := hok rfl
      conv_lhs => rw [tokensOf, get_next_self]
      have hle : tokensAt (ruleOf c.tier) ⟨tokensOf c.key (ruleOf c.tier) s c.now -
          (if Allows c.key (tokenBucketMachine.event s c) then 1 else 0), c.now⟩ c.now ≤ _ :=
        (tokensAt_self _ _ _).trans_le (min_le_right _ _)
      exact le_sub_iff_add_le.mp hle
    · have hg : ¬ Allows key (tokenBucketMachine.event s c) := fun hg => hkey hg.1
      rw [if_neg hg, add_zero, tokensOf, get_next_of_ne hkey]
      rfl

end Level

/-! ## The stored tokens -/

/-- **The invariant**, on the calls so far and the bucket of a key. -/
def BucketInRange (key : String) (rule : IRateLimitRule) (es : List AllowanceEvent)
    (s : TokenBucketRateLimiterEngine) : Prop :=
  ∀ bucket, s.buckets.get key = some bucket → 0 ≤ bucket.tokens ∧ bucket.tokens ≤ rule.ceiling ∧
    ∃ e ∈ es, e.input.now = bucket.lastRefillTimestamp

section Range

variable {key : String} {rule : IRateLimitRule} {es : List AllowanceEvent}
  {s : TokenBucketRateLimiterEngine} {c : AllowanceCall}

theorem BucketInRange.tokensOf (h : BucketInRange key rule es s)
    (hlast : ∀ e ∈ es, e.input.now ≤ c.now) : 0 ≤ tokensOf key rule s c.now := by
  unfold Gateway.tokensOf
  cases hg : s.buckets.get key with
  | none => exact rule.capacity_nonneg
  | some bucket =>
    obtain ⟨hnonneg, -, e, he, hlastRefill⟩ := h bucket hg
    exact tokensAt_nonneg hnonneg (hlastRefill ▸ hlast e he)

theorem BucketInRange.next {tier : TenantTier} (h : BucketInRange key (ruleOf tier) es s)
    (htier : c.key = key → c.tier = tier) (hlast : ∀ e ∈ es, e.input.now ≤ c.now) :
    BucketInRange key (ruleOf tier) (es ++ [tokenBucketMachine.event s c])
      (tokenBucketMachine.next s c) := by
  intro bucket hg
  by_cases hkey : c.key = key
  · subst hkey
    obtain rfl := htier rfl
    obtain rfl := Option.some.inj ((get_next_self s c).symm.trans hg)
    have hceil := (metered c.key c.tier).le_cap s c.now
    refine ⟨?_, ?_, tokenBucketMachine.event s c, by simp, rfl⟩
    · split_ifs with ha
      · exact sub_nonneg.mpr ((metered c.key c.tier).covered s c (fun _ => rfl) ha)
      · rw [sub_zero]
        exact h.tokensOf hlast
    · split_ifs with ha
      · exact (sub_le_self _ zero_le_one).trans hceil
      · rwa [sub_zero]
  · rw [get_next_of_ne hkey] at hg
    obtain ⟨hnonneg, hceil, e, he, hlastRefill⟩ := h bucket hg
    exact ⟨hnonneg, hceil, e, List.mem_append_left _ he, hlastRefill⟩

end Range

/-! ## Runs -/

/-- **The rate bound.** The requests of a key that are allowed over an interval of `T` seconds are
at most the capacity with the burst, and the refill of these `T` seconds; and the bucket of the key
stays between `0` and the capacity with the burst. -/
theorem checkRequestAllowance_rate_bound (calls : List AllowanceCall)
    (hclock : (calls.map AllowanceCall.now).Pairwise (· ≤ ·)) (key : String) (tier : TenantTier)
    (htier : ∀ c ∈ calls, c.key = key → c.tier = tier) :
    (∀ start T : ℚ, 0 ≤ T →
      (Machine.grantsWithin AllowanceCall.now (Allows key) start (start + 1000 * T)
        (tokenBucketMachine.history .new calls) : ℚ) ≤
      (ruleOf tier).capacityTokens + (ruleOf tier).burstAllowanceTokens +
        (ruleOf tier).refillRateTokensPerSecond * T) ∧
    ∀ bucket, (tokenBucketMachine.run .new calls).buckets.get key = some bucket →
      0 ≤ bucket.tokens ∧
      bucket.tokens ≤ (ruleOf tier).capacityTokens + (ruleOf tier).burstAllowanceTokens := by
  constructor
  · intro start T hT
    have hab : start ≤ start + 1000 * T := le_add_of_nonneg_right (mul_nonneg (by norm_num) hT)
    have hle := (metered key tier).grants_le (s := .new) calls hclock htier hab
    have hrate : (ruleOf tier).refillRateTokensPerSecond / 1000 * (start + 1000 * T - start) =
        (ruleOf tier).refillRateTokensPerSecond * T := by ring
    rw [hrate] at hle
    exact hle
  · have hrun : BucketInRange key (ruleOf tier) (tokenBucketMachine.history .new calls)
        (tokenBucketMachine.run .new calls) := by
      have hclock' : (calls.filterMap fun c => some c.now).Pairwise (· ≤ ·) := by simpa using hclock
      refine Machine.clocked_invariant (fun bucket hg => by cases hg) ?_ calls hclock' htier
      intro es s c hJ hc hlast
      exact hJ.next hc fun e he => hlast e he _ rfl _ rfl
    intro bucket hg
    obtain ⟨hnonneg, hceil, -⟩ := hrun bucket hg
    exact ⟨hnonneg, hceil⟩

/-- Two tenants, one of them asking twice within half a second. -/
theorem checkRequestAllowance_rate_bound_starter :
    (Machine.grantsWithin AllowanceCall.now (Allows "acme") 0 (0 + 1000 * (1 / 2))
      (tokenBucketMachine.history .new [⟨"acme", .STARTER, 0⟩, ⟨"globex", .GROWTH, 200⟩,
        ⟨"acme", .STARTER, 500⟩]) : ℚ) ≤ 100 + 20 + 10 * (1 / 2) :=
  (checkRequestAllowance_rate_bound [⟨"acme", .STARTER, 0⟩, ⟨"globex", .GROWTH, 200⟩,
    ⟨"acme", .STARTER, 500⟩] (by norm_num) "acme" .STARTER (by decide)).1 0 (1 / 2) (by norm_num)

end Logix.Gateway
