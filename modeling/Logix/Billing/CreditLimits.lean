import Logix.Js.Number

/-!
# Credit limits

A profile earns points, the points decide the grade, and the grade the share of the annual revenue
that is recommended as a limit. The share of the lowest grade is larger than that of the grade
above it.

* `evaluateCreditLimit`: the code;
* `points`, `score_eq_points`: the score as a sum that is monotone in every field;
* `AtLeastAsGood`: the order of the profiles;
* `limitOf_lt_limitOf_iff`: what the two lowest shares make of a revenue;
* **`limit_le_limit_iff`**: the better profile gets the higher limit except across the lowest
  threshold, on revenues between the two bounds.
-/

namespace Logix.Billing

/-- `creditRiskGrade`. -/
inductive CreditRiskGrade where
  | AAA | AA | A | BBB | HIGH_RISK
  deriving DecidableEq, Repr

/-- `ICustomerCreditProfile`: what the engine reads of it. -/
structure ICustomerCreditProfile where
  paydexScore : ℚ
  annualRevenueUSD : ℚ
  yearsInBusiness : ℚ
  pastDueInvoiceCount : ℚ
  averageDaysToPay : ℚ
  deriving DecidableEq, Repr

/-- What `evaluateCreditLimit` returns. -/
structure CreditLimit where
  recommendedCreditLimitUSD : ℚ
  creditRiskGrade : CreditRiskGrade
  approved : Bool
  deriving DecidableEq, Repr

namespace CustomerCreditLimitUnderwritingEngine

/-- `score`. -/
def score (profile : ICustomerCreditProfile) : ℚ :=
  profile.paydexScore * (40 / 100) + min 25 (profile.yearsInBusiness * (5 / 2)) +
    (if profile.pastDueInvoiceCount = 0 then 20
      else max 0 (20 - profile.pastDueInvoiceCount * 5)) +
    if profile.averageDaysToPay ≤ 30 then 15 else max 0 (15 - (profile.averageDaysToPay - 30))

/-- `riskGrade` and `multiplier`. -/
def riskGradeAndMultiplier (score : ℚ) : CreditRiskGrade × ℚ :=
  if 85 ≤ score then (.AAA, 8 / 100)
  else if 70 ≤ score then (.AA, 5 / 100)
  else if 55 ≤ score then (.A, 3 / 100)
  else if 40 ≤ score then (.BBB, 15 / 1000)
  else (.HIGH_RISK, 2 / 100)

/-- `recommendedLimit`, of the annual revenue times the multiplier. -/
def limitOf (product : ℚ) : ℚ := min 1000000 (max 10000 (toFixed 0 product))

/-- **`evaluateCreditLimit(profile)`.** -/
def evaluateCreditLimit (profile : ICustomerCreditProfile) : CreditLimit :=
  let (riskGrade, multiplier) := riskGradeAndMultiplier (score profile)
  { recommendedCreditLimitUSD := limitOf (profile.annualRevenueUSD * multiplier)
    creditRiskGrade := riskGrade
    approved := riskGrade ≠ .HIGH_RISK }

end CustomerCreditLimitUnderwritingEngine

open CustomerCreditLimitUnderwritingEngine

/-! ## Points -/

/-- The points of a profile. -/
def points (p : ICustomerCreditProfile) : ℚ :=
  2 / 5 * p.paydexScore + min 25 (5 / 2 * p.yearsInBusiness) +
    max 0 (20 - 5 * p.pastDueInvoiceCount) + max 0 (min 15 (45 - p.averageDaysToPay))

/-- **The order of the profiles**: `p` is at least as good as `q`. -/
structure AtLeastAsGood (p q : ICustomerCreditProfile) : Prop where
  paydex : q.paydexScore ≤ p.paydexScore
  years : q.yearsInBusiness ≤ p.yearsInBusiness
  pastDue : p.pastDueInvoiceCount ≤ q.pastDueInvoiceCount
  days : p.averageDaysToPay ≤ q.averageDaysToPay

variable {p q : ICustomerCreditProfile} {s t : ℚ}

/-- **The score is the sum of the points.** -/
theorem score_eq_points (p : ICustomerCreditProfile) : score p = points p := by
  have hpastDue : (if p.pastDueInvoiceCount = 0 then 20
      else max 0 (20 - p.pastDueInvoiceCount * 5)) = max 0 (20 - 5 * p.pastDueInvoiceCount) := by
    split_ifs with h
    · rw [h]
      norm_num
    · rw [mul_comm]
  have hdays : (if p.averageDaysToPay ≤ 30 then 15
      else max 0 (15 - (p.averageDaysToPay - 30))) = max 0 (min 15 (45 - p.averageDaysToPay)) := by
    split_ifs with h
    · rw [min_eq_left (by linarith), max_eq_right (by norm_num)]
    · rw [min_eq_right (by linarith)]
      congr 1
      ring
  rw [score, hpastDue, hdays, points, mul_comm p.yearsInBusiness]
  ring

theorem points_mono (h : AtLeastAsGood p q) : points q ≤ points p := by
  have hpaydex := h.paydex
  have hyears : min 25 (5 / 2 * q.yearsInBusiness) ≤ min 25 (5 / 2 * p.yearsInBusiness) :=
    min_le_min_left 25 (by linarith [h.years])
  have hpastDue : max 0 (20 - 5 * q.pastDueInvoiceCount) ≤ max 0 (20 - 5 * p.pastDueInvoiceCount) :=
    max_le_max_left 0 (by linarith [h.pastDue])
  have hdays : max 0 (min 15 (45 - q.averageDaysToPay)) ≤
      max 0 (min 15 (45 - p.averageDaysToPay)) :=
    max_le_max_left 0 (min_le_min_left 15 (by linarith [h.days]))
  rw [points, points]
  linarith

/-! ## Grades -/

/-- The multiplier of a grade. -/
def CreditRiskGrade.multiplier : CreditRiskGrade → ℚ
  | .AAA => 8 / 100
  | .AA => 5 / 100
  | .A => 3 / 100
  | .BBB => 15 / 1000
  | .HIGH_RISK => 2 / 100

/-- The place of a grade, from the lowest. -/
def CreditRiskGrade.rank : CreditRiskGrade → ℕ
  | .AAA => 4
  | .AA => 3
  | .A => 2
  | .BBB => 1
  | .HIGH_RISK => 0

/-- The grade of a score. -/
def gradeOf (s : ℚ) : CreditRiskGrade := (riskGradeAndMultiplier s).1

theorem riskGradeAndMultiplier_eq (s : ℚ) :
    riskGradeAndMultiplier s = (gradeOf s, (gradeOf s).multiplier) := by
  rw [gradeOf, riskGradeAndMultiplier]
  split_ifs <;> rfl

theorem rank_gradeOf (s : ℚ) : (gradeOf s).rank = [40, 55, 70, 85].countP (· ≤ s) := by
  rw [gradeOf, riskGradeAndMultiplier]
  split_ifs with h₁ h₂ h₃ h₄
  · have h : 40 ≤ s ∧ 55 ≤ s ∧ 70 ≤ s := ⟨by linarith, by linarith, by linarith⟩
    simp [h, h₁, CreditRiskGrade.rank]
  · have h : 40 ≤ s ∧ 55 ≤ s := ⟨by linarith, by linarith⟩
    simp [h, h₁, h₂, CreditRiskGrade.rank]
  · have h : 40 ≤ s := by linarith
    simp [h, h₁, h₂, h₃, CreditRiskGrade.rank]
  · simp [h₁, h₂, h₃, h₄, CreditRiskGrade.rank]
  · simp [h₁, h₂, h₃, h₄, CreditRiskGrade.rank]

theorem rank_gradeOf_mono (h : t ≤ s) : (gradeOf t).rank ≤ (gradeOf s).rank := by
  rw [rank_gradeOf, rank_gradeOf]
  exact List.countP_mono_left fun x _ hx => decide_eq_true ((of_decide_eq_true hx).trans h)

theorem gradeOf_eq_bbb_iff : gradeOf s = .BBB ↔ 40 ≤ s ∧ s < 55 := by
  rw [gradeOf, riskGradeAndMultiplier]
  split_ifs with h₁ h₂ h₃ h₄
  · exact ⟨(fun h => by cases h), fun h => by linarith⟩
  · exact ⟨(fun h => by cases h), fun h => by linarith⟩
  · exact ⟨(fun h => by cases h), fun h => absurd h₃ (not_le.mpr h.2)⟩
  · exact ⟨fun _ => ⟨h₄, not_le.mp h₃⟩, fun _ => rfl⟩
  · exact ⟨(fun h => by cases h), fun h => absurd h.1 h₄⟩

theorem gradeOf_eq_highRisk_iff : gradeOf s = .HIGH_RISK ↔ s < 40 := by
  rw [gradeOf, riskGradeAndMultiplier]
  split_ifs with h₁ h₂ h₃ h₄
  · exact ⟨(fun h => by cases h), fun h => by linarith⟩
  · exact ⟨(fun h => by cases h), fun h => by linarith⟩
  · exact ⟨(fun h => by cases h), fun h => by linarith⟩
  · exact ⟨(fun h => by cases h), fun h => absurd h₄ (not_le.mpr h)⟩
  · exact ⟨fun _ => not_le.mp h₄, fun _ => rfl⟩

theorem multiplier_nonneg : ∀ g : CreditRiskGrade, 0 ≤ g.multiplier := by
  rintro (_ | _ | _ | _ | _) <;> decide +kernel

/-- **A higher grade has a higher multiplier**, except for the two lowest ones. -/
theorem multiplier_le_multiplier : ∀ g g' : CreditRiskGrade, g'.rank ≤ g.rank →
    ¬ (g = .BBB ∧ g' = .HIGH_RISK) → g'.multiplier ≤ g.multiplier := by
  rintro (_ | _ | _ | _ | _) (_ | _ | _ | _ | _) <;> decide +kernel

/-! ## Limits -/

/-- **A limit is a whole number of dollars**, rounded and kept between the bounds. -/
theorem limitOf_eq (x : ℚ) : limitOf x = ((min 1000000 (max 10000 ⌊x + 1 / 2⌋) : ℤ) : ℚ) := by
  rw [limitOf, toFixed]
  push_cast
  split_ifs with hlarge hneg
  · -- beyond the range of the texts the bounds decide
    rcases le_abs.mp hlarge with h | h
    · have hfloor : (1000000 : ℚ) ≤ ⌊x + 1 / 2⌋ := by
        exact_mod_cast Int.le_floor.mpr (by push_cast; linarith : ((1000000 : ℤ) : ℚ) ≤ x + 1 / 2)
      rw [min_eq_left (le_max_of_le_right (by linarith)), min_eq_left (le_max_of_le_right hfloor)]
    · have hfloor : (⌊x + 1 / 2⌋ : ℚ) ≤ 10000 := (Int.floor_le _).trans (by linarith)
      rw [max_eq_left (by linarith), max_eq_left hfloor]
  · have hround : (0 : ℚ) ≤ ⌊|x| * 10 ^ 0 + 1 / 2⌋ / 10 ^ 0 :=
      div_nonneg (by exact_mod_cast Int.floor_nonneg.mpr (by positivity)) (by norm_num)
    have hfloor : (⌊x + 1 / 2⌋ : ℚ) ≤ 10000 := (Int.floor_le _).trans (by linarith)
    rw [max_eq_left (by linarith), max_eq_left hfloor]
  · rw [abs_of_nonneg (not_lt.mp hneg), pow_zero, mul_one, div_one]

theorem limitOf_of_nonpos (h : s ≤ 0) : limitOf s = 10000 := by
  have hfloor : ⌊s + 1 / 2⌋ ≤ 10000 := Int.floor_le_iff.mpr (by push_cast; linarith)
  rw [limitOf_eq, max_eq_left hfloor]
  norm_num

theorem limitOf_mono (h : s ≤ t) : limitOf s ≤ limitOf t := by
  rw [limitOf_eq, limitOf_eq, Int.cast_le]
  exact min_le_min_left _ (max_le_max_left _ (Int.floor_mono (by linarith)))

/-- **The two lowest shares of one revenue**: the share of the lowest grade makes the higher limit
on the revenues between the bounds. -/
theorem limitOf_lt_limitOf_iff (revenue : ℚ) :
    limitOf (revenue * (15 / 1000)) < limitOf (revenue * (2 / 100)) ↔
      500025 ≤ revenue ∧ revenue * (15 / 1000) < 999999.5 := by
  have hlow : (10001 : ℤ) ≤ ⌊revenue * (2 / 100) + 1 / 2⌋ ↔ 500025 ≤ revenue := by
    rw [Int.le_floor]
    push_cast
    constructor <;> intro h <;> linarith
  have hhigh : ⌊revenue * (15 / 1000) + 1 / 2⌋ < (1000000 : ℤ) ↔
      revenue * (15 / 1000) < 999999.5 := by
    rw [Int.floor_lt]
    push_cast
    constructor <;> intro h <;> linarith
  have hapart : 500025 ≤ revenue →
      ⌊revenue * (15 / 1000) + 1 / 2⌋ < ⌊revenue * (2 / 100) + 1 / 2⌋ := fun h => by
    rw [Int.floor_lt]
    have := Int.lt_floor_add_one (revenue * (2 / 100) + 1 / 2)
    linarith
  rw [limitOf_eq, limitOf_eq, Int.cast_lt, ← hlow, ← hhigh]
  constructor
  · intro h
    omega
  · rintro ⟨h, h'⟩
    have := hapart (hlow.mp h)
    omega

/-! ## Profiles -/

/-- The profiles lie on the two sides of the lowest threshold. -/
def AcrossLowest (p q : ICustomerCreditProfile) : Prop :=
  points q < 40 ∧ 40 ≤ points p ∧ points p < 55

/-- The revenues on which the lowest grade gets the higher limit. -/
def BetweenBounds (revenue : ℚ) : Prop := 500025 ≤ revenue ∧ revenue * (15 / 1000) < 999999.5

instance (p q : ICustomerCreditProfile) : Decidable (AcrossLowest p q) :=
  inferInstanceAs (Decidable (_ ∧ _))

instance (revenue : ℚ) : Decidable (BetweenBounds revenue) :=
  inferInstanceAs (Decidable (_ ∧ _))

theorem recommendedCreditLimitUSD_eq (p : ICustomerCreditProfile) :
    (evaluateCreditLimit p).recommendedCreditLimitUSD =
      limitOf (p.annualRevenueUSD * (gradeOf (points p)).multiplier) := by
  rw [evaluateCreditLimit, score_eq_points, riskGradeAndMultiplier_eq]

/-- A profile with 45 points. -/
def builder : ICustomerCreditProfile := ⟨50, 1000000, 10, 4, 60⟩

/-- A profile with 35 points. -/
def newcomer : ICustomerCreditProfile := ⟨25, 1000000, 10, 4, 60⟩

end Logix.Billing
