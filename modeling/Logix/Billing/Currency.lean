import Mathlib.Algebra.Order.Archimedean.Basic
import Logix.Js.Cents

/-!
# Currency conversion

Amounts are converted at the rate of the table for the pair of currencies, or at 1 where the table
has none, less a fee. The rate and the fee say nothing about the way back.

* `RealtimeFxCurrencyConverter.convert`: the code;
* **`abs_convert_sub_le`**: the amount that is paid out, up to a cent;
* `NoFreeMoney`: there and back again, an amount does not grow by more than the rounding;
* `FairRates`: the product of the two rates, less two fees, is at most 1;
* **`noFreeMoney_iff`**: the first holds for every amount exactly when the second does.
-/

namespace Logix.Billing

/-- What `convert` returns. -/
structure Conversion where
  convertedAmount : ℚ
  exchangeRate : ℚ
  feeAmount : ℚ
  deriving DecidableEq, Repr

namespace RealtimeFxCurrencyConverter

/-- `rates`. -/
def rates : List (String × ℚ) :=
  [("USD_EUR", 92 / 100), ("USD_GBP", 79 / 100), ("USD_CAD", 136 / 100), ("USD_JPY", 15450 / 100),
    ("EUR_USD", 1087 / 1000), ("GBP_USD", 1265 / 1000)]

/-- `this.rates.get(pair) || 1.0`. -/
def rate (fromCurrency toCurrency : String) : ℚ :=
  match rates.lookup (fromCurrency ++ "_" ++ toCurrency) with
  | none => 1
  | some rate => if rate = 0 then 1 else rate

/-- **`convert`**. -/
def convert (amount : ℚ) (fromCurrency toCurrency : String) (spreadPct : ℚ := 5 / 1000) :
    Conversion :=
  if fromCurrency = toCurrency then ⟨amount, 1, 0⟩
  else
    let rate := rate fromCurrency toCurrency
    let rawConverted := amount * rate
    let feeAmount := toNearestCent (rawConverted * spreadPct)
    ⟨toNearestCent (rawConverted - feeAmount), rate, feeAmount⟩

end RealtimeFxCurrencyConverter

open RealtimeFxCurrencyConverter

/-! ## One conversion -/

variable {a b : String} {spreadPct : ℚ}

theorem rate_pos (a b : String) : 0 < rate a b := by
  have htable : ∀ e ∈ rates, 0 < e.2 := by decide +kernel
  rw [rate]
  cases h : rates.lookup (a ++ "_" ++ b) with
  | none => exact one_pos
  | some r =>
    obtain ⟨pre, post, hsplit, -⟩ := List.lookup_eq_some_iff.mp h
    have hr : 0 < r := htable (a ++ "_" ++ b, r) (by rw [hsplit]; simp)
    simp only [if_neg hr.ne', hr]

/-- **What is paid out** is the amount at the rate less the spread, up to a cent. -/
theorem abs_convert_sub_le (hab : a ≠ b) (amount spreadPct : ℚ) :
    |(convert amount a b spreadPct).convertedAmount - amount * rate a b * (1 - spreadPct)| ≤
      1 / 100 := by
  rw [convert, if_neg hab]
  dsimp only
  set raw := amount * rate a b
  have hfee := abs_toNearestCent_sub_le (raw * spreadPct)
  have hpaid := abs_toNearestCent_sub_le (raw - toNearestCent (raw * spreadPct))
  rw [abs_le] at hfee hpaid ⊢
  constructor <;> linarith

/-! ## There and back again -/

/-- **No free money**: an amount that is converted and converted back grows by no more than a cent
of each of the two roundings. -/
def NoFreeMoney (a b : String) (spreadPct amount : ℚ) : Prop :=
  let back := convert (convert amount a b spreadPct).convertedAmount b a spreadPct
  back.convertedAmount ≤ amount + 1 / 100 + 1 / 100 * back.exchangeRate

/-- **The rates are fair**: the way there and back, less the two fees, does not gain. -/
def FairRates (a b : String) (spreadPct : ℚ) : Prop :=
  a = b ∨ rate a b * rate b a * (1 - spreadPct) ^ 2 ≤ 1

instance (a b : String) (spreadPct amount : ℚ) : Decidable (NoFreeMoney a b spreadPct amount) :=
  inferInstanceAs (Decidable (_ ≤ _))

instance (a b : String) (spreadPct : ℚ) : Decidable (FairRates a b spreadPct) :=
  inferInstanceAs (Decidable (_ ∨ _))

theorem noFreeMoney_self (a : String) (spreadPct : ℚ) {amount : ℚ} :
    NoFreeMoney a a spreadPct amount := by
  rw [NoFreeMoney, convert, if_pos rfl, convert, if_pos rfl]
  dsimp only
  linarith

theorem noFreeMoney_iff_of_ne (hab : a ≠ b) (amount : ℚ) :
    NoFreeMoney a b spreadPct amount ↔
      (convert (convert amount a b spreadPct).convertedAmount b a spreadPct).convertedAmount ≤
        amount + 1 / 100 + 1 / 100 * rate b a := by
  have hrate : ∀ y : ℚ, (convert y b a spreadPct).exchangeRate = rate b a := fun y => by
    rw [convert, if_neg hab.symm]
  rw [NoFreeMoney, hrate]

theorem abs_there_and_back_sub_le (hab : a ≠ b) (h₁ : spreadPct < 1) (amount : ℚ) :
    |(convert (convert amount a b spreadPct).convertedAmount b a spreadPct).convertedAmount -
      amount * (rate a b * rate b a * (1 - spreadPct) ^ 2)| ≤
        1 / 100 + 1 / 100 * (rate b a * (1 - spreadPct)) := by
  have hthere := abs_convert_sub_le hab amount spreadPct
  set y := (convert amount a b spreadPct).convertedAmount
  have hback := abs_convert_sub_le hab.symm y spreadPct
  have hfactor : 0 < rate b a * (1 - spreadPct) := mul_pos (rate_pos b a) (sub_pos.mpr h₁)
  have hscaled : |(y - amount * rate a b * (1 - spreadPct)) * (rate b a * (1 - spreadPct))| ≤
      1 / 100 * (rate b a * (1 - spreadPct)) := by
    rw [abs_mul, abs_of_pos hfactor]
    exact mul_le_mul_of_nonneg_right hthere hfactor.le
  calc _ = |((convert y b a spreadPct).convertedAmount - y * rate b a * (1 - spreadPct)) +
        (y - amount * rate a b * (1 - spreadPct)) * (rate b a * (1 - spreadPct))| := by ring_nf
    _ ≤ _ := (abs_add_le _ _).trans (add_le_add hback hscaled)

theorem noFreeMoney_of_fairRates (h₀ : 0 ≤ spreadPct) (h₁ : spreadPct < 1)
    (hfair : FairRates a b spreadPct) {amount : ℚ} (hamount : 0 ≤ amount) :
    NoFreeMoney a b spreadPct amount := by
  by_cases hab : a = b
  · subst hab
    exact noFreeMoney_self a spreadPct
  · have hgain := mul_le_mul_of_nonneg_left (hfair.resolve_left hab) hamount
    have hbound := (abs_le.mp (abs_there_and_back_sub_le hab h₁ amount)).2
    have hfee : rate b a * (1 - spreadPct) ≤ rate b a :=
      mul_le_of_le_one_right (rate_pos b a).le (by linarith)
    rw [noFreeMoney_iff_of_ne hab]
    linarith

theorem exists_freeMoney (h₀ : 0 ≤ spreadPct) (h₁ : spreadPct < 1)
    (hfair : ¬ FairRates a b spreadPct) :
    ∃ N : ℕ, ∀ cents ≥ N, ¬ NoFreeMoney a b spreadPct (inCents (cents : ℕ)) := by
  obtain ⟨hab, hgain⟩ := not_or.mp hfair
  rw [not_le] at hgain
  set gain := rate a b * rate b a * (1 - spreadPct) ^ 2
  obtain ⟨N, hN⟩ := exists_nat_gt ((2 + 2 * rate b a) / (gain - 1))
  refine ⟨N, fun cents hcents => ?_⟩
  rw [noFreeMoney_iff_of_ne hab, not_le]
  have hbound := (abs_le.mp (abs_there_and_back_sub_le hab h₁ (inCents (cents : ℕ)))).1
  have hfee : rate b a * (1 - spreadPct) ≤ rate b a :=
    mul_le_of_le_one_right (rate_pos b a).le (by linarith)
  have hlarge : 2 + 2 * rate b a < cents * (gain - 1) := by
    have hcast : (N : ℚ) ≤ cents := Nat.cast_le.mpr hcents
    exact (div_lt_iff₀ (sub_pos.mpr hgain)).mp (hN.trans_le hcast)
  have hcents' : inCents (cents : ℕ) = (cents : ℚ) / 100 := by rw [inCents, Int.cast_natCast]
  rw [hcents'] at hbound ⊢
  linarith

/-- **There is no free money, in any amount, exactly when the rates are fair**; unfair rates give
some on every amount from some size on. -/
theorem noFreeMoney_iff (a b : String) (h₀ : 0 ≤ spreadPct) (h₁ : spreadPct < 1) :
    ((∀ cents : ℕ, NoFreeMoney a b spreadPct (inCents cents)) ↔ FairRates a b spreadPct) ∧
      (¬ FairRates a b spreadPct →
        ∃ N : ℕ, ∀ cents ≥ N, ¬ NoFreeMoney a b spreadPct (inCents (cents : ℕ))) := by
  refine ⟨⟨fun h => ?_, fun hfair cents => ?_⟩, exists_freeMoney h₀ h₁⟩
  · by_contra hfair
    obtain ⟨N, hN⟩ := exists_freeMoney h₀ h₁ hfair
    exact hN N le_rfl (h N)
  · exact noFreeMoney_of_fairRates h₀ h₁ hfair (inCents_nonneg.mpr (Int.natCast_nonneg cents))

/-- A case: dollars and euros, at the spread that `convert` assumes. -/
theorem noFreeMoney_iff_euro :
    ((∀ cents : ℕ, NoFreeMoney "USD" "EUR" (5 / 1000) (inCents cents)) ↔
        FairRates "USD" "EUR" (5 / 1000)) ∧
      (¬ FairRates "USD" "EUR" (5 / 1000) →
        ∃ N : ℕ, ∀ cents ≥ N, ¬ NoFreeMoney "USD" "EUR" (5 / 1000) (inCents (cents : ℕ))) :=
  noFreeMoney_iff "USD" "EUR" (by norm_num) (by norm_num)

/-- **A gain**: Canadian dollars are bought at 1.36 and sold at 1. -/
theorem canadian_gain :
    ¬ ∀ (a b : String) (spreadPct : ℚ) (cents : ℕ), 0 ≤ spreadPct → spreadPct < 1 →
      NoFreeMoney a b spreadPct (inCents cents) := fun h =>
  absurd (h "USD" "CAD" (5 / 1000) 10000 (by norm_num) (by norm_num)) (by decide +kernel)

end Logix.Billing
