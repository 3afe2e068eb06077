import Logix.Js.Months
import Logix.Spec.Rollover

/-!
# Subscriptions

The next date of a monthly subscription is the same day of the next month, and where that month is
too short, a day of the month after it: that month is skipped, and the day is lost.

* `RecurringOrderSubscriptionEngine.calculateNextExecutionDate`: the code; `executionDate`: the
  dates that follow a start date;
* `BillsEveryMonth`: after `n` periods the date is in the month that counts;
* `placeOf`: a date as a month with a day; **`iterate_monthsLater`**: the dates advance on the line
  of the months, up to the last date that there is;
* **`billsEveryMonth_iff`**: the month is the one that counts exactly when the months on the way
  have the day of the start, and the date is not too late for a `Date`.
-/

namespace Logix.Order

open Spec

/-- `frequency`. -/
inductive SubscriptionFrequency where
  | WEEKLY | BI_WEEKLY | MONTHLY | QUARTERLY
  deriving DecidableEq, Repr

namespace RecurringOrderSubscriptionEngine

/-- **`calculateNextExecutionDate(currentDate, frequency)`.** An invalid date stays one. -/
def calculateNextExecutionDate (tz : TimeZone) (currentDate : Option JsDate)
    (frequency : SubscriptionFrequency) : Option JsDate :=
  match currentDate with
  | none => none
  | some next =>
    match frequency with
    | .WEEKLY => setDate tz next (getDate tz next + 7)
    | .BI_WEEKLY => setDate tz next (getDate tz next + 14)
    | .MONTHLY => setMonth tz next (getMonth tz next + 1)
    | .QUARTERLY => setMonth tz next (getMonth tz next + 3)

end RecurringOrderSubscriptionEngine

open RecurringOrderSubscriptionEngine

/-- The date after `n` periods. -/
def executionDate (frequency : SubscriptionFrequency) (start : JsDate) (n : ℕ) : Option JsDate :=
  (calculateNextExecutionDate .utc · frequency)^[n] (some start)

theorem calculateNextExecutionDate_weeks (date : JsDate) :
    calculateNextExecutionDate .utc (some date) .WEEKLY =
        dateOf ((date + 7 * 86400000 : ℤ) : ℚ) ∧
      calculateNextExecutionDate .utc (some date) .BI_WEEKLY =
        dateOf ((date + 14 * 86400000 : ℤ) : ℚ) :=
  ⟨setDate_getDate_add date 7, setDate_getDate_add date 14⟩

/-- The calendar month of a date, counted through the years. -/
def calendarMonth (date : JsDate) : ℤ := 12 * getFullYear .utc date + getMonth .utc date

/-- **After `n` periods the date is in the month that counts.** -/
def BillsEveryMonth (frequency : SubscriptionFrequency) (months : ℤ) (start : JsDate) (n : ℕ) :
    Prop :=
  ∃ date, executionDate frequency start n = some date ∧
    calendarMonth date = calendarMonth start + months * n

/-- **The months on the way have the day of the start**, and the day in the last of them is one that
there is a `Date` for. -/
structure HasDay (months : ℤ) (start : JsDate) (n : ℕ) : Prop where
  long_enough : ∀ k : ℕ, 1 ≤ k → k ≤ n →
    getDate .utc start ≤ daysInMonth (calendarMonth start + months * k)
  isDate : IsDate ((monthStart (calendarMonth start + months * n) + (getDate .utc start - 1)) *
    86400000 + start % 86400000)

/-! ## Dates on the line of the months -/

/-- The month and the day of a date. -/
def placeOf (date : JsDate) : ℤ × ℤ := (monthOf (date / 86400000), dayOf (date / 86400000))

/-- The date of a month and a day, at the time of day of `start`. -/
def dateAt (start : JsDate) (p : ℤ × ℤ) : ℤ := position monthStart p * 86400000 + start % 86400000

section Place

variable {start date : JsDate} {months : ℤ} {p : ℤ × ℤ}

theorem blockLength_monthStart (i : ℤ) : blockLength monthStart i = daysInMonth i := rfl

theorem dateAt_placeOf (date : JsDate) : dateAt date (placeOf date) = date := by
  have hdays := monthStart_add_dayOf (date / 86400000)
  have hdate := Int.mul_ediv_add_emod date 86400000
  rw [dateAt, position, placeOf]
  dsimp only
  rw [hdays]
  linarith

theorem placeOf_dateAt (h₀ : 0 ≤ p.2) (h : p.2 < daysInMonth p.1) :
    placeOf (dateAt start p) = p := by
  have hrest₀ := Int.emod_nonneg start (by decide : (86400000 : ℤ) ≠ 0)
  have hrest := Int.emod_lt_of_pos start (by decide : (0 : ℤ) < 86400000)
  have hdays : dateAt start p / 86400000 = monthStart p.1 + p.2 := by
    rw [dateAt, position]
    omega
  rw [placeOf, hdays, monthOf_add h₀ h, dayOf_add h₀ h]

theorem emod_dateAt (start : JsDate) (p : ℤ × ℤ) :
    dateAt start p % 86400000 = start % 86400000 := by
  rw [dateAt]
  omega

theorem dateAt_dateAt (start : JsDate) (p q : ℤ × ℤ) :
    dateAt (dateAt start p) q = dateAt start q := by
  rw [dateAt, emod_dateAt, ← dateAt]

theorem setMonth_eq_advance (date : JsDate) (months : ℤ) :
    setMonth .utc date (getMonth .utc date + months) =
      dateOf (dateAt date (advance monthStart months (placeOf date)) : ℤ) := by
  rw [setMonth_getMonth_add, dateAt, position_advance, placeOf]

end Place

/-! ## Runs -/

/-- The date some months later. -/
def monthsLater (months : ℤ) (date : Option JsDate) : Option JsDate :=
  date.bind fun d => setMonth .utc d (getMonth .utc d + months)

theorem executionDate_eq (frequency : SubscriptionFrequency) (months : ℤ)
    (h : ∀ date, calculateNextExecutionDate .utc (some date) frequency =
      setMonth .utc date (getMonth .utc date + months)) (start : JsDate) (n : ℕ) :
    executionDate frequency start n = (monthsLater months)^[n] (some start) := by
  have hstep : (calculateNextExecutionDate .utc · frequency) = monthsLater months := by
    funext date
    cases date with
    | none => rfl
    | some date => exact h date
  rw [executionDate, hstep]

/-- The place of the date after `n` periods. -/
def placeAfter (months : ℤ) (start : JsDate) (n : ℕ) : ℤ × ℤ :=
  (advance monthStart months)^[n] (placeOf start)

section Runs

variable {start : JsDate} {months : ℤ}

theorem placeAfter_succ (months : ℤ) (start : JsDate) (n : ℕ) :
    placeAfter months start (n + 1) = advance monthStart months (placeAfter months start n) :=
  Function.iterate_succ_apply' _ n _

theorem placeOf_placeAfter (months : ℤ) (start : JsDate) (n : ℕ) :
    placeOf (dateAt start (placeAfter months start n)) = placeAfter months start n := by
  induction n with
  | zero =>
    rw [placeAfter, Function.iterate_zero_apply, dateAt_placeOf]
  | succ n ih =>
    obtain ⟨h₀, h⟩ : 0 ≤ (placeAfter months start n).2 ∧ (placeAfter months start n).2 < 31 := by
      rw [← ih]
      exact dayOf_mem _
    obtain ⟨hn₀, hn⟩ := advance_mem (s := months) (fun i => (daysInMonth_mem i).1) h₀ (by omega)
    rw [placeAfter_succ]
    exact placeOf_dateAt hn₀ hn

theorem dateAt_placeAfter_le (hmonths : 0 ≤ months) (start : JsDate) (n : ℕ) :
    dateAt start (placeAfter months start n) ≤ dateAt start (placeAfter months start (n + 1)) := by
  have h := position_le_advance monthStart_mono hmonths (placeAfter months start n)
  rw [placeAfter_succ, dateAt, dateAt]
  omega

theorem le_dateAt_placeAfter (hmonths : 0 ≤ months) (start : JsDate) (n : ℕ) :
    start ≤ dateAt start (placeAfter months start n) := by
  induction n with
  | zero =>
    rw [placeAfter, Function.iterate_zero_apply, dateAt_placeOf]
  | succ n ih => exact ih.trans (dateAt_placeAfter_le hmonths start n)

/-- **The dates advance on the line of the months**, up to the last date that there is. -/
theorem iterate_monthsLater (hmonths : 0 ≤ months) (hstart : IsDate start) (n : ℕ) :
    (monthsLater months)^[n] (some start) =
      if IsDate (dateAt start (placeAfter months start n)) then
        some (dateAt start (placeAfter months start n))
      else none := by
  induction n with
  | zero =>
    rw [placeAfter, Function.iterate_zero_apply, Function.iterate_zero_apply, dateAt_placeOf,
      if_pos hstart]
  | succ n ih =>
    rw [Function.iterate_succ_apply', ih]
    split_ifs with hnow hnext hnext
    · rw [monthsLater, Option.bind_some, setMonth_eq_advance, placeOf_placeAfter, dateAt_dateAt,
        ← placeAfter_succ, dateOf_intCast, if_pos hnext]
    · rw [monthsLater, Option.bind_some, setMonth_eq_advance, placeOf_placeAfter, dateAt_dateAt,
        ← placeAfter_succ, dateOf_intCast, if_neg hnext]
    · -- behind an invalid date there is no valid one
      have hle := le_dateAt_placeAfter hmonths start n
      have hle' := dateAt_placeAfter_le hmonths start n
      rw [IsDate, abs_le] at hstart hnext
      rw [IsDate, abs_le] at hnow
      exact absurd ⟨hstart.1.trans hle, hle'.trans hnext.2⟩ hnow
    · rfl

theorem calendarMonth_eq (date : JsDate) : calendarMonth date = (placeOf date).1 := rfl

theorem getDate_eq (date : JsDate) : getDate .utc date = (placeOf date).2 + 1 :=
  (sub_add_cancel _ _).symm

theorem fits_placeOf_iff (months : ℤ) (start : JsDate) (n : ℕ) :
    Fits monthStart months (placeOf start) n ↔ ∀ k : ℕ, 1 ≤ k → k ≤ n →
      getDate .utc start ≤ daysInMonth (calendarMonth start + months * k) := by
  refine forall_congr' fun k => forall₂_congr fun _ _ => ?_
  rw [getDate_eq, calendarMonth_eq, blockLength_monthStart]
  exact Int.add_one_le_iff.symm

theorem dateAt_placeAfter_of_fits {n : ℕ} (h : Fits monthStart months (placeOf start) n) :
    dateAt start (placeAfter months start n) =
      (monthStart (calendarMonth start + months * n) + (getDate .utc start - 1)) * 86400000 +
        start % 86400000 := by
  have hday := (dayOf_mem (start / 86400000)).2
  rcases iterate_advance (s := months) (p := placeOf start) (fun i => (daysInMonth_mem i).1)
    (hday.trans (by decide)) n with ⟨-, hplace⟩ | ⟨hnot, -⟩
  · rw [placeAfter, hplace, dateAt, position, getDate_eq, add_sub_cancel_right, calendarMonth_eq]
  · exact absurd h hnot

/-- **The month is the one that counts exactly when** the months on the way have the day of the
start. -/
theorem exists_iterate_monthsLater_iff (hmonths : 0 ≤ months) (hstart : IsDate start) (n : ℕ) :
    (∃ date, (monthsLater months)^[n] (some start) = some date ∧
      calendarMonth date = calendarMonth start + months * n) ↔ HasDay months start n := by
  have hday := (dayOf_mem (start / 86400000)).2
  have hmonth : (placeAfter months start n).1 = calendarMonth start + months * n ↔
      Fits monthStart months (placeOf start) n :=
    iterate_advance_fst_iff (fun i => (daysInMonth_mem i).1) (hday.trans (by decide)) n
  rw [iterate_monthsLater hmonths hstart]
  constructor
  · rintro ⟨date, hdate, hcounts⟩
    split_ifs at hdate with hvalid
    obtain rfl := Option.some.inj hdate
    rw [calendarMonth_eq, placeOf_placeAfter] at hcounts
    have hfits := hmonth.mp hcounts
    exact ⟨(fits_placeOf_iff months start n).mp hfits, dateAt_placeAfter_of_fits hfits ▸ hvalid⟩
  · rintro ⟨hlong, hvalid⟩
    have hfits := (fits_placeOf_iff months start n).mpr hlong
    rw [← dateAt_placeAfter_of_fits hfits] at hvalid
    refine ⟨_, if_pos hvalid, ?_⟩
    rw [calendarMonth_eq, placeOf_placeAfter]
    exact hmonth.mpr hfits

/-- **A subscription bills in the months that count exactly when** the months on the way have the
day of the start: each of the next `n` months, or each third one. -/
theorem billsEveryMonth_iff (start : JsDate) (hstart : IsDate start) (n : ℕ) :
    (BillsEveryMonth .MONTHLY 1 start n ↔ HasDay 1 start n) ∧
      (BillsEveryMonth .QUARTERLY 3 start n ↔ HasDay 3 start n) := by
  rw [BillsEveryMonth, BillsEveryMonth, executionDate_eq .MONTHLY 1 fun _ => rfl,
    executionDate_eq .QUARTERLY 3 fun _ => rfl]
  exact ⟨exists_iterate_monthsLater_iff (by decide) hstart n,
    exists_iterate_monthsLater_iff (by decide) hstart n⟩

end Runs

/-- 2023-01-31, at midnight. -/
def endOfJanuary : JsDate := 1675123200000

example : toISOString endOfJanuary = js "2023-01-31T00:00:00.000Z" := by decide

/-- A case: the month after January. -/
theorem billsEveryMonth_iff_endOfJanuary :
    (BillsEveryMonth .MONTHLY 1 endOfJanuary 1 ↔ HasDay 1 endOfJanuary 1) ∧
      (BillsEveryMonth .QUARTERLY 3 endOfJanuary 1 ↔ HasDay 3 endOfJanuary 1) :=
  billsEveryMonth_iff endOfJanuary (by decide +kernel) 1

/-- **From January to March**: the date after 2023-01-31 is 2023-03-03. -/
theorem february_skipped : ¬ ∀ start : JsDate, IsDate start → ∀ n : ℕ, 1 ≤ n →
    BillsEveryMonth .MONTHLY 1 start n ∧ BillsEveryMonth .QUARTERLY 3 start n := fun h => by
  obtain ⟨date, hdate, hmonth⟩ := (h endOfJanuary (by decide +kernel) 1 le_rfl).1
  have hmarch : executionDate .MONTHLY endOfJanuary 1 = some 1677801600000 := by decide +kernel
  obtain rfl := Option.some.inj (hmarch.symm.trans hdate)
  exact absurd hmonth (by decide +kernel)

end Logix.Order
