import Logix.Js.Calendar

/-!
# Months

Months are numbered through the years: January of the year 0 is 0.

* `monthStart`, `daysInMonth`: the day count of the first of a month, and the length of the month;
* `monthOf`, `dayOf`: the month of a day count, and the day of the month, from 0 on;
* **`monthStart_add_dayOf`**: these make up the day count; **`monthOf_add`**, **`dayOf_add`**: and
  are made up by no other month and day;
* `setMonth`, `setDate`: the methods of `Date`.
-/

namespace Logix

/-- The day count of the first of a month. -/
def monthStart (i : ℤ) : ℤ := firstOfMonth (i / 12) (i % 12 + 1)

/-- The length of a month. -/
def daysInMonth (i : ℤ) : ℤ := monthStart (i + 1) - monthStart i

/-- The month of a day count. -/
def monthOf (days : ℤ) : ℤ := 12 * (civil days).1 + ((civil days).2.1 - 1)

/-- The day of the month of a day count, from 0 on. -/
def dayOf (days : ℤ) : ℤ := (civil days).2.2 - 1

/-! ## Months from March on -/

/-- The days of the years before `y`, where years start on the first of March. -/
def daysBefore (y : ℤ) : ℤ := 365 * y + y / 4 - y / 100 + y / 400

theorem monthStart_eq (i : ℤ) :
    monthStart i = daysBefore ((i - 2) / 12) + (153 * ((i - 2) % 12) + 2) / 5 - 719468 := by
  rw [monthStart, firstOfMonth, daysBefore]
  split_ifs with h
  · have hy : i / 12 - 1 = (i - 2) / 12 := by omega
    have hm : i % 12 + 1 + 9 = (i - 2) % 12 := by omega
    rw [hy, hm]
    omega
  · have hy : i / 12 = (i - 2) / 12 := by omega
    have hm : i % 12 + 1 - 3 = (i - 2) % 12 := by omega
    rw [hy, hm]
    omega

theorem daysBefore_succ (y : ℤ) : daysBefore (y + 1) = daysBefore y + 365 +
    if (y + 1) % 4 = 0 ∧ ((y + 1) % 100 ≠ 0 ∨ (y + 1) % 400 = 0) then 1 else 0 := by
  rw [daysBefore, daysBefore]
  split_ifs <;> omega

theorem daysInMonth_eq (i : ℤ) : daysInMonth i =
    if (i - 2) % 12 < 11 then
      (153 * ((i - 2) % 12 + 1) + 2) / 5 - (153 * ((i - 2) % 12) + 2) / 5
    else daysBefore ((i - 2) / 12 + 1) - daysBefore ((i - 2) / 12) - 337 := by
  rw [daysInMonth, monthStart_eq, monthStart_eq]
  split_ifs with h
  · have hy : (i + 1 - 2) / 12 = (i - 2) / 12 := by omega
    have hm : (i + 1 - 2) % 12 = (i - 2) % 12 + 1 := by omega
    rw [hy, hm]
    omega
  · have hy : (i + 1 - 2) / 12 = (i - 2) / 12 + 1 := by omega
    have hm : (i + 1 - 2) % 12 = 0 := by omega
    have hm' : (i - 2) % 12 = 11 := by omega
    rw [hy, hm, hm']
    omega

theorem daysInMonth_mem (i : ℤ) : 28 ≤ daysInMonth i ∧ daysInMonth i ≤ 31 := by
  rw [daysInMonth_eq, daysBefore_succ]
  split_ifs <;> omega

/-! ## Days of a month -/

theorem daysBefore_eq (y : ℤ) : daysBefore y =
    y / 400 * 146097 + (y % 400 * 365 + y % 400 / 4 - y % 400 / 100) := by
  rw [daysBefore]
  omega

theorem dayOfYear_of_lt {i d : ℤ} (h₀ : 0 ≤ d) (h : d < daysInMonth i) :
    let doy := (153 * ((i - 2) % 12) + 2) / 5 + d
    let yoe := (i - 2) / 12 % 400
    (doy ≤ 364 ∨ doy = 365 ∧ yoe % 4 = 3 ∧ (yoe % 100 ≠ 99 ∨ yoe = 399)) ∧
      (5 * doy + 2) / 153 = (i - 2) % 12 := by
  rw [daysInMonth_eq, daysBefore_succ] at h
  intro doy yoe
  split_ifs at h with hmonth hleap
  · constructor <;> omega
  · -- the last month of a year of 366 days
    have hm : (i - 2) % 12 = 11 := by omega
    constructor <;> omega
  · have hm : (i - 2) % 12 = 11 := by omega
    constructor <;> omega

theorem civil_monthStart_add {i d : ℤ} (h₀ : 0 ≤ d) (h : d < daysInMonth i) :
    civil (monthStart i + d) = (i / 12, i % 12 + 1, d + 1) := by
  obtain ⟨hdoy, hmonth⟩ := dayOfYear_of_lt h₀ h
  have hdays : monthStart i + d = (i - 2) / 12 / 400 * 146097 + ((i - 2) / 12 % 400 * 365 +
      (i - 2) / 12 % 400 / 4 - (i - 2) / 12 % 400 / 100) + ((153 * ((i - 2) % 12) + 2) / 5 + d) -
        719468 := by
    rw [monthStart_eq, daysBefore_eq]
    ring
  rw [hdays, civil_of_day (by omega) (by omega) (by omega) hdoy, hmonth]
  split_ifs <;> simp only [Prod.mk.injEq] <;> omega

theorem monthOf_add {i d : ℤ} (h₀ : 0 ≤ d) (h : d < daysInMonth i) :
    monthOf (monthStart i + d) = i := by
  rw [monthOf, civil_monthStart_add h₀ h]
  dsimp only
  omega

theorem dayOf_add {i d : ℤ} (h₀ : 0 ≤ d) (h : d < daysInMonth i) :
    dayOf (monthStart i + d) = d := by
  rw [dayOf, civil_monthStart_add h₀ h, add_sub_cancel_right]

/-- **The month of a day count and the day of the month** make up the day count. -/
theorem monthStart_add_dayOf (days : ℤ) : monthStart (monthOf days) + dayOf days = days := by
  have hdoe₀ := Int.emod_nonneg (days + 719468) (by decide : (146097 : ℤ) ≠ 0)
  have hdoe := Int.emod_lt_of_pos (days + 719468) (by decide : (0 : ℤ) < 146097)
  have hdays := Int.mul_ediv_add_emod (days + 719468) 146097
  have hdoy := dayOfYear_mem hdoe₀ hdoe
  rw [monthStart_eq, monthOf, dayOf, civil]
  generalize (days + 719468) / 146097 = era at *
  generalize (days + 719468) % 146097 = doe at *
  dsimp only at hdoy ⊢
  have hyoe : 0 ≤ (doe - doe / 1460 + doe / 36524 - doe / 146096) / 365 ∧
      (doe - doe / 1460 + doe / 36524 - doe / 146096) / 365 < 400 := by omega
  generalize (doe - doe / 1460 + doe / 36524 - doe / 146096) / 365 = yoe at *
  generalize hday : doe - (365 * yoe + yoe / 4 - yoe / 100) = doy at *
  have hmp : 0 ≤ (5 * doy + 2) / 153 ∧ (5 * doy + 2) / 153 ≤ 11 := by omega
  generalize (5 * doy + 2) / 153 = mp at *
  have hmonth : 12 * (yoe + era * 400 + if (if mp < 10 then mp + 3 else mp - 9) ≤ 2 then 1 else 0) +
      ((if mp < 10 then mp + 3 else mp - 9) - 1) - 2 = 12 * (yoe + era * 400) + mp := by
    split_ifs <;> omega
  have hyear : (12 * (yoe + era * 400) + mp) / 12 = yoe + era * 400 := by omega
  have hrest : (12 * (yoe + era * 400) + mp) % 12 = mp := by omega
  have hera : (yoe + era * 400) / 400 = era := by omega
  have hyoe' : (yoe + era * 400) % 400 = yoe := by omega
  rw [hmonth, hyear, hrest, daysBefore_eq, hera, hyoe']
  omega

theorem dayOf_mem (days : ℤ) : 0 ≤ dayOf days ∧ dayOf days < 31 := by
  have hdoy := dayOfYear_mem (Int.emod_nonneg (days + 719468) (by decide : (146097 : ℤ) ≠ 0))
    (Int.emod_lt_of_pos (days + 719468) (by decide : (0 : ℤ) < 146097))
  rw [dayOf, civil]
  dsimp only at hdoy ⊢
  omega

theorem monthStart_mono (i j : ℤ) (h : i ≤ j) : monthStart i ≤ monthStart j := by
  induction j, h using Int.leInduction with
  | base => exact Int.le_refl _
  | succ j _ ih =>
    have hmonth := (daysInMonth_mem j).1
    rw [daysInMonth] at hmonth
    omega

/-! ## Methods of dates -/

/-- `date.getDate()`. -/
def getDate (tz : TimeZone) (date : JsDate) : ℤ := (civil (tz.localTime date / 86400000)).2.2

/-- **`date.setMonth(month)`**: the date after it. -/
def setMonth (tz : TimeZone) (date : JsDate) (month : ℤ) : Option JsDate :=
  let t := tz.localTime date
  let (year, _, day) := civil (t / 86400000)
  dateOf ((tz.instant (makeDay year month day * 86400000 + t % 86400000) : ℤ) : ℚ)

/-- **`date.setDate(day)`**: the date after it. -/
def setDate (tz : TimeZone) (date : JsDate) (day : ℤ) : Option JsDate :=
  let t := tz.localTime date
  let (year, month, _) := civil (t / 86400000)
  dateOf ((tz.instant (makeDay year (month - 1) day * 86400000 + t % 86400000) : ℤ) : ℚ)

theorem makeDay_eq (year month date : ℤ) :
    makeDay year month date = monthStart (12 * year + month) + (date - 1) := by
  have hyear : (12 * year + month) / 12 = year + month / 12 := by omega
  have hmonth : (12 * year + month) % 12 = month % 12 := by omega
  rw [makeDay, monthStart, hyear, hmonth]

/-- **Some months on**: the same day of that month, or as many days into the months after it. -/
theorem setMonth_getMonth_add (date : JsDate) (months : ℤ) :
    setMonth .utc date (getMonth .utc date + months) =
      dateOf (((monthStart (monthOf (date / 86400000) + months) + dayOf (date / 86400000)) *
        86400000 + date % 86400000 : ℤ) : ℚ) := by
  rw [setMonth, getMonth, monthOf, dayOf]
  dsimp only [TimeZone.utc, id]
  rw [makeDay_eq, ← add_assoc]

theorem setDate_getDate_add (date : JsDate) (days : ℤ) :
    setDate .utc date (getDate .utc date + days) = dateOf ((date + days * 86400000 : ℤ) : ℚ) := by
  have hdays := monthStart_add_dayOf (date / 86400000)
  have hdate := Int.mul_ediv_add_emod date 86400000
  rw [monthOf, dayOf] at hdays
  rw [setDate, getDate]
  dsimp only [TimeZone.utc, id]
  rw [makeDay_eq]
  refine congrArg (fun t : ℤ => dateOf t) ?_
  linarith

end Logix
