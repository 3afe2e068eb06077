import Logix.Js.Date

/-!
# Local dates

A `Date` has no time zone: `TimeZone` is that of the process, and turns the instant of a date into
local time, and local time into an instant.

* `IsDate`: the dates that there are;
* `getFullYear`, `getMonth`: the local year and month of a date; `getMonth_mem`: there are twelve
  months;
* `newDate`: `new Date(year, month, date, hours, minutes, seconds)`; **`civil_firstOfMonth`**: the
  day that it counts as the first of a month has that month and year.
-/

namespace Logix

/-- A valid date: at most a hundred million days from the epoch. -/
def IsDate (date : JsDate) : Prop := |date| ≤ 8640000000000000

instance (date : JsDate) : Decidable (IsDate date) :=
  inferInstanceAs (Decidable (|date| ≤ 8640000000000000))

/-- **The time zone of the process.** Local times are numbers of milliseconds, as in UTC. -/
structure TimeZone where
  localTime : JsDate → ℤ
  instant : ℤ → JsDate

/-- Coordinated universal time. -/
def TimeZone.utc : TimeZone := ⟨id, id⟩

/-- `date.getFullYear()`. -/
def getFullYear (tz : TimeZone) (date : JsDate) : ℤ := (civil (tz.localTime date / 86400000)).1

/-- `date.getMonth()`: January is `0`. -/
def getMonth (tz : TimeZone) (date : JsDate) : ℤ :=
  (civil (tz.localTime date / 86400000)).2.1 - 1

/-- The day count of the first of a month, from `1` on, of a year. -/
def firstOfMonth (year month : ℤ) : ℤ :=
  let y := if month ≤ 2 then year - 1 else year
  let mp := if month ≤ 2 then month + 9 else month - 3
  let yoe := y % 400
  y / 400 * 146097 + (yoe * 365 + yoe / 4 - yoe / 100) + (153 * mp + 2) / 5 - 719468

/-- `MakeDay(year, month, date)`: a month outside the year counts into the years around it, and a
date outside the month into the months around it. -/
def makeDay (year month date : ℤ) : ℤ :=
  firstOfMonth (year + month / 12) (month % 12 + 1) + (date - 1)

/-- **`new Date(year, month, date, hours, minutes, seconds)`**: the years `0` to `99` are those of
the twentieth century. -/
def newDate (tz : TimeZone) (year month date hours minutes seconds : ℤ) : Option JsDate :=
  let fullYear := if 0 ≤ year ∧ year ≤ 99 then 1900 + year else year
  let time := ((hours * 60 + minutes) * 60 + seconds) * 1000
  dateOf (tz.instant (makeDay fullYear month date * 86400000 + time))

/-! ## Twelve months -/

/-- The day of a year that starts in March is not negative, and there are at most 366 of them. The
century `k` fixes the leap days that `doe / 36524` and `yoe / 100` count. -/
theorem dayOfYear_mem {doe : ℤ} (h₀ : 0 ≤ doe) (h : doe < 146097) :
    let yoe := (doe - doe / 1460 + doe / 36524 - doe / 146096) / 365
    let doy := doe - (365 * yoe + yoe / 4 - yoe / 100)
    0 ≤ doy ∧ doy ≤ 365 := by
  intro yoe doy
  have hk : doe / 36524 = 0 ∨ doe / 36524 = 1 ∨ doe / 36524 = 2 ∨ doe / 36524 = 3 ∨
      doe / 36524 = 4 := by omega
  rcases hk with hk | hk | hk | hk | hk
  · have hyoe : yoe / 100 = 0 := by omega
    omega
  · have hyoe : yoe / 100 = 1 := by omega
    omega
  · have hyoe : yoe / 100 = 2 := by omega
    omega
  · have hyoe : yoe / 100 = 3 := by omega
    omega
  · have hyoe : yoe / 100 = 3 := by omega
    omega

theorem civil_month_mem (days : ℤ) : 1 ≤ (civil days).2.1 ∧ (civil days).2.1 ≤ 12 := by
  have hdoy := dayOfYear_mem (Int.emod_nonneg (days + 719468) (by decide : (146097 : ℤ) ≠ 0))
    (Int.emod_lt_of_pos (days + 719468) (by decide : (0 : ℤ) < 146097))
  unfold civil
  dsimp only at hdoy ⊢
  split_ifs <;> omega

/-- **There are twelve months.** -/
theorem getMonth_mem (tz : TimeZone) (date : JsDate) :
    1 ≤ getMonth tz date + 1 ∧ getMonth tz date + 1 ≤ 12 := by
  have h := civil_month_mem (tz.localTime date / 86400000)
  unfold getMonth
  omega

/-! ## The first of a month -/

/-- The year of the era, from the day of the era: the century fixes the leap days, as above. Where
the day is the last of 366, the year is one of those. -/
theorem yearOfEra_eq {yoe doy : ℤ} (h₀ : 0 ≤ yoe) (h : yoe < 400) (hd₀ : 0 ≤ doy)
    (hd : doy ≤ 364 ∨ doy = 365 ∧ yoe % 4 = 3 ∧ (yoe % 100 ≠ 99 ∨ yoe = 399)) :
    let doe := yoe * 365 + yoe / 4 - yoe / 100 + doy
    (doe - doe / 1460 + doe / 36524 - doe / 146096) / 365 = yoe := by
  intro doe
  by_cases hlast : yoe = 399 ∧ doy = 365
  · obtain ⟨rfl, rfl⟩ := hlast
    rfl
  have hlt : doe / 146096 = 0 := by omega
  have hk : yoe / 100 = 0 ∨ yoe / 100 = 1 ∨ yoe / 100 = 2 ∨ yoe / 100 = 3 := by omega
  rcases hk with hk | hk | hk | hk
  · have : doe / 36524 = 0 := by omega
    omega
  · have : doe / 36524 = 1 := by omega
    omega
  · have : doe / 36524 = 2 := by omega
    omega
  · have : doe / 36524 = 3 := by omega
    omega

theorem civil_of_day {era yoe doy : ℤ} (h₀ : 0 ≤ yoe) (h : yoe < 400) (hd₀ : 0 ≤ doy)
    (hd : doy ≤ 364 ∨ doy = 365 ∧ yoe % 4 = 3 ∧ (yoe % 100 ≠ 99 ∨ yoe = 399)) :
    civil (era * 146097 + (yoe * 365 + yoe / 4 - yoe / 100) + doy - 719468) =
      (yoe + era * 400 + (if (5 * doy + 2) / 153 < 10 then 0 else 1),
        if (5 * doy + 2) / 153 < 10 then (5 * doy + 2) / 153 + 3 else (5 * doy + 2) / 153 - 9,
        doy - (153 * ((5 * doy + 2) / 153) + 2) / 5 + 1) := by
  have hyear := yearOfEra_eq h₀ h hd₀ hd
  unfold civil
  have hdoe : 0 ≤ yoe * 365 + yoe / 4 - yoe / 100 + doy ∧
      yoe * 365 + yoe / 4 - yoe / 100 + doy < 146097 := by omega
  have hz : era * 146097 + (yoe * 365 + yoe / 4 - yoe / 100) + doy - 719468 + 719468 =
      (yoe * 365 + yoe / 4 - yoe / 100 + doy) + era * 146097 := by ring
  have hera : ((yoe * 365 + yoe / 4 - yoe / 100 + doy) + era * 146097) / 146097 = era := by omega
  have hmod : ((yoe * 365 + yoe / 4 - yoe / 100 + doy) + era * 146097) % 146097 =
      yoe * 365 + yoe / 4 - yoe / 100 + doy := by omega
  dsimp only at hyear ⊢
  rw [hz, hera, hmod, hyear]
  have hday : yoe * 365 + yoe / 4 - yoe / 100 + doy - (365 * yoe + yoe / 4 - yoe / 100) = doy := by
    ring
  rw [hday]
  by_cases hlate : (5 * doy + 2) / 153 < 10
  · rw [if_pos hlate, if_pos hlate, if_neg (by omega)]
  · rw [if_neg hlate, if_neg hlate, if_pos (by omega)]

theorem civil_of_parts {era yoe mp : ℤ} (h₀ : 0 ≤ yoe) (h : yoe < 400) (hm₀ : 0 ≤ mp)
    (hm : mp ≤ 11) :
    civil (era * 146097 + (yoe * 365 + yoe / 4 - yoe / 100) + (153 * mp + 2) / 5 - 719468) =
      (yoe + era * 400 + (if mp < 10 then 0 else 1), if mp < 10 then mp + 3 else mp - 9, 1) := by
  have hdoy : 0 ≤ (153 * mp + 2) / 5 ∧ (153 * mp + 2) / 5 ≤ 364 := by omega
  have hmp : (5 * ((153 * mp + 2) / 5) + 2) / 153 = mp := by omega
  rw [civil_of_day h₀ h hdoy.1 (Or.inl hdoy.2), hmp, sub_self, zero_add]

/-- **The first of a month** is in that month. -/
theorem civil_firstOfMonth {y m : ℤ} (h₁ : 1 ≤ m) (h₂ : m ≤ 12) :
    civil (firstOfMonth y m) = (y, m, 1) := by
  unfold firstOfMonth
  dsimp only
  rw [civil_of_parts (by omega) (by omega) (by split_ifs <;> omega) (by split_ifs <;> omega)]
  split_ifs <;> simp <;> omega

theorem dateOf_intCast (t : ℤ) : dateOf t = if IsDate t then some t else none := by
  have habs : (8640000000000000 : ℚ) < |(t : ℚ)| ↔ ¬ IsDate t := by
    unfold IsDate
    rw [not_le]
    exact_mod_cast Iff.rfl
  have hcut : (if (t : ℚ) < 0 then ⌈(t : ℚ)⌉ else ⌊(t : ℚ)⌋) = t := by
    split_ifs <;> simp
  rw [dateOf, if_congr habs rfl rfl, ite_not, hcut]

theorem newDate_first {tz : TimeZone} {year m : ℤ} (h₁ : 1 ≤ m) (h₂ : m ≤ 12)
    (hyear : ¬ (0 ≤ year ∧ year ≤ 99)) :
    newDate tz year (m - 1) 1 0 0 0 = dateOf (tz.instant (firstOfMonth year m * 86400000)) := by
  have hdiv : (m - 1) / 12 = 0 := by omega
  have hmod : (m - 1) % 12 + 1 = m := by omega
  simp [newDate, makeDay, hyear, hdiv, hmod]

/-- The last second of a leap February. -/
example : newDate .utc 2024 2 0 23 59 59 = some 1709251199000 := by decide +kernel

end Logix
