import Logix.Js.Text
import Mathlib.Algebra.Order.Floor.Ring
import Mathlib.Data.Rat.Floor

/-!
# Dates

A `Date` is its number of milliseconds since 1970-01-01T00:00:00Z. A date that is computed from a
number may be invalid, and compares as `NaN` then: `Option JsDate`, with `none` for Invalid Date.

* `civil`: the calendar date of a day count (proleptic Gregorian);
* `toISOString`: `date.toISOString()`;
* `dateOf`: `new Date(t)`;
* `dateLt`, `dateLe`: `a < b` and `a <= b`.
-/

namespace Logix

/-- `Date`: milliseconds since the epoch. -/
abbrev JsDate := ℤ

/-- Year, month and day of a day count from 1970-01-01. Years start on the first of March here,
and come in eras of 400 years. -/
def civil (days : ℤ) : ℤ × ℤ × ℤ :=
  let z := days + 719468
  let era := z / 146097
  let doe := z % 146097
  let yoe := (doe - doe / 1460 + doe / 36524 - doe / 146096) / 365
  let doy := doe - (365 * yoe + yoe / 4 - yoe / 100)
  let mp := (5 * doy + 2) / 153
  let month := if mp < 10 then mp + 3 else mp - 9
  (yoe + era * 400 + (if month ≤ 2 then 1 else 0), month, doy - (153 * mp + 2) / 5 + 1)

/-- A non-negative number with at least `width` decimal digits. -/
def decimal (width : ℕ) (n : ℤ) : JsString :=
  let ds := toBase 10 n.toNat
  List.replicate (width - ds.length) (digitUnit 0) ++ ds

/-- The year: four digits, or a sign and six. -/
def isoYear (y : ℤ) : JsString :=
  if 0 ≤ y ∧ y ≤ 9999 then decimal 4 y
  else if 0 ≤ y then js "+" ++ decimal 6 y
  else js "-" ++ decimal 6 (-y)

/-- `date.toISOString()`. -/
def toISOString (date : JsDate) : JsString :=
  let (y, m, d) := civil (date / 86400000)
  let ms := date % 86400000
  isoYear y ++ js "-" ++ decimal 2 m ++ js "-" ++ decimal 2 d ++ js "T" ++
    decimal 2 (ms / 3600000) ++ js ":" ++ decimal 2 (ms / 60000 % 60) ++ js ":" ++
    decimal 2 (ms / 1000 % 60) ++ js "." ++ decimal 3 (ms % 1000) ++ js "Z"

example : toISOString 951827696789 = js "2000-02-29T12:34:56.789Z" := by decide

/-! ## Dates from numbers -/

/-- **`new Date(t)`**: whole milliseconds, cut towards zero, at most a hundred million days from the
epoch. -/
def dateOf (t : ℚ) : Option JsDate :=
  if 8640000000000000 < |t| then none else some (if t < 0 then ⌈t⌉ else ⌊t⌋)

/-- `a < b`. -/
def dateLt : Option JsDate → Option JsDate → Bool
  | some a, some b => decide (a < b)
  | _, _ => false

/-- `a <= b`. -/
def dateLe : Option JsDate → Option JsDate → Bool
  | some a, some b => decide (a ≤ b)
  | _, _ => false

theorem dateLt_iff {a b : Option JsDate} :
    dateLt a b = true ↔ ∃ x y, a = some x ∧ b = some y ∧ x < y := by
  cases a <;> cases b <;> simp [dateLt]

theorem dateLe_iff {a b : Option JsDate} :
    dateLe a b = true ↔ ∃ x y, a = some x ∧ b = some y ∧ x ≤ y := by
  cases a <;> cases b <;> simp [dateLe]

end Logix
