import Mathlib.Data.Rat.Defs

/-!
# Numbers with `NaN` and the infinities

`JsNumber` is a number that may have no finite value.

* `divide`: `a / b` of two finite numbers;
* `JsNumber.lt`: `a < b`, and `NaN` compares with nothing;
* `JsNumber.orElse`: `a || b`.
-/

namespace Logix

/-- **A number**: finite, infinite or `NaN`. -/
inductive JsNumber where
  | num (x : ℚ)
  | infinity (negative : Bool)
  | nan
  deriving DecidableEq, Repr

/-- `a / b`: `NaN` for zero over zero, infinite for anything else over zero. -/
def divide (a b : ℚ) : JsNumber :=
  if b ≠ 0 then .num (a / b) else if a = 0 then .nan else .infinity (a < 0)

namespace JsNumber

/-- **`a < b`.** -/
def lt : JsNumber → JsNumber → Bool
  | .num x, .num y => decide (x < y)
  | .num _, .infinity negative => !negative
  | .infinity negative, .num _ => negative
  | .infinity negative, .infinity negative' => negative && !negative'
  | .nan, _ => false
  | _, .nan => false

/-- **`a || b`**: zero and `NaN` are replaced. -/
def orElse : JsNumber → JsNumber → JsNumber
  | .num x, b => if x = 0 then b else .num x
  | .infinity negative, _ => .infinity negative
  | .nan, b => b

end JsNumber

end Logix
