import Mathlib.Data.Nat.Init

/-!
# Numerals

The numerals of formulas that are written for any field: under `open scoped Numerals` they rest on
one fact each, wherever the formula stands.
-/

namespace Logix.Numerals

scoped instance two : Nat.AtLeastTwo 2 := ⟨Nat.le_refl 2⟩

scoped instance ten : Nat.AtLeastTwo 10 := ⟨by decide⟩

scoped instance hundred : Nat.AtLeastTwo 100 := ⟨by decide⟩

scoped instance straightAngle : Nat.AtLeastTwo 180 := ⟨by decide⟩

scoped instance thousand : Nat.AtLeastTwo 1000 := ⟨by decide⟩

end Logix.Numerals
