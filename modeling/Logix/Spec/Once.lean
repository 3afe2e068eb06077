import Mathlib.Data.List.Count
import Mathlib.Data.Nat.Notation

/-!
# Logs of numbered entries

`OnceUpTo log a n`: of the entries of `a`, the log holds the first `n`, once each. The next entry
extends it (`OnceUpTo.next`), an entry of something else does not touch it (`onceUpTo_append_ne`).
-/

namespace Logix.Spec

variable {α : Type} [DecidableEq α] {log : List (α × ℕ)} {a b : α} {n i : ℕ}

/-- The log has the entries `0, …, n - 1` of `a` once each, and no other entry of `a`. -/
def OnceUpTo (log : List (α × ℕ)) (a : α) (n : ℕ) : Prop :=
  ∀ i, log.count (a, i) = if i < n then 1 else 0

theorem onceUpTo_zero (h : ∀ e ∈ log, e.1 ≠ a) : OnceUpTo log a 0 := by
  intro i
  rw [if_neg (Nat.not_lt_zero i)]
  exact List.count_eq_zero.mpr fun hmem => h _ hmem rfl

/-- **The next entry.** -/
theorem OnceUpTo.next (h : OnceUpTo log a n) : OnceUpTo (log ++ [(a, n)]) a (n + 1) := by
  intro i
  rw [List.count_append, h i, List.count_singleton]
  by_cases hi : i = n
  · subst hi
    simp
  · have hlt : i < n + 1 ↔ i < n := by omega
    have hne : ¬ n = i := fun h => hi h.symm
    simp [hlt, hne]

theorem onceUpTo_append_ne (hne : a ≠ b) :
    OnceUpTo (log ++ [(b, i)]) a n ↔ OnceUpTo log a n := by
  unfold OnceUpTo
  simp [List.count_append, hne.symm]

end Logix.Spec
