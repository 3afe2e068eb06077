import Mathlib.Algebra.BigOperators.Group.List.Basic
import Mathlib.Algebra.Order.Ring.Nat

/-!
# Bounded retries

An item is attempted until an attempt succeeds or `limit` attempts have failed.

* `Retried ok limit as v`: after the attempts `as` the item has verdict `v`, where `ok` tells the
  attempts that succeed;
* `Retried.length_le`, `Retried.givenUp_iff`, `Retried.done_iff`: the attempts that an item of that
  verdict has had;
* `forall_modify`, `sum_map_modify`: the mutation of one item of a pool.
-/

namespace Logix.Spec

/-- The verdict on an item. -/
inductive Verdict where
  | waiting | done | givenUp
  deriving DecidableEq, Repr

/-- **The attempts on an item.** Only a waiting item is attempted. -/
inductive Retried {α : Type} (ok : α → Prop) (limit : ℕ) : List α → Verdict → Prop
  | start : Retried ok limit [] .waiting
  | succeed {as : List α} {a : α} (h : Retried ok limit as .waiting) (ha : ok a) :
      Retried ok limit (as ++ [a]) .done
  | fail {as : List α} {a : α} (h : Retried ok limit as .waiting) (ha : ¬ ok a)
      (hlt : as.length + 1 < limit) : Retried ok limit (as ++ [a]) .waiting
  | giveUp {as : List α} {a : α} (h : Retried ok limit as .waiting) (ha : ¬ ok a)
      (hle : limit ≤ as.length + 1) : Retried ok limit (as ++ [a]) .givenUp

section Attempts

variable {α : Type} {ok : α → Prop} {limit : ℕ} {as : List α} {v : Verdict}

/-- **A waiting item** has failed less than `limit` times, and never succeeded. -/
theorem Retried.of_waiting (hpos : 0 < limit) (h : Retried ok limit as .waiting) :
    (∀ a ∈ as, ¬ ok a) ∧ as.length < limit := by
  generalize hv : Verdict.waiting = v at h
  induction h with
  | start => exact ⟨fun a ha => absurd ha List.not_mem_nil, hpos⟩
  | succeed => cases hv
  | giveUp => cases hv
  | fail h ha hlt ih =>
    refine ⟨fun b hb => ?_, by rw [List.length_append]; exact hlt⟩
    rcases List.mem_append.mp hb with hb | hb
    · exact (ih rfl).1 b hb
    · rw [List.mem_singleton.mp hb]
      exact ha

theorem Retried.of_givenUp (hpos : 0 < limit) (h : Retried ok limit as .givenUp) :
    (∀ a ∈ as, ¬ ok a) ∧ as.length = limit := by
  cases h with
  | giveUp h ha hle =>
    obtain ⟨hfail, hlt⟩ := h.of_waiting hpos
    refine ⟨fun b hb => ?_, by rw [List.length_append, List.length_singleton]; omega⟩
    rcases List.mem_append.mp hb with hb | hb
    · exact hfail b hb
    · rw [List.mem_singleton.mp hb]
      exact ha

/-- **At most `limit` attempts.** -/
theorem Retried.length_le (hpos : 0 < limit) (h : Retried ok limit as v) : as.length ≤ limit := by
  cases h with
  | start => exact Nat.zero_le _
  | succeed h ha => rw [List.length_append]; exact (h.of_waiting hpos).2
  | fail h ha hlt => rw [List.length_append]; exact (h.of_waiting hpos).2
  | giveUp h ha hle => rw [List.length_append]; exact (h.of_waiting hpos).2

/-- **Done exactly when the last attempt succeeded.** -/
theorem Retried.done_iff (h : Retried ok limit as v) :
    v = .done ↔ ∃ a ∈ as.getLast?, ok a := by
  cases h <;> simp [*]

variable [DecidablePred ok]

theorem countP_eq_length_of_failed (h : ∀ a ∈ as, ¬ ok a) :
    as.countP (fun a => ¬ ok a) = as.length :=
  List.countP_eq_length.mpr fun a ha => decide_eq_true (h a ha)

/-- **Given up exactly after `limit` failures.** -/
theorem Retried.givenUp_iff (hpos : 0 < limit) (h : Retried ok limit as v) :
    v = .givenUp ↔ as.countP (fun a => ¬ ok a) = limit := by
  cases v with
  | waiting =>
    obtain ⟨hfail, hlt⟩ := h.of_waiting hpos
    rw [countP_eq_length_of_failed hfail]
    exact iff_of_false (by decide) hlt.ne
  | givenUp =>
    obtain ⟨hfail, hlen⟩ := h.of_givenUp hpos
    rw [countP_eq_length_of_failed hfail]
    exact iff_of_true rfl hlen
  | done =>
    cases h with
    | succeed h ha =>
      obtain ⟨hfail, hlt⟩ := h.of_waiting hpos
      rw [List.countP_append, countP_eq_length_of_failed hfail,
        List.countP_eq_zero.mpr (by simpa using ha)]
      exact iff_of_false (by decide) hlt.ne

end Attempts

/-! ## A pool of items -/

section Pool

variable {α : Type} {l : List α} {m : ℕ} {a : α}

/-- A property of every item, when one of them is mutated. -/
theorem forall_modify {p : ℕ → α → Prop} {f : α → α} (h : l[m]? = some a)
    (hne : ∀ n b, n ≠ m → l[n]? = some b → p n b) (hself : p m (f a)) :
    ∀ n b, (l.modify m f)[n]? = some b → p n b := by
  intro n b hb
  by_cases hn : n = m
  · subst hn
    rw [List.getElem?_modify_eq, h] at hb
    cases hb
    exact hself
  · rw [List.getElem?_modify_ne _ _ (Ne.symm hn)] at hb
    exact hne n b hn hb

/-- **One item of a sum.** -/
theorem sum_map_modify (g : α → ℕ) (f : α → α) (h : l[m]? = some a) :
    ((l.modify m f).map g).sum + g a = (l.map g).sum + g (f a) := by
  induction l generalizing m with
  | nil => cases h
  | cons b l ih =>
    cases m with
    | zero =>
      cases h
      simp only [List.modify_zero_cons, List.map_cons, List.sum_cons]
      omega
    | succ m =>
      have := ih (m := m) (by simpa using h)
      simp only [List.modify_succ_cons, List.map_cons, List.sum_cons]
      omega

end Pool

end Logix.Spec
