import Mathlib.Algebra.Order.Archimedean.Basic
import Mathlib.Tactic.Linarith

/-!
# Local search

A loop replaces a state by a better one, until a round finds none or the loop may not go on.

* `improveLoop`: the loop, with a bound on its tests;
* `improveLoop_invariant`: what every improvement keeps;
* **`improveLoop_stopped`**: a loop that stopped while it might have gone on cannot improve;
* **`exists_improveLoop`**: it ends, with no bound on its rounds, when every improvement lowers a
  cost that is not negative by a fixed amount.
-/

namespace Logix.Spec

variable {σ : Type}

/-- Where a loop stopped, and after how many rounds. -/
structure Stopped (σ : Type) where
  state : σ
  iterations : ℕ

variable (improve : σ → Option σ) (mayGoOn : ℕ → Bool)

/-- **The loop** `while (improved && mayGoOn(iterations))`; `none` when `fuel` tests do not
suffice. -/
def improveLoop : ℕ → ℕ → Bool → σ → Option (Stopped σ)
  | 0, _, _, _ => none
  | fuel + 1, iterations, improved, s =>
    if improved && mayGoOn iterations then
      match improve s with
      | some t => improveLoop fuel (iterations + 1) true t
      | none => improveLoop fuel (iterations + 1) false s
    else some ⟨s, iterations⟩

variable {improve mayGoOn} {s : σ} {fuel iterations : ℕ} {improved : Bool} {e : Stopped σ}

theorem improveLoop_invariant {I : σ → Prop} (hI : ∀ s t, I s → improve s = some t → I t)
    (hs : I s) (h : improveLoop improve mayGoOn fuel iterations improved s = some e) :
    I e.state := by
  induction fuel generalizing iterations improved s with
  | zero => cases h
  | succ fuel ih =>
    rw [improveLoop] at h
    split_ifs at h with hgo
    · cases himp : improve s with
      | some t =>
        rw [himp] at h
        exact ih (hI s t hs himp) h
      | none =>
        rw [himp] at h
        exact ih hs h
    · exact Option.some.inj h ▸ hs

/-- **A loop that might have gone on has found nothing better.** -/
theorem improveLoop_stopped (hlast : improved = false → improve s = none)
    (h : improveLoop improve mayGoOn fuel iterations improved s = some e)
    (hgo : mayGoOn e.iterations = true) : improve e.state = none := by
  induction fuel generalizing iterations improved s with
  | zero => cases h
  | succ fuel ih =>
    rw [improveLoop] at h
    split_ifs at h with htest
    · cases himp : improve s with
      | some t =>
        rw [himp] at h
        exact ih (fun hfalse => absurd hfalse.symm Bool.false_ne_true) h
      | none =>
        rw [himp] at h
        exact ih (fun _ => himp) h
    · obtain rfl := Option.some.inj h
      rw [Bool.and_eq_true, not_and] at htest
      exact hlast (Bool.eq_false_iff.mpr fun himproved => htest himproved hgo)

theorem improveLoop_mono {fuel' : ℕ} (hle : fuel ≤ fuel')
    (h : improveLoop improve mayGoOn fuel iterations improved s = some e) :
    improveLoop improve mayGoOn fuel' iterations improved s = some e := by
  induction fuel generalizing fuel' iterations improved s with
  | zero => cases h
  | succ fuel ih =>
    obtain ⟨fuel', rfl⟩ := Nat.exists_eq_add_of_lt hle
    rw [improveLoop] at h ⊢
    split_ifs at h ⊢ with hgo
    · cases himp : improve s with
      | some t =>
        rw [himp] at h
        exact ih (Nat.le_add_right _ _) h
      | none =>
        rw [himp] at h
        exact ih (Nat.le_add_right _ _) h
    · exact h

theorem improveLoop_unique {fuel' : ℕ} {e' : Stopped σ}
    (h : improveLoop improve mayGoOn fuel iterations improved s = some e)
    (h' : improveLoop improve mayGoOn fuel' iterations improved s = some e') : e = e' :=
  Option.some.inj ((improveLoop_mono (Nat.le_add_right fuel fuel') h).symm.trans
    (improveLoop_mono (Nat.le_add_left fuel' fuel) h'))

section Ends

variable {K : Type} [Field K] [LinearOrder K] [IsStrictOrderedRing K] {I : σ → Prop}
  {cost : σ → K} {ε : K}

theorem exists_improveLoop_of_lt (hI : ∀ s t, I s → improve s = some t → I t)
    (hpos : ∀ s, I s → 0 ≤ cost s)
    (hgain : ∀ s t, I s → improve s = some t → cost t + ε ≤ cost s) (hs : I s)
    (hfuel : cost s < fuel * ε) :
    ∃ e, improveLoop improve mayGoOn (fuel + 1) iterations improved s = some e := by
  induction fuel generalizing iterations improved s with
  | zero =>
    rw [Nat.cast_zero, zero_mul] at hfuel
    exact absurd hfuel (not_lt.mpr (hpos s hs))
  | succ fuel ih =>
    rw [improveLoop]
    split_ifs with hgo
    · cases himp : improve s with
      | some t =>
        refine ih (hI s t hs himp) ?_
        have := hgain s t hs himp
        push_cast at hfuel
        linarith
      | none =>
        -- the next test fails, as nothing was improved
        refine ⟨⟨s, iterations + 1⟩, ?_⟩
        simp only
        rw [improveLoop, Bool.false_and, if_neg Bool.false_ne_true]
    · exact ⟨_, rfl⟩

/-- **The loop ends**: from some number of tests on its result is the same. -/
theorem exists_improveLoop [Archimedean K] (hI : ∀ s t, I s → improve s = some t → I t)
    (hpos : ∀ s, I s → 0 ≤ cost s) (hε : 0 < ε)
    (hgain : ∀ s t, I s → improve s = some t → cost t + ε ≤ cost s) (hs : I s) :
    ∃ N e, ∀ fuel ≥ N, improveLoop improve mayGoOn fuel iterations improved s = some e := by
  obtain ⟨n, hn⟩ := exists_nat_gt (cost s / ε)
  obtain ⟨e, he⟩ : ∃ e, improveLoop improve mayGoOn (n + 1) iterations improved s = some e :=
    exists_improveLoop_of_lt hI hpos hgain hs ((div_lt_iff₀ hε).mp hn)
  exact ⟨n + 1, e, fun fuel hfuel => improveLoop_mono hfuel he⟩

end Ends

end Logix.Spec
