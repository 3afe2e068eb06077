import Logix.Spec.Machine

/-!
# Noninterference

Some calls of a run are hidden. The others are not interfered with when their results are those of
the run without the hidden calls.

* `Machine.Undisturbed`: the results of the other calls;
* `Machine.Unwinding`: a view of the states that the hidden calls do not change, and on which the
  other calls act as on the states themselves;
* **`Unwinding.undisturbed`**: with an unwinding no run is interfered with.
-/

namespace Logix.Spec.Machine

variable {σ ι ρ : Type} {M : Machine σ ι ρ} {s : σ} {hidden : ι → Bool}

/-- The results of the calls that are not hidden. -/
def seen (hidden : ι → Bool) (es : List (Event σ ι ρ)) : List ρ :=
  (es.filter fun e => !hidden e.input).map Event.result

/-- The calls that are not hidden. -/
def without (hidden : ι → Bool) (is : List ι) : List ι := is.filter fun i => !hidden i

/-- **The hidden calls leave the results of the others unchanged.** -/
def Undisturbed (M : Machine σ ι ρ) (s : σ) (hidden : ι → Bool) (is : List ι) : Prop :=
  seen hidden (M.history s is) = (M.history s (without hidden is)).map Event.result

/-- **An unwinding** of the admitted calls. -/
structure Unwinding (M : Machine σ ι ρ) (hidden : ι → Bool) (ok : Event σ ι ρ → Prop)
    (view : σ → σ) : Prop where
  erased : ∀ s i, ok (M.event s i) → hidden i = true → view (M.next s i) = view s
  kept : ∀ s i, ok (M.event s i) → hidden i = false →
    M.call i (view s) = (view (M.next s i), (M.call i s).2)

variable {ok : Event σ ι ρ → Prop} {view : σ → σ}

theorem Unwinding.run (h : M.Unwinding hidden ok view) (is : List ι)
    (hok : ∀ e ∈ M.history s is, ok e) :
    seen hidden (M.history s is) = (M.history (view s) (without hidden is)).map Event.result ∧
      view (M.run s is) = M.run (view s) (without hidden is) := by
  induction is generalizing s with
  | nil => exact ⟨rfl, rfl⟩
  | cons i is ih =>
    have hi := hok (M.event s i) List.mem_cons_self
    obtain ⟨hseen, hrun⟩ := ih fun e he => hok e (List.mem_cons_of_mem _ he)
    cases hh : hidden i with
    | true =>
      have hview := h.erased s i hi hh
      rw [hview] at hseen hrun
      have hwithout : without hidden (i :: is) = without hidden is := by simp [without, hh]
      rw [hwithout]
      refine ⟨?_, hrun⟩
      rw [← hseen, history, seen, seen, List.filter_cons_of_neg (by simp [event, hh])]
    | false =>
      have hcall := h.kept s i hi hh
      have hnext : M.next (view s) i = view (M.next s i) := congrArg Prod.fst hcall
      have hresult : (M.call i (view s)).2 = (M.call i s).2 := by rw [hcall]
      have hwithout : without hidden (i :: is) = i :: without hidden is := by simp [without, hh]
      rw [hwithout]
      constructor
      · rw [history, seen, List.filter_cons_of_pos (by simp [event, hh]), List.map_cons, history,
          List.map_cons, hnext]
        exact congrArg₂ _ hresult.symm hseen
      · change view (M.run (M.next s i) is) = M.run (M.next (view s) i) (without hidden is)
        rw [hnext]
        exact hrun

/-- **The unwinding theorem**, for a start that has nothing to hide. -/
theorem Unwinding.undisturbed (h : M.Unwinding hidden ok view) (h₀ : view s = s) (is : List ι)
    (hok : ∀ e ∈ M.history s is, ok e) : M.Undisturbed s hidden is := by
  have hseen := (h.run is hok).1
  rwa [h₀] at hseen

/-- **A call that betrays the hidden ones**: after an undisturbed run the next results differ. -/
theorem Unwinding.not_undisturbed (h : M.Unwinding hidden ok view) (h₀ : view s = s) {is : List ι}
    (hok : ∀ e ∈ M.history s is, ok e) {js : List ι}
    (hne : seen hidden (M.history (M.run s is) js) ≠
      (M.history (view (M.run s is)) (without hidden js)).map Event.result) :
    ¬ M.Undisturbed s hidden (is ++ js) := by
  intro hund
  obtain ⟨hseen, hrun⟩ := h.run is hok
  rw [h₀] at hseen hrun
  have hwithout : without hidden (is ++ js) = without hidden is ++ without hidden js :=
    List.filter_append _ _
  unfold Undisturbed at hund
  rw [history_append, hwithout, history_append, seen, List.filter_append, List.map_append,
    List.map_append, ← hrun] at hund
  exact hne (List.append_inj_right hund (congrArg List.length hseen))

end Logix.Spec.Machine
