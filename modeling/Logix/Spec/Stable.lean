import Logix.Spec.Machine

/-!
# Facts that stay

A family of facts about the state of a machine is stable in a run when each fact, once it holds,
holds in every later state.

* `Machine.Stable`, **`Machine.stable_iff`**: a run is stable exactly when each of its calls keeps
  each fact; `Stable.entered_once`: a stable fact becomes true at most once;
* `Machine.history_pairwise`: what a call leaves behind and later calls keep relates it to them all.
-/

namespace Logix.Spec.Machine

variable {σ ι ρ α : Type} {M : Machine σ ι ρ} {s : σ}

/-- **Once a fact holds, it holds in every later state** of the run. -/
def Stable (M : Machine σ ι ρ) (s : σ) (fact : α → σ → Prop) (is : List ι) : Prop :=
  ∀ js ks ls, is = js ++ ks ++ ls → ∀ a, fact a (M.run s js) → fact a (M.run s (js ++ ks))

theorem stable_iff {fact : α → σ → Prop} (is : List ι) : M.Stable s fact is ↔
    ∀ e ∈ M.history s is, ∀ a, fact a e.before → fact a e.after := by
  constructor
  · intro h e he a ha
    obtain ⟨js, i, ks, rfl, rfl⟩ := mem_history_iff.mp he
    have hlater := h js [i] ks (by simp) a ha
    rwa [run_concat] at hlater
  · rintro h js ks ls rfl a ha
    induction ks using List.reverseRecOn generalizing ls with
    | nil => rwa [List.append_nil]
    | append_singleton ks i ih =>
      have hrun : js ++ (ks ++ [i]) ++ ls = js ++ ks ++ ([i] ++ ls) := by simp
      rw [hrun] at h
      rw [← List.append_assoc, run_concat]
      refine h (M.event (M.run s (js ++ ks)) i) ?_ a (ih ([i] ++ ls) h)
      exact mem_history_iff.mpr ⟨js ++ ks, i, ls, by simp, rfl⟩

/-- **The rule of consequences**: every call leaves `K` behind, every later call keeps it, and it
relates the two calls. -/
theorem history_pairwise {K : Event σ ι ρ → σ → Prop} {R : Event σ ι ρ → Event σ ι ρ → Prop}
    {ok : Event σ ι ρ → Prop} (hleaves : ∀ s i, ok (M.event s i) → K (M.event s i) (M.next s i))
    (hkeeps : ∀ e s i, K e s → ok (M.event s i) → K e (M.next s i) ∧ R e (M.event s i))
    (is : List ι) (hok : ∀ e ∈ M.history s is, ok e) : (M.history s is).Pairwise R := by
  refine (history_invariant (J := fun es s => (∀ e ∈ es, K e s) ∧ es.Pairwise R)
    ⟨fun _ he => absurd he List.not_mem_nil, List.Pairwise.nil⟩ ?_ is hok).2
  rintro es s i ⟨hes, hR⟩ hi
  refine ⟨fun e he => ?_, List.pairwise_append.mpr ⟨hR, List.pairwise_singleton _ _, ?_⟩⟩
  · rcases List.mem_append.mp he with he | he
    · exact (hkeeps e s i (hes e he) hi).1
    · obtain rfl := List.mem_singleton.mp he
      exact hleaves s i hi
  · intro e he e' he'
    obtain rfl := List.mem_singleton.mp he'
    exact (hkeeps e s i (hes e he) hi).2

/-- The call makes a fact true. -/
def Enters (fact : σ → Prop) (e : Event σ ι ρ) : Prop := ¬ fact e.before ∧ fact e.after

/-- **A fact that stays is entered at most once.** -/
theorem Stable.entered_once {fact : α → σ → Prop} {is : List ι} (h : M.Stable s fact is) (a : α) :
    (M.history s is).Pairwise fun e e' => ¬ (Enters (fact a) e ∧ Enters (fact a) e') := by
  have hkept : ∀ e ∈ M.history s is, fact a e.before → fact a e.after :=
    fun e he => (stable_iff is).mp h e he a
  refine history_pairwise (K := fun e s => Enters (fact a) e → fact a s) (fun s i _ he => he.2) ?_
    is hkept
  intro e s i hK hkeeps
  exact ⟨fun he => hkeeps (hK he), fun ⟨he, he'⟩ => he'.1 (hK he)⟩

end Logix.Spec.Machine
