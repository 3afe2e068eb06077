import Mathlib.Algebra.Order.Ring.Nat
import Mathlib.Tactic.Linarith
import Mathlib.Tactic.Ring
import Logix.Spec.Machine

/-!
# Machines that read a clock

The calls of a run read a clock that does not go back.

* `clocked_invariant`: the invariant rule, with the times read so far at hand;
* `results_filter_eq`: a call that changes nothing a later call can see may be left out of a run;
* `Metered`, **`Metered.grants_le`**: what is paid from a level that grows at a fixed rate is
  bounded over every interval of time.
-/

namespace Logix.Spec.Machine

variable {σ ι ρ : Type} {M : Machine σ ι ρ} {s : σ}

/-! ## Invariants -/

section Invariant

variable {T : Type} [LE T] {clock : ι → Option T}

theorem clock_between {is js ks : List ι} {c d i : ι} {t u v : T}
    (h : (((is ++ c :: js) ++ d :: ks).filterMap clock).Pairwise (· ≤ ·)) (hc : t ∈ clock c)
    (hd : u ∈ clock d) (hi : i ∈ js) (hv : v ∈ clock i) : t ≤ v ∧ v ≤ u := by
  have hmem : v ∈ js.filterMap clock := List.mem_filterMap.mpr ⟨i, hi, hv⟩
  rw [List.filterMap_append, List.filterMap_append, List.filterMap_cons_some hc,
    List.filterMap_cons_some hd, List.pairwise_append] at h
  obtain ⟨hleft, -, hacross⟩ := h
  have htail := List.pairwise_cons.mp (List.pairwise_append.mp hleft).2.1
  refine ⟨htail.1 v hmem, hacross v ?_ u List.mem_cons_self⟩
  exact List.mem_append_right _ (List.mem_cons_of_mem _ hmem)

/-- **The invariant rule under a clock**: no earlier call has read a later time. -/
theorem clocked_invariant {J : List (Event σ ι ρ) → σ → Prop} {ok : ι → Prop} (h₀ : J [] s)
    (hstep : ∀ es s i, J es s → ok i →
      (∀ e ∈ es, ∀ t ∈ clock e.input, ∀ u ∈ clock i, t ≤ u) →
      J (es ++ [M.event s i]) (M.next s i))
    (is : List ι) (hclock : (is.filterMap clock).Pairwise (· ≤ ·)) (hok : ∀ i ∈ is, ok i) :
    J (M.history s is) (M.run s is) := by
  induction is using List.reverseRecOn with
  | nil => exact h₀
  | append_singleton is i ih =>
    rw [List.filterMap_append, List.pairwise_append] at hclock
    rw [history_concat, run_concat]
    refine hstep _ _ i (ih hclock.1 fun j hj => hok j (List.mem_append_left _ hj))
      (hok i (List.mem_append_right _ List.mem_cons_self)) ?_
    intro e he t ht u hu
    have hmem := input_mem_of_mem_history he
    refine hclock.2.2 t (List.mem_filterMap.mpr ⟨e.input, hmem, ht⟩) u ?_
    exact List.mem_filterMap.mpr ⟨i, List.mem_cons_self, hu⟩

end Invariant

/-! ## Calls that can be left out -/

section Filter

variable {T : Type} [LE T] {clock : ι → T} {R : T → σ → σ → Prop} {kept : ι → Bool}

/-- **Leaving calls out.** `R t` relates states that no call can tell apart from the time `t`
on. -/
theorem results_filter_eq
    (hresult : ∀ s s' i, kept i → R (clock i) s s' → (M.call i s).2 = (M.call i s').2)
    (hkept : ∀ s s' i t, kept i → clock i ≤ t → R (clock i) s s' → R t s s' →
      R t (M.next s i) (M.next s' i))
    (hleft : ∀ s s' i t, ¬ kept i → clock i ≤ t → R t s s' → R t (M.next s i) s')
    (is : List ι) (hclock : (is.map clock).Pairwise (· ≤ ·)) {s s' : σ}
    (hR : ∀ i ∈ is, R (clock i) s s') :
    ((M.history s is).filter fun e => kept e.input).map Event.result =
      (M.history s' (is.filter kept)).map Event.result := by
  induction is generalizing s s' with
  | nil => rfl
  | cons i is ih =>
    rw [List.map_cons, List.pairwise_cons] at hclock
    have hle : ∀ j ∈ is, clock i ≤ clock j := fun j hj =>
      hclock.1 _ (List.mem_map_of_mem hj)
    have hi := hR i List.mem_cons_self
    have htail : ∀ j ∈ is, R (clock j) s s' := fun j hj => hR j (List.mem_cons_of_mem _ hj)
    by_cases hk : kept i
    · have hnext := ih hclock.2 fun j hj => hkept s s' i _ hk (hle j hj) hi (htail j hj)
      have hhead := hresult s s' i hk hi
      simp only [history, List.filter_cons, hk, if_true, List.map_cons, event, hhead, hnext]
    · have hnext := ih hclock.2 fun j hj => hleft s s' i _ hk (hle j hj) (htail j hj)
      simp only [history, List.filter_cons, hk, event]
      exact hnext

end Filter

/-! ## Metered machines -/

section Within

variable {K : Type} [LinearOrder K] {clock : ι → K} {grants : Event σ ι ρ → Prop}
  [DecidablePred grants]

/-- The grants between `a` and `b`. -/
def grantsWithin (clock : ι → K) (grants : Event σ ι ρ → Prop) [DecidablePred grants] (a b : K)
    (es : List (Event σ ι ρ)) : ℕ :=
  es.countP fun e => grants e ∧ a ≤ clock e.input ∧ clock e.input ≤ b

theorem grantsWithin_concat (a b : K) (es : List (Event σ ι ρ)) (e : Event σ ι ρ) :
    grantsWithin clock grants a b (es ++ [e]) = grantsWithin clock grants a b es +
      if grants e ∧ a ≤ clock e.input ∧ clock e.input ≤ b then 1 else 0 := by
  simp [grantsWithin, List.countP_append, List.countP_cons]

theorem grantsWithin_concat_le (a b : K) (es : List (Event σ ι ρ)) (e : Event σ ι ρ) :
    grantsWithin clock grants a b (es ++ [e]) ≤
      grantsWithin clock grants a b es + if grants e then 1 else 0 := by
  rw [grantsWithin_concat]
  refine Nat.add_le_add_left ?_ _
  by_cases hg : grants e
  · simp only [hg, true_and, if_true]
    split_ifs <;> omega
  · simp [hg]

theorem grantsWithin_eq_zero {a b : K} {es : List (Event σ ι ρ)}
    (h : ∀ e ∈ es, clock e.input < a) : grantsWithin clock grants a b es = 0 := by
  refine List.countP_eq_zero.mpr fun e he => ?_
  simp [(h e he).not_ge]

end Within

section Metered

variable {K : Type} [Field K] [LinearOrder K] [IsStrictOrderedRing K]

/-- **A metered machine.** `level s t` is what the state `s` can grant at the time `t`. -/
structure Metered (M : Machine σ ι ρ) (clock : ι → K) (grants : Event σ ι ρ → Prop)
    [DecidablePred grants] (ok : ι → Prop) (level : σ → K → K) (cap rate : K) : Prop where
  cap_nonneg : 0 ≤ cap
  rate_nonneg : 0 ≤ rate
  le_cap : ∀ s t, level s t ≤ cap
  grows : ∀ s t u, t ≤ u → level s u ≤ level s t + rate * (u - t)
  covered : ∀ s i, ok i → grants (M.event s i) → 1 ≤ level s (clock i)
  paid : ∀ s i, ok i → level (M.next s i) (clock i) + (if grants (M.event s i) then 1 else 0) ≤
    level s (clock i)

variable {clock : ι → K} {grants : Event σ ι ρ → Prop} [DecidablePred grants] {ok : ι → Prop}
  {level : σ → K → K} {cap rate : K}

/-- **The potential argument**: what was granted since `a`, together with the level, is at most
what the level can have been at `a` and has grown by. -/
structure Accounted (clock : ι → K) (grants : Event σ ι ρ → Prop) [DecidablePred grants]
    (level : σ → K → K) (cap rate a b : K) (es : List (Event σ ι ρ)) (s : σ) : Prop where
  bound : (grantsWithin clock grants a b es : K) ≤ cap + rate * (b - a)
  account : ∀ t, a ≤ t → (∀ e ∈ es, clock e.input ≤ t) →
    grantsWithin clock grants a b es + level s t ≤ cap + rate * (t - a)

theorem Metered.accounted_nil (h : M.Metered clock grants ok level cap rate) {a b : K}
    (hab : a ≤ b) : Accounted clock grants level cap rate a b [] s where
  bound := by
    have hgrow := mul_nonneg h.rate_nonneg (sub_nonneg.mpr hab)
    have hcap := h.cap_nonneg
    simp only [grantsWithin, List.countP_nil, Nat.cast_zero]
    linarith
  account t hat _ := by
    have hgrow := mul_nonneg h.rate_nonneg (sub_nonneg.mpr hat)
    have hcap := h.le_cap s t
    simp only [grantsWithin, List.countP_nil, Nat.cast_zero]
    linarith

theorem Metered.bound_step (h : M.Metered clock grants ok level cap rate) {a b : K}
    {es : List (Event σ ι ρ)} {i : ι} (hJ : Accounted clock grants level cap rate a b es s)
    (hok : ok i) (hlast : ∀ e ∈ es, clock e.input ≤ clock i) :
    (grantsWithin clock grants a b (es ++ [M.event s i]) : K) ≤ cap + rate * (b - a) := by
  rw [grantsWithin_concat]
  split_ifs with hin
  · obtain ⟨hg, ha, hb⟩ := hin
    have hcover := h.covered s i hok hg
    have haccount := hJ.account (clock i) ha hlast
    have hrate : rate * (clock i - a) ≤ rate * (b - a) :=
      mul_le_mul_of_nonneg_left (sub_le_sub_right hb a) h.rate_nonneg
    push_cast
    linarith
  · rw [Nat.add_zero]
    exact hJ.bound

theorem Metered.account_step (h : M.Metered clock grants ok level cap rate) {a b t : K}
    {es : List (Event σ ι ρ)} {i : ι} (hJ : Accounted clock grants level cap rate a b es s)
    (hok : ok i) (hlast : ∀ e ∈ es, clock e.input ≤ clock i) (hat : a ≤ t) (hit : clock i ≤ t) :
    grantsWithin clock grants a b (es ++ [M.event s i]) + level (M.next s i) t ≤
      cap + rate * (t - a) := by
  rcases lt_or_ge (clock i) a with hia | hai
  · -- Nothing has been granted in the interval yet.
    have hzero : grantsWithin clock grants a b (es ++ [M.event s i]) = 0 := by
      refine grantsWithin_eq_zero fun e he => ?_
      rcases List.mem_append.mp he with he | he
      · exact (hlast e he).trans_lt hia
      · obtain rfl := List.mem_singleton.mp he
        exact hia
    have hgrow := mul_nonneg h.rate_nonneg (sub_nonneg.mpr hat)
    have hcap := h.le_cap (M.next s i) t
    rw [hzero, Nat.cast_zero]
    linarith
  · have haccount := hJ.account (clock i) hai hlast
    have hpaid := h.paid s i hok
    have hgrow := h.grows (M.next s i) (clock i) t hit
    have hcount : (grantsWithin clock grants a b (es ++ [M.event s i]) : K) ≤
        grantsWithin clock grants a b es + if grants (M.event s i) then 1 else 0 := by
      exact_mod_cast grantsWithin_concat_le a b es (M.event s i)
    have hsplit : rate * (t - a) = rate * (clock i - a) + rate * (t - clock i) := by ring
    linarith

/-- **The rate bound.** -/
theorem Metered.grants_le (h : M.Metered clock grants ok level cap rate) (is : List ι)
    (hclock : (is.map clock).Pairwise (· ≤ ·)) (hok : ∀ i ∈ is, ok i) {a b : K} (hab : a ≤ b) :
    (grantsWithin clock grants a b (M.history s is) : K) ≤ cap + rate * (b - a) := by
  have hrun : Accounted clock grants level cap rate a b (M.history s is) (M.run s is) := by
    have hclock' : (is.filterMap fun i => some (clock i)).Pairwise (· ≤ ·) := by simpa using hclock
    refine clocked_invariant (h.accounted_nil hab) ?_ is hclock' hok
    intro es s i hJ hi hlast
    have hlast' : ∀ e ∈ es, clock e.input ≤ clock i := fun e he => hlast e he _ rfl _ rfl
    refine ⟨h.bound_step hJ hi hlast', fun t hat ht => h.account_step hJ hi hlast' hat ?_⟩
    exact ht (M.event s i) (List.mem_append_right _ List.mem_cons_self)
  exact hrun.bound

end Metered

end Logix.Spec.Machine
