import Mathlib.Data.List.Basic

/-!
# Rules that allow and rules that deny

A list of rules for one request: a rule applies to the request or not, and a rule that applies
denies or allows.

* `firstApplicable`: the first rule that applies decides;
* `denyOverrides`: every rule that applies counts, and one that denies is enough to deny;
* **`firstApplicable_eq_iff`**: the two agree unless a rule that allows comes before one that
  denies, `firstApplicable_eq_of_pairwise` for rules of which no two such apply together.
-/

namespace Logix.Spec

variable {ρ : Type} (applies denies : ρ → Bool)

/-- **The first rule that applies decides**; no rule, no access. -/
def firstApplicable (rules : List ρ) : Bool := (rules.find? applies).any fun r => !denies r

/-- **A rule that denies wins** over all rules that allow; no rule, no access. -/
def denyOverrides (rules : List ρ) : Bool :=
  !(rules.any fun r => applies r && denies r) && rules.any fun r => applies r && !denies r

variable {applies denies} {rules : List ρ}

theorem denyOverrides_iff : denyOverrides applies denies rules = true ↔
    (∀ r ∈ rules, applies r = true → denies r = false) ∧
      ∃ r ∈ rules, applies r = true ∧ denies r = false := by
  simp [denyOverrides]

theorem firstApplicable_of_denyOverrides (h : denyOverrides applies denies rules = true) :
    firstApplicable applies denies rules = true := by
  obtain ⟨hall, r, hr, happ, -⟩ := denyOverrides_iff.mp h
  unfold firstApplicable
  cases hf : rules.find? applies with
  | none => exact absurd happ (List.find?_eq_none.mp hf r hr)
  | some r' =>
    have hden : denies r' = false := hall r' (List.mem_of_find?_eq_some hf) (List.find?_some hf)
    simp [hden]

/-- **When first-match is deny-overrides**: the rule that decides does not allow what another rule
denies. -/
theorem firstApplicable_eq_iff :
    firstApplicable applies denies rules = denyOverrides applies denies rules ↔
      ∀ r, rules.find? applies = some r → denies r = false →
        ∀ r' ∈ rules, applies r' = true → denies r' = false := by
  constructor
  · intro heq r hf hden
    have hfirst : firstApplicable applies denies rules = true := by
      simp [firstApplicable, hf, hden]
    exact (denyOverrides_iff.mp (heq ▸ hfirst)).1
  · intro h
    refine Bool.eq_iff_iff.mpr ⟨fun hfirst => ?_, firstApplicable_of_denyOverrides⟩
    unfold firstApplicable at hfirst
    cases hf : rules.find? applies with
    | none => simp [hf] at hfirst
    | some r =>
      have hden : denies r = false := by simpa [hf] using hfirst
      exact denyOverrides_iff.mpr
        ⟨h r hf hden, r, List.mem_of_find?_eq_some hf, List.find?_some hf, hden⟩

/-- A rule that allows, and one behind it that denies, never apply together. -/
theorem firstApplicable_eq_of_pairwise
    (h : rules.Pairwise fun r r' => applies r = true → denies r = false → applies r' = true →
      denies r' = false) :
    firstApplicable applies denies rules = denyOverrides applies denies rules := by
  refine firstApplicable_eq_iff.mpr fun r hf hden r' hr' happ' => ?_
  obtain ⟨happ, pre, post, rfl, hpre⟩ := List.find?_eq_some_iff_append.mp hf
  rcases List.mem_append.mp hr' with hr' | hr'
  · -- no rule before the deciding one applies
    exact absurd happ' (by simpa using hpre r' hr')
  · rcases List.mem_cons.mp hr' with rfl | hr'
    · exact hden
    · exact List.rel_of_pairwise_cons (List.pairwise_append.mp h).2.1 hr' happ hden happ'

end Logix.Spec
