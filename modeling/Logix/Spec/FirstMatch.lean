import Mathlib.Data.List.Basic
import Mathlib.Data.List.Perm.Basic

/-!
# First match

Each query is answered by the first candidate that suits it. No candidate is used up.

* `firstMatch`: the answer to a query;
* `Uncontested`: where two queries both suit a candidate, an earlier one suits one of them;
* **`nodup_firstMatch_iff`**: no candidate is the answer to two queries exactly when no two queries
  contest one;
* **`firstMatch_perm_iff`**: a candidate is the answer for every order of the candidates exactly
  when no other one suits the query.
-/

namespace Logix.Spec

variable {α β : Type} (suits : β → α → Bool)

/-- **The first candidate that suits the query.** -/
def firstMatch (candidates : List α) (q : β) : Option α := candidates.find? (suits q)

/-- A candidate that suits both queries comes behind one that suits one of them. -/
def Uncontested (candidates : List α) (q q' : β) : Prop :=
  ∀ pre c post, candidates = pre ++ c :: post → suits q c = true → suits q' c = true →
    ∃ e ∈ pre, suits q e = true ∨ suits q' e = true

variable {suits} {candidates : List α} {q q' : β} {c : α}

theorem firstMatch_eq_some_iff : firstMatch suits candidates q = some c ↔ suits q c = true ∧
    ∃ pre post, candidates = pre ++ c :: post ∧ ∀ e ∈ pre, suits q e = false := by
  rw [firstMatch, List.find?_eq_some_iff_append]
  simp only [Bool.not_eq_true']

theorem eq_of_append_cons_eq {pre pre' post post' : List α}
    (h : pre ++ c :: post = pre' ++ c :: post') (hc : c ∉ pre) (hc' : c ∉ pre') : pre = pre' := by
  rcases List.append_eq_append_iff.mp h with ⟨d, rfl, hd⟩ | ⟨d, rfl, hd⟩
  · cases d with
    | nil => exact (List.append_nil _).symm
    | cons x d =>
      obtain rfl : c = x := (List.cons.inj hd).1
      exact absurd (List.mem_append_right _ List.mem_cons_self) hc'
  · cases d with
    | nil => exact List.append_nil _
    | cons x d =>
      obtain rfl : c = x := (List.cons.inj hd).1
      exact absurd (List.mem_append_right _ List.mem_cons_self) hc

theorem firstMatch_ne_iff : (∀ c, firstMatch suits candidates q = some c →
    ∀ c', firstMatch suits candidates q' = some c' → c ≠ c') ↔
      Uncontested suits candidates q q' := by
  constructor
  · intro h pre c post hsplit hq hq'
    by_contra hno
    push Not at hno
    refine h c (firstMatch_eq_some_iff.mpr ⟨hq, pre, post, hsplit, fun e he => ?_⟩) c
      (firstMatch_eq_some_iff.mpr ⟨hq', pre, post, hsplit, fun e he => ?_⟩) rfl
    · exact Bool.eq_false_iff.mpr (hno e he).1
    · exact Bool.eq_false_iff.mpr (hno e he).2
  · rintro h c hc _ hc' rfl
    obtain ⟨hq, pre, post, hsplit, hpre⟩ := firstMatch_eq_some_iff.mp hc
    obtain ⟨hq', pre', post', hsplit', hpre'⟩ := firstMatch_eq_some_iff.mp hc'
    -- both stop at the first place of the candidate
    have hnot : c ∉ pre := fun hmem => absurd hq (Bool.eq_false_iff.mp (hpre c hmem))
    have hnot' : c ∉ pre' := fun hmem => absurd hq' (Bool.eq_false_iff.mp (hpre' c hmem))
    obtain rfl : pre = pre' := eq_of_append_cons_eq (hsplit.symm.trans hsplit') hnot hnot'
    obtain ⟨e, he, hsuits⟩ := h pre c post hsplit hq hq'
    rcases hsuits with hsuits | hsuits
    · exact absurd hsuits (Bool.eq_false_iff.mp (hpre e he))
    · exact absurd hsuits (Bool.eq_false_iff.mp (hpre' e he))

/-- **No candidate is the answer to two queries exactly when no two queries contest one.** -/
theorem nodup_firstMatch_iff {qs : List β} :
    (qs.filterMap (firstMatch suits candidates)).Nodup ↔
      qs.Pairwise (Uncontested suits candidates) := by
  rw [List.Nodup, List.pairwise_filterMap]
  refine ⟨fun h => h.imp fun hne => ?_, fun h => h.imp fun hun => ?_⟩
  · exact firstMatch_ne_iff.mp hne
  · exact firstMatch_ne_iff.mpr hun

theorem firstMatch_of_only (hc : c ∈ candidates) (hq : suits q c = true)
    (honly : ∀ e ∈ candidates, e ≠ c → suits q e = false) :
    firstMatch suits candidates q = some c := by
  cases h : firstMatch suits candidates q with
  | none => exact absurd hq (List.find?_eq_none.mp h c hc)
  | some e =>
    by_contra hne
    have hsuits : suits q e = true := List.find?_some (p := suits q) h
    have hother := honly e (List.mem_of_find?_eq_some h) fun heq => hne (congrArg some heq)
    exact absurd hsuits (Bool.eq_false_iff.mp hother)

/-- **A candidate is the answer for every order of the candidates** exactly when no other one suits
the query. -/
theorem firstMatch_perm_iff (hc : c ∈ candidates) (hq : suits q c = true) :
    (∀ candidates', candidates'.Perm candidates → firstMatch suits candidates' q = some c) ↔
      ∀ e ∈ candidates, e ≠ c → suits q e = false := by
  constructor
  · intro h e he hne
    by_contra hsuits
    -- put the other candidate in front
    obtain ⟨pre, post, rfl⟩ := List.append_of_mem he
    have hfirst := h (e :: (pre ++ post)) List.perm_middle.symm
    rw [firstMatch, List.find?_cons_of_pos (by simpa using hsuits)] at hfirst
    exact hne (Option.some.inj hfirst)
  · intro honly candidates' hperm
    exact firstMatch_of_only (hperm.mem_iff.mpr hc) hq fun e he => honly e (hperm.mem_iff.mp he)

end Logix.Spec
