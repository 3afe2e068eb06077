import Logix.Spec.Machine
import Mathlib.Data.List.Nodup

/-!
# Rosters

Members join and leave. Who joins again while being there stays where it is; who joins after having
left comes last.

* `roster acts`: the members after these acts, in order; `nodup_roster`: each of them once;
* **`mem_roster_iff`**: those whose last act was to join;
* **`pairwise_roster`**: who is further to the front was there when the other one joined.
-/

namespace Logix.Spec

variable {A : Type}

/-- A member joins, or leaves. -/
inductive RosterAct (A : Type) where
  | join (a : A)
  | leave (a : A)
  deriving DecidableEq, Repr

variable [DecidableEq A]

/-- The members after an act. -/
def RosterAct.next (l : List A) : RosterAct A → List A
  | .join a => if a ∈ l then l else l ++ [a]
  | .leave a => l.erase a

/-- **The members after a list of acts**, in order. -/
def roster (acts : List (RosterAct A)) : List A := acts.foldl RosterAct.next []

variable {acts : List (RosterAct A)} {a b : A}

@[simp] theorem roster_nil : roster ([] : List (RosterAct A)) = [] := rfl

theorem roster_concat (acts : List (RosterAct A)) (x : RosterAct A) :
    roster (acts ++ [x]) = x.next (roster acts) := by
  rw [roster, List.foldl_append]
  rfl

/-- **Nobody is there twice.** -/
theorem nodup_roster (acts : List (RosterAct A)) : (roster acts).Nodup := by
  induction acts using List.reverseRecOn with
  | nil => exact List.nodup_nil
  | append_singleton acts x ih =>
    rw [roster_concat]
    cases x with
    | join a =>
      rw [RosterAct.next]
      split_ifs with h
      · exact ih
      · exact ih.append (List.nodup_singleton a) (List.disjoint_singleton.mpr h)
    | leave a => exact ih.erase a

theorem mem_next_iff {l : List A} (hl : l.Nodup) (x : RosterAct A) :
    b ∈ x.next l ↔ x = .join b ∨ (b ∈ l ∧ x ≠ .leave b) := by
  cases x with
  | join a =>
    rw [RosterAct.next]
    split_ifs with h
    · refine ⟨fun hb => Or.inr ⟨hb, by simp⟩, ?_⟩
      rintro (hj | hb)
      · cases hj
        exact h
      · exact hb.1
    · rw [List.mem_append, List.mem_singleton, RosterAct.join.injEq, eq_comm (a := a), or_comm]
      simp
  | leave a =>
    rw [RosterAct.next, hl.mem_erase_iff, and_comm]
    simp [eq_comm]

/-- **The members are those whose last act was to join.** -/
theorem mem_roster_iff : a ∈ roster acts ↔ Since acts (.join a) fun x => x = .leave a := by
  induction acts using List.reverseRecOn with
  | nil => exact iff_of_false List.not_mem_nil not_since_nil
  | append_singleton acts x ih =>
    rw [roster_concat, mem_next_iff (nodup_roster acts), since_concat_iff, ih,
      eq_comm (a := x)]

/-! ## Order -/

/-- `b` joined when `a` was there, and neither has left since. -/
def JoinedAfter (acts : List (RosterAct A)) (a b : A) : Prop :=
  ∃ pre post, acts = pre ++ .join b :: post ∧ a ∈ roster pre ∧ b ∉ roster pre ∧
    .leave a ∉ post ∧ .leave b ∉ post

theorem JoinedAfter.concat (h : JoinedAfter acts a b) {x : RosterAct A} (ha : x ≠ .leave a)
    (hb : x ≠ .leave b) : JoinedAfter (acts ++ [x]) a b := by
  obtain ⟨pre, post, rfl, hpa, hpb, hla, hlb⟩ := h
  refine ⟨pre, post ++ [x], by simp, hpa, hpb, ?_, ?_⟩
  · rw [List.mem_append, List.mem_singleton]
    exact not_or.mpr ⟨hla, ha.symm⟩
  · rw [List.mem_append, List.mem_singleton]
    exact not_or.mpr ⟨hlb, hb.symm⟩

/-- **The order of the members** is that in which they joined. -/
theorem pairwise_roster (acts : List (RosterAct A)) :
    (roster acts).Pairwise (JoinedAfter acts) := by
  induction acts using List.reverseRecOn with
  | nil => exact List.Pairwise.nil
  | append_singleton acts x ih =>
    have hnext : ∀ c ∈ x.next (roster acts), x ≠ .leave c := fun c hc => by
      rcases (mem_next_iff (nodup_roster acts) x).mp hc with rfl | ⟨-, hx⟩
      · simp
      · exact hx
    -- whoever is there before and after the act keeps the place
    have hkept : ∀ l : List A, l.Sublist (roster acts) → l ⊆ x.next (roster acts) →
        l.Pairwise (JoinedAfter (acts ++ [x])) := fun l hl hsub =>
      (ih.sublist hl).imp_of_mem fun ha hb h =>
        h.concat (hnext _ (hsub ha)) (hnext _ (hsub hb))
    rw [roster_concat]
    cases x with
    | leave c => exact hkept _ (List.erase_sublist) fun _ hd => hd
    | join c =>
      by_cases hc : c ∈ roster acts
      · have hstays : (RosterAct.join c).next (roster acts) = roster acts := if_pos hc
        rw [hstays] at hkept ⊢
        exact hkept _ (List.Sublist.refl _) fun _ hd => hd
      · have hlast : (RosterAct.join c).next (roster acts) = roster acts ++ [c] := if_neg hc
        rw [hlast] at hkept ⊢
        refine List.pairwise_append.mpr ⟨hkept _ (List.Sublist.refl _)
          (List.subset_append_left _ _), List.pairwise_singleton _ _, fun a ha b hb => ?_⟩
        obtain rfl := List.mem_singleton.mp hb
        exact ⟨acts, [], rfl, ha, hc, List.not_mem_nil, List.not_mem_nil⟩

end Logix.Spec
