import Mathlib.Data.List.Basic
import Mathlib.Data.Nat.Notation
import Mathlib.Logic.Relation

/-!
# Depth-first search with one set of visited nodes

A `Search` walks a graph and enters each node at its first visit; what it has seen and what it has
gathered so far are its state.

* `visit`, `visitAll`: the search, with a bound on the depth of the recursion;
* `Visits`: the runs of the search, with no bound, and what every run has: `mono`, `seen_of_mem`,
  `closed`, `sound`, `invariant`;
* **`Visits.seen_iff`**: a search from scratch sees exactly the nodes that can be reached;
* **`exists_visitAll`**: it ends, cycles or not, when finitely many nodes have successors.
-/

namespace Logix.Spec

open Relation

variable {α σ : Type}

/-- **A search**: the successors of a node, the nodes that a state has seen, and the effect of a
first visit. -/
structure Search (α σ : Type) where
  next : α → List α
  seen : σ → α → Prop
  enter : σ → α → σ
  seen_enter : ∀ s a b, seen (enter s a) b ↔ b = a ∨ seen s b
  decSeen : ∀ s a, Decidable (seen s a)

namespace Search

variable (S : Search α σ)

instance (s : σ) (a : α) : Decidable (S.seen s a) := S.decSeen s a

/-- `b` is a successor of `a`. -/
def Edge (a b : α) : Prop := b ∈ S.next a

/-- **The search from a node**, with at most `n` nested visits: `none` when they do not suffice. -/
def visit : ℕ → σ → α → Option σ
  | 0, _, _ => none
  | n + 1, s, a =>
    if S.seen s a then some s else (S.next a).foldlM (visit n) (S.enter s a)

/-- The search from a list of nodes, one after another. -/
def visitAll (n : ℕ) (s : σ) (as : List α) : Option σ := as.foldlM (S.visit n) s

/-- **A run of the search** from the nodes `as`, from the state `s` to the state `t`. -/
inductive Visits : σ → List α → σ → Prop
  | done {s} : Visits s [] s
  | skip {s a as t} : S.seen s a → Visits s as t → Visits s (a :: as) t
  | enter {s a as t u} : ¬ S.seen s a → Visits (S.enter s a) (S.next a) t → Visits t as u →
      Visits s (a :: as) u

variable {S} {s t : σ} {as : List α}

theorem Visits.of_foldlM {f : σ → α → Option σ}
    (hf : ∀ s a t, f s a = some t → S.Visits s [a] t) :
    ∀ {as s t}, as.foldlM f s = some t → S.Visits s as t
  | [], s, t, h => by
    obtain rfl := Option.some.inj h
    exact .done
  | a :: as, s, t, h => by
    rw [List.foldlM_cons, Option.bind_eq_bind, Option.bind_eq_some_iff] at h
    obtain ⟨u, hu, h⟩ := h
    have htail := Visits.of_foldlM hf h
    cases hf _ _ _ hu with
    | skip hseen hdone =>
      cases hdone
      exact .skip hseen htail
    | enter hseen hrun hdone =>
      cases hdone
      exact .enter hseen hrun htail

theorem visits_of_visit {n : ℕ} {a : α} (h : S.visit n s a = some t) : S.Visits s [a] t := by
  induction n generalizing s a t with
  | zero => cases h
  | succ n ih =>
    rw [visit] at h
    split_ifs at h with hseen
    · obtain rfl := Option.some.inj h
      exact .skip hseen .done
    · exact .enter hseen (.of_foldlM (fun _ _ _ => ih) h) .done

theorem visits_of_visitAll {n : ℕ} (h : S.visitAll n s as = some t) : S.Visits s as t :=
  .of_foldlM (fun _ _ _ => visits_of_visit) h

/-! ## What a run has seen -/

namespace Visits

/-- Nothing is forgotten. -/
theorem mono (h : S.Visits s as t) {b : α} (hb : S.seen s b) : S.seen t b := by
  induction h with
  | done => exact hb
  | skip _ _ ih => exact ih hb
  | enter _ _ _ ih₁ ih₂ => exact ih₂ (ih₁ ((S.seen_enter _ _ _).mpr (Or.inr hb)))

theorem seen_of_mem (h : S.Visits s as t) {a : α} (ha : a ∈ as) : S.seen t a := by
  induction h with
  | done => exact absurd ha List.not_mem_nil
  | skip hseen hrun ih =>
    rcases List.mem_cons.mp ha with rfl | ha
    · exact hrun.mono hseen
    · exact ih ha
  | enter _ hrun htail _ ih₂ =>
    rcases List.mem_cons.mp ha with rfl | ha
    · exact htail.mono (hrun.mono ((S.seen_enter _ _ _).mpr (Or.inl rfl)))
    · exact ih₂ ha

/-- **The run leaves no edge behind**: a node that it has entered has all its successors seen. -/
theorem closed (h : S.Visits s as t) {b : α} (hb : S.seen t b) :
    S.seen s b ∨ ∀ c, S.Edge b c → S.seen t c := by
  induction h with
  | done => exact Or.inl hb
  | skip _ _ ih => exact ih hb
  | enter _ hrun htail ih₁ ih₂ =>
    rcases ih₂ hb with hb | hb
    · rcases ih₁ hb with hb | hb
      · rcases (S.seen_enter _ _ _).mp hb with rfl | hb
        · exact Or.inr fun c hc => htail.mono (hrun.seen_of_mem hc)
        · exact Or.inl hb
      · exact Or.inr fun c hc => htail.mono (hb c hc)
    · exact Or.inr hb

/-- What is seen can be reached. -/
theorem sound (h : S.Visits s as t) {b : α} (hb : S.seen t b) :
    S.seen s b ∨ ∃ a ∈ as, ReflTransGen S.Edge a b := by
  induction h with
  | done => exact Or.inl hb
  | skip _ _ ih =>
    rcases ih hb with hb | ⟨a, ha, hab⟩
    · exact Or.inl hb
    · exact Or.inr ⟨a, List.mem_cons_of_mem _ ha, hab⟩
  | @enter s a as t u _ _ _ ih₁ ih₂ =>
    rcases ih₂ hb with hb | ⟨a', ha, hab⟩
    · rcases ih₁ hb with hb | ⟨c, hc, hcb⟩
      · rcases (S.seen_enter _ _ _).mp hb with rfl | hb
        · exact Or.inr ⟨b, List.mem_cons_self, .refl⟩
        · exact Or.inl hb
      · exact Or.inr ⟨a, List.mem_cons_self, .head hc hcb⟩
    · exact Or.inr ⟨a', List.mem_cons_of_mem _ ha, hab⟩

/-- **A search from scratch sees exactly the nodes that can be reached.** -/
theorem seen_iff (h : S.Visits s as t) (h₀ : ∀ a, ¬ S.seen s a) (b : α) :
    S.seen t b ↔ ∃ a ∈ as, ReflTransGen S.Edge a b := by
  constructor
  · exact fun hb => (h.sound hb).resolve_left (h₀ b)
  · rintro ⟨a, ha, hab⟩
    induction hab with
    | refl => exact h.seen_of_mem ha
    | tail _ hbc ih => exact (h.closed ih).resolve_left (h₀ _) _ hbc

/-- **The invariant rule**: what every first visit keeps. -/
theorem invariant (h : S.Visits s as t) {I : σ → Prop}
    (henter : ∀ s a, I s → ¬ S.seen s a → I (S.enter s a)) (hI : I s) : I t := by
  induction h with
  | done => exact hI
  | skip _ _ ih => exact ih hI
  | enter hseen _ _ ih₁ ih₂ => exact ih₂ (ih₁ (henter _ _ hI hseen))

end Visits

/-! ## Termination -/

section Termination

variable (S) in
/-- The nodes of a list that are not seen yet. -/
def unseen (nodes : List α) (s : σ) : ℕ := nodes.countP fun a => ¬ S.seen s a

variable {nodes : List α}

theorem unseen_le (h : ∀ a, S.seen s a → S.seen t a) : S.unseen nodes t ≤ S.unseen nodes s := by
  refine List.countP_mono_left fun a _ ha => ?_
  rw [decide_eq_true_eq] at ha ⊢
  exact fun hs => ha (h a hs)

theorem unseen_enter_lt {a : α} (ha : a ∈ nodes) (hs : ¬ S.seen s a) :
    S.unseen nodes (S.enter s a) < S.unseen nodes s := by
  have hle : ∀ l, S.unseen l (S.enter s a) ≤ S.unseen l s := fun l =>
    unseen_le fun b hb => (S.seen_enter s a b).mpr (Or.inr hb)
  obtain ⟨pre, post, rfl⟩ := List.append_of_mem ha
  have hpre := hle pre
  have hpost := hle post
  have hnew : S.seen (S.enter s a) a := (S.seen_enter s a a).mpr (Or.inl rfl)
  simp only [unseen, List.countP_append, List.countP_cons, hs, hnew, not_true_eq_false,
    not_false_eq_true, decide_true, decide_false, if_true, Bool.false_eq_true, if_false] at *
  omega

theorem exists_foldlM {f : σ → α → Option σ} {I : σ → Prop}
    (hf : ∀ s a, I s → ∃ t, f s a = some t ∧ I t) :
    ∀ {as : List α} {s}, I s → ∃ t, as.foldlM f s = some t
  | [], s, _ => ⟨s, rfl⟩
  | a :: as, s, hs => by
    obtain ⟨t, ht, hI⟩ := hf s a hs
    obtain ⟨u, hu⟩ : ∃ u, as.foldlM f t = some u := exists_foldlM hf hI
    refine ⟨u, ?_⟩
    rw [List.foldlM_cons, ht]
    exact hu

/-- **The depth is bounded** by the nodes that have successors and are not seen yet. -/
theorem exists_visit (hnodes : ∀ a, S.next a ≠ [] → a ∈ nodes) {n : ℕ} {a : α}
    (hn : S.unseen nodes s < n) : ∃ t, S.visit n s a = some t := by
  induction n generalizing s a with
  | zero => exact absurd hn (Nat.not_lt_zero _)
  | succ n ih =>
    rw [visit]
    split_ifs with hseen
    · exact ⟨s, rfl⟩
    by_cases hnext : S.next a = []
    · rw [hnext]
      exact ⟨_, rfl⟩
    have hlt : S.unseen nodes (S.enter s a) < n := by
      have := unseen_enter_lt (hnodes a hnext) hseen
      omega
    refine exists_foldlM (I := fun s => S.unseen nodes s < n) (fun s b hs => ?_) hlt
    obtain ⟨t, ht⟩ := ih (a := b) hs
    have hmono : S.unseen nodes t ≤ S.unseen nodes s :=
      unseen_le fun c hc => (visits_of_visit ht).mono hc
    exact ⟨t, ht, Nat.lt_of_le_of_lt hmono hs⟩

/-- **The search ends**: a depth above the number of nodes with successors is enough. -/
theorem exists_visitAll (hnodes : ∀ a, S.next a ≠ [] → a ∈ nodes) {n : ℕ}
    (hn : nodes.length < n) (s : σ) (as : List α) : ∃ t, S.visitAll n s as = some t := by
  refine exists_foldlM (I := fun _ => True) (fun s a _ => ?_) trivial
  have hle : S.unseen nodes s ≤ nodes.length := List.countP_le_length
  obtain ⟨t, ht⟩ := exists_visit hnodes (a := a) (Nat.lt_of_le_of_lt hle hn)
  exact ⟨t, ht, trivial⟩

end Termination

end Search

end Logix.Spec
