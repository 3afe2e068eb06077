import Mathlib.Data.List.Basic
import Mathlib.Order.Basic

/-!
# The keys of a search tree in order

A node of a search tree has its keys between its subtrees.

* `interleave xs ks`: the lists `xs` with the separators `ks` between them; `interleave_append`,
  `interleave_append_cons`: cutting it at a separator;
* `exists_le_of_mem_front`, `exists_le_of_mem_back`: the lists in front of a place and behind it lie
  within the separators there; **`between_of_sorted`**: every list lies between its separators;
* `InsertsKey k l l'`: a key is added at a place where it fits; what this keeps.
-/

namespace Logix.Spec

variable {α : Type}

/-- **The lists `xs` with the separators `ks` between them**, from left to right. -/
def interleave : List (List α) → List α → List α
  | [], ks => ks
  | x :: xs, [] => x ++ interleave xs []
  | x :: xs, k :: ks => x ++ k :: interleave xs ks

variable {as bs xs : List (List α)} {p q ks : List α} {x : List α} {k : α}

theorem interleave_cons (x : List α) (xs : List (List α)) (ks : List α) :
    interleave (x :: xs) ks = x ++ interleave ([] :: xs) ks := by
  cases ks <;> rfl

/-- Cutting in front of a list. -/
theorem interleave_append (h : as.length = p.length) (bs : List (List α)) (q : List α) :
    interleave (as ++ bs) (p ++ q) = interleave as p ++ interleave bs q := by
  induction as generalizing p with
  | nil =>
    obtain rfl : p = [] := List.eq_nil_of_length_eq_zero h.symm
    rfl
  | cons a as ih =>
    match p, h with
    | k :: p, h => simp [interleave, ih (Nat.succ.inj h)]

/-- Cutting at a separator. -/
theorem interleave_append_cons (h : as.length = p.length + 1) (s : α) (bs : List (List α))
    (q : List α) :
    interleave (as ++ bs) (p ++ s :: q) = interleave as p ++ s :: interleave bs q := by
  induction as generalizing p with
  | nil => cases h
  | cons a as ih =>
    cases p with
    | nil =>
      obtain rfl : as = [] := List.eq_nil_of_length_eq_zero (Nat.succ.inj h)
      simp [interleave]
    | cons k p => simp [interleave, ih (Nat.succ.inj h)]

/-- **A list in its place**: what is in front of it, itself, and what is behind it. -/
theorem interleave_place (h : as.length = p.length) (x : List α) (bs : List (List α))
    (q : List α) : interleave (as ++ x :: bs) (p ++ q) =
      interleave as p ++ x ++ interleave ([] :: bs) q := by
  rw [interleave_append h, interleave_cons, List.append_assoc]

theorem interleave_perm (xs : List (List α)) (ks : List α) :
    (interleave xs ks).Perm (ks ++ xs.flatten) := by
  induction xs generalizing ks with
  | nil => simp [interleave]
  | cons x xs ih =>
    cases ks with
    | nil => simpa [interleave] using (ih []).append_left x
    | cons k ks =>
      have htail : (k :: interleave xs ks).Perm (k :: (ks ++ xs.flatten)) := (ih ks).cons k
      refine (htail.append_left x).trans ?_
      rw [List.flatten_cons, ← List.cons_append, ← List.append_assoc, ← List.append_assoc]
      exact List.perm_append_comm.append_right _

theorem sublist_interleave (xs : List (List α)) (ks : List α) : ks.Sublist (interleave xs ks) := by
  induction xs generalizing ks with
  | nil => exact List.Sublist.refl ks
  | cons x xs ih =>
    cases ks with
    | nil => exact List.nil_sublist _
    | cons k ks => exact ((ih ks).cons_cons k).trans (List.sublist_append_right x _)

/-! ## Sorted keys -/

section Sorted

variable [Preorder α]

/-- **In front of a place** everything is at most one of the separators there. -/
theorem exists_le_of_mem_front (h : as.length = p.length)
    (hs : (interleave as p).Pairwise (· ≤ ·)) {y : α} (hy : y ∈ interleave as p) :
    ∃ k ∈ p, y ≤ k := by
  induction as generalizing p with
  | nil => exact ⟨y, hy, le_refl y⟩
  | cons a as ih =>
    match p, h with
    | k :: p, h =>
      obtain ⟨-, htail, hacross⟩ := List.pairwise_append.mp hs
      rcases List.mem_append.mp hy with hy | hy
      · exact ⟨k, List.mem_cons_self, hacross y hy k List.mem_cons_self⟩
      · rcases List.mem_cons.mp hy with rfl | hy
        · exact ⟨y, List.mem_cons_self, le_refl y⟩
        · obtain ⟨k', hk', hle⟩ := ih (Nat.succ.inj h) htail.of_cons hy
          exact ⟨k', List.mem_cons_of_mem _ hk', hle⟩

/-- **Behind a place** everything is at least one of the separators there. -/
theorem exists_le_of_mem_back (h : bs.length = q.length)
    (hs : (interleave ([] :: bs) q).Pairwise (· ≤ ·)) {y : α} (hy : y ∈ interleave ([] :: bs) q) :
    ∃ k ∈ q, k ≤ y := by
  cases q with
  | nil =>
    obtain rfl : bs = [] := List.eq_nil_of_length_eq_zero h
    simp [interleave] at hy
  | cons k q =>
    rcases List.mem_cons.mp hy with rfl | hy
    · exact ⟨y, List.mem_cons_self, le_refl y⟩
    · exact ⟨k, List.mem_cons_self, (List.pairwise_cons.mp hs).1 y hy⟩

/-- **Every list lies between its separators.** -/
theorem between_of_sorted (h : xs.length = ks.length + 1)
    (hs : (interleave xs ks).Pairwise (· ≤ ·)) {i : ℕ} (hk : ks[i]? = some k) :
    (∀ x, xs[i]? = some x → ∀ y ∈ x, y ≤ k) ∧ ∀ x, xs[i + 1]? = some x → ∀ y ∈ x, k ≤ y := by
  induction xs generalizing ks i with
  | nil => cases h
  | cons x xs ih =>
    match ks, h with
    | [], _ => simp at hk
    | k' :: ks, h =>
      obtain ⟨-, htail, hacross⟩ := List.pairwise_append.mp hs
      cases i with
      | zero =>
        obtain rfl : k' = k := by simpa using hk
        refine ⟨fun x' hx' y hy => ?_, fun x' hx' y hy => ?_⟩
        · obtain rfl : x = x' := by simpa using hx'
          exact hacross y hy k' List.mem_cons_self
        · obtain ⟨xs', rfl⟩ : ∃ xs', xs = x' :: xs' := by
            cases xs with
            | nil => simp at hx'
            | cons x'' xs' => exact ⟨xs', by simpa using hx'⟩
          refine (List.pairwise_cons.mp htail).1 y ?_
          rw [interleave_cons]
          exact List.mem_append_left _ hy
      | succ i =>
        have hlen : xs.length = ks.length + 1 := Nat.succ.inj h
        simpa using ih hlen htail.of_cons (by simpa using hk)

end Sorted

/-! ## One key more -/

section Insert

variable [Preorder α] {l l' f g : List α}

/-- **A key is added** at a place where it fits. -/
def InsertsKey (k : α) (l l' : List α) : Prop :=
  ∃ a b, l = a ++ b ∧ l' = a ++ k :: b ∧ (∀ x ∈ a, x ≤ k) ∧ ∀ x ∈ b, k ≤ x

theorem InsertsKey.perm (h : InsertsKey k l l') : l'.Perm (k :: l) := by
  obtain ⟨a, b, rfl, rfl, -, -⟩ := h
  exact List.perm_middle

theorem InsertsKey.sorted (h : InsertsKey k l l') (hl : l.Pairwise (· ≤ ·)) :
    l'.Pairwise (· ≤ ·) := by
  obtain ⟨a, b, rfl, rfl, ha, hb⟩ := h
  obtain ⟨hsa, hsb, hab⟩ := List.pairwise_append.mp hl
  refine List.pairwise_append.mpr ⟨hsa, List.pairwise_cons.mpr ⟨hb, hsb⟩, fun x hx y hy => ?_⟩
  rcases List.mem_cons.mp hy with rfl | hy
  · exact ha x hx
  · exact hab x hx y hy

theorem InsertsKey.between (h : InsertsKey k l l') (hf : ∀ x ∈ f, x ≤ k) (hg : ∀ x ∈ g, k ≤ x) :
    InsertsKey k (f ++ l ++ g) (f ++ l' ++ g) := by
  obtain ⟨a, b, rfl, rfl, ha, hb⟩ := h
  refine ⟨f ++ a, b ++ g, by simp, by simp, fun x hx => ?_, fun x hx => ?_⟩
  · exact (List.mem_append.mp hx).elim (hf x) (ha x)
  · exact (List.mem_append.mp hx).elim (hb x) (hg x)

end Insert

end Logix.Spec
