import Mathlib.Data.List.Basic
import Mathlib.Data.Nat.Notation

/-!
# Chains of linked records

A record of type `α` carries the hash of its predecessor (`prev`) and its own (`cur`), over any
type of hashes.

* `verifyFrom`: the walk that compares each `prev` with the last `cur`;
* `Linked link n es`: record `j` of `es` links `link (n + j)` to `link (n + j + 1)`;
* `swapAt`: swap two adjacent records;
* **`verifyFrom_eraseIdx_iff`, `verifyFrom_swapAt_iff`**: the walk accepts a chain without one
  record, or with two swapped, exactly when the links around that place coincide.
-/

namespace Logix.Chain

variable {α H : Type} [DecidableEq H] (prev cur : α → H)

/-- The walk along the records, expecting `h` first. -/
def verifyFrom (h : H) : List α → Bool
  | [] => true
  | e :: es => decide (prev e = h) && verifyFrom (cur e) es

/-- The records link `link n`, `link (n + 1)`, and so on. -/
def Linked (link : ℕ → H) : ℕ → List α → Prop
  | _, [] => True
  | n, e :: es => prev e = link n ∧ cur e = link (n + 1) ∧ Linked link (n + 1) es

/-- Swap the records at `i` and `i + 1`. -/
def swapAt : ℕ → List α → List α
  | 0, a :: b :: es => b :: a :: es
  | i + 1, a :: es => a :: swapAt i es
  | _, es => es

variable {prev cur} {link : ℕ → H} {n i : ℕ} {es : List α}

theorem verifyFrom_cons {h : H} {e : α} :
    verifyFrom prev cur h (e :: es) = true ↔
      prev e = h ∧ verifyFrom prev cur (cur e) es = true := by
  rw [verifyFrom, Bool.and_eq_true, decide_eq_true_iff]

omit [DecidableEq H] in
theorem Linked.append {e : α} : ∀ {n : ℕ} {es : List α}, Linked prev cur link n es →
    prev e = link (n + es.length) → cur e = link (n + es.length + 1) →
    Linked prev cur link n (es ++ [e])
  | _, [], _, hp, hc => ⟨hp, hc, trivial⟩
  | n, a :: es, h, hp, hc => by
    have hlen : n + (a :: es).length = n + 1 + es.length := by rw [List.length_cons]; omega
    rw [hlen] at hp hc
    exact ⟨h.1, h.2.1, h.2.2.append hp hc⟩

/-- **The walk accepts linked records from their own first link, and from no other.** -/
theorem verifyFrom_iff (hl : Linked prev cur link n es) (h : H) :
    verifyFrom prev cur h es = true ↔ es = [] ∨ link n = h := by
  induction es generalizing n h with
  | nil => simp [verifyFrom]
  | cons e es ih =>
    obtain ⟨hp, hc, hl⟩ := hl
    rw [verifyFrom_cons, hp, hc, ih hl]
    simp

/-- **Deletion.** Without a record that is not the last one, the walk accepts exactly when its two
links are equal. -/
theorem verifyFrom_eraseIdx_iff (hl : Linked prev cur link n es) (hi : i + 1 < es.length) :
    verifyFrom prev cur (link n) (es.eraseIdx i) = true ↔ link (n + i + 1) = link (n + i) := by
  induction es generalizing n i with
  | nil => cases hi
  | cons e es ih =>
    obtain ⟨hp, hc, hl⟩ := hl
    cases i with
    | zero =>
      have hne : es ≠ [] := by rintro rfl; simp at hi
      rw [List.eraseIdx_cons_zero, verifyFrom_iff hl]
      simp [hne]
    | succ i =>
      have hi' : i + 1 < es.length := by simpa using hi
      rw [List.eraseIdx_cons_succ, verifyFrom_cons, hc, ih hl hi']
      rw [show n + 1 + i = n + (i + 1) by omega]
      exact and_iff_right hp

/-- **Swap.** With two adjacent records swapped, the walk accepts exactly when their three links
are equal. -/
theorem verifyFrom_swapAt_iff (hl : Linked prev cur link n es) (hi : i + 1 < es.length) :
    verifyFrom prev cur (link n) (swapAt i es) = true ↔
      link (n + i + 1) = link (n + i) ∧ link (n + i + 2) = link (n + i) := by
  induction es generalizing n i with
  | nil => cases hi
  | cons a es ih =>
    obtain ⟨hpa, hca, hl⟩ := hl
    cases i with
    | zero =>
      cases es with
      | nil => simp at hi
      | cons b es =>
        obtain ⟨hpb, hcb, hl⟩ := hl
        rw [swapAt, verifyFrom_cons, verifyFrom_cons, hpa, hpb, hca, hcb, verifyFrom_iff hl]
        constructor
        · rintro ⟨h1, h2, -⟩
          exact ⟨h1, h2.symm⟩
        · rintro ⟨h1, h2⟩
          exact ⟨h1, h2.symm, Or.inr (h2.trans h1.symm)⟩
    | succ i =>
      have hi' : i + 1 < es.length := by simpa using hi
      rw [swapAt, verifyFrom_cons, hca, ih hl hi']
      rw [show n + 1 + i = n + (i + 1) by omega]
      exact and_iff_right hpa

theorem verifyFrom_modify {f : α → α} (hp : ∀ e, prev (f e) = prev e)
    (hc : ∀ e, cur (f e) = cur e) (h : H) (es : List α) (i : ℕ) :
    verifyFrom prev cur h (es.modify i f) = verifyFrom prev cur h es := by
  induction es generalizing h i with
  | nil => simp
  | cons e es ih =>
    cases i with
    | zero => rw [List.modify_zero_cons, verifyFrom, verifyFrom, hp, hc]
    | succ i => rw [List.modify_succ_cons, verifyFrom, verifyFrom, ih]

end Logix.Chain
