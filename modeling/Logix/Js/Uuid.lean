import Logix.Js.Map

/-!
# Identifiers drawn from a supply

`uuidv4()` is read as the next draw of a `UuidSource`, whose draws are pairwise distinct.

* `Issued u n m`: every key of the table `m` is one of the first `n` draws of `u`;
* `Issued.fresh`: the next draw is then not a key, so storing under it appends
  (`Issued.set_draw`, `Issued.modify`).
-/

namespace Logix

/-- **A supply of v4 UUIDs**: the `n`-th draw, pairwise distinct. -/
structure UuidSource where
  draw : ℕ → String
  distinct : Function.Injective draw

namespace UuidSource

/-- The supply `id`, `idx`, `idxx`, … -/
def unary : UuidSource where
  draw n := String.ofList ('i' :: 'd' :: List.replicate n 'x')
  distinct a b h := by
    have := congrArg List.length (String.ofList_injective h)
    simpa using this

variable {V : Type}

/-- Every key of `m` is one of the first `n` draws. -/
def Issued (u : UuidSource) (n : ℕ) (m : JsMap String V) : Prop :=
  ∀ k ∈ m.keys, ∃ i < n, u.draw i = k

variable {u : UuidSource} {n : ℕ} {m : JsMap String V}

theorem Issued.empty (u : UuidSource) (n : ℕ) : u.Issued n (JsMap.empty : JsMap String V) :=
  fun _ hk => absurd hk List.not_mem_nil

/-- **The next draw is not in use.** -/
theorem Issued.fresh (h : u.Issued n m) {j : ℕ} (hj : n ≤ j) : u.draw j ∉ m.keys := fun hk => by
  obtain ⟨i, hi, he⟩ := h _ hk
  have := u.distinct he
  omega

theorem Issued.mono (h : u.Issued n m) {j : ℕ} (hj : n ≤ j) : u.Issued j m := fun k hk => by
  obtain ⟨i, hi, he⟩ := h k hk
  exact ⟨i, by omega, he⟩

theorem Issued.set_draw (h : u.Issued n m) (v : V) : u.Issued (n + 1) (m.set (u.draw n) v) := by
  intro k hk
  rcases JsMap.mem_keys_set.mp hk with rfl | hk
  · exact ⟨n, by omega, rfl⟩
  · exact h.mono (Nat.le_succ n) k hk

theorem Issued.modify (h : u.Issued n m) (k : String) (f : V → V) : u.Issued n (m.modify k f) := by
  intro k' hk
  rw [JsMap.keys_modify] at hk
  exact h k' hk

end UuidSource

end Logix
