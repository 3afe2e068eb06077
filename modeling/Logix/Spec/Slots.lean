import Logix.Spec.Machine

/-!
# Machines with a slot for each key

Every call has a key, and reads and writes the slot of this key only. So the calls of one key run a
machine of their own.

* `entries`: the calls of a record and their results; `entriesOf`: those of one key;
* `Machine.Slotted`: the slots of a machine, each of them a state of another machine;
* **`Slotted.slot_run`**, **`Slotted.entriesOf_history`**: a run, seen at one key, is the run of the
  calls of this key;
* `Slotted.entriesOf_filter`: the calls of other keys may be left out.
-/

namespace Logix.Spec

variable {σ τ ι ρ κ : Type} [DecidableEq κ]

/-- The calls of a record, and their results. -/
def entries (es : List (Event σ ι ρ)) : List (ι × ρ) := es.map fun e => (e.input, e.result)

/-- The calls of the key `k`, and their results. -/
def entriesOf (key : ι → κ) (k : κ) (es : List (Event σ ι ρ)) : List (ι × ρ) :=
  (entries es).filter fun e => key e.1 = k

namespace Machine

/-- **A machine with slots**: a call works on the slot of its key as `N` does, and leaves the other
slots as they are. -/
structure Slotted (M : Machine σ ι ρ) (N : Machine τ ι ρ) (key : ι → κ) (slot : κ → σ → τ) :
    Prop where
  own : ∀ s i, N.call i (slot (key i) s) = (slot (key i) (M.next s i), (M.call i s).2)
  other : ∀ s i k, k ≠ key i → slot k (M.next s i) = slot k s

namespace Slotted

variable {M : Machine σ ι ρ} {N : Machine τ ι ρ} {key : ι → κ} {slot : κ → σ → τ}

omit [DecidableEq κ] in
theorem next_slot (h : M.Slotted N key slot) {k : κ} {i : ι} (hk : key i = k) (s : σ) :
    N.next (slot k s) i = slot k (M.next s i) := by
  subst hk
  exact congrArg Prod.fst (h.own s i)

omit [DecidableEq κ] in
theorem result_slot (h : M.Slotted N key slot) {k : κ} {i : ι} (hk : key i = k) (s : σ) :
    (N.call i (slot k s)).2 = (M.call i s).2 := by
  subst hk
  exact congrArg Prod.snd (h.own s i)

/-- **The slot of a key after a run** is that after the calls of the key. -/
theorem slot_run (h : M.Slotted N key slot) (s : σ) (is : List ι) (k : κ) :
    slot k (M.run s is) = N.run (slot k s) (is.filter fun i => key i = k) := by
  induction is generalizing s with
  | nil => rfl
  | cons i is ih =>
    have hrun : M.run s (i :: is) = M.run (M.next s i) is := rfl
    rw [hrun, ih]
    by_cases hk : key i = k
    · rw [List.filter_cons_of_pos (by simpa using hk), ← h.next_slot hk]
      rfl
    · rw [List.filter_cons_of_neg (by simpa using hk), h.other s i k (Ne.symm hk)]

/-- **The calls of a key and their results** are those of a run of their own. -/
theorem entriesOf_history (h : M.Slotted N key slot) (s : σ) (is : List ι) (k : κ) :
    entriesOf key k (M.history s is) =
      entries (N.history (slot k s) (is.filter fun i => key i = k)) := by
  induction is generalizing s with
  | nil => rfl
  | cons i is ih =>
    have hhistory : entries (M.history s (i :: is)) =
        (i, (M.call i s).2) :: entries (M.history (M.next s i) is) := rfl
    rw [entriesOf, hhistory]
    by_cases hk : key i = k
    · rw [List.filter_cons_of_pos (by simpa using hk), ← h.result_slot hk, ← entriesOf, ih,
        ← h.next_slot hk, List.filter_cons_of_pos (by simpa using hk)]
      rfl
    · rw [List.filter_cons_of_neg (by simpa using hk), ← entriesOf, ih,
        List.filter_cons_of_neg (by simpa using hk), h.other s i k (Ne.symm hk)]

/-- **The calls of other keys may be left out** of a run. -/
theorem entriesOf_filter (h : M.Slotted N key slot) (s : σ) (is : List ι) (k : κ) :
    entriesOf key k (M.history s is) =
      entries (M.history s (is.filter fun i => key i = k)) := by
  have hall : ∀ e ∈ entries (M.history s (is.filter fun i => key i = k)), key e.1 = k := by
    intro e he
    obtain ⟨event, hevent, rfl⟩ := List.mem_map.mp he
    exact of_decide_eq_true (List.mem_filter.mp (input_mem_of_mem_history hevent)).2
  have hfilter : entriesOf key k (M.history s (is.filter fun i => key i = k)) =
      entries (M.history s (is.filter fun i => key i = k)) :=
    List.filter_eq_self.mpr fun e he => decide_eq_true (hall e he)
  rw [← hfilter, h.entriesOf_history, h.entriesOf_history, List.filter_filter]
  simp only [Bool.and_self]

theorem slot_run_filter (h : M.Slotted N key slot) (s : σ) (is : List ι) (k : κ) :
    slot k (M.run s is) = slot k (M.run s (is.filter fun i => key i = k)) := by
  rw [h.slot_run, h.slot_run, List.filter_filter]
  simp only [Bool.and_self]

end Slotted

end Machine

end Logix.Spec
