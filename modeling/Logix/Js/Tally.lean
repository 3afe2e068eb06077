import Logix.Js.Map
import Mathlib.Data.List.Induction

/-!
# Counting with a map

`counts.set(k, (counts.get(k) || 0) + 1)`, for one key after another.

* `JsMap.bump`, `tally`: the code; `occurrences`: what it counts;
* **`get_tally`**: a map that was filled so holds how often each key occurs.
-/

namespace Logix

variable {K : Type} [DecidableEq K]

/-- `counts.set(k, (counts.get(k) || 0) + 1)`. -/
def JsMap.bump (counts : JsMap K ℕ) (k : K) : JsMap K ℕ := counts.set k ((counts.get k).getD 0 + 1)

/-- **The counts of keys.** -/
def tally (ks : List K) : JsMap K ℕ := ks.foldl JsMap.bump .empty

theorem tally_append (ks ks' : List K) : tally (ks ++ ks') = ks'.foldl JsMap.bump (tally ks) :=
  List.foldl_append

/-- How often a key occurs. -/
def occurrences (ks : List K) (k : K) : ℕ := ks.countP fun k' => k' = k

@[simp] theorem occurrences_nil (k : K) : occurrences [] k = 0 := rfl

theorem occurrences_append (ks ks' : List K) (k : K) :
    occurrences (ks ++ ks') k = occurrences ks k + occurrences ks' k :=
  List.countP_append

theorem occurrences_pos {ks : List K} {k : K} : 0 < occurrences ks k ↔ k ∈ ks := by
  simp [occurrences, List.countP_pos_iff]

/-- **A key is counted** as often as it occurs. -/
theorem get_tally (ks : List K) (k : K) :
    (tally ks).get k = if occurrences ks k = 0 then none else some (occurrences ks k) := by
  induction ks using List.reverseRecOn with
  | nil => rfl
  | append_singleton ks k' ih =>
    rw [tally_append, List.foldl_cons, List.foldl_nil, JsMap.bump, JsMap.get_set,
      occurrences_append]
    by_cases h : k = k'
    · subst h
      have hlast : occurrences [k] k = 1 := by simp [occurrences]
      rw [if_pos rfl, ih, hlast, if_neg (Nat.succ_ne_zero _)]
      split_ifs with hzero
      · rw [hzero, Option.getD_none]
      · rw [Option.getD_some]
    · have hlast : occurrences [k'] k = 0 := by simp [occurrences, Ne.symm h]
      rw [if_neg h, ih, hlast, Nat.add_zero]

theorem mem_entries_tally {ks : List K} {k : K} {n : ℕ} :
    (k, n) ∈ (tally ks).entries ↔ n = occurrences ks k ∧ 0 < n := by
  rw [← JsMap.get_eq_some_iff, get_tally]
  split_ifs with h
  · rw [h]
    exact iff_of_false (by simp) fun hn => hn.2.ne' hn.1
  · rw [Option.some.injEq, eq_comm]
    exact (and_iff_left_of_imp fun hn => hn ▸ Nat.pos_of_ne_zero h).symm

end Logix
