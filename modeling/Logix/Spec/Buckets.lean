import Mathlib.Data.List.Nodup
import Mathlib.Data.List.Perm.Basic

/-!
# Buckets

* `bucket key l k`: the entries of `l` with the key `k`;
* **`flatMap_bucket_perm`**: the buckets of all keys, one after another, hold every entry once.
-/

namespace Logix.Spec

variable {α κ : Type} [DecidableEq κ] {key : α → κ} {keys : List κ} {l : List α}

/-- The entries with the key `k`, in their order. -/
def bucket (key : α → κ) (l : List α) (k : κ) : List α := l.filter fun a => key a = k

theorem mem_bucket {k : κ} {a : α} : a ∈ bucket key l k ↔ a ∈ l ∧ key a = k := by
  rw [bucket, List.mem_filter, decide_eq_true_eq]

theorem bucket_append (key : α → κ) (l l' : List α) (k : κ) :
    bucket key (l ++ l') k = bucket key l k ++ bucket key l' k := List.filter_append _ _

theorem bucket_singleton_self {k : κ} {a : α} (h : key a = k) : bucket key [a] k = [a] :=
  List.filter_cons_of_pos (decide_eq_true h)

theorem bucket_singleton_ne {k : κ} {a : α} (h : key a ≠ k) : bucket key [a] k = [] :=
  List.filter_cons_of_neg (mt of_decide_eq_true h)

theorem bucket_filter_ne {k k' : κ} (h : k' ≠ k) (key : α → κ) (l : List α) :
    bucket key (l.filter fun a => key a ≠ k) k' = bucket key l k' := by
  rw [bucket, List.filter_filter, bucket]
  refine List.filter_congr fun a _ => ?_
  by_cases ha : key a = k' <;> simp [ha, h]

/-- **The buckets of all keys hold every entry once.** -/
theorem flatMap_bucket_perm (hnodup : keys.Nodup) (hkeys : ∀ a ∈ l, key a ∈ keys) :
    (keys.flatMap (bucket key l)).Perm l := by
  induction keys generalizing l with
  | nil => rw [List.eq_nil_iff_forall_not_mem.mpr fun a ha => List.not_mem_nil (hkeys a ha)]; rfl
  | cons k keys ih =>
    obtain ⟨hk, hnodup⟩ := List.nodup_cons.mp hnodup
    have hothers : keys.flatMap (bucket key l) =
        keys.flatMap (bucket key (l.filter fun a => key a ≠ k)) := by
      refine List.flatMap_congr fun k' hk' => ?_
      have hne : k' ≠ k := by
        rintro rfl
        exact hk hk'
      exact (bucket_filter_ne hne key l).symm
    have hperm := ih (l := l.filter fun a => key a ≠ k) hnodup fun a ha => by
      obtain ⟨hmem, hne⟩ := List.mem_filter.mp ha
      exact (List.mem_cons.mp (hkeys a hmem)).resolve_left (of_decide_eq_true hne)
    rw [List.flatMap_cons, hothers]
    refine (hperm.append_left _).trans ?_
    have hsplit := List.filter_append_perm (fun a => decide (key a = k)) l
    simpa only [bucket, decide_not] using hsplit

end Logix.Spec
