import Logix.Js.Map
import Logix.Js.Set
import Logix.Spec.Grouping
import Mathlib.Data.List.Induction

/-!
# Grouping with a map

A loop that looks up the group of each entry, makes an empty one where there is none, and adds the
entry to it.

* `groupInto`: the loop; `distinct`: the keys, in the order in which they first occur;
* **`entries_groupInto`**: the groups, and what is in them;
* `sum_groups`: they make up the whole.
-/

namespace Logix

variable {α K V : Type} [DecidableEq K]

/-- `if (!map.has(key)) map.set(key, zero)`, and add the entry to the group. -/
def addToGroup (key : α → K) (zero : V) (add : V → α → V) (groups : JsMap K V) (a : α) :
    JsMap K V :=
  (if groups.has (key a) then groups else groups.set (key a) zero).modify (key a) (add · a)

/-- **The groups of a list.** -/
def groupInto (key : α → K) (zero : V) (add : V → α → V) (l : List α) : JsMap K V :=
  l.foldl (addToGroup key zero add) .empty

/-- The entries of a list, each of them once, where it first occurs. -/
def distinct (ks : List K) : List K := (ks.foldl JsSet.add .empty).elements

theorem nodup_distinct (ks : List K) : (distinct ks).Nodup := JsSet.nodup _

theorem mem_distinct {ks : List K} {k : K} : k ∈ distinct ks ↔ k ∈ ks := by
  have h := JsSet.has_foldl_add ks .empty k
  rw [JsSet.has_iff, JsSet.has_empty] at h
  exact h.trans (or_iff_left Bool.false_ne_true)

theorem distinct_concat (ks : List K) (k : K) :
    distinct (ks ++ [k]) = if k ∈ ks then distinct ks else distinct ks ++ [k] := by
  rw [distinct, List.foldl_append, List.foldl_cons, List.foldl_nil, JsSet.elements_add]
  exact if_congr mem_distinct rfl rfl

variable {key : α → K} {zero : V} {add : V → α → V}

/-- What the entries of a key add up to. -/
def groupOf (key : α → K) (zero : V) (add : V → α → V) (l : List α) (k : K) : V :=
  (l.filter fun a => key a = k).foldl add zero

theorem groupInto_concat (l : List α) (a : α) :
    groupInto key zero add (l ++ [a]) = addToGroup key zero add (groupInto key zero add l) a :=
  List.foldl_append

theorem groupOf_concat (l : List α) (a : α) (k : K) :
    groupOf key zero add (l ++ [a]) k =
      if key a = k then add (groupOf key zero add l k) a else groupOf key zero add l k := by
  rw [groupOf, List.filter_append, List.foldl_append]
  by_cases h : key a = k <;> simp [h, groupOf]

theorem keys_addToGroup (groups : JsMap K V) (a : α) :
    (addToGroup key zero add groups a).keys =
      if key a ∈ groups.keys then groups.keys else groups.keys ++ [key a] := by
  rw [addToGroup, JsMap.keys_modify]
  by_cases h : key a ∈ groups.keys
  · have hhas : groups.has (key a) = true := decide_eq_true h
    rw [if_pos h, if_pos hhas]
  · have hhas : ¬ groups.has (key a) = true := fun hhas => h (of_decide_eq_true hhas)
    rw [if_neg h, if_neg hhas, JsMap.keys, JsMap.entries_set_of_fresh h, List.map_append]
    rfl

theorem keys_groupInto (l : List α) : (groupInto key zero add l).keys = distinct (l.map key) := by
  induction l using List.reverseRecOn with
  | nil => rfl
  | append_singleton l a ih =>
    rw [groupInto_concat, keys_addToGroup, ih, List.map_append, List.map_singleton, distinct_concat]
    exact if_congr mem_distinct rfl rfl

theorem get_groupInto {l : List α} {k : K} (h : k ∈ l.map key) :
    (groupInto key zero add l).get k = some (groupOf key zero add l k) := by
  induction l using List.reverseRecOn with
  | nil => cases h
  | append_singleton l a ih =>
    rw [groupInto_concat, groupOf_concat, addToGroup, JsMap.get_modify]
    have hkeys : (groupInto key zero add l).keys = distinct (l.map key) := keys_groupInto l
    by_cases hk : key a = k
    · subst hk
      rw [if_pos rfl, if_pos rfl]
      by_cases hold : key a ∈ l.map key
      · have hhas : (groupInto key zero add l).has (key a) = true := by
          rw [JsMap.has, hkeys, decide_eq_true_eq]
          exact mem_distinct.mpr hold
        rw [if_pos hhas, ih hold]
        rfl
      · have hhas : ¬ (groupInto key zero add l).has (key a) = true := by
          rw [JsMap.has, hkeys, decide_eq_true_eq, mem_distinct]
          exact hold
        have hnone : l.filter (fun b => key b = key a) = [] := by
          refine List.filter_eq_nil_iff.mpr fun b hb hbk => hold ?_
          exact List.mem_map.mpr ⟨b, hb, of_decide_eq_true hbk⟩
        rw [if_neg hhas, JsMap.get_set_self, groupOf, hnone]
        rfl
    · have hold : k ∈ l.map key := by
        rw [List.map_append, List.mem_append] at h
        refine h.resolve_right fun hlast => hk ?_
        exact (List.mem_singleton.mp hlast).symm
      rw [if_neg (Ne.symm hk), if_neg hk]
      split_ifs
      · exact ih hold
      · rw [JsMap.get_set_ne (Ne.symm hk), ih hold]

/-- **The groups**, in the order in which their keys first occur. -/
theorem entries_groupInto (l : List α) :
    (groupInto key zero add l).entries =
      (distinct (l.map key)).map fun k => (k, groupOf key zero add l k) := by
  have hkeys : (groupInto key zero add l).keys = distinct (l.map key) := keys_groupInto l
  rw [← hkeys, JsMap.keys, List.map_map]
  refine (List.map_id _).symm.trans (List.map_congr_left fun e he => ?_)
  have hkey : e.1 ∈ l.map key := by
    rw [← mem_distinct, ← hkeys]
    exact List.mem_map_of_mem he
  have hget : (groupInto key zero add l).get e.1 = some e.2 := JsMap.get_eq_some_iff.mpr he
  rw [get_groupInto hkey] at hget
  exact Prod.ext rfl (Option.some.inj hget).symm

/-- **The groups make up the whole.** -/
theorem sum_groups {M : Type} [AddCommMonoid M] (key : α → K) (f : α → M) (l : List α) :
    ((distinct (l.map key)).map (Spec.groupSum key f l)).sum = (l.map f).sum := by
  rw [← List.sum_toFinset _ (nodup_distinct _)]
  refine Spec.sum_groupSum f fun a ha => ?_
  rw [List.mem_toFinset, mem_distinct]
  exact List.mem_map_of_mem ha

end Logix
