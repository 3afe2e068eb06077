import Logix.Spec.LastWrite
import Logix.Trees.BPlus
import Mathlib.Data.List.Nodup
import Mathlib.Data.List.Perm.Basic

/-!
# When the B+ tree index is a map

* `leafOf`, `leafEntries`: while the root is a leaf, its arrays are the inserts, sorted by key;
* `IsMap t ws`: in every state of the run that inserts `ws`, `search` answers as the map of the
  last writes;
* `Benign t ws`: no insert splits a leaf, and no key is inserted again with another value;
* `search_separator`: the first split loses its separator;
* **`search_insertAll`**: a benign run is a map, and among the runs with different keys, or
  without a split, only the benign ones are;
* `lost_separator`: four inserts of order two.
-/

namespace Logix.Trees.BPlusTreeDatabaseIndex

open Spec BPlusTreeNode

variable {K V : Type} [LinearOrder K]

/-- Equal keys carry equal values. -/
def Consistent (ws : List (K × V)) : Prop :=
  ∀ k v v', (k, v) ∈ ws → (k, v') ∈ ws → v = v'

/-- **No insert splits a leaf**, and no key is inserted again with another value. -/
def Benign (t : ℕ) (ws : List (K × V)) : Prop := ws.length ≤ 2 * t - 1 ∧ Consistent ws

/-- **In every state of the run**, `search` answers as the map of the last writes. -/
def IsMap (t : ℕ) (ws : List (K × V)) : Prop :=
  ∀ pre, pre <+: ws → ∃ ix, writeAll insert (new K V t) pre = some ix ∧
    ∀ k, ix.search k = some (.ofOption (lastWrite pre k))

/-! ## A root that is a leaf -/

/-- The index whose root is a leaf with these entries. -/
def leafOf (t : ℕ) (es : List (K × V)) : BPlusTreeDatabaseIndex K V :=
  ⟨t, ⟨true, es.map Prod.fst, es.map Prod.snd, []⟩⟩

/-- An insert into the entries of a leaf. -/
def leafInsert (es : List (K × V)) (w : K × V) : List (K × V) :=
  spliceIn es (insertIdx (es.map Prod.fst) w.1) w

/-- The entries of a leaf after the inserts `ws`. -/
def leafEntries (ws : List (K × V)) : List (K × V) := ws.foldl leafInsert []

theorem map_spliceIn {α β : Type} (f : α → β) (xs : List α) (i : ℕ) (x : α) :
    (spliceIn xs i x).map f = spliceIn (xs.map f) i (f x) := by
  simp [spliceIn, List.map_take, List.map_drop]

theorem spliceIn_perm {α : Type} (xs : List α) (i : ℕ) (x : α) :
    (spliceIn xs i x).Perm (x :: xs) := by
  unfold spliceIn
  refine List.perm_middle.trans ?_
  rw [List.take_append_drop]

theorem leafEntries_perm (ws : List (K × V)) : (leafEntries ws).Perm ws := by
  induction ws using List.reverseRecOn with
  | nil => exact .nil
  | append_singleton ws w ih =>
    unfold leafEntries
    rw [List.foldl_concat]
    exact (spliceIn_perm _ _ _).trans ((ih.cons w).trans (List.perm_append_singleton w ws).symm)

theorem insert_leafOf {t : ℕ} {es : List (K × V)} (h : es.length ≠ 2 * t - 1) (w : K × V) :
    (leafOf t es).insert w.1 w.2 = some (leafOf t (leafInsert es w)) := by
  unfold insert
  rw [if_neg (by simpa [leafOf] using h)]
  simp [leafOf, insertNonFull, leafInsert, map_spliceIn]

theorem writeAll_insert {t : ℕ} {ws : List (K × V)} (h : ws.length ≤ 2 * t - 1) :
    writeAll insert (new K V t) ws = some (leafOf t (leafEntries ws)) := by
  induction ws using List.reverseRecOn with
  | nil => rfl
  | append_singleton ws w ih =>
    rw [List.length_append, List.length_singleton] at h
    have hlen : (leafEntries ws).length ≠ 2 * t - 1 := by
      rw [(leafEntries_perm ws).length_eq]
      omega
    rw [writeAll_concat, ih (by omega), Option.bind_some, insert_leafOf hlen, leafEntries,
      leafEntries, List.foldl_concat]

theorem searchLeaf_entries (es : List (K × V)) (cs : List (BPlusTreeNode K V)) (k : K) :
    searchLeaf ⟨true, es.map Prod.fst, es.map Prod.snd, cs⟩ k =
      .ofOption ((es.find? fun e => e.1 = k).map Prod.snd) := by
  induction es with
  | nil => rfl
  | cons e es ih =>
    unfold searchLeaf at ih ⊢
    rw [List.map_cons, List.map_cons, List.findIdx?_cons, List.find?_cons]
    by_cases h : e.1 = k
    · simp [h, SearchResult.ofOption]
    · simp only [h, decide_false, Bool.false_eq_true, if_false, ← ih]
      cases (es.map Prod.fst).findIdx? fun k' => decide (k' = k) with
      | none => rfl
      | some i => rfl

theorem search_leafOf (t : ℕ) (es : List (K × V)) (k : K) : (leafOf t es).search k =
    some (.ofOption ((es.find? fun e => e.1 = k).map Prod.snd)) := by
  rw [← searchLeaf_entries es [] k]
  rfl

omit [LinearOrder K] in
theorem Consistent.initial {pre ws : List (K × V)} (h : Consistent ws) (hp : pre <+: ws) :
    Consistent pre :=
  fun k v v' hv hv' => h k v v' (hp.subset hv) (hp.subset hv')

theorem find_leafEntries {ws : List (K × V)} (h : Consistent ws) (k : K) :
    ((leafEntries ws).find? fun e => e.1 = k).map Prod.snd = lastWrite ws k := by
  cases hf : (leafEntries ws).find? fun e => decide (e.1 = k) with
  | none =>
    rw [List.find?_eq_none] at hf
    refine (lastWrite_eq_none_iff.mpr fun v hv => ?_).symm
    simpa using hf (k, v) ((leafEntries_perm ws).mem_iff.mpr hv)
  | some e =>
    have hk : e.1 = k := by simpa using List.find?_some hf
    have he : (k, e.2) ∈ ws := by
      rw [← hk]
      exact (leafEntries_perm ws).mem_iff.mp (List.mem_of_find?_eq_some hf)
    cases hl : lastWrite ws k with
    | none => exact absurd he (lastWrite_eq_none_iff.mp hl e.2)
    | some v => exact congrArg some (h k e.2 v he (mem_of_lastWrite hl))

theorem isMap_of_benign {t : ℕ} {ws : List (K × V)} (h : Benign t ws) : IsMap t ws := by
  intro pre hpre
  have hlen : pre.length ≤ 2 * t - 1 := hpre.length_le.trans h.1
  refine ⟨_, writeAll_insert hlen, fun k => ?_⟩
  rw [search_leafOf, find_leafEntries (h.2.initial hpre)]

/-! ## A key that comes back with another value -/

theorem lt_of_mem_drop {keys : List K} {k k' : K} (h : k' ∈ keys.drop (insertIdx keys k)) :
    k < k' := by
  have hsplit := List.rdropWhile_append_rtakeWhile (p := fun x => decide (k < x)) (l := keys)
  have hdrop : keys.drop (insertIdx keys k) = keys.rtakeWhile fun x => decide (k < x) := by
    have := @List.drop_left _ (keys.rdropWhile fun x => decide (k < x))
      (keys.rtakeWhile fun x => decide (k < x))
    rwa [hsplit] at this
  rw [hdrop] at h
  simpa using List.mem_rtakeWhile_imp h

theorem find_leafInsert {es : List (K × V)} {k : K} {v v' : V} (h : (k, v') ∈ es) :
    ∃ e ∈ es, e.1 = k ∧ (leafInsert es (k, v)).find? (fun e => e.1 = k) = some e := by
  have hmem : (k, v') ∈ es.take (insertIdx (es.map Prod.fst) k) := by
    rw [← List.take_append_drop (insertIdx (es.map Prod.fst) k) es] at h
    refine (List.mem_append.mp h).resolve_right fun hd => ?_
    have hk : k ∈ (es.map Prod.fst).drop (insertIdx (es.map Prod.fst) k) := by
      rw [← List.map_drop]
      exact List.mem_map_of_mem (f := Prod.fst) hd
    exact lt_irrefl k (lt_of_mem_drop hk)
  cases hf : (es.take (insertIdx (es.map Prod.fst) k)).find? fun e => decide (e.1 = k) with
  | none => exact absurd (List.find?_eq_none.mp hf _ hmem) (by simp)
  | some e =>
    refine ⟨e, List.mem_of_mem_take (List.mem_of_find?_eq_some hf),
      by simpa using List.find?_some hf, ?_⟩
    simp [leafInsert, spliceIn, List.find?_append, hf]

theorem IsMap.initial {t : ℕ} {pre ws : List (K × V)} (h : IsMap t ws) (hp : pre <+: ws) :
    IsMap t pre :=
  fun q hq => h q (hq.trans hp)

theorem consistent_of_isMap {t : ℕ} {ws : List (K × V)} (hlen : ws.length ≤ 2 * t - 1)
    (h : IsMap t ws) : Consistent ws := by
  induction ws using List.reverseRecOn with
  | nil => exact fun k v v' hv => absurd hv List.not_mem_nil
  | append_singleton ws w ih =>
    obtain ⟨k, v⟩ := w
    have hpre : ws <+: ws ++ [(k, v)] := List.prefix_append _ _
    have hws : Consistent ws := ih (hpre.length_le.trans hlen) (h.initial hpre)
    -- an old value of `k` is the new one
    have hold : ∀ v', (k, v') ∈ ws → v' = v := by
      intro v' hv'
      obtain ⟨ix, hix, hs⟩ := h _ (List.prefix_refl _)
      rw [writeAll_insert hlen] at hix
      have hk := hs k
      rw [← Option.some.inj hix, search_leafOf, lastWrite_concat, Function.update_self,
        leafEntries, List.foldl_concat] at hk
      obtain ⟨e, he, hek, hf⟩ := find_leafInsert (v := v)
        ((leafEntries_perm ws).mem_iff.mpr hv')
      rw [leafEntries] at hf
      rw [hf] at hk
      have hev : e.2 = v := by simpa [SearchResult.ofOption] using hk
      have hmem : (k, e.2) ∈ ws := by
        rw [← hek]
        exact (leafEntries_perm ws).mem_iff.mp he
      exact (hws k v' e.2 hv' hmem).trans hev
    intro k' a b ha hb
    rcases List.mem_append.mp ha with ha | ha <;> rcases List.mem_append.mp hb with hb | hb
    · exact hws k' a b ha hb
    · cases List.mem_singleton.mp hb
      exact hold a ha
    · cases List.mem_singleton.mp ha
      exact (hold b hb).symm
    · cases List.mem_singleton.mp ha
      cases List.mem_singleton.mp hb
      rfl

/-! ## The first split -/

/-- A leaf with these arrays. -/
def leaf (keys : List K) (values : List V) : BPlusTreeNode K V := ⟨true, keys, values, []⟩

/-- The tree after the first split: the separator and two leaves. -/
def splitRoot (s : K) (l r : BPlusTreeNode K V) : BPlusTreeNode K V := ⟨false, [s], [], [l, r]⟩

/-- An insert into a leaf. -/
def leafNode (node : BPlusTreeNode K V) (k : K) (v : V) : BPlusTreeNode K V :=
  { node with
    keys := spliceIn node.keys (insertIdx node.keys k) k
    values := spliceIn node.values (insertIdx node.keys k) v }

omit [LinearOrder K] in
theorem splitChild_leaf {t : ℕ} {keys : List K} {s : K} (hs : keys[t - 1]? = some s)
    (values : List V) :
    splitChild t ⟨false, [], [], [leaf keys values]⟩ 0 (leaf keys values) =
      some (splitRoot s (leaf (keys.take t).dropLast (values.take (t - 1)))
        (leaf (keys.drop t) (values.drop (t - 1)))) := by
  simp [splitChild, leaf, hs, spliceIn, splitRoot]

theorem insertNonFull_splitRoot {t n : ℕ} {s k : K} {l r : BPlusTreeNode K V} (v : V)
    (hl : l.isLeaf = true) (hr : r.isLeaf = true) (hlt : l.keys.length ≠ 2 * t - 1)
    (hrt : r.keys.length ≠ 2 * t - 1) :
    insertNonFull t (n + 2) (splitRoot s l r) k v =
      some (if k < s then splitRoot s (leafNode l k v) r else splitRoot s l (leafNode r k v)) := by
  unfold insertNonFull splitRoot
  by_cases h : k < s
  · simp [h, insertIdx, List.rdropWhile, hlt, insertNonFull, hl, leafNode]
  · simp [h, insertIdx, List.rdropWhile, hrt, insertNonFull, hr, leafNode]

theorem searchLoop_splitRoot {n : ℕ} {s : K} {l r : BPlusTreeNode K V} (hr : r.isLeaf = true)
    (hs : s ∉ r.keys) : searchLoop (n + 2) (splitRoot s l r) s = some .null := by
  have hnone : r.keys.findIdx? (fun k => decide (k = s)) = none := by
    rw [List.findIdx?_eq_none_iff]
    intro k hk
    simpa using fun h : k = s => hs (h ▸ hk)
  simp [searchLoop, splitRoot, childIdx, hr, searchLeaf, hnone]

/-- **A split leaf loses its separator**: whatever key comes next, `search` of the separator goes
to the right and does not find it. -/
theorem search_separator {t : ℕ} (ht : 2 ≤ t) {es : List (K × V)} (hes : es.length = 2 * t - 1)
    (hnd : (es.map Prod.fst).Nodup) {w : K × V} (hw : w.1 ∉ es.map Prod.fst) :
    ∃ s ∈ es.map Prod.fst, ∀ ix, (leafOf t es).insert w.1 w.2 = some ix →
      ix.search s = some .null := by
  have hlen : (es.map Prod.fst).length = 2 * t - 1 := by rw [List.length_map, hes]
  have hlt : t - 1 < (es.map Prod.fst).length := by omega
  obtain ⟨s, hs⟩ : ∃ s, (es.map Prod.fst)[t - 1]? = some s := ⟨_, List.getElem?_eq_getElem hlt⟩
  have hmem : s ∈ es.map Prod.fst := List.mem_of_getElem? hs
  have hws : s ≠ w.1 := fun h => hw (h ▸ hmem)
  -- the separator is not in the right leaf
  have hright : s ∉ (es.map Prod.fst).drop t := by
    intro hd
    obtain ⟨j, hj⟩ := List.mem_iff_getElem?.mp hd
    rw [List.getElem?_drop] at hj
    have := (List.getElem?_inj hlt hnd).mp (hs.trans hj.symm)
    omega
  refine ⟨s, hmem, fun ix hix => ?_⟩
  unfold insert at hix
  rw [if_pos (by simpa [leafOf] using hes)] at hix
  have hsplit := splitChild_leaf hs (es.map Prod.snd)
  unfold leaf at hsplit
  simp only [leafOf] at hix
  rw [hsplit, Option.bind_some] at hix
  change Option.map _ (insertNonFull t (0 + 2) _ w.1 w.2) = some ix at hix
  rw [insertNonFull_splitRoot w.2 rfl rfl (by simp; omega) (by simp; omega)] at hix
  rw [← Option.some.inj hix]
  by_cases hk : w.1 < s
  · rw [if_pos hk]
    exact searchLoop_splitRoot (n := 0) rfl hright
  · rw [if_neg hk]
    refine searchLoop_splitRoot (n := 0) rfl fun hm => ?_
    rcases List.mem_cons.mp ((spliceIn_perm _ _ _).mem_iff.mp hm) with h | h
    · exact hws h
    · exact hright h

theorem length_le_of_isMap {t : ℕ} (ht : 2 ≤ t) {ws : List (K × V)}
    (hnd : (ws.map Prod.fst).Nodup) (h : IsMap t ws) : ws.length ≤ 2 * t - 1 := by
  by_contra hlen
  have hlt : 2 * t - 1 < ws.length := by omega
  -- the insert that splits the full leaf
  have htake : ws.take (2 * t) = ws.take (2 * t - 1) ++ [ws[2 * t - 1]] := by
    rw [List.take_append_getElem hlt]
    congr 1
    omega
  have hperm := leafEntries_perm (ws.take (2 * t - 1))
  have hkeys : (ws.take (2 * t)).map Prod.fst =
      (ws.take (2 * t - 1)).map Prod.fst ++ [ws[2 * t - 1].1] := by
    rw [htake, List.map_append, List.map_singleton]
  have hnd' : ((ws.take (2 * t)).map Prod.fst).Nodup :=
    hnd.sublist ((List.take_sublist _ _).map _)
  rw [hkeys, List.nodup_append] at hnd'
  have hpermk := hperm.map Prod.fst
  have hfull : (leafEntries (ws.take (2 * t - 1))).length = 2 * t - 1 := by
    rw [hperm.length_eq, List.length_take]
    omega
  have hfresh : ws[2 * t - 1].1 ∉ (leafEntries (ws.take (2 * t - 1))).map Prod.fst := fun hm =>
    hnd'.2.2 _ (hpermk.mem_iff.mp hm) _ (List.mem_singleton_self _) rfl
  obtain ⟨s, hs, hnull⟩ := search_separator ht hfull (hpermk.nodup_iff.mpr hnd'.1) hfresh
  obtain ⟨ix, hix, hsearch⟩ := h _ (List.take_prefix (2 * t) ws)
  rw [htake, writeAll_concat, writeAll_insert (by rw [List.length_take]; omega),
    Option.bind_some] at hix
  have hk := hsearch s
  rw [hnull ix hix] at hk
  cases hl : lastWrite (ws.take (2 * t)) s with
  | some v => rw [hl] at hk; simp [SearchResult.ofOption] at hk
  | none =>
    obtain ⟨e, he, rfl⟩ := List.mem_map.mp (hpermk.mem_iff.mp hs)
    refine lastWrite_eq_none_iff.mp hl e.2 ?_
    rw [htake]
    exact List.mem_append_left _ he

/-- **The index as a map.** A run in which no insert splits a leaf and no key is inserted again
with another value is a map in all its states; of the runs with pairwise different keys, and of
those without a split, no other is. -/
theorem search_insertAll (t : ℕ) (ht : 2 ≤ t) (ws : List (K × V)) :
    (Benign t ws → IsMap t ws) ∧
      ((ws.map Prod.fst).Nodup ∨ ws.length ≤ 2 * t - 1 → IsMap t ws → Benign t ws) := by
  refine ⟨isMap_of_benign, fun hor h => ?_⟩
  have hlen : ws.length ≤ 2 * t - 1 := hor.elim (fun hnd => length_le_of_isMap ht hnd h) id
  exact ⟨hlen, consistent_of_isMap hlen h⟩

/-- Three inserts of order two are a map, four are not. -/
theorem search_insertAll_two :
    IsMap 2 [(1, 10), (2, 20), (3, 30)] ∧ ¬ IsMap 2 [(1, 10), (2, 20), (3, 30), (4, 40)] := by
  refine ⟨(search_insertAll 2 le_rfl _).1 ⟨by decide, ?_⟩, fun h => ?_⟩
  · intro k v v' h h'
    simp only [List.mem_cons, Prod.mk.injEq, List.not_mem_nil, or_false] at h h'
    omega
  · have := (search_insertAll 2 le_rfl _).2 (Or.inl (by decide)) h
    exact absurd this.1 (by decide)

/-- **A lost key**: after the inserts of 1, 2, 3 and 4 in an index of order two, `search(2)` is
`null`. -/
theorem lost_separator :
    (writeAll insert (new ℕ ℕ 2) [(1, 10), (2, 20), (3, 30), (4, 40)]).bind
      (fun ix => ix.search 2) = some .null ∧
    lastWrite [(1, 10), (2, 20), (3, 30), (4, 40)] 2 = some 20 := by
  decide

end Logix.Trees.BPlusTreeDatabaseIndex
