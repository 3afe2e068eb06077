import Mathlib.Algebra.BigOperators.Group.List.Basic
import Mathlib.Algebra.Order.BigOperators.Group.List
import Mathlib.Data.List.Nodup
import Mathlib.Tactic.Abel

/-!
# Insertion-ordered maps

`JsMap K V` is the ECMAScript `Map`: its entries in insertion order, at most one for each key.

* `get`, `has`, `set`, `delete` and `modify`, where `modify k f` is a mutation of the object stored
  under `k` through a reference to it;
* `get_set`, `get_modify`, `get_delete`: what a lookup sees after an update;
* `Apart r m`: a relation between the values under different keys (`apart_set_iff`);
* `total f m`: the sum of `f` over the values, and how `set` (`total_set_of_fresh`) and
  `modify` (`total_modify`) change it.
-/

namespace Logix

/-- **An ECMAScript `Map`.** -/
structure JsMap (K V : Type) where
  entries : List (K × V)
  nodup : (entries.map Prod.fst).Nodup
  deriving DecidableEq

namespace JsMap

variable {K V : Type}

@[ext] theorem ext {m m' : JsMap K V} (h : m.entries = m'.entries) : m = m' := by
  cases m
  cases h
  rfl

/-- The empty map. -/
def empty : JsMap K V := ⟨[], List.nodup_nil⟩

/-- The keys, in insertion order. -/
def keys (m : JsMap K V) : List K := m.entries.map Prod.fst

/-- The values, in insertion order. -/
def values (m : JsMap K V) : List V := m.entries.map Prod.snd

/-- The number of entries. -/
def size (m : JsMap K V) : ℕ := m.entries.length

theorem mem_values {m : JsMap K V} {v : V} : v ∈ m.values ↔ ∃ k, (k, v) ∈ m.entries := by
  simp [values]

theorem mem_keys {m : JsMap K V} {k : K} : k ∈ m.keys ↔ ∃ v, (k, v) ∈ m.entries := by
  simp [keys]

variable [DecidableEq K]

/-- `get(k)`. -/
def get (m : JsMap K V) (k : K) : Option V := (m.entries.find? fun e => e.1 = k).map Prod.snd

/-- `has(k)`. -/
def has (m : JsMap K V) (k : K) : Bool := decide (k ∈ m.keys)

/-- Mutate the object stored under `k`. -/
def modify (m : JsMap K V) (k : K) (f : V → V) : JsMap K V where
  entries := m.entries.map fun e => if e.1 = k then (e.1, f e.2) else e
  nodup := by
    have h : (Prod.fst ∘ fun e : K × V => if e.1 = k then (e.1, f e.2) else e) = Prod.fst := by
      funext e
      by_cases he : e.1 = k <;> simp [he]
    rw [List.map_map, h]
    exact m.nodup

/-- Append an entry whose key is not present. -/
def append (m : JsMap K V) (k : K) (v : V) (h : k ∉ m.keys) : JsMap K V where
  entries := m.entries ++ [(k, v)]
  nodup := by
    rw [List.map_append, List.map_singleton]
    exact List.Nodup.append m.nodup (List.nodup_singleton k)
      (List.disjoint_singleton.mpr h)

/-- `set(k, v)`: replace in place, or append. -/
def set (m : JsMap K V) (k : K) (v : V) : JsMap K V :=
  if h : k ∈ m.keys then m.modify k fun _ => v else m.append k v h

/-- `delete(k)`. -/
def delete (m : JsMap K V) (k : K) : JsMap K V where
  entries := m.entries.filter fun e => e.1 ≠ k
  nodup := m.nodup.sublist (List.filter_sublist.map _)

/-! ## Lookups -/

theorem get_eq_some_iff {m : JsMap K V} {k : K} {v : V} :
    m.get k = some v ↔ (k, v) ∈ m.entries := by
  constructor
  · intro h
    obtain ⟨e, he, rfl⟩ := Option.map_eq_some_iff.mp h
    have hk : e.1 = k := by simpa using List.find?_some he
    rw [← hk]
    exact List.mem_of_find?_eq_some he
  · intro h
    cases hf : m.entries.find? fun e => e.1 = k with
    | none => exact absurd (List.find?_eq_none.mp hf _ h) (by simp)
    | some e =>
      have hk : e.1 = k := by simpa using List.find?_some hf
      have he : e = (k, v) :=
        List.inj_on_of_nodup_map m.nodup (List.mem_of_find?_eq_some hf) h hk
      rw [get, hf, he]
      rfl

theorem get_eq_none_iff {m : JsMap K V} {k : K} : m.get k = none ↔ k ∉ m.keys := by
  rw [mem_keys, Option.eq_none_iff_forall_ne_some]
  simp only [ne_eq, get_eq_some_iff, not_exists]

theorem mem_keys_of_get {m : JsMap K V} {k : K} {v : V} (h : m.get k = some v) : k ∈ m.keys :=
  mem_keys.mpr ⟨v, get_eq_some_iff.mp h⟩

theorem mem_values_of_get {m : JsMap K V} {k : K} {v : V} (h : m.get k = some v) :
    v ∈ m.values := mem_values.mpr ⟨k, get_eq_some_iff.mp h⟩

theorem exists_get_of_mem_values {m : JsMap K V} {v : V} (h : v ∈ m.values) :
    ∃ k, m.get k = some v := by
  obtain ⟨k, hk⟩ := mem_values.mp h
  exact ⟨k, get_eq_some_iff.mpr hk⟩

@[simp] theorem keys_modify (m : JsMap K V) (k : K) (f : V → V) : (m.modify k f).keys = m.keys := by
  simp only [keys, modify, List.map_map]
  refine List.map_congr_left fun e _ => ?_
  by_cases he : e.1 = k <;> simp [he]

/-- **A mutation is seen under its own key only.** -/
theorem get_modify (m : JsMap K V) (k : K) (f : V → V) (k' : K) :
    (m.modify k f).get k' = if k' = k then (m.get k).map f else m.get k' := by
  cases hg : m.get k' with
  | none =>
    have hk : (m.modify k f).get k' = none := by
      rw [get_eq_none_iff, keys_modify]
      exact get_eq_none_iff.mp hg
    by_cases h : k' = k
    · subst h; simp [hk, hg]
    · simp [hk, h]
  | some v =>
    have hm := get_eq_some_iff.mp hg
    have hk : (m.modify k f).get k' = some (if k' = k then f v else v) := by
      refine get_eq_some_iff.mpr (List.mem_map.mpr ⟨(k', v), hm, ?_⟩)
      by_cases h : k' = k <;> simp [h]
    by_cases h : k' = k
    · subst h; simp [hk, hg]
    · simp [hk, h]

theorem get_modify_self {m : JsMap K V} {k : K} {v : V} (h : m.get k = some v) (f : V → V) :
    (m.modify k f).get k = some (f v) := by simp [get_modify, h]

theorem get_modify_ne {m : JsMap K V} {k k' : K} (h : k' ≠ k) (f : V → V) :
    (m.modify k f).get k' = m.get k' := by simp [get_modify, h]

@[simp] theorem isSome_get_modify (m : JsMap K V) (k : K) (f : V → V) (k' : K) :
    ((m.modify k f).get k').isSome = (m.get k').isSome := by
  rw [get_modify]
  split_ifs with h
  · rw [h, Option.isSome_map]
  · rfl

theorem map_get_modify {W : Type*} {g : V → W} {f : V → V} {φ : W → W} (h : ∀ v, g (f v) = φ (g v))
    (m : JsMap K V) (k k' : K) : ((m.modify k f).get k').map g =
      if k' = k then ((m.get k').map g).map φ else (m.get k').map g := by
  rw [get_modify]
  split_ifs with hk
  · subst hk
    rw [Option.map_map, Option.map_map]
    exact congrFun (congrArg Option.map (funext h)) _
  · rfl

theorem map_get_modify_of_eq {W : Type*} {g : V → W} {f : V → V} (h : ∀ v, g (f v) = g v)
    (m : JsMap K V) (k k' : K) : ((m.modify k f).get k').map g = (m.get k').map g := by
  rw [map_get_modify (φ := id) h, Option.map_id, id, ite_self]

theorem get_modify_of_get {m : JsMap K V} {k : K} {v : V} (h : m.get k = some v) (k' : K)
    (f : V → V) : (m.modify k' f).get k = some (if k = k' then f v else v) := by
  rw [get_modify]
  by_cases hk : k = k'
  · subst hk; rw [if_pos rfl, if_pos rfl, h]; rfl
  · rw [if_neg hk, if_neg hk, h]

theorem exists_of_get_modify {m : JsMap K V} {k k' : K} {f : V → V} {v : V}
    (h : (m.modify k' f).get k = some v) :
    ∃ w, m.get k = some w ∧ v = if k = k' then f w else w := by
  rw [get_modify] at h
  by_cases hk : k = k'
  · subst hk
    rw [if_pos rfl] at h
    obtain ⟨w, hw, rfl⟩ := Option.map_eq_some_iff.mp h
    exact ⟨w, hw, (if_pos rfl).symm⟩
  · rw [if_neg hk] at h
    exact ⟨v, h, (if_neg hk).symm⟩

theorem set_of_mem {m : JsMap K V} {k : K} (h : k ∈ m.keys) (v : V) :
    m.set k v = m.modify k fun _ => v := dif_pos h

theorem entries_set_of_fresh {m : JsMap K V} {k : K} (h : k ∉ m.keys) (v : V) :
    (m.set k v).entries = m.entries ++ [(k, v)] := by rw [set, dif_neg h]; rfl

theorem values_set_of_fresh {m : JsMap K V} {k : K} (h : k ∉ m.keys) (v : V) :
    (m.set k v).values = m.values ++ [v] := by
  rw [values, entries_set_of_fresh h, List.map_append]
  rfl

/-- **A lookup after `set`.** -/
theorem get_set (m : JsMap K V) (k : K) (v : V) (k' : K) :
    (m.set k v).get k' = if k' = k then some v else m.get k' := by
  by_cases h : k ∈ m.keys
  · obtain ⟨w, hw⟩ := mem_keys.mp h
    rw [set_of_mem h, get_modify, get_eq_some_iff.mpr hw]
    rfl
  · rw [get, entries_set_of_fresh h, List.find?_append, ← get_eq_none_iff] at *
    by_cases hk : k' = k
    · subst hk
      have hn : (m.entries.find? fun e => e.1 = k') = none := by simpa [get] using h
      simp [hn]
    · have hs : ([(k, v)].find? fun e => e.1 = k') = none := by simp [Ne.symm hk]
      simp [get, hs, hk]

theorem get_set_self (m : JsMap K V) (k : K) (v : V) : (m.set k v).get k = some v := by
  simp [get_set]

theorem get_set_ne {m : JsMap K V} {k k' : K} (h : k' ≠ k) (v : V) :
    (m.set k v).get k' = m.get k' := by simp [get_set, h]

theorem get_set_of_get {m : JsMap K V} {k k' : K} {v : V} (hk : k ∉ m.keys)
    (hv : m.get k' = some v) (w : V) : (m.set k w).get k' = some v := by
  have hne : k' ≠ k := by
    rintro rfl
    exact hk (mem_keys_of_get hv)
  rw [get_set_ne hne, hv]

theorem mem_keys_set {m : JsMap K V} {k k' : K} {v : V} :
    k' ∈ (m.set k v).keys ↔ k' = k ∨ k' ∈ m.keys := by
  rw [← not_iff_not, ← get_eq_none_iff, get_set, not_or, ← get_eq_none_iff]
  by_cases h : k' = k <;> simp [h]

theorem size_set (m : JsMap K V) (k : K) (v : V) :
    (m.set k v).size = if k ∈ m.keys then m.size else m.size + 1 := by
  split_ifs with h
  · rw [set_of_mem h]
    exact List.length_map _
  · rw [size, entries_set_of_fresh h, List.length_append]
    rfl

theorem size_set_le (m : JsMap K V) (k : K) (v : V) : (m.set k v).size ≤ m.size + 1 := by
  rw [size_set]
  split_ifs
  · exact Nat.le_succ _
  · exact Nat.le_refl _

theorem modify_of_get_none {m : JsMap K V} {k : K} (h : m.get k = none) (f : V → V) :
    m.modify k f = m := by
  ext1
  refine (List.map_congr_left fun e he => if_neg ?_).trans (List.map_id _)
  rintro rfl
  exact get_eq_none_iff.mp h (mem_keys.mpr ⟨e.2, he⟩)

theorem filter_values_set {m : JsMap K V} {k : K} {v : V} {p : V → Bool} (hnew : p v = false)
    (hold : ∀ w, m.get k = some w → p w = false) :
    (m.set k v).values.filter p = m.values.filter p := by
  by_cases h : k ∈ m.keys
  · have hentries : ∀ es : List (K × V), (∀ e ∈ es, e.1 = k → p e.2 = false) →
        ((es.map fun e => if e.1 = k then (e.1, v) else e).map Prod.snd).filter p =
          (es.map Prod.snd).filter p := fun es hes => by
      induction es with
      | nil => rfl
      | cons e es ih =>
        obtain ⟨he, hes⟩ := List.forall_mem_cons.mp hes
        simp only [List.map_cons, List.filter_cons, ih hes]
        by_cases hk : e.1 = k
        · simp [hk, hnew, he hk]
        · simp [hk]
    rw [set_of_mem h]
    exact hentries m.entries fun e he hk => hold e.2 (get_eq_some_iff.mpr (hk ▸ he))
  · rw [values_set_of_fresh h, List.filter_append, List.filter_cons_of_neg (by simp [hnew]),
      List.filter_nil, List.append_nil]

/-- **A lookup after `delete`.** -/
theorem get_delete (m : JsMap K V) (k k' : K) :
    (m.delete k).get k' = if k' = k then none else m.get k' := by
  refine Option.ext fun v => ?_
  rw [get_eq_some_iff, delete, List.mem_filter, ← get_eq_some_iff]
  by_cases h : k' = k <;> simp [h]

theorem get_foldl_delete_entries (p : V → Prop) [DecidablePred p] (es : List (K × V))
    (m : JsMap K V) (k : K) :
    (es.foldl (fun m e => if p e.2 then m.delete e.1 else m) m).get k =
      if ∃ e ∈ es, e.1 = k ∧ p e.2 then none else m.get k := by
  induction es generalizing m with
  | nil => simp
  | cons e es ih =>
    have hcons : (∃ x ∈ e :: es, x.1 = k ∧ p x.2) ↔
        (e.1 = k ∧ p e.2) ∨ ∃ x ∈ es, x.1 = k ∧ p x.2 := List.exists_mem_cons_iff ..
    rw [List.foldl_cons, ih]
    by_cases hrest : ∃ x ∈ es, x.1 = k ∧ p x.2
    · rw [if_pos hrest, if_pos (hcons.mpr (Or.inr hrest))]
    rw [if_neg hrest]
    by_cases hp : p e.2
    · rw [if_pos hp, get_delete]
      by_cases hk : k = e.1
      · rw [if_pos hk, if_pos (hcons.mpr (Or.inl ⟨hk.symm, hp⟩))]
      · rw [if_neg hk, if_neg (mt hcons.mp (not_or.mpr ⟨fun h => hk h.1.symm, hrest⟩))]
    · rw [if_neg hp, if_neg (mt hcons.mp (not_or.mpr ⟨fun h => hp h.2, hrest⟩))]

/-- **A loop that deletes** the entries whose value is `p` filters the values. -/
theorem get_foldl_delete (p : V → Prop) [DecidablePred p] (m : JsMap K V) (k : K) :
    (m.entries.foldl (fun m e => if p e.2 then m.delete e.1 else m) m).get k =
      (m.get k).filter fun v => ¬ p v := by
  rw [get_foldl_delete_entries]
  cases hg : m.get k with
  | none => simp
  | some v =>
    have hiff : (∃ e ∈ m.entries, e.1 = k ∧ p e.2) ↔ p v := by
      constructor
      · rintro ⟨⟨_, v'⟩, hmem, rfl, hp⟩
        obtain rfl := Option.some.inj (hg.symm.trans (get_eq_some_iff.mpr hmem))
        exact hp
      · exact fun hp => ⟨(k, v), get_eq_some_iff.mp hg, rfl, hp⟩
    by_cases hp : p v
    · rw [if_pos (hiff.mpr hp)]
      simp [Option.filter, hp]
    · rw [if_neg (mt hiff.mp hp)]
      simp [Option.filter, hp]

/-! ## Pairs of values -/

/-- `r` holds of the values under different keys. -/
def Apart (r : V → V → Prop) (m : JsMap K V) : Prop :=
  ∀ k k' v v', k ≠ k' → m.get k = some v → m.get k' = some v' → r v v'

theorem apart_empty (r : V → V → Prop) : Apart r (empty : JsMap K V) :=
  fun _ _ _ _ _ h => nomatch h

/-- A value under a new key is to be compared with all others. -/
theorem apart_set_iff {r : V → V → Prop} (hr : ∀ v w, r v w → r w v) {m : JsMap K V} {k : K}
    (hk : k ∉ m.keys) (v : V) : Apart r (m.set k v) ↔ Apart r m ∧ ∀ w ∈ m.values, r w v := by
  constructor
  · intro h
    refine ⟨fun k₁ k₂ v₁ v₂ hne h₁ h₂ => ?_, fun w hw => ?_⟩
    · exact h k₁ k₂ v₁ v₂ hne (get_set_of_get hk h₁ v) (get_set_of_get hk h₂ v)
    · obtain ⟨k', hk'⟩ := exists_get_of_mem_values hw
      refine h k' k w v ?_ (get_set_of_get hk hk' v) (get_set_self m k v)
      rintro rfl
      exact hk (mem_keys_of_get hk')
  · rintro ⟨hm, hv⟩ k₁ k₂ v₁ v₂ hne h₁ h₂
    rw [get_set] at h₁ h₂
    split_ifs at h₁ h₂ with hk₁ hk₂ hk₂
    · exact absurd (hk₁.trans hk₂.symm) hne
    · obtain rfl := Option.some.inj h₁
      exact hr _ _ (hv v₂ (mem_values_of_get h₂))
    · obtain rfl := Option.some.inj h₂
      exact hv v₁ (mem_values_of_get h₁)
    · exact hm k₁ k₂ v₁ v₂ hne h₁ h₂

/-! ## Sums over the values -/

section Total

variable {A : Type} [AddCommGroup A]

omit [DecidableEq K] in
/-- The sum of `f` over the values. -/
def total (f : V → A) (m : JsMap K V) : A := (m.values.map f).sum

omit [DecidableEq K] in
@[simp] theorem total_empty (f : V → A) : total f (empty : JsMap K V) = 0 := rfl

theorem total_set_of_fresh {m : JsMap K V} {k : K} (h : k ∉ m.keys) (f : V → A) (v : V) :
    total f (m.set k v) = total f m + f v := by
  simp [total, values, entries_set_of_fresh h]

theorem sum_map_modify (f : V → A) (g : V → V) {k : K} {v : V} :
    ∀ {l : List (K × V)}, (l.map Prod.fst).Nodup → (k, v) ∈ l →
      (l.map fun e => f (if e.1 = k then (e.1, g e.2) else e).2).sum =
        (l.map fun e => f e.2).sum - f v + f (g v)
  | [], _, h => absurd h List.not_mem_nil
  | e :: l, hn, h => by
    rw [List.map_cons, List.nodup_cons] at hn
    rcases List.mem_cons.mp h with rfl | h
    · -- the keys after the head differ from `k`, so the rest of the sum is unchanged
      have hl : (l.map fun e => f (if e.1 = k then (e.1, g e.2) else e).2) =
          l.map fun e => f e.2 := by
        refine List.map_congr_left fun e he => ?_
        have : e.1 ≠ k := fun hk => hn.1 (List.mem_map.mpr ⟨e, he, hk⟩)
        simp [this]
      simp only [List.map_cons, List.sum_cons, if_true, hl]
      abel
    · have he : e.1 ≠ k := fun hk => hn.1 (List.mem_map.mpr ⟨(k, v), h, hk.symm⟩)
      have ih := sum_map_modify f g hn.2 h
      simp only [List.map_cons, List.sum_cons, if_neg he, ih]
      abel

/-- **A mutation changes a sum by the new value minus the old one.** -/
theorem total_modify {m : JsMap K V} {k : K} {v : V} (h : m.get k = some v) (f : V → A)
    (g : V → V) : total f (m.modify k g) = total f m - f v + f (g v) := by
  have := sum_map_modify f g m.nodup (get_eq_some_iff.mp h)
  simp only [total, values, modify, List.map_map]
  exact this

theorem le_total [PartialOrder A] [IsOrderedAddMonoid A] {m : JsMap K V} {f : V → A}
    (h : ∀ v ∈ m.values, 0 ≤ f v) {k : K} {v : V} (hk : m.get k = some v) : f v ≤ total f m := by
  refine List.single_le_sum (fun a ha => ?_) _ (List.mem_map_of_mem (mem_values_of_get hk))
  obtain ⟨w, hw, rfl⟩ := List.mem_map.mp ha
  exact h w hw

end Total

end JsMap

end Logix
