import Logix.Js.Map
import Mathlib.Data.List.ReduceOption
import Mathlib.Order.Defs.Unbundled

/-!
# Loops over a map that changes

A `for` loop over an ECMAScript `Map` sees what its body does to the map. The map is a list of slots:
a new key takes a slot at the end, and a deleted one leaves its slot empty. The loop goes on to the
next slot as long as there is one.

* `MapData`, `set`, `delete`, `assign`: the slots; `entries_delete`, `entries_assign`: the `JsMap`
  that they make up;
* `Ages`: what becomes of the first slots of a map (`ages_set`, `ages_delete`, `ages_assign`);
* `forOf`: the loop; **`forOf_invariant`**: its rule; **`exists_forOf`**: when it ends;
  `map_forOf`: a part of its state.
-/

namespace Logix

/-- **The slots of a `Map`.** -/
structure MapData (K V : Type) where
  slots : List (Option (K × V))
  nodup : (slots.reduceOption.map Prod.fst).Nodup

namespace MapData

variable {K V S : Type} {m m' : MapData K V}

/-- The map that the slots make up. -/
def entries (m : MapData K V) : JsMap K V := ⟨m.slots.reduceOption, m.nodup⟩

/-- The empty map. -/
def empty : MapData K V := ⟨[], List.nodup_nil⟩

/-- The slots under `f`, which keeps the keys that it does not empty. -/
def mapSlots (f : K × V → Option (K × V)) (hf : ∀ e, ∀ e' ∈ f e, e'.1 = e.1) (m : MapData K V) :
    MapData K V where
  slots := m.slots.map (Option.bind · f)
  nodup := by
    refine m.nodup.sublist ?_
    induction m.slots with
    | nil => exact List.Sublist.refl _
    | cons s slots ih =>
      cases s with
      | none => simpa using ih
      | some e =>
        cases he : f e with
        | none => simpa [he] using ih.cons e.1
        | some e' => simpa [he, hf e e' he] using ih

theorem reduceOption_map_bind {α β : Type} (f : α → Option β) (slots : List (Option α)) :
    (slots.map (Option.bind · f)).reduceOption = slots.reduceOption.filterMap f := by
  induction slots with
  | nil => rfl
  | cons s slots ih =>
    cases s with
    | none => simpa using ih
    | some a => cases h : f a <;> simp [h, ih]

/-! ## Slots over time -/

/-- The keys in these slots whose values satisfy `p`. -/
def keysWhere (p : V → Bool) (slots : List (Option (K × V))) : List K :=
  (slots.reduceOption.filter fun e => p e.2).map Prod.fst

/-- **A map gets older**: no slot is taken away, and `r` relates the keys of interest in the first
slots to those that were there before. -/
structure Ages (r : List K → List K → Prop) (p : V → Bool) (m m' : MapData K V) : Prop where
  length_le : m.slots.length ≤ m'.slots.length
  keysWhere : ∀ i ≤ m.slots.length,
    r (keysWhere p (m'.slots.take i)) (keysWhere p (m.slots.take i))

section Ages

variable {r : List K → List K → Prop} {p : V → Bool}

theorem Ages.refl (hr : ∀ ks, r ks ks) (m : MapData K V) : Ages r p m m :=
  ⟨le_refl _, fun _ _ => hr _⟩

theorem Ages.trans [IsTrans _ r] {m₁ m₂ m₃ : MapData K V} (h : Ages r p m₁ m₂)
    (h' : Ages r p m₂ m₃) : Ages r p m₁ m₃ :=
  ⟨h.length_le.trans h'.length_le,
    fun i hi => trans_of r (h'.keysWhere i (hi.trans h.length_le)) (h.keysWhere i hi)⟩

theorem Ages.mono {r' : List K → List K → Prop} (h : Ages r p m m')
    (hr : ∀ ks ks', r ks ks' → r' ks ks') : Ages r' p m m' :=
  ⟨h.length_le, fun i hi => hr _ _ (h.keysWhere i hi)⟩

theorem take_mapSlots (f : K × V → Option (K × V)) (hf : ∀ e, ∀ e' ∈ f e, e'.1 = e.1)
    (m : MapData K V) (i : ℕ) :
    ((m.mapSlots f hf).slots.take i).reduceOption = (m.slots.take i).reduceOption.filterMap f := by
  rw [← reduceOption_map_bind, List.map_take]
  rfl

theorem keysWhere_take_mapSlots (f : K × V → Option (K × V)) (hf : ∀ e, ∀ e' ∈ f e, e'.1 = e.1)
    (m : MapData K V) (i : ℕ) :
    MapData.keysWhere p ((m.mapSlots f hf).slots.take i) =
      ((m.slots.take i).reduceOption.filter fun e => (f e).any fun e' => p e'.2).map Prod.fst := by
  rw [MapData.keysWhere, take_mapSlots]
  induction (m.slots.take i).reduceOption with
  | nil => rfl
  | cons e l ih =>
    cases he : f e with
    | none => simpa [he] using ih
    | some e' =>
      by_cases hp : p e'.2 = true
      · simpa [he, hp, hf e e' he] using ih
      · simpa [he, hp] using ih

theorem filter_take_sublist {p q : K × V → Bool} (h : ∀ e ∈ m.entries.entries, p e → q e) (i : ℕ) :
    ((m.slots.take i).reduceOption.filter p).Sublist
      ((m.slots.take i).reduceOption.filter q) := by
  have hmem : ∀ e ∈ (m.slots.take i).reduceOption, e ∈ m.entries.entries := fun e he =>
    List.reduceOption_mem_iff.mpr (List.mem_of_mem_take (List.reduceOption_mem_iff.mp he))
  have hboth : (m.slots.take i).reduceOption.filter p =
      (m.slots.take i).reduceOption.filter fun e => p e && q e :=
    List.filter_congr fun e he => by
      cases hp : p e with
      | false => rfl
      | true => exact (h e (hmem e he) hp).symm
  rw [hboth]
  exact List.monotone_filter_right _ fun e he => (Bool.and_eq_true_iff.mp he).2

theorem ages_mapSlots {f : K × V → Option (K × V)} {hf : ∀ e, ∀ e' ∈ f e, e'.1 = e.1}
    (h : ∀ e ∈ m.entries.entries, (f e).any (fun e' => p e'.2) → p e.2) :
    Ages List.Sublist p m (m.mapSlots f hf) where
  length_le := (List.length_map _).ge
  keysWhere i _ := by
    rw [keysWhere_take_mapSlots]
    exact (filter_take_sublist h i).map _

theorem swap_ages_mapSlots {f : K × V → Option (K × V)} {hf : ∀ e, ∀ e' ∈ f e, e'.1 = e.1}
    (h : ∀ e ∈ m.entries.entries, p e.2 → (f e).any fun e' => p e'.2) :
    Ages (Function.swap List.Sublist) p m (m.mapSlots f hf) where
  length_le := (List.length_map _).ge
  keysWhere i _ := by
    change List.Sublist _ (MapData.keysWhere p ((m.mapSlots f hf).slots.take i))
    rw [keysWhere_take_mapSlots]
    exact (filter_take_sublist h i).map _

theorem keysWhere_append (p : V → Bool) (slots slots' : List (Option (K × V))) :
    keysWhere p (slots ++ slots') = keysWhere p slots ++ keysWhere p slots' := by
  rw [keysWhere, List.reduceOption_append, List.filter_append, List.map_append]
  rfl

theorem keysWhere_take_succ {i : ℕ} {s : Option (K × V)} (h : m.slots[i]? = some s) :
    keysWhere p (m.slots.take (i + 1)) = keysWhere p (m.slots.take i) ++ keysWhere p [s] := by
  rw [List.take_add_one, h, keysWhere_append]
  rfl

end Ages

/-! ## The loop -/

/-- **`for (const [k, v] of map)`**, from the slot `i` on; `data` is the map in the state. -/
def forOf (data : S → MapData K V) (body : K → V → S → S) : ℕ → ℕ → S → Option S
  | 0, _, _ => none
  | fuel + 1, i, s =>
    match (data s).slots[i]? with
    | none => some s
    | some none => forOf data body fuel (i + 1) s
    | some (some (k, v)) => forOf data body fuel (i + 1) (body k v s)

variable {data : S → MapData K V} {body : K → V → S → S}

/-- **The rule of the loop.** -/
theorem forOf_invariant {J : ℕ → S → Prop}
    (hempty : ∀ i s, J i s → (data s).slots[i]? = some none → J (i + 1) s)
    (hbody : ∀ i s k v, J i s → (data s).slots[i]? = some (some (k, v)) → J (i + 1) (body k v s))
    {fuel i : ℕ} {s s' : S} (h : J i s) (hs : forOf data body fuel i s = some s') :
    ∃ j, (data s').slots.length ≤ j ∧ J j s' := by
  induction fuel generalizing i s with
  | zero => cases hs
  | succ fuel ih =>
    rw [forOf] at hs
    split at hs
    · rename_i hslot
      obtain rfl := Option.some.inj hs
      exact ⟨i, List.getElem?_eq_none_iff.mp hslot, h⟩
    · rename_i hslot
      exact ih (hempty i s h hslot) hs
    · rename_i k v hslot
      exact ih (hbody i s k v h hslot) hs

/-- **The loop ends** when its body adds slots only as long as `μ` pays for them. -/
theorem exists_forOf (μ : S → ℕ)
    (hbody : ∀ k v s, (data (body k v s)).slots.length + μ (body k v s) ≤
      (data s).slots.length + μ s)
    {fuel i : ℕ} {s : S} (h : (data s).slots.length + μ s - i < fuel) :
    ∃ s', forOf data body fuel i s = some s' := by
  induction fuel generalizing i s with
  | zero => exact absurd h (Nat.not_lt_zero _)
  | succ fuel ih =>
    rw [forOf]
    cases hslot : (data s).slots[i]? with
    | none => exact ⟨s, rfl⟩
    | some slot =>
      have hi : i < (data s).slots.length := (List.getElem?_eq_some_iff.mp hslot).1
      cases slot with
      | none => exact ih (by omega)
      | some e =>
        have hnext := hbody e.1 e.2 s
        exact ih (by omega)

/-- **A loop whose state is a part of another one's.** -/
theorem map_forOf {T : Type} {body' : K → V → T → T} {π : S → T} (data' : T → MapData K V)
    (hdata : ∀ s, data' (π s) = data s) (hbody : ∀ k v s, π (body k v s) = body' k v (π s))
    (fuel i : ℕ) (s : S) :
    (forOf data body fuel i s).map π = forOf data' body' fuel i (π s) := by
  induction fuel generalizing i s with
  | zero => rfl
  | succ fuel ih =>
    rw [forOf, forOf, hdata]
    split
    · rfl
    · exact ih (i + 1) s
    · rw [ih, hbody]

/-! ## Operations -/

variable [DecidableEq K] {k : K} {v : V}

/-- Assign to the object that is stored under `k`. -/
def assign (m : MapData K V) (k : K) (f : V → V) : MapData K V :=
  m.mapSlots (fun e => some (if e.1 = k then (e.1, f e.2) else e)) fun e e' he' => by
    obtain rfl := Option.some.inj he'
    split_ifs <;> rfl

/-- `set(k, v)`. -/
def set (m : MapData K V) (k : K) (v : V) : MapData K V :=
  if h : k ∈ m.entries.keys then m.assign k fun _ => v
  else
    { slots := m.slots ++ [some (k, v)]
      nodup := by
        rw [List.reduceOption_append, List.map_append]
        refine m.nodup.append (List.nodup_singleton k) ?_
        exact List.disjoint_singleton.mpr h }

/-- `delete(k)`. -/
def delete (m : MapData K V) (k : K) : MapData K V :=
  m.mapSlots (Option.guard fun e => e.1 ≠ k) fun e e' he' => by
    obtain ⟨rfl, -⟩ := Option.guard_eq_some_iff.mp he'
    rfl

theorem entries_assign (m : MapData K V) (k : K) (f : V → V) :
    (m.assign k f).entries = m.entries.modify k f := by
  refine JsMap.ext ((reduceOption_map_bind _ m.slots).trans ?_)
  exact congrFun List.filterMap_eq_map _

theorem entries_delete (m : MapData K V) (k : K) :
    (m.delete k).entries = m.entries.delete k := by
  refine JsMap.ext ((reduceOption_map_bind _ m.slots).trans ?_)
  rw [List.filterMap_eq_filter]
  rfl

@[simp] theorem length_assign (m : MapData K V) (k : K) (f : V → V) :
    (m.assign k f).slots.length = m.slots.length :=
  List.length_map _

@[simp] theorem length_delete (m : MapData K V) (k : K) :
    (m.delete k).slots.length = m.slots.length :=
  List.length_map _

theorem length_set_le (m : MapData K V) (k : K) (v : V) :
    (m.set k v).slots.length ≤ m.slots.length + 1 := by
  rw [set]
  split_ifs
  · exact (length_assign m k _).le.trans (Nat.le_succ _)
  · exact (List.length_append ..).le

variable {p : V → Bool}

/-- **A new key.** -/
theorem ages_set (h : k ∉ m.entries.keys) (v : V) : Ages (· = ·) p m (m.set k v) := by
  rw [set, dif_neg h]
  refine ⟨?_, fun i hi => ?_⟩
  · rw [List.length_append]
    exact Nat.le_add_right _ _
  · rw [List.take_append_of_le_length hi]

/-- **An assignment** that brings nothing of interest. -/
theorem ages_assign {f : V → V} (hf : ∀ v, m.entries.get k = some v → p (f v) → p v) :
    Ages List.Sublist p m (m.assign k f) := by
  refine ages_mapSlots fun e he hp => ?_
  rw [Option.any_some] at hp
  split_ifs at hp with hk
  · exact hf e.2 (JsMap.get_eq_some_iff.mpr (hk ▸ he)) hp
  · exact hp

theorem swap_ages_assign {f : V → V} (hf : ∀ v, m.entries.get k = some v → p v → p (f v)) :
    Ages (Function.swap List.Sublist) p m (m.assign k f) := by
  refine swap_ages_mapSlots fun e he hp => ?_
  rw [Option.any_some]
  split_ifs with hk
  · exact hf e.2 (JsMap.get_eq_some_iff.mpr (hk ▸ he)) hp
  · exact hp

/-- **A deletion.** -/
theorem ages_delete (m : MapData K V) (k : K) : Ages List.Sublist p m (m.delete k) := by
  refine ages_mapSlots fun e _ hp => ?_
  obtain ⟨e', he', hp'⟩ := Option.any_eq_true _ _ |>.mp hp
  exact (Option.guard_eq_some_iff.mp he').1 ▸ hp'

theorem swap_ages_delete (h : ∀ v, m.entries.get k = some v → p v = false) :
    Ages (Function.swap List.Sublist) p m (m.delete k) := by
  refine swap_ages_mapSlots fun e he hp => ?_
  have hk : e.1 ≠ k := by
    rintro rfl
    exact absurd (h e.2 (JsMap.get_eq_some_iff.mpr he)) (by simp [hp])
  simpa [Option.guard, hk] using hp

end MapData

end Logix
