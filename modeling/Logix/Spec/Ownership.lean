import Logix.Js.Map

/-!
# Tables of owned records

Every record of a table has an owner.

* `Owned owner m p k`: the record under `k` is one of `p`;
* `KeepsOwners`: records stay, and stay with their owners; `SparesOthers`: those of the others
  than `p` do not change;
* `sparesOthers_modify_iff`: a change of one record spares the others unless it is one of them;
* `ActsFor owner p m m'`: both, which is what a principal may do to a table. It may append
  (`ActsFor.set`) and change its own records (`ActsFor.modify`);
* `hide owner p m`: the table without the records of `p`. What `p` does to its own records does not
  show in it (`hide_set_own`, `hide_delete_own`), and what the others do to theirs it shows
  (`hide_set`, `hide_delete`).
-/

namespace Logix.Spec

variable {K V π : Type} [DecidableEq K] {owner : V → π} {m m' m'' : JsMap K V} {p q : π} {k : K}

/-- The record under `k` is one of `p`. -/
def Owned (owner : V → π) (m : JsMap K V) (p : π) (k : K) : Prop := ∃ v ∈ m.get k, owner v = p

/-- Records stay, and stay with their owners. -/
def KeepsOwners (owner : V → π) (m m' : JsMap K V) : Prop :=
  ∀ k v, m.get k = some v → ∃ v' ∈ m'.get k, owner v' = owner v

/-- **The records of the others than `p` do not change.** -/
def SparesOthers (owner : V → π) (p : π) (m m' : JsMap K V) : Prop :=
  ∀ k v, m.get k = some v → owner v ≠ p → m'.get k = some v

/-- **What `p` may do to a table.** -/
structure ActsFor (owner : V → π) (p : π) (m m' : JsMap K V) : Prop where
  keeps : KeepsOwners owner m m'
  spares : SparesOthers owner p m m'

theorem Owned.owner_eq (h : Owned owner m p k) {v : V} (hv : m.get k = some v) : owner v = p := by
  obtain ⟨w, hw, rfl⟩ := h
  rw [Option.mem_def.mp hw] at hv
  rw [Option.some.inj hv]

theorem Owned.mono (hm : KeepsOwners owner m m') (h : Owned owner m p k) : Owned owner m' p k := by
  obtain ⟨v, hv, rfl⟩ := h
  exact hm k v hv

theorem KeepsOwners.refl (owner : V → π) (m : JsMap K V) : KeepsOwners owner m m :=
  fun _ v hv => ⟨v, hv, rfl⟩

theorem SparesOthers.refl (owner : V → π) (p : π) (m : JsMap K V) : SparesOthers owner p m m :=
  fun _ _ hv _ => hv

theorem ActsFor.refl (owner : V → π) (p : π) (m : JsMap K V) : ActsFor owner p m m where
  keeps := .refl owner m
  spares := .refl owner p m

/-- **Storing under a fresh key.** -/
theorem ActsFor.set (hk : k ∉ m.keys) (v : V) : ActsFor owner p m (m.set k v) := by
  have hget : ∀ k' w, m.get k' = some w → (m.set k v).get k' = some w :=
    fun _ _ hw => JsMap.get_set_of_get hk hw v
  exact ⟨fun k' w hw => ⟨w, hget k' w hw, rfl⟩, fun k' w hw _ => hget k' w hw⟩

theorem owned_set (m : JsMap K V) (k : K) (v : V) : Owned owner (m.set k v) (owner v) k :=
  ⟨v, JsMap.get_set_self m k v, rfl⟩

/-- **Changing a record** spares the others, unless it changes one of them. -/
theorem sparesOthers_modify_iff {f : V → V} :
    SparesOthers owner p m (m.modify k f) ↔ ∀ v ∈ m.get k, f v ≠ v → owner v = p := by
  constructor
  · intro h v hv hchanged
    by_contra hne
    have hspared := h k v hv hne
    rw [JsMap.get_modify_self hv] at hspared
    exact hchanged (Option.some.inj hspared)
  · intro h k' v hv hne
    rw [JsMap.get_modify_of_get hv]
    split_ifs with hk
    · subst hk
      by_contra hchanged
      exact hne (h v hv fun hsame => hchanged (congrArg some hsame))
    · rfl

/-- **Changing an own record**, which keeps its owner. -/
theorem ActsFor.modify (hk : Owned owner m p k) {f : V → V} (hf : ∀ v, owner (f v) = owner v) :
    ActsFor owner p m (m.modify k f) := by
  constructor
  · intro k' v hv
    refine ⟨_, JsMap.get_modify_of_get hv k f, ?_⟩
    split_ifs
    · exact hf v
    · rfl
  · intro k' v hv hne
    have hne' : k' ≠ k := by
      rintro rfl
      exact hne (hk.owner_eq hv)
    rw [JsMap.get_modify_ne hne', hv]

/-! ## Hiding the records of a principal -/

section Hide

variable [DecidableEq π]

/-- **The table without the records of `p`.** -/
def hide (owner : V → π) (p : π) (m : JsMap K V) : JsMap K V where
  entries := m.entries.filter fun e => owner e.2 ≠ p
  nodup := m.nodup.sublist (List.filter_sublist.map _)

theorem get_hide (owner : V → π) (p : π) (m : JsMap K V) (k : K) :
    (hide owner p m).get k = (m.get k).filter fun v => owner v ≠ p := by
  ext v
  rw [JsMap.get_eq_some_iff, hide, List.mem_filter, ← JsMap.get_eq_some_iff,
    Option.filter_eq_some_iff]

theorem get_hide_of_forall (hk : ∀ v ∈ m.get k, owner v = p) :
    (hide owner p m).get k = none := by
  rw [get_hide, Option.filter_eq_none_iff]
  simpa using hk

theorem mem_keys_hide (hk : ∀ v ∈ m.get k, owner v ≠ p) :
    k ∈ (hide owner p m).keys ↔ k ∈ m.keys := by
  rw [← not_iff_not, ← JsMap.get_eq_none_iff, ← JsMap.get_eq_none_iff, get_hide,
    Option.filter_eq_none_iff]
  refine ⟨fun h => Option.eq_none_iff_forall_ne_some.mpr fun v hv => ?_, fun h v hv => ?_⟩
  · exact h v hv (decide_eq_true (hk v hv))
  · rw [h] at hv
    cases hv

omit [DecidableEq K] in
theorem filter_values_hide (hne : q ≠ p) :
    (hide owner p m).values.filter (fun v => owner v = q) =
      m.values.filter fun v => owner v = q := by
  have hvalues : (hide owner p m).values = m.values.filter fun v => owner v ≠ p := by
    rw [JsMap.values, JsMap.values, hide, List.filter_map]
    rfl
  rw [hvalues, List.filter_filter]
  refine List.filter_congr fun v _ => ?_
  by_cases hv : owner v = q <;> simp [hv, hne]

theorem hide_delete (owner : V → π) (p : π) (m : JsMap K V) (k : K) :
    hide owner p (m.delete k) = (hide owner p m).delete k := by
  ext1
  exact List.filter_comm _ _ _

/-- An own record that is removed does not show. -/
theorem hide_delete_own (hk : ∀ v ∈ m.get k, owner v = p) :
    hide owner p (m.delete k) = hide owner p m := by
  rw [hide_delete]
  ext1
  refine List.filter_eq_self.mpr fun e he => decide_eq_true fun hkey => ?_
  have hget := JsMap.get_eq_some_iff.mpr he
  rw [hkey, get_hide_of_forall hk] at hget
  cases hget

theorem hide_modify {f : V → V} (hk : ∀ w ∈ m.get k, owner (f w) = p ↔ owner w = p) :
    hide owner p (m.modify k f) = (hide owner p m).modify k f := by
  ext1
  refine List.filter_map.trans (congrArg (List.map _) (List.filter_congr fun e he => ?_))
  by_cases hkey : e.1 = k
  · subst hkey
    simp [hk e.2 (JsMap.get_eq_some_iff.mpr he)]
  · simp [hkey]

/-- An own record in place of own ones does not show. -/
theorem hide_set_own {v : V} (hv : owner v = p) (hk : ∀ w ∈ m.get k, owner w = p) :
    hide owner p (m.set k v) = hide owner p m := by
  by_cases hmem : k ∈ m.keys
  · rw [JsMap.set_of_mem hmem, hide_modify fun w hw => iff_of_true hv (hk w hw)]
    exact JsMap.modify_of_get_none (get_hide_of_forall hk) _
  · ext1
    simp [hide, JsMap.entries_set_of_fresh hmem, hv]

/-- A record of another principal shows, unless a hidden one is in its place. -/
theorem hide_set {v : V} (hv : owner v ≠ p) (hk : ∀ w ∈ m.get k, owner w ≠ p) :
    hide owner p (m.set k v) = (hide owner p m).set k v := by
  by_cases hmem : k ∈ m.keys
  · rw [JsMap.set_of_mem hmem, JsMap.set_of_mem ((mem_keys_hide hk).mpr hmem)]
    exact hide_modify fun w hw => iff_of_false hv (hk w hw)
  · ext1
    rw [JsMap.entries_set_of_fresh (mt (mem_keys_hide hk).mp hmem)]
    simp [hide, JsMap.entries_set_of_fresh hmem, hv]

end Hide

end Logix.Spec
