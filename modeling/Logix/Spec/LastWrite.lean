import Mathlib.Data.List.Induction
import Mathlib.Data.List.Nodup
import Mathlib.Data.List.Perm.Basic
import Mathlib.Data.Nat.Notation
import Mathlib.Logic.Function.Basic

/-!
# Maps written one key at a time

* `lastWrite ws`: the map that a list of writes leaves behind, the last write to a key winning;
* `writeAll`: a partial `write` of some state, applied to a list of writes;
* **`writeAll_refines`**: a representation whose `write` updates the map it stands for stands for
  `lastWrite ws` after the writes `ws`;
* `lastWrite_perm`: writes to different keys in any order;
* `lastWrite_append_cons_of_ne`: a write to another key is not seen;
* `under p m`: the map `m` of lists, moved below the prefix `p`; **`under_injective`**: the longest
  prefix below which a map can be moved.
-/

namespace Logix.Spec

variable {K V σ : Type}

/-! ## The last write -/

section LastWrite

variable [DecidableEq K]

/-- **The value of the last write to `k`.** -/
def lastWrite (ws : List (K × V)) (k : K) : Option V :=
  (ws.reverse.find? fun w => w.1 = k).map Prod.snd

theorem lastWrite_concat (ws : List (K × V)) (k : K) (v : V) :
    lastWrite (ws ++ [(k, v)]) = Function.update (lastWrite ws) k (some v) := by
  funext k'
  by_cases h : k' = k
  · subst h
    simp [lastWrite]
  · rw [Function.update_of_ne h]
    simp [lastWrite, Ne.symm h]

/-- **A write to another key is not seen.** -/
theorem lastWrite_append_cons_of_ne {k k' : K} (h : k' ≠ k) (ws ws' : List (K × V)) (v : V) :
    lastWrite (ws ++ (k, v) :: ws') k' = lastWrite (ws ++ ws') k' := by
  simp only [lastWrite, List.reverse_append, List.reverse_cons, List.append_assoc,
    List.find?_append]
  rw [List.find?_singleton, if_neg (by simpa using Ne.symm h), Option.none_or]

theorem lastWrite_eq_none_iff {ws : List (K × V)} {k : K} :
    lastWrite ws k = none ↔ ∀ v, (k, v) ∉ ws := by
  simp only [lastWrite, Option.map_eq_none_iff, List.find?_eq_none, List.mem_reverse,
    decide_eq_true_eq, Prod.forall]
  exact ⟨fun h v hv => h k v hv rfl, fun h a b hab hk => h b (hk ▸ hab)⟩

theorem lastWrite_eq_some_iff {ws : List (K × V)} (hnd : (ws.map Prod.fst).Nodup) {k : K} {v : V} :
    lastWrite ws k = some v ↔ (k, v) ∈ ws := by
  induction ws using List.reverseRecOn with
  | nil => simp [lastWrite]
  | append_singleton ws w ih =>
    obtain ⟨k', v'⟩ := w
    rw [List.map_append, List.map_singleton, List.nodup_append] at hnd
    have hfresh : ∀ x, (k', x) ∉ ws := fun x hx =>
      hnd.2.2 k' (List.mem_map_of_mem (f := Prod.fst) hx) k' (List.mem_singleton_self _) rfl
    rw [lastWrite_concat, Function.update_apply, List.mem_append, List.mem_singleton]
    split_ifs with h
    · subst h
      simp [hfresh v, eq_comm]
    · rw [ih hnd.1]
      simp [h]

/-- **The order of the writes** to different keys does not matter. -/
theorem lastWrite_perm {ws ws' : List (K × V)} (hnd : (ws.map Prod.fst).Nodup) (h : ws.Perm ws') :
    lastWrite ws = lastWrite ws' := by
  funext k
  refine Option.ext fun v => ?_
  rw [lastWrite_eq_some_iff hnd, lastWrite_eq_some_iff ((h.map _).nodup_iff.mp hnd), h.mem_iff]

theorem mem_of_lastWrite {ws : List (K × V)} {k : K} {v : V} (h : lastWrite ws k = some v) :
    (k, v) ∈ ws := by
  obtain ⟨⟨k', v'⟩, hw, rfl⟩ := Option.map_eq_some_iff.mp h
  have hk : k' = k := by simpa using List.find?_some hw
  subst hk
  exact List.mem_reverse.mp (List.mem_of_find?_eq_some hw)

end LastWrite

/-! ## Writing to a representation -/

/-- Write one entry after another; `none` when a write does not finish. -/
def writeAll (write : σ → K → V → Option σ) (s : σ) (ws : List (K × V)) : Option σ :=
  ws.foldlM (fun s w => write s w.1 w.2) s

theorem writeAll_concat (write : σ → K → V → Option σ) (s : σ) (ws : List (K × V)) (k : K)
    (v : V) : writeAll write s (ws ++ [(k, v)]) = (writeAll write s ws).bind (write · k v) := by
  unfold writeAll
  rw [List.foldlM_append]
  simp

/-- **The refinement rule for maps.** -/
theorem writeAll_refines [DecidableEq K] {write : σ → K → V → Option σ} {s₀ : σ} {I : σ → Prop}
    {find : σ → K → Option V} (h₀ : I s₀) (hf : find s₀ = fun _ => none)
    (hw : ∀ s k v, I s → ∃ s', write s k v = some s' ∧ I s' ∧
      find s' = Function.update (find s) k (some v)) (ws : List (K × V)) :
    ∃ s, writeAll write s₀ ws = some s ∧ I s ∧ find s = lastWrite ws := by
  induction ws using List.reverseRecOn with
  | nil => exact ⟨s₀, rfl, h₀, hf⟩
  | append_singleton ws w ih =>
    obtain ⟨s, hs, hI, hfind⟩ := ih
    obtain ⟨s', hs', hI', hfind'⟩ := hw s w.1 w.2 hI
    refine ⟨s', ?_, hI', ?_⟩
    · rw [writeAll_concat, hs]
      exact hs'
    · rw [hfind', hfind, ← lastWrite_concat]

/-! ## Maps of lists below a prefix -/

section Under

variable {α : Type} [DecidableEq α]

/-- The map `m`, moved below the prefix `p`. -/
def under (p : List α) (m : List α → Option V) (q : List α) : Option V :=
  if p.isPrefixOf q then m (q.drop p.length) else none

variable {p : List α} {m : List α → Option V}

@[simp] theorem under_append (p : List α) (m : List α → Option V) (q : List α) :
    under p m (p ++ q) = m q := by
  simp [under, List.prefix_append]

theorem under_eq_none_of_not {q : List α} (h : ¬ p <+: q) : under p m q = none := by
  simp [under, h]

theorem under_under (p q : List α) (m : List α → Option V) :
    under p (under q m) = under (p ++ q) m := by
  funext k
  by_cases hp : p <+: k
  · obtain ⟨r, rfl⟩ := hp
    rw [under_append]
    by_cases hq : q <+: r
    · obtain ⟨s, rfl⟩ := hq
      rw [under_append, ← List.append_assoc, under_append]
    · rw [under_eq_none_of_not hq, under_eq_none_of_not]
      rwa [List.prefix_append_right_inj]
  · rw [under_eq_none_of_not hp, under_eq_none_of_not]
    exact fun h => hp ((List.prefix_append p q).trans h)

theorem under_update (p k : List α) (v : Option V) (m : List α → Option V) :
    under p (Function.update m k v) = Function.update (under p m) (p ++ k) v := by
  funext q
  by_cases hp : p <+: q
  · obtain ⟨r, rfl⟩ := hp
    simp only [under_append, Function.update_apply, List.append_cancel_left_eq]
  · rw [under_eq_none_of_not hp, Function.update_of_ne, under_eq_none_of_not hp]
    rintro rfl
    exact hp (List.prefix_append p k)

/-! ### Maps without a common prefix -/

/-- The map has keys, and no unit starts all of them. -/
structure Spread (m : List α → Option V) : Prop where
  exists_key : ∃ q, m q ≠ none
  exists_other : ∀ c, ∃ q, m q ≠ none ∧ q.head? ≠ some c

theorem prefix_of_under_ne_none {q : List α} (h : under p m q ≠ none) : p <+: q := by
  by_contra hp
  exact h (under_eq_none_of_not hp)

theorem Spread.eq_of_prefix {p' : List α} {m' : List α → Option V} (hm : Spread m)
    (h : under p m = under p' m') (hpre : p <+: p') : p = p' := by
  obtain ⟨t, rfl⟩ := hpre
  cases t with
  | nil => exact (List.append_nil p).symm
  | cons c t =>
    obtain ⟨q, hq, hhead⟩ := hm.exists_other c
    rw [← under_append p m q, h] at hq
    obtain ⟨r, hr⟩ := prefix_of_under_ne_none hq
    rw [List.append_assoc, List.append_cancel_left_eq] at hr
    exact absurd (hr ▸ rfl) hhead

/-- **The longest common prefix** of the keys, and the map below it, are unique. -/
theorem under_injective {p' : List α} {m' : List α → Option V} (hm : Spread m) (hm' : Spread m')
    (h : under p m = under p' m') : p = p' ∧ m = m' := by
  have hp : p = p' := by
    obtain ⟨q, hq⟩ := hm.exists_key
    rw [← under_append p m q, h] at hq
    rcases List.prefix_or_prefix_of_prefix (List.prefix_append p q)
      (prefix_of_under_ne_none hq) with
      hpre | hpre
    · exact hm.eq_of_prefix h hpre
    · exact (hm'.eq_of_prefix h.symm hpre).symm
  subst hp
  refine ⟨rfl, funext fun q => ?_⟩
  rw [← under_append p m q, h, under_append]

end Under

end Logix.Spec
