import Logix.Js.Map
import Logix.Spec.Machine

/-!
# Machines that file the records they return

A call of a `Registry` that succeeds returns a record, and stores it under the id of the record,
whatever is stored there.

* `Machine.fresh_of_nodup`: keys that are created once are new when they are created;
* `records`, `ids`: the records that a run returned, and their ids;
* `Keeps`: every returned record is still stored, and nothing else;
* **`keeps_iff`**: a run from an empty table keeps its records exactly when their ids are pairwise
  distinct; `values_run`: then the table holds the records, in order;
* `Stamped`: the ids are made of stamps that the calls read; **`Stamped.keeps_iff`**: a run keeps
  its records exactly when no two successful calls read the same stamp.
-/

namespace Logix.Spec

variable {σ ι ρ K V T : Type} [DecidableEq K]

omit [DecidableEq K] in
/-- **Keys that the calls of a run create once are new**: no state before holds them. -/
theorem Machine.fresh_of_nodup {M : Machine σ ι ρ} {s : σ} (keys : σ → List K)
    {created : ι → Option K} (h₀ : keys s = [])
    (hstep : ∀ s i, ∀ k ∈ keys (M.next s i), k ∈ keys s ∨ k ∈ created i) (is : List ι)
    (hids : (is.filterMap created).Nodup) :
    ∀ e ∈ M.history s is, ∀ k ∈ created e.input, k ∉ keys e.before := by
  have hkeys : ∀ js : List ι, ∀ k ∈ keys (M.run s js), k ∈ js.filterMap created := by
    intro js
    induction js using List.reverseRecOn with
    | nil =>
      intro k hk
      rw [Machine.run_nil, h₀] at hk
      exact absurd hk List.not_mem_nil
    | append_singleton js i ih =>
      intro k hk
      rw [Machine.run_concat] at hk
      rw [List.filterMap_append, List.mem_append]
      exact (hstep _ i k hk).imp (ih k) fun hi => by simpa using hi
  intro e he k hk hmem
  obtain ⟨js, i, ks, rfl, rfl⟩ := Machine.mem_history_iff.mp he
  rw [List.filterMap_append, List.nodup_append'] at hids
  refine hids.2.2 (hkeys js k hmem) ?_
  exact List.mem_filterMap.mpr ⟨i, List.mem_cons_self, hk⟩

/-- **A registry**: the table of a state, the record that a result holds, and its id. -/
structure Registry (M : Machine σ ι ρ) (K V : Type) [DecidableEq K] where
  table : σ → JsMap K V
  returned : ρ → Option V
  idOf : V → K
  table_next : ∀ s i, table (M.next s i) =
    (returned (M.call i s).2).elim (table s) fun v => (table s).set (idOf v) v

namespace Registry

variable {M : Machine σ ι ρ} (R : Registry M K V) {s : σ}

/-- The records that the calls returned. -/
def records (es : List (Event σ ι ρ)) : List V := es.filterMap fun e => R.returned e.result

/-- The ids of these records. -/
def ids (es : List (Event σ ι ρ)) : List K := (R.records es).map R.idOf

/-- **Every record that a call of the run returned is still stored under its id**, and the table has
as many records as there were successful calls. -/
def Keeps (s : σ) (is : List ι) : Prop :=
  (∀ v ∈ R.records (M.history s is), (R.table (M.run s is)).get (R.idOf v) = some v) ∧
    (R.table (M.run s is)).size = (R.records (M.history s is)).length

theorem records_append (es es' : List (Event σ ι ρ)) :
    R.records (es ++ es') = R.records es ++ R.records es' := List.filterMap_append

theorem records_concat (es : List (Event σ ι ρ)) (e : Event σ ι ρ) :
    R.records (es ++ [e]) = R.records es ++ (R.returned e.result).toList :=
  R.records_append es [e]

theorem next_cases (s : σ) (i : ι) :
    (R.returned (M.event s i).result = none ∧ R.table (M.next s i) = R.table s) ∨
    ∃ v, R.returned (M.event s i).result = some v ∧
      R.table (M.next s i) = (R.table s).set (R.idOf v) v := by
  have htable := R.table_next s i
  cases hv : R.returned (M.call i s).2 with
  | none => exact Or.inl ⟨hv, by rwa [hv] at htable⟩
  | some v => exact Or.inr ⟨v, hv, by rwa [hv] at htable⟩

theorem mem_keys_run (h₀ : R.table s = .empty) (is : List ι) (k : K) :
    k ∈ (R.table (M.run s is)).keys ↔ k ∈ R.ids (M.history s is) := by
  induction is using List.reverseRecOn with
  | nil =>
    rw [Machine.run_nil, h₀]
    exact Iff.rfl
  | append_singleton is i ih =>
    rw [Machine.run_concat, Machine.history_concat, ids, records_concat, List.map_append,
      List.mem_append]
    rcases R.next_cases (M.run s is) i with ⟨hnone, htable⟩ | ⟨v, hv, htable⟩
    · rw [htable, ih, hnone]
      simp [ids]
    · rw [htable, JsMap.mem_keys_set, ih, hv, or_comm]
      simp [ids]

/-- The table of a run that repeats no id. -/
theorem values_run (h₀ : R.table s = .empty) (is : List ι)
    (hids : (R.ids (M.history s is)).Nodup) :
    (R.table (M.run s is)).values = R.records (M.history s is) := by
  induction is using List.reverseRecOn with
  | nil =>
    rw [Machine.run_nil, h₀]
    rfl
  | append_singleton is i ih =>
    rw [Machine.history_concat, ids, records_concat, List.map_append, List.nodup_append'] at hids
    obtain ⟨hpre, -, hdisjoint⟩ := hids
    rw [Machine.run_concat, Machine.history_concat, records_concat, ← ih hpre]
    rcases R.next_cases (M.run s is) i with ⟨hnone, htable⟩ | ⟨v, hv, htable⟩
    · rw [htable, hnone]
      exact (List.append_nil _).symm
    · have hfresh : R.idOf v ∉ (R.table (M.run s is)).keys := by
        rw [R.mem_keys_run h₀]
        exact fun hmem => hdisjoint hmem (by simp [hv])
      rw [htable, hv, JsMap.values_set_of_fresh hfresh]
      rfl

theorem idOf_of_get (h₀ : R.table s = .empty) (is : List ι) {k : K} {v : V}
    (h : (R.table (M.run s is)).get k = some v) : R.idOf v = k := by
  induction is using List.reverseRecOn with
  | nil =>
    rw [Machine.run_nil, h₀] at h
    cases h
  | append_singleton is i ih =>
    rw [Machine.run_concat] at h
    rcases R.next_cases (M.run s is) i with ⟨-, htable⟩ | ⟨v', -, htable⟩
    · rw [htable] at h
      exact ih h
    · rw [htable, JsMap.get_set] at h
      split_ifs at h with hk
      · rw [← Option.some.inj h, hk]
      · exact ih h

theorem size_run_le (h₀ : R.table s = .empty) (is : List ι) :
    (R.table (M.run s is)).size ≤ (R.records (M.history s is)).length := by
  induction is using List.reverseRecOn with
  | nil =>
    rw [Machine.run_nil, h₀]
    exact Nat.le_refl _
  | append_singleton is i ih =>
    rw [Machine.run_concat, Machine.history_concat, records_concat, List.length_append]
    rcases R.next_cases (M.run s is) i with ⟨hnone, htable⟩ | ⟨v, hv, htable⟩
    · rw [htable, hnone]
      exact ih
    · rw [htable, hv]
      exact (JsMap.size_set_le _ _ _).trans (Nat.add_le_add_right ih 1)

theorem ids_nodup_of_size (h₀ : R.table s = .empty) (is : List ι)
    (hsize : (R.table (M.run s is)).size = (R.records (M.history s is)).length) :
    (R.ids (M.history s is)).Nodup := by
  induction is using List.reverseRecOn with
  | nil => exact List.nodup_nil
  | append_singleton is i ih =>
    have hle := R.size_run_le h₀ is
    rw [Machine.run_concat, Machine.history_concat, records_concat, List.length_append] at hsize
    rw [Machine.history_concat, ids, records_concat, List.map_append]
    rcases R.next_cases (M.run s is) i with ⟨hnone, htable⟩ | ⟨v, hv, htable⟩
    · rw [htable, hnone] at hsize
      rw [hnone, Option.toList_none, List.map_nil, List.append_nil]
      exact ih hsize
    · rw [htable, hv, JsMap.size_set] at hsize
      simp only [Option.toList_some, List.length_singleton] at hsize
      have hfresh : R.idOf v ∉ (R.table (M.run s is)).keys := by
        intro hmem
        rw [if_pos hmem] at hsize
        omega
      rw [if_neg hfresh] at hsize
      rw [R.mem_keys_run h₀] at hfresh
      rw [hv, Option.toList_some, List.map_singleton, ← List.concat_eq_append]
      exact (ih (Nat.succ.inj hsize)).concat hfresh

/-- **A run keeps its records** exactly when no id is given twice. -/
theorem keeps_iff (h₀ : R.table s = .empty) (is : List ι) :
    R.Keeps s is ↔ (R.ids (M.history s is)).Nodup := by
  constructor
  · exact fun h => R.ids_nodup_of_size h₀ is h.2
  · intro hids
    have hvalues := R.values_run h₀ is hids
    refine ⟨fun v hv => ?_, ?_⟩
    · rw [← hvalues] at hv
      obtain ⟨k, hk⟩ := JsMap.exists_get_of_mem_values hv
      rwa [R.idOf_of_get h₀ is hk]
    · rw [← hvalues]
      simp [JsMap.size, JsMap.values]

end Registry

/-! ## Ids made of stamps -/

/-- **Ids made of stamps**: which calls succeed, the stamp that a call reads, and the id that is
made of it. -/
structure Stamped {M : Machine σ ι ρ} (R : Registry M K V) (T : Type) where
  succeeds : ι → σ → Bool
  stamp : ι → Option T
  key : T → K
  key_injective : Function.Injective key
  isSome_returned : ∀ s i, (R.returned (M.call i s).2).isSome = succeeds i s
  idOf_returned : ∀ s i v, R.returned (M.call i s).2 = some v → (stamp i).map key = some (R.idOf v)

namespace Stamped

variable {M : Machine σ ι ρ} {R : Registry M K V} (S : Stamped R T) {s : σ}

/-- The stamps that the successful calls read. -/
def stamps (es : List (Event σ ι ρ)) : List T :=
  es.filterMap fun e => if S.succeeds e.input e.before then S.stamp e.input else none

theorem map_key_stamps (s : σ) (is : List ι) :
    (S.stamps (M.history s is)).map S.key = R.ids (M.history s is) := by
  unfold stamps Registry.ids Registry.records
  rw [List.map_filterMap, List.map_filterMap]
  refine List.filterMap_congr fun e he => ?_
  obtain ⟨js, i, ks, -, rfl⟩ := Machine.mem_history_iff.mp he
  have hsome := S.isSome_returned (M.run s js) i
  change Option.map S.key (if S.succeeds i (M.run s js) then S.stamp i else none) =
    Option.map R.idOf (R.returned (M.call i (M.run s js)).2)
  rw [← hsome]
  cases hv : R.returned (M.call i (M.run s js)).2 with
  | none => rfl
  | some v => exact S.idOf_returned _ _ v hv

/-- **A run keeps its records** exactly when no two successful calls read the same stamp. -/
theorem keeps_iff (h₀ : R.table s = .empty) (is : List ι) :
    R.Keeps s is ↔ (S.stamps (M.history s is)).Nodup := by
  rw [R.keeps_iff h₀, ← S.map_key_stamps, List.nodup_map_iff S.key_injective]

theorem stamps_eq_map (f : ι → T) (hsucceeds : ∀ i s, S.succeeds i s = true)
    (hstamp : ∀ i, S.stamp i = some (f i)) (s : σ) (is : List ι) :
    S.stamps (M.history s is) = is.map f := by
  have hmap : S.stamps (M.history s is) = ((M.history s is).map Event.input).map f := by
    unfold stamps
    rw [List.map_map, ← List.filterMap_eq_map]
    refine List.filterMap_congr fun e _ => ?_
    rw [hsucceeds, if_pos rfl, hstamp]
    rfl
  rw [hmap, Machine.map_input_history]

end Stamped

end Logix.Spec
