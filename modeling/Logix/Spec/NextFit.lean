import Mathlib.Data.List.Chain
import Mathlib.Data.List.Induction

/-!
# Next fit

Items are put, one after another, onto the last load while they fit it, or start a new one.

* `putNext`, `nextFit`: the algorithm; **`putNext_cases`**: what one item does to the loads;
* `flatten_nextFit`: the loads cut the items into pieces;
* `NextFitting`: pieces in which every item fits those before it, and that end where the next item
  does not fit; `nextFitting_nextFit`: the loads are such pieces, and **`NextFitting.eq`**: there are
  no others.
-/

namespace Logix.Spec

variable {α : Type} (fits : List α → α → Bool)

/-- Put an item onto the last load, or start a new one. -/
def putNext (loads : List (List α)) (a : α) : List (List α) :=
  match loads.getLast? with
  | none => loads ++ [[a]]
  | some load => if fits load a then loads.dropLast ++ [load ++ [a]] else loads ++ [[a]]

/-- **Next fit.** -/
def nextFit (l : List α) : List (List α) := l.foldl (putNext fits) []

/-- **Pieces in which every item fits those before it**, and that end where the next item does
not. -/
structure NextFitting (loads : List (List α)) : Prop where
  nonempty : ∀ load ∈ loads, load ≠ []
  grows : ∀ load ∈ loads, ∀ pre a, pre ≠ [] → pre ++ [a] <+: load → fits pre a = true
  closes : loads.IsChain fun load next => ∀ a ∈ next.head?, fits load a = false

variable {fits} {loads : List (List α)} {l load : List α} {a : α}

@[simp] theorem nextFit_nil : nextFit fits [] = [] := rfl

@[simp] theorem nextFit_concat (l : List α) (a : α) :
    nextFit fits (l ++ [a]) = putNext fits (nextFit fits l) a := List.foldl_append

/-- **What one item does to the loads.** -/
theorem putNext_cases (fits : List α → α → Bool) (loads : List (List α)) (a : α) :
    (∃ pre load, loads = pre ++ [load] ∧ fits load a = true ∧
      putNext fits loads a = pre ++ [load ++ [a]]) ∨
    ((∀ load ∈ loads.getLast?, fits load a = false) ∧ putNext fits loads a = loads ++ [[a]]) := by
  rcases List.eq_nil_or_concat loads with rfl | ⟨pre, load, rfl⟩
  · exact Or.inr ⟨fun load hload => by simp at hload, rfl⟩
  · rw [List.concat_eq_append, putNext, List.getLast?_concat, List.dropLast_concat]
    dsimp only
    split_ifs with hfits
    · exact Or.inl ⟨pre, load, rfl, hfits, rfl⟩
    · refine Or.inr ⟨fun load' hload => ?_, rfl⟩
      obtain rfl := Option.some.inj (Option.mem_def.mp hload)
      exact Bool.eq_false_iff.mpr hfits

/-- **The loads cut the items into pieces.** -/
theorem flatten_nextFit (l : List α) : (nextFit fits l).flatten = l := by
  induction l using List.reverseRecOn with
  | nil => rfl
  | append_singleton l a ih =>
    rw [nextFit_concat]
    obtain ⟨pre, load, hloads, -, hput⟩ | ⟨-, hput⟩ := putNext_cases fits
      (nextFit fits l) a
    · rw [hloads] at ih
      rw [hput, ← ih]
      simp
    · rw [hput, List.flatten_append, ih]
      rfl

/-! ## The pieces -/

theorem putNext_concat_of_fits (h : fits load a = true) :
    putNext fits (loads ++ [load]) a = loads ++ [load ++ [a]] := by
  rw [putNext, List.getLast?_concat, List.dropLast_concat]
  exact if_pos h

theorem putNext_of_not_fits (h : ∀ load ∈ loads.getLast?, fits load a = false) :
    putNext fits loads a = loads ++ [[a]] := by
  rw [putNext]
  cases hlast : loads.getLast? with
  | none => rfl
  | some load => exact if_neg (Bool.eq_false_iff.mp (h load hlast))

theorem nextFitting_concat_singleton (h : NextFitting fits loads)
    (hclose : ∀ load ∈ loads.getLast?, fits load a = false) :
    NextFitting fits (loads ++ [[a]]) where
  nonempty := List.forall_mem_append.mpr ⟨h.nonempty, by simp⟩
  grows := by
    refine List.forall_mem_append.mpr ⟨h.grows, List.forall_mem_singleton.mpr ?_⟩
    intro pre b hpre hp
    have hlen := hp.length_le
    have hpos := List.length_pos_of_ne_nil hpre
    simp only [List.length_append, List.length_singleton] at hlen
    omega
  closes := by
    refine List.isChain_append.mpr ⟨h.closes, .singleton _, fun load hload next hnext b hb => ?_⟩
    obtain rfl : next = [a] := by simpa using hnext.symm
    obtain rfl : b = a := by simpa using hb.symm
    exact hclose load hload

theorem nextFitting_concat_concat (h : NextFitting fits (loads ++ [load]))
    (hfits : fits load a = true) : NextFitting fits (loads ++ [load ++ [a]]) where
  nonempty := by
    have hbefore := (List.forall_mem_append.mp h.nonempty).1
    exact List.forall_mem_append.mpr ⟨hbefore, by simp⟩
  grows := by
    obtain ⟨hbefore, hlast⟩ := List.forall_mem_append.mp h.grows
    refine List.forall_mem_append.mpr ⟨hbefore, List.forall_mem_singleton.mpr ?_⟩
    intro pre b hpre hp
    rcases List.prefix_concat_iff.mp hp with heq | hp
    · obtain ⟨rfl, hb⟩ := List.append_inj' heq rfl
      exact List.singleton_inj.mp hb ▸ hfits
    · exact hlast load (List.mem_singleton_self load) pre b hpre hp
  closes := by
    obtain ⟨hbefore, -, hclose⟩ := List.isChain_append.mp h.closes
    have hne : load ≠ [] := h.nonempty load (by simp)
    refine List.isChain_append.mpr ⟨hbefore, .singleton _, fun before hlast next hnext b hb => ?_⟩
    obtain rfl : next = load ++ [a] := by simpa using hnext.symm
    rw [List.head?_append_of_ne_nil _ hne] at hb
    exact hclose before hlast load rfl b hb

/-- **The loads are such pieces.** -/
theorem nextFitting_nextFit (l : List α) : NextFitting fits (nextFit fits l) := by
  induction l using List.reverseRecOn with
  | nil => exact ⟨fun _ h => absurd h List.not_mem_nil, fun _ h => absurd h List.not_mem_nil, .nil⟩
  | append_singleton l a ih =>
    rw [nextFit_concat]
    obtain ⟨pre, load, hloads, hfits, hput⟩ | ⟨hno, hput⟩ := putNext_cases fits (nextFit fits l) a
    · rw [hloads] at ih
      rw [hput]
      exact nextFitting_concat_concat ih hfits
    · rw [hput]
      exact nextFitting_concat_singleton ih hno

theorem nextFit_append_load (hloads : nextFit fits loads.flatten = loads)
    (h : NextFitting fits (loads ++ [load])) {run : List α} (hrun : run ≠ [])
    (hp : run <+: load) : nextFit fits (loads.flatten ++ run) = loads ++ [run] := by
  induction run using List.reverseRecOn with
  | nil => exact absurd rfl hrun
  | append_singleton run a ih =>
    rw [← List.append_assoc, nextFit_concat]
    rcases eq_or_ne run [] with rfl | hne
    · rw [List.append_nil, hloads]
      refine putNext_of_not_fits fun last hlast => ?_
      have hclose := (List.isChain_append.mp h.closes).2.2 last hlast load rfl
      obtain ⟨rest, rfl⟩ := hp
      exact hclose a rfl
    · rw [ih hne ((List.prefix_append run [a]).trans hp)]
      exact putNext_concat_of_fits (h.grows load (by simp) run a hne hp)

/-- **There are no other pieces of this kind.** -/
theorem NextFitting.eq (h : NextFitting fits loads) : nextFit fits loads.flatten = loads := by
  induction loads using List.reverseRecOn with
  | nil => rfl
  | append_singleton loads load ih =>
    have hbefore : NextFitting fits loads :=
      ⟨(List.forall_mem_append.mp h.nonempty).1, (List.forall_mem_append.mp h.grows).1,
        (List.isChain_append.mp h.closes).1⟩
    rw [List.flatten_append, List.flatten_singleton]
    exact nextFit_append_load (ih hbefore) h (h.nonempty load (by simp)) (List.prefix_refl load)

end Logix.Spec
