import Mathlib.Data.List.Induction
import Mathlib.Data.List.Perm.Basic

/-!
# First fit

Items are put, one after another, into the first open bin that they fit, or into a new one. The
items of a bin are listed in the order in which they came.

* `Packer`: how bins take items; `addToFirst`, `place`, `firstFit`: the algorithm;
* **`place_cases`**: what one item does to the bins;
* `firstFit_forall`, `firstFit_perm`, `firstFit_index`, `firstFit_sublist`, `firstFit_heads`: each
  bin for itself, all bins together, their numbers, and the order of the items;
* **`exists_goesTo`**: every item of a bin has a moment at which it was put there;
* `exists_getElem?_firstFit`: what adding keeps of a bin holds of it until the end;
* `FirstFitting`: numbers of the items that say for each the first bin that takes it;
  **`items_firstFit`**: they are those of the algorithm, and **`exists_firstFitting`**.
-/

namespace Logix.Spec

variable {α β γ : Type}

/-- **How bins take items.** -/
structure Packer (α β : Type) where
  fits : β → α → Bool
  add : β → α → β
  fresh : ℕ → α → β
  items : β → List α
  items_add : ∀ b a, items (add b a) = items b ++ [a]
  items_fresh : ∀ n a, items (fresh n a) = [a]

namespace Packer

variable (P : Packer α β)

/-- Add an item to the first bin that it fits. -/
def addToFirst : List β → α → Option (List β)
  | [], _ => none
  | b :: bins, a =>
    if P.fits b a then some (P.add b a :: bins) else (addToFirst bins a).map (b :: ·)

/-- Put one item into the bins. -/
def place (bins : List β) (a : α) : List β :=
  (P.addToFirst bins a).getD (bins ++ [P.fresh bins.length a])

/-- **First fit.** -/
def firstFit (l : List α) : List β := l.foldl P.place []

variable {P} {bins : List β} {a : α} {b : β} {j : ℕ} {l : List α}

theorem firstFit_append_singleton : P.firstFit (l ++ [a]) = P.place (P.firstFit l) a := by
  rw [firstFit, List.foldl_append]
  rfl

theorem addToFirst_eq_none (h : P.addToFirst bins a = none) : ∀ b ∈ bins, P.fits b a = false := by
  induction bins with
  | nil => exact fun b hb => absurd hb List.not_mem_nil
  | cons c bins ih =>
    rw [addToFirst] at h
    split_ifs at h with hc
    exact List.forall_mem_cons.mpr ⟨Bool.eq_false_iff.mpr hc, ih (Option.map_eq_none_iff.mp h)⟩

theorem addToFirst_eq_some {bins' : List β} (h : P.addToFirst bins a = some bins') :
    ∃ pre b post, bins = pre ++ b :: post ∧ (∀ c ∈ pre, P.fits c a = false) ∧
      P.fits b a = true ∧ bins' = pre ++ P.add b a :: post := by
  induction bins generalizing bins' with
  | nil => cases h
  | cons c bins ih =>
    rw [addToFirst] at h
    split_ifs at h with hc
    · exact ⟨[], c, bins, rfl, fun d hd => absurd hd List.not_mem_nil, hc, (Option.some.inj h).symm⟩
    · obtain ⟨bins₁, h₁, rfl⟩ := Option.map_eq_some_iff.mp h
      obtain ⟨pre, b, post, rfl, hpre, hb, rfl⟩ := ih h₁
      exact ⟨c :: pre, b, post, rfl, List.forall_mem_cons.mpr ⟨Bool.eq_false_iff.mpr hc, hpre⟩, hb,
        rfl⟩

/-- **What placing an item does**: it joins the first bin that it fits, or opens a new one. -/
theorem place_cases (P : Packer α β) (bins : List β) (a : α) :
    (∃ pre b post, bins = pre ++ b :: post ∧ (∀ c ∈ pre, P.fits c a = false) ∧
      P.fits b a = true ∧ P.place bins a = pre ++ P.add b a :: post) ∨
    ((∀ c ∈ bins, P.fits c a = false) ∧ P.place bins a = bins ++ [P.fresh bins.length a]) := by
  rw [place]
  cases h : P.addToFirst bins a with
  | none => exact Or.inr ⟨addToFirst_eq_none h, rfl⟩
  | some bins' => exact Or.inl (addToFirst_eq_some h)

/-! ## Every bin for itself -/

theorem find?_eq_some {pre post : List β} (hpre : ∀ c ∈ pre, P.fits c a = false)
    (hb : P.fits b a = true) : (pre ++ b :: post).find? (P.fits · a) = some b :=
  List.find?_eq_some_iff_append.mpr
    ⟨hb, pre, post, rfl, fun c hc => by rw [hpre c hc, Bool.not_false]⟩

theorem place_forall {p : β → Prop} (h : ∀ b ∈ bins, p b)
    (hadd : ∀ b, bins.find? (P.fits · a) = some b → p b → p (P.add b a))
    (hfresh : p (P.fresh bins.length a)) : ∀ b ∈ P.place bins a, p b := by
  obtain ⟨pre, b, post, rfl, hpre, hb, hplace⟩ | ⟨-, hplace⟩ := place_cases P bins a
  · rw [hplace]
    have hpb := h b (List.mem_append_right _ List.mem_cons_self)
    obtain ⟨hp, hpost⟩ := List.forall_mem_append.mp h
    exact List.forall_mem_append.mpr ⟨hp, List.forall_mem_cons.mpr
      ⟨hadd b (find?_eq_some hpre hb) hpb, (List.forall_mem_cons.mp hpost).2⟩⟩
  · rw [hplace]
    exact List.forall_mem_append.mpr ⟨h, List.forall_mem_singleton.mpr hfresh⟩

/-- **The rule of bins**: what new bins satisfy and adding a fitting item keeps. -/
theorem firstFit_forall {p : β → Prop}
    (hadd : ∀ a ∈ l, ∀ b, p b → P.fits b a = true → p (P.add b a))
    (hfresh : ∀ a ∈ l, ∀ n, p (P.fresh n a)) : ∀ b ∈ P.firstFit l, p b := by
  induction l using List.reverseRecOn with
  | nil => exact fun b hb => absurd hb List.not_mem_nil
  | append_singleton l a ih =>
    have hl := ih (fun c hc => hadd c (List.mem_append_left _ hc))
      fun c hc => hfresh c (List.mem_append_left _ hc)
    have ha : a ∈ l ++ [a] := List.mem_append_right _ (List.mem_singleton_self a)
    rw [firstFit_append_singleton]
    refine place_forall hl (fun b hfind hb => hadd a ha b hb ?_) (hfresh a ha _)
    exact List.find?_some (p := (P.fits · a)) hfind

theorem items_ne_nil : ∀ b ∈ P.firstFit l, P.items b ≠ [] :=
  firstFit_forall
    (fun a _ b _ _ => by rw [P.items_add]; exact List.append_ne_nil_of_right_ne_nil _ (by simp))
    fun a _ n => by rw [P.items_fresh]; exact List.cons_ne_nil _ _

/-- The items of a bin are in the order in which they came. -/
theorem firstFit_sublist : ∀ b ∈ P.firstFit l, (P.items b).Sublist l := by
  induction l using List.reverseRecOn with
  | nil => exact fun b hb => absurd hb List.not_mem_nil
  | append_singleton l a ih =>
    rw [firstFit_append_singleton]
    refine place_forall (fun b hb => (ih b hb).trans (List.sublist_append_left _ _))
      (fun b hfind _ => ?_) ?_
    · rw [P.items_add]
      exact (ih b (List.mem_of_find?_eq_some hfind)).append (List.Sublist.refl _)
    · rw [P.items_fresh]
      exact List.sublist_append_right _ _

/-! ## All bins together -/

theorem flatMap_items_place :
    ((P.place bins a).flatMap P.items).Perm (bins.flatMap P.items ++ [a]) := by
  obtain ⟨pre, b, post, rfl, -, -, hplace⟩ | ⟨-, hplace⟩ := place_cases P bins a
  · rw [hplace]
    simp only [List.flatMap_append, List.flatMap_cons, P.items_add, List.append_assoc]
    exact (List.perm_append_comm.append_left _).append_left _
  · rw [hplace, List.flatMap_append, List.flatMap_singleton, P.items_fresh]

/-- **The bins share the items out**: each is in exactly one bin. -/
theorem firstFit_perm : ((P.firstFit l).flatMap P.items).Perm l := by
  induction l using List.reverseRecOn with
  | nil => exact List.Perm.refl _
  | append_singleton l a ih =>
    rw [firstFit_append_singleton]
    exact flatMap_items_place.trans (ih.append_right [a])

theorem map_place {f : β → γ} (hadd : ∀ b a, f (P.add b a) = f b) :
    (P.place bins a).map f = bins.map f ∨
      (P.place bins a).map f = bins.map f ++ [f (P.fresh bins.length a)] := by
  obtain ⟨pre, b, post, rfl, -, -, hplace⟩ | ⟨-, hplace⟩ := place_cases P bins a
  · refine Or.inl ?_
    rw [hplace, List.map_append, List.map_append, List.map_cons, List.map_cons, hadd]
  · exact Or.inr (by rw [hplace, List.map_append, List.map_singleton])

/-- **The bins are numbered in the order in which they were opened.** -/
theorem firstFit_index {f : β → γ} {number : ℕ → γ} (hadd : ∀ b a, f (P.add b a) = f b)
    (hfresh : ∀ n a, f (P.fresh n a) = number n) :
    (P.firstFit l).map f = (List.range (P.firstFit l).length).map number := by
  induction l using List.reverseRecOn with
  | nil => rfl
  | append_singleton l a ih =>
    rw [firstFit_append_singleton]
    rcases map_place hadd with h | h
    · have hlen := congrArg List.length h
      rw [List.length_map, List.length_map] at hlen
      rw [h, ih, hlen]
    · have hlen := congrArg List.length h
      rw [List.length_map, List.length_append, List.length_map, List.length_singleton] at hlen
      rw [h, ih, hlen, List.range_succ, List.map_append, List.map_singleton, hfresh]

/-- **The first items of the bins** are in the order in which they came. -/
theorem firstFit_heads : ((P.firstFit l).filterMap fun b => (P.items b).head?).Sublist l := by
  induction l using List.reverseRecOn with
  | nil => exact List.Sublist.refl _
  | append_singleton l a ih =>
    rw [firstFit_append_singleton]
    obtain ⟨pre, b, post, hbins, -, -, hplace⟩ | ⟨-, hplace⟩ := place_cases P (P.firstFit l) a
    · -- a bin that has items keeps its first one
      have hb := items_ne_nil b (hbins ▸ List.mem_append_right _ List.mem_cons_self)
      have hhead : (P.items (P.add b a)).head? = (P.items b).head? := by
        rw [P.items_add, List.head?_append_of_ne_nil _ hb]
      have hsame : (pre ++ P.add b a :: post).filterMap (fun b => (P.items b).head?) =
          (pre ++ b :: post).filterMap fun b => (P.items b).head? := by
        simp only [List.filterMap_append, List.filterMap_cons, hhead]
      rw [hplace, hsame, ← hbins]
      exact ih.trans (List.sublist_append_left _ _)
    · rw [hplace, List.filterMap_append]
      refine ih.append ?_
      rw [List.filterMap_cons, P.items_fresh]
      exact List.Sublist.refl _

/-! ## The moment at which an item is placed -/

variable (P) in
/-- **With `bins` open, `a` goes on top of `pre` into bin `j`**: it fits no earlier bin. -/
structure GoesTo (bins : List β) (a : α) (j : ℕ) (pre : List α) : Prop where
  earlier : ∀ i < j, ∃ b, bins[i]? = some b ∧ P.fits b a = false
  before : (bins[j]?.map P.items).getD [] = pre
  after : (P.place bins a)[j]?.map P.items = some (pre ++ [a])

theorem set_length_append {b c : β} {pre post : List β} :
    (pre ++ b :: post).set pre.length c = pre ++ c :: post := by
  rw [List.set_append_right _ _ (Nat.le_refl _), Nat.sub_self, List.set_cons_zero]

theorem exists_not_fits {pre post : List β} (hpre : ∀ c ∈ pre, P.fits c a = false) {i : ℕ}
    (hi : i < pre.length) : ∃ b, (pre ++ post)[i]? = some b ∧ P.fits b a = false :=
  ⟨pre[i], by rw [List.getElem?_append_left hi, List.getElem?_eq_getElem hi],
    hpre _ (List.getElem_mem hi)⟩

theorem getElem?_place (h : (P.place bins a)[j]? = some b) :
    bins[j]? = some b ∨ ∃ pre, P.items b = pre ++ [a] ∧ P.GoesTo bins a j pre := by
  obtain ⟨pre, c, post, rfl, hpre, hc, hplace⟩ | ⟨hnone, hplace⟩ := place_cases P bins a
  · rw [← set_length_append (b := c) (c := P.add c a)] at hplace
    by_cases hj : pre.length = j
    · subst hj
      have hb : P.add c a = b := by simpa [hplace] using h
      have hitems : P.items b = P.items c ++ [a] := by rw [← hb, P.items_add]
      refine Or.inr ⟨P.items c, hitems, fun i hi => exists_not_fits hpre hi, by simp, ?_⟩
      rw [h, Option.map_some, hitems]
    · rw [hplace, List.getElem?_set_ne hj] at h
      exact Or.inl h
  · have hj := (List.getElem?_eq_some_iff.mp h).1
    rw [hplace, List.length_append, List.length_singleton] at hj
    rcases Nat.lt_succ_iff_lt_or_eq.mp hj with hj | rfl
    · rw [hplace, List.getElem?_append_left hj] at h
      exact Or.inl h
    · have hb : P.fresh bins.length a = b := by simpa [hplace] using h
      have hitems : P.items b = [] ++ [a] := by rw [← hb, P.items_fresh, List.nil_append]
      refine Or.inr ⟨[], hitems, fun i hi => ?_, by simp, by rw [h, Option.map_some, hitems]⟩
      exact ⟨bins[i], List.getElem?_eq_getElem hi, hnone _ (List.getElem_mem hi)⟩

theorem GoesTo.exists_getElem? {pre : List α} (h : P.GoesTo bins a j pre) (hpre : pre ≠ []) :
    ∃ c, bins[j]? = some c ∧ P.items c = pre := by
  have hbefore := h.before
  cases hc : bins[j]? with
  | none =>
    rw [hc, Option.map_none, Option.getD_none] at hbefore
    exact absurd hbefore.symm hpre
  | some c =>
    rw [hc, Option.map_some, Option.getD_some] at hbefore
    exact ⟨c, rfl, hbefore⟩

/-- **Every item of a bin was put there once**: when the items before it had been placed, on top of
those below it in the bin. -/
theorem exists_goesTo {pre post : List α} (hj : (P.firstFit l)[j]? = some b)
    (hb : P.items b = pre ++ a :: post) :
    ∃ done todo, l = done ++ a :: todo ∧ P.GoesTo (P.firstFit done) a j pre := by
  induction l using List.reverseRecOn generalizing b post with
  | nil => cases hj
  | append_singleton l x ih =>
    rw [firstFit_append_singleton] at hj
    rcases getElem?_place hj with hj | ⟨pre', hb', hgoes⟩
    · obtain ⟨done, todo, rfl, h⟩ := ih hj hb
      exact ⟨done, todo ++ [x], by rw [List.append_assoc, List.cons_append], h⟩
    · rw [hb'] at hb
      rcases List.eq_nil_or_concat post with rfl | ⟨post', y, rfl⟩
      · -- `a` is the last item of the bin
        obtain ⟨rfl, h⟩ := List.append_inj' hb rfl
        obtain rfl := List.singleton_inj.mp h
        exact ⟨l, [], rfl, hgoes⟩
      · -- `a` was in the bin before
        rw [List.concat_eq_append, ← List.cons_append, ← List.append_assoc] at hb
        obtain ⟨rfl, -⟩ := List.append_inj' hb rfl
        obtain ⟨c, hc, hci⟩ := hgoes.exists_getElem? (List.append_ne_nil_of_right_ne_nil _
          (List.cons_ne_nil a post'))
        obtain ⟨done, todo, rfl, h⟩ := ih hc hci
        exact ⟨done, todo ++ [x], by rw [List.append_assoc, List.cons_append], h⟩

/-! ## What lasts -/

theorem exists_getElem?_place {p : β → Prop} (h : bins[j]? = some b) (hb : p b)
    (hadd : P.fits b a = true → p (P.add b a)) :
    ∃ c, (P.place bins a)[j]? = some c ∧ p c := by
  obtain ⟨pre, c, post, rfl, -, hc, hplace⟩ | ⟨-, hplace⟩ := place_cases P bins a
  · rw [hplace, ← set_length_append (b := c) (c := P.add c a)]
    by_cases hj : pre.length = j
    · subst hj
      obtain rfl : c = b := by simpa using h
      exact ⟨P.add c a, by simp, hadd hc⟩
    · exact ⟨b, by rwa [List.getElem?_set_ne hj], hb⟩
  · rw [hplace, List.getElem?_append_left (List.getElem?_eq_some_iff.mp h).1]
    exact ⟨b, h, hb⟩

/-- **What adding keeps lasts**: a bin that satisfies `p` does so until the end. -/
theorem exists_getElem?_firstFit {p : β → Prop} {done todo : List α}
    (h : (P.firstFit done)[j]? = some b) (hb : p b)
    (hadd : ∀ a ∈ todo, ∀ b, p b → P.fits b a = true → p (P.add b a)) :
    ∃ c, (P.firstFit (done ++ todo))[j]? = some c ∧ p c := by
  induction todo using List.reverseRecOn with
  | nil => exact ⟨b, by rwa [List.append_nil], hb⟩
  | append_singleton todo a ih =>
    obtain ⟨c, hc, hpc⟩ := ih fun x hx => hadd x (List.mem_append_left _ hx)
    rw [← List.append_assoc, firstFit_append_singleton]
    exact exists_getElem?_place hc hpc
      (hadd a (List.mem_append_right _ (List.mem_singleton_self a)) c hpc)

end Packer

/-! ## Numbers of the bins -/

/-- Every element of a list is related to those before it. -/
def EachAfter (p : List α → α → Prop) (l : List α) : Prop :=
  ∀ done a todo, l = done ++ a :: todo → p done a

/-- The items with the number `j`. -/
def numbered (placed : List (ℕ × α)) (j : ℕ) : List α :=
  (placed.filter fun p => p.1 == j).map Prod.snd

/-- **Every item has the number of the first bin that takes it**; `takes` says it by the items that
are in a bin already. -/
structure FirstFitting (takes : List α → α → Prop) (placed : List (ℕ × α)) : Prop where
  own : EachAfter (fun done p => takes (numbered done p.1) p.2) placed
  earlier : EachAfter (fun done p => ∀ j < p.1, ¬ takes (numbered done j) p.2) placed

section Numbers

variable {p : List α → α → Prop} {l : List α} {a : α} {takes : List α → α → Prop}
  {placed : List (ℕ × α)} {i j : ℕ}

@[simp] theorem eachAfter_nil : EachAfter p [] := fun done a todo h => by simp at h

@[simp] theorem eachAfter_concat : EachAfter p (l ++ [a]) ↔ EachAfter p l ∧ p l a := by
  refine ⟨fun h => ⟨fun done b todo hsplit => ?_, h l a [] rfl⟩, fun h => ?_⟩
  · exact h done b (todo ++ [a]) (by rw [hsplit, List.append_assoc, List.cons_append])
  · rintro done b todo hsplit
    rcases List.eq_nil_or_concat todo with rfl | ⟨todo, last, rfl⟩
    · obtain ⟨rfl, hlast⟩ := List.append_inj' hsplit rfl
      exact List.singleton_inj.mp hlast ▸ h.2
    · rw [List.concat_eq_append, ← List.cons_append, ← List.append_assoc] at hsplit
      exact h.1 done b todo (List.append_inj' hsplit rfl).1

theorem forall_lt_iff_eachAfter : (∀ k (h : k < l.length), p (l.take k) l[k]) ↔ EachAfter p l := by
  constructor
  · rintro h done a todo rfl
    have hk := h done.length (by simp)
    simpa using hk
  · intro h k hk
    refine h _ _ (l.drop (k + 1)) ?_
    rw [← List.drop_eq_getElem_cons hk, List.take_append_drop]

instance [∀ done a, Decidable (p done a)] : Decidable (EachAfter p l) :=
  decidable_of_iff _ forall_lt_iff_eachAfter

@[simp] theorem numbered_nil : numbered ([] : List (ℕ × α)) j = [] := rfl

theorem numbered_concat (placed : List (ℕ × α)) (i j : ℕ) (a : α) :
    numbered (placed ++ [(i, a)]) j =
      if i = j then numbered placed j ++ [a] else numbered placed j := by
  by_cases hij : i = j <;> simp [numbered, List.filter_append, hij]

theorem forall_numbered {q : List α → Prop}
    (h : EachAfter (fun done p => q (numbered done p.1 ++ [p.2])) placed)
    (hj : numbered placed j ≠ []) : q (numbered placed j) := by
  induction placed using List.reverseRecOn with
  | nil => exact absurd rfl hj
  | append_singleton placed x ih =>
    obtain ⟨i, a⟩ := x
    obtain ⟨hbefore, hlast⟩ := eachAfter_concat.mp h
    rw [numbered_concat] at hj ⊢
    split_ifs at hj ⊢ with hij
    · exact hij ▸ hlast
    · exact ih hbefore hj

theorem numbered_append_cons (done todo : List (ℕ × α)) (p : ℕ × α) :
    numbered (done ++ p :: todo) p.1 = numbered done p.1 ++ [p.2] ++ numbered todo p.1 := by
  simp [numbered, List.filter_append]

theorem firstFitting_concat : FirstFitting takes (placed ++ [(i, a)]) ↔
    FirstFitting takes placed ∧ takes (numbered placed i) a ∧
      ∀ j < i, ¬ takes (numbered placed j) a := by
  constructor
  · rintro ⟨hown, hearlier⟩
    rw [eachAfter_concat] at hown hearlier
    exact ⟨⟨hown.1, hearlier.1⟩, hown.2, hearlier.2⟩
  · rintro ⟨⟨hown, hearlier⟩, hi, hj⟩
    exact ⟨eachAfter_concat.mpr ⟨hown, hi⟩, eachAfter_concat.mpr ⟨hearlier, hj⟩⟩

variable {P : Packer α β} {bins : List β}

/-- The bins hold what the numbers say. -/
def Packer.Holds (P : Packer α β) (bins : List β) (placed : List (ℕ × α)) : Prop :=
  ∀ j, (bins[j]?.map P.items).getD [] = numbered placed j

theorem Packer.Holds.exists_numbered {b : β} (h : P.Holds bins placed) (hb : b ∈ bins) :
    ∃ j, P.items b = numbered placed j := by
  obtain ⟨j, hj⟩ := List.mem_iff_getElem?.mp hb
  exact ⟨j, by rw [← h j, hj, Option.map_some, Option.getD_some]⟩

theorem Packer.Holds.exists_mem (h : P.Holds bins placed) (hj : numbered placed j ≠ []) :
    ∃ b ∈ bins, P.items b = numbered placed j := by
  have hitems := h j
  cases hb : bins[j]? with
  | none =>
    rw [hb, Option.map_none, Option.getD_none] at hitems
    exact absurd hitems.symm hj
  | some b =>
    rw [hb, Option.map_some, Option.getD_some] at hitems
    exact ⟨b, List.mem_of_getElem? hb, hitems⟩

/-- The number that first fit gives to the next item. -/
theorem Packer.Holds.place (h : P.Holds bins placed)
    (hfits : ∀ b ∈ bins, P.fits b a = true ↔ takes (P.items b) a) (hnew : takes [] a) :
    ∃ i, takes (numbered placed i) a ∧ (∀ j < i, ¬ takes (numbered placed j) a) ∧
      P.Holds (P.place bins a) (placed ++ [(i, a)]) := by
  obtain ⟨pre, b, post, rfl, hpre, hb, hplace⟩ | ⟨hnone, hplace⟩ := P.place_cases bins a
  · refine ⟨pre.length, ?_, fun j hj => ?_, fun j => ?_⟩
    · rw [← h]
      simpa using (hfits b (by simp)).mp hb
    · rw [← h, List.getElem?_append_left hj, List.getElem?_eq_getElem hj]
      have hmem := List.getElem_mem hj
      exact fun htakes => Bool.eq_false_iff.mp (hpre _ hmem)
        ((hfits _ (List.mem_append_left _ hmem)).mpr htakes)
    · rw [numbered_concat, ← h, hplace, ← set_length_append (b := b) (c := P.add b a)]
      split_ifs with hj
      · subst hj
        simp [P.items_add]
      · rw [List.getElem?_set_ne hj]
  · refine ⟨bins.length, ?_, fun j hj => ?_, fun j => ?_⟩
    · rw [← h]
      simpa using hnew
    · rw [← h, List.getElem?_eq_getElem hj]
      have hmem := List.getElem_mem hj
      exact fun htakes => Bool.eq_false_iff.mp (hnone _ hmem) ((hfits _ hmem).mpr htakes)
    · rw [numbered_concat, ← h, hplace]
      split_ifs with hj
      · subst hj
        simp [P.items_fresh]
      · rcases Nat.lt_or_gt_of_ne hj with hlt | hgt
        · rw [List.getElem?_eq_none (by simp; omega), List.getElem?_eq_none (by omega)]
        · rw [List.getElem?_append_left hgt]

/-- **First fit numbers the items.** -/
theorem Packer.exists_firstFitting
    (hfits : ∀ l, ∀ b ∈ P.firstFit l, ∀ a, P.fits b a = true ↔ takes (P.items b) a)
    (hnew : ∀ a ∈ l, takes [] a) : ∃ placed, placed.map Prod.snd = l ∧
      FirstFitting takes placed ∧ P.Holds (P.firstFit l) placed := by
  induction l using List.reverseRecOn with
  | nil => exact ⟨[], rfl, ⟨eachAfter_nil, eachAfter_nil⟩, fun j => rfl⟩
  | append_singleton l a ih =>
    obtain ⟨placed, rfl, hfirst, hholds⟩ := ih fun b hb => hnew b (List.mem_append_left _ hb)
    obtain ⟨i, hown, hearlier, hplace⟩ := hholds.place (fun b hb => hfits _ b hb a)
      (hnew a (List.mem_append_right _ (List.mem_singleton_self a)))
    have hfirst' := firstFitting_concat.mpr ⟨hfirst, hown, hearlier⟩
    refine ⟨placed ++ [(i, a)], List.map_append, hfirst', ?_⟩
    rwa [firstFit_append_singleton]

theorem FirstFitting.eq {placed' : List (ℕ × α)} (h : FirstFitting takes placed)
    (h' : FirstFitting takes placed') (hsame : placed.map Prod.snd = placed'.map Prod.snd) :
    placed = placed' := by
  induction placed using List.reverseRecOn generalizing placed' with
  | nil => exact (List.map_eq_nil_iff.mp hsame.symm).symm
  | append_singleton placed x ih =>
    rcases List.eq_nil_or_concat placed' with rfl | ⟨placed', y, rfl⟩
    · simp at hsame
    · obtain ⟨i, a⟩ := x
      obtain ⟨j, b⟩ := y
      rw [List.concat_eq_append] at h' hsame ⊢
      rw [List.map_append, List.map_append] at hsame
      obtain ⟨hbefore, hlast⟩ := List.append_inj' hsame rfl
      obtain rfl : a = b := List.singleton_inj.mp hlast
      obtain ⟨hfirst, hi, hi'⟩ := firstFitting_concat.mp h
      obtain ⟨hfirst', hj, hj'⟩ := firstFitting_concat.mp h'
      obtain rfl := ih hfirst hfirst' hbefore
      rcases Nat.lt_trichotomy i j with hlt | rfl | hgt
      · exact absurd hi (hj' i hlt)
      · rfl
      · exact absurd hj (hi' j hgt)

/-- **Numbers that say the first bin for each item are those of first fit.** -/
theorem Packer.items_firstFit
    (hfits : ∀ l, ∀ b ∈ P.firstFit l, ∀ a, P.fits b a = true ↔ takes (P.items b) a)
    (h : FirstFitting takes placed) (hnew : ∀ a ∈ placed.map Prod.snd, takes [] a) :
    P.Holds (P.firstFit (placed.map Prod.snd)) placed := by
  obtain ⟨placed', hsame, hfirst, hholds⟩ := exists_firstFitting hfits hnew
  exact h.eq hfirst hsame.symm ▸ hholds

end Numbers

end Logix.Spec
