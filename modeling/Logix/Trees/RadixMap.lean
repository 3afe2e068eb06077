import Logix.Trees.Radix
import Mathlib.Data.List.Nodup
import Mathlib.Data.List.TakeWhile

/-!
# The radix trie is a map

Below a node, a trie stands for a map from strings: the value of the node at the empty string, and
the map of each child moved below its prefix.

* `WellKeyed`: children are keyed by the first units of their non-empty prefixes, all different;
* `find`: the map that `lookup` reads, `find_eq` its equation; `lookupLoop_eq`: the loop ends;
* `getCommonPrefixLength_spec`: the two strings split behind their common part;
* `find_of_getChild`: a write below a node is one of its children; `find_append`, `find_replace`:
  a new child, a replaced child;
* `split_spec`, `insertLoop_spec`: splitting a node and the loop of `insert`;
* **`lookup_insertAll`**: after any inserts, `lookup` returns the last value.
-/

namespace Logix.Trees.RadixNode

open Spec

variable {T : Type}

/-- **The invariant of the nodes.** -/
inductive WellKeyed : RadixNode T → Prop
  | intro {node : RadixNode T} (nodup : (node.children.map Prod.fst).Nodup)
      (keyed : ∀ e ∈ node.children, e.2.pfx ≠ [] ∧ e.2.pfx.head? = e.1)
      (below : ∀ e ∈ node.children, WellKeyed e.2) : WellKeyed node

/-- The map that `lookup` reads from a node. -/
def find (node : RadixNode T) (k : JsString) : Option T := (lookup node k).getD none

/-- The maps of the children, each below its prefix. -/
def findBelow (cs : List (Option UInt16 × RadixNode T)) (q : JsString) : Option T :=
  (getChild cs q.head?).elim none fun child => under child.pfx child.find q

theorem getChild_append_cons (as bs : List (Option UInt16 × RadixNode T))
    (e : Option UInt16 × RadixNode T) (k : Option UInt16) :
    getChild (as ++ e :: bs) k =
      (getChild as k).or (if e.1 = k then some e.2 else getChild bs k) := by
  simp only [getChild, List.find?_append, List.find?_cons]
  by_cases h : e.1 = k <;> cases (as.find? fun e => decide (e.1 = k)) <;> simp [h]

theorem getChild_eq_none {cs : List (Option UInt16 × RadixNode T)} {k : Option UInt16}
    (h : ∀ e ∈ cs, e.1 ≠ k) : getChild cs k = none := by
  simpa [getChild, List.find?_eq_none] using fun a b hab => h (a, b) hab

theorem mem_of_getChild {cs : List (Option UInt16 × RadixNode T)} {k : Option UInt16}
    {child : RadixNode T} (h : getChild cs k = some child) : (k, child) ∈ cs := by
  obtain ⟨⟨k', x⟩, hf, rfl⟩ := Option.map_eq_some_iff.mp h
  have hk : k' = k := by simpa using List.find?_some hf
  exact hk ▸ List.mem_of_find?_eq_some hf

theorem WellKeyed.of_mem {node : RadixNode T} (h : WellKeyed node)
    {e : Option UInt16 × RadixNode T} (he : e ∈ node.children) :
    WellKeyed e.2 ∧ e.2.pfx ≠ [] ∧ e.2.pfx.head? = e.1 := by
  cases h with
  | intro nodup keyed below => exact ⟨below e he, keyed e he⟩

theorem WellKeyed.nodup {node : RadixNode T} (h : WellKeyed node) :
    (node.children.map Prod.fst).Nodup := by
  cases h with
  | intro nodup keyed below => exact nodup

/-! ## The loop of `lookup` -/

/-- **`lookup` ends**: any number of rounds above the length of the key gives the same result. -/
theorem lookupLoop_mono {node : RadixNode T} (h : WellKeyed node) {k : JsString} {n m : ℕ}
    (hn : k.length < n) (hm : k.length < m) :
    lookupLoop n node k = lookupLoop m node k ∧ ∃ o, lookupLoop n node k = some o := by
  induction n generalizing node k m with
  | zero => omega
  | succ n ih =>
    obtain ⟨m, rfl⟩ : ∃ m', m = m' + 1 := ⟨m - 1, by omega⟩
    unfold lookupLoop
    by_cases hk : 0 < k.length
    · rw [if_pos hk, if_pos hk]
      cases hc : getChild node.children k.head? with
      | none => exact ⟨rfl, _, rfl⟩
      | some child =>
        obtain ⟨hw, hne, -⟩ := h.of_mem (mem_of_getChild hc)
        have hpos : 0 < child.pfx.length := List.length_pos_iff.mpr hne
        have hdrop : (k.drop child.pfx.length).length < k.length := by
          rw [List.length_drop]
          omega
        simp only
        split
        · exact ih hw (by omega) (by omega)
        · exact ⟨rfl, _, rfl⟩
    · rw [if_neg hk, if_neg hk]
      exact ⟨rfl, _, rfl⟩

theorem lookupLoop_eq {node : RadixNode T} (h : WellKeyed node) {k : JsString} {n : ℕ}
    (hn : k.length < n) : lookupLoop n node k = some (node.find k) := by
  obtain ⟨heq, o, ho⟩ := lookupLoop_mono h hn (Nat.lt_succ_self k.length)
  rw [find, lookup, ← heq, ho]
  rfl

theorem lookup_eq {node : RadixNode T} (h : WellKeyed node) (k : JsString) :
    lookup node k = some (node.find k) := lookupLoop_eq h (Nat.lt_succ_self _)

/-- **The map below a node.** -/
theorem find_eq {node : RadixNode T} (h : WellKeyed node) (q : JsString) :
    node.find q = if q = [] then if node.isLeaf then node.value else none
      else findBelow node.children q := by
  rw [find, lookup, lookupLoop]
  cases q with
  | nil => rfl
  | cons c q =>
    rw [if_pos (by simp), if_neg (by simp), findBelow]
    cases hc : getChild node.children (c :: q).head? with
    | none => rfl
    | some child =>
      obtain ⟨hw, hne, -⟩ := h.of_mem (mem_of_getChild hc)
      have hpos : 0 < child.pfx.length := List.length_pos_iff.mpr hne
      simp only [Option.elim_some, under]
      split
      · rw [lookupLoop_eq hw (by rw [List.length_drop]; simp; omega)]
        rfl
      · rfl

/-! ## Common prefixes -/

/-- The two strings behind their common part: one is over, or they go on differently. -/
theorem getCommonPrefixLength_spec : ∀ r s : JsString, ∃ p a b, r = p ++ a ∧ s = p ++ b ∧
    getCommonPrefixLength r s = p.length ∧ (a = [] ∨ b = [] ∨ a.head? ≠ b.head?)
  | [], s => ⟨[], [], s, rfl, rfl, by simp [getCommonPrefixLength], Or.inl rfl⟩
  | c :: r, [] => ⟨[], c :: r, [], rfl, rfl, by simp [getCommonPrefixLength], Or.inr (Or.inl rfl)⟩
  | c :: r, d :: s => by
    by_cases h : c = d
    · subst h
      obtain ⟨p, a, b, rfl, rfl, hlen, hd⟩ := getCommonPrefixLength_spec r s
      exact ⟨c :: p, a, b, rfl, rfl, by simp [getCommonPrefixLength, hlen], hd⟩
    · exact ⟨[], c :: r, d :: s, rfl, rfl, by simp [getCommonPrefixLength, h], by simp [h]⟩

theorem head?_ne_of_getCommonPrefixLength {r s : JsString} (hr : r ≠ []) (hs : s ≠ [])
    (h : getCommonPrefixLength r s = 0) : s.head? ≠ r.head? := by
  obtain ⟨p, a, b, rfl, rfl, hlen, hd⟩ := getCommonPrefixLength_spec r s
  have hp : p = [] := List.eq_nil_of_length_eq_zero (hlen ▸ h)
  subst hp
  rcases hd with rfl | rfl | hd
  · exact absurd rfl hr
  · exact absurd rfl hs
  · exact hd.symm

/-! ## Changing the children of a node -/

theorem find_newNode (r : JsString) (v : T) :
    (newNode r v).find = Function.update (fun _ => none) [] (some v) := by
  funext q
  cases q with
  | nil => rfl
  | cons c q => simp [find, lookup, lookupLoop, newNode, getChild]

theorem wellKeyed_newNode (r : JsString) (v : T) : WellKeyed (newNode r v) :=
  .intro List.nodup_nil (fun _ h => absurd h List.not_mem_nil) fun _ h =>
    absurd h List.not_mem_nil

theorem under_newNode (r : JsString) (v : T) :
    under r (newNode r v).find = Function.update (fun _ => none) r (some v) := by
  have hnone : under r (fun _ => none : JsString → Option T) = fun _ => none := by
    funext q
    simp [under]
  rw [find_newNode, under_update, hnone, List.append_nil]

theorem under_eq_none {p q : JsString} {m : JsString → Option T} (hp : p ≠ [])
    (h : p.head? ≠ q.head?) : under p m q = none := by
  refine under_eq_none_of_not fun hpre => h ?_
  obtain ⟨t, rfl⟩ := hpre
  obtain ⟨c, p, rfl⟩ := List.exists_cons_of_ne_nil hp
  rfl

theorem wellKeyed_append {node child : RadixNode T} (h : WellKeyed node) (hc : WellKeyed child)
    (hne : child.pfx ≠ []) (hfresh : ∀ e ∈ node.children, e.1 ≠ child.pfx.head?) :
    WellKeyed { node with children := node.children ++ [(child.pfx.head?, child)] } := by
  have hmem : ∀ e ∈ node.children ++ [(child.pfx.head?, child)],
      e ∈ node.children ∨ e = (child.pfx.head?, child) := fun e he =>
    (List.mem_append.mp he).imp_right List.mem_singleton.mp
  refine .intro ?_ ?_ ?_
  · rw [List.map_append, List.nodup_append]
    refine ⟨h.nodup, List.nodup_singleton _, ?_⟩
    intro a ha b hb
    obtain ⟨e, he, rfl⟩ := List.mem_map.mp ha
    rw [List.map_singleton, List.mem_singleton] at hb
    rw [hb]
    exact hfresh e he
  · intro e he
    rcases hmem e he with he | rfl
    · exact (h.of_mem he).2
    · exact ⟨hne, rfl⟩
  · intro e he
    rcases hmem e he with he | rfl
    · exact (h.of_mem he).1
    · exact hc

theorem wellKeyed_replace {node : RadixNode T} (h : WellKeyed node)
    {as bs : List (Option UInt16 × RadixNode T)} {k : Option UInt16} {x y : RadixNode T}
    (hcs : node.children = as ++ (k, x) :: bs) (hy : WellKeyed y) (hne : y.pfx ≠ [])
    (hhead : y.pfx.head? = k) : WellKeyed { node with children := as ++ (k, y) :: bs } := by
  have hmem : ∀ e ∈ as ++ (k, y) :: bs, e = (k, y) ∨ e ∈ node.children := by
    intro e he
    rw [hcs]
    simp only [List.mem_append, List.mem_cons] at he ⊢
    tauto
  refine .intro ?_ ?_ ?_
  · have := h.nodup
    rw [hcs, List.map_append, List.map_cons] at this
    rwa [List.map_append, List.map_cons]
  · intro e he
    rcases hmem e he with rfl | he
    · exact ⟨hne, hhead⟩
    · exact (h.of_mem he).2
  · intro e he
    rcases hmem e he with rfl | he
    · exact hy
    · exact (h.of_mem he).1

/-- **A write below a node** is a write of one of its children: of `child` under the first unit
`k` of the key, where a look-up found `old` before. -/
theorem find_of_getChild {node : RadixNode T} {cs : List (Option UInt16 × RadixNode T)}
    (h : WellKeyed node) (hw : WellKeyed { node with children := cs }) {r : JsString} {v : T}
    (hr : r ≠ []) {child : RadixNode T} {old : JsString → Option T}
    (hold : (getChild node.children r.head?).elim (fun _ => none)
      (fun x => under x.pfx x.find) = old)
    (hother : ∀ k, k ≠ r.head? → getChild cs k = getChild node.children k)
    (hchild : getChild cs r.head? = some child)
    (hunder : under child.pfx child.find = Function.update old r (some v)) :
    find { node with children := cs } = Function.update node.find r (some v) := by
  funext q
  rw [find_eq hw]
  by_cases hq : q = []
  · rw [if_pos hq, Function.update_of_ne (hq ▸ hr.symm), find_eq h, if_pos hq]
  · rw [if_neg hq, findBelow]
    by_cases hk : q.head? = r.head?
    · rw [hk, hchild, Option.elim_some, hunder]
      by_cases hqr : q = r
      · rw [hqr, Function.update_self, Function.update_self]
      · rw [Function.update_of_ne hqr, Function.update_of_ne hqr, find_eq h, if_neg hq, findBelow,
          ← hold, hk]
        cases getChild node.children r.head? <;> rfl
    · have hqr : q ≠ r := fun hqr => hk (hqr ▸ rfl)
      rw [hother _ hk, Function.update_of_ne hqr, find_eq h, if_neg hq, findBelow]

/-- **A new child** whose first unit no other child has. -/
theorem find_append {node : RadixNode T} (h : WellKeyed node) {child : RadixNode T}
    {r : JsString} {v : T} (hc : WellKeyed child) (hne : child.pfx ≠ [])
    (hfresh : ∀ e ∈ node.children, e.1 ≠ child.pfx.head?)
    (hunder : under child.pfx child.find = Function.update (fun _ => none) r (some v))
    (hr : r ≠ []) (hhead : r.head? = child.pfx.head?) :
    WellKeyed { node with children := node.children ++ [(child.pfx.head?, child)] } ∧
      find { node with children := node.children ++ [(child.pfx.head?, child)] } =
        Function.update node.find r (some v) := by
  have hw := wellKeyed_append h hc hne hfresh
  have hnone : getChild node.children r.head? = none := by
    rw [hhead]
    exact getChild_eq_none hfresh
  refine ⟨hw, find_of_getChild h hw hr (by rw [hnone]; rfl) (fun k hk => ?_) ?_ hunder⟩
  · have hkey : child.pfx.head? ≠ k := fun he => hk (he.symm.trans hhead.symm)
    rw [getChild_append_cons, if_neg hkey]
    simp [getChild]
  · rw [getChild_append_cons, hnone, if_pos hhead.symm, Option.none_or]

/-- **A replaced child.** -/
theorem find_replace {node : RadixNode T} (h : WellKeyed node)
    {as bs : List (Option UInt16 × RadixNode T)} {k : Option UInt16} {x y : RadixNode T}
    (hcs : node.children = as ++ (k, x) :: bs) {r : JsString} {v : T} (hy : WellKeyed y)
    (hne : y.pfx ≠ []) (hhead : y.pfx.head? = k) (hr : r.head? = k)
    (hunder : under y.pfx y.find = Function.update (under x.pfx x.find) r (some v)) :
    WellKeyed { node with children := as ++ (k, y) :: bs } ∧
      find { node with children := as ++ (k, y) :: bs } =
        Function.update node.find r (some v) := by
  subst hr
  have hw := wellKeyed_replace h hcs hy hne hhead
  have hrne : r ≠ [] := by
    rintro rfl
    exact hne (List.head?_eq_none_iff.mp hhead)
  -- no earlier child has the key
  have hnone : getChild as r.head? = none := by
    refine getChild_eq_none fun e he hek => ?_
    have hnd := h.nodup
    rw [hcs, List.map_append, List.map_cons] at hnd
    exact (List.nodup_append.mp hnd).2.2 e.1 (List.mem_map_of_mem he) r.head? List.mem_cons_self
      hek
  have hat : ∀ z : RadixNode T, getChild (as ++ (r.head?, z) :: bs) r.head? = some z := fun z => by
    rw [getChild_append_cons, hnone, if_pos rfl, Option.none_or]
  refine ⟨hw, find_of_getChild h hw hrne (by rw [hcs, hat]; rfl) (fun k hk => ?_) (hat y) hunder⟩
  rw [hcs, getChild_append_cons, getChild_append_cons, if_neg hk.symm, if_neg hk.symm]

/-! ## Splitting a node -/

theorem setChild_of_fresh {cs : List (Option UInt16 × RadixNode T)} {node : RadixNode T}
    (h : ∀ e ∈ cs, e.1 ≠ node.pfx.head?) : setChild cs node = cs ++ [(node.pfx.head?, node)] := by
  rw [setChild, if_neg]
  simp only [List.any_eq_true, decide_eq_true_eq, not_exists, not_and]
  exact h

theorem wellKeyed_pfx {node : RadixNode T} (h : WellKeyed node) (p : JsString) :
    WellKeyed { node with pfx := p } :=
  .intro h.nodup (fun _ he => (h.of_mem he).2) fun _ he => (h.of_mem he).1

theorem find_single {x : RadixNode T} (h : WellKeyed x) {b : JsString} (hb : b ≠ []) (p : JsString)
    (o : Bool) (w : Option T) :
    WellKeyed ⟨p, o, w, [(b.head?, { x with pfx := b })]⟩ ∧
      ∀ q, find ⟨p, o, w, [(b.head?, { x with pfx := b })]⟩ q =
        if q = [] then if o then w else none else under b x.find q := by
  have hpfx : find { x with pfx := b } = x.find := rfl
  have hw : WellKeyed (⟨p, o, w, [(b.head?, { x with pfx := b })]⟩ : RadixNode T) := by
    refine .intro (List.nodup_singleton _) ?_ ?_
    · intro e he
      rw [List.mem_singleton.mp he]
      exact ⟨hb, rfl⟩
    · intro e he
      rw [List.mem_singleton.mp he]
      exact wellKeyed_pfx h b
  refine ⟨hw, fun q => ?_⟩
  rw [find_eq hw, findBelow]
  by_cases hk : b.head? = q.head?
  · simp [getChild, hk, hpfx]
  · simp [getChild, hk, under_eq_none hb hk]

/-- **Splitting a node** inside its prefix writes the remaining key below it. -/
theorem split_spec {x : RadixNode T} (h : WellKeyed x) {p a b : JsString} (v : T) (hb : b ≠ [])
    (hx : x.pfx = p ++ b) (hab : a = [] ∨ a.head? ≠ b.head?) :
    WellKeyed (x.split p.length (p ++ a) v) ∧ (x.split p.length (p ++ a) v).pfx = p ∧
      under p (x.split p.length (p ++ a) v).find =
        Function.update (under x.pfx x.find) (p ++ a) (some v) := by
  have hdrop : x.pfx.drop p.length = b := by rw [hx, List.drop_left]
  have htake : x.pfx.take p.length = p := by rw [hx, List.take_left]
  -- the upper node, with the rest of the old one as its only child
  have hone := find_single h hb p
  have hunder : under x.pfx x.find = under p (under b x.find) := by rw [hx, under_under]
  rw [hunder, ← under_update]
  unfold split
  rw [hdrop, htake]
  simp only [List.length_append]
  have hset : setChild [] { x with pfx := b } = [(b.head?, { x with pfx := b })] :=
    setChild_of_fresh fun _ he => absurd he List.not_mem_nil
  rw [hset]
  by_cases ha : a = []
  · -- the key ends here
    subst ha
    rw [if_pos (by simp)]
    refine ⟨(hone true (some v)).1, rfl, congrArg (under p) (funext fun q => ?_)⟩
    rw [(hone true (some v)).2 q, Function.update_apply]
    rfl
  · -- the key goes on in a new child
    have hhead : a.head? ≠ b.head? := hab.resolve_left ha
    have hlen : a.length ≠ 0 := fun h0 => ha (List.eq_nil_of_length_eq_zero h0)
    rw [if_neg (by omega), List.drop_left]
    have hfresh : ∀ e ∈ [(b.head?, { x with pfx := b })], e.1 ≠ (newNode a v).pfx.head? :=
      List.forall_mem_singleton.mpr hhead.symm
    rw [setChild_of_fresh hfresh]
    obtain ⟨hw, hf⟩ := find_append (hone false none).1 (wellKeyed_newNode a v) ha hfresh
      (under_newNode a v) ha rfl
    refine ⟨hw, rfl, congrArg (under p) ?_⟩
    rw [hf]
    congr 1
    funext q
    rw [(hone false none).2 q]
    by_cases hq : q = []
    · rw [if_pos hq, hq, under_eq_none_of_not (by simpa using hb)]
      rfl
    · rw [if_neg hq]

/-! ## The loop of `insert` -/

theorem takeWhile_unmatched {node : RadixNode T} {r : JsString}
    {e : Option UInt16 × RadixNode T} {later : List (Option UInt16 × RadixNode T)}
    (h : node.children.dropWhile
      (fun e => decide (getCommonPrefixLength r e.2.pfx = 0)) = e :: later) :
    node.children = node.children.takeWhile
        (fun e => decide (getCommonPrefixLength r e.2.pfx = 0)) ++ e :: later ∧
      getCommonPrefixLength r e.2.pfx ≠ 0 := by
  constructor
  · rw [← h, List.takeWhile_append_dropWhile]
  · have := List.head?_dropWhile_not
      (fun e : Option UInt16 × RadixNode T => decide (getCommonPrefixLength r e.2.pfx = 0))
      node.children
    simpa [h] using this

/-- **The child that shares units with the key**: the key and its prefix split behind a common part
that is not empty, and starts with the key of the child. -/
theorem exists_common_part {node : RadixNode T} (h : WellKeyed node) {r : JsString}
    {k : Option UInt16} {x : RadixNode T} {later : List (Option UInt16 × RadixNode T)}
    (hdw : node.children.dropWhile
      (fun e => decide (getCommonPrefixLength r e.2.pfx = 0)) = (k, x) :: later) :
    ∃ p a b, r = p ++ a ∧ x.pfx = p ++ b ∧ getCommonPrefixLength r x.pfx = p.length ∧
      (a = [] ∨ b = [] ∨ a.head? ≠ b.head?) ∧ p ≠ [] ∧ p.head? = k ∧ r.head? = k := by
  obtain ⟨hcs, hmatch⟩ := takeWhile_unmatched hdw
  have hmem : (k, x) ∈ node.children := by
    rw [hcs]
    exact List.mem_append_right _ List.mem_cons_self
  have hkey : x.pfx.head? = k := (h.of_mem hmem).2.2
  obtain ⟨p, a, b, rfl, hpfx, hlen, hd⟩ := getCommonPrefixLength_spec r x.pfx
  have hp : p ≠ [] := by
    rintro rfl
    exact hmatch hlen
  have hphead : p.head? = k := by
    obtain ⟨c, p, rfl⟩ := List.exists_cons_of_ne_nil hp
    rw [← hkey, hpfx]
    rfl
  have hrhead : (p ++ a).head? = k := by
    obtain ⟨c, p, rfl⟩ := List.exists_cons_of_ne_nil hp
    exact hphead
  exact ⟨p, a, b, rfl, hpfx, hlen, hd, hp, hphead, hrhead⟩

theorem find_setValue {node : RadixNode T} (h : WellKeyed node) (v : T) :
    WellKeyed { node with isLeaf := true, value := some v } ∧
      find { node with isLeaf := true, value := some v } =
        Function.update node.find [] (some v) := by
  have hw : WellKeyed { node with isLeaf := true, value := some v } :=
    .intro h.nodup (fun _ he => (h.of_mem he).2) fun _ he => (h.of_mem he).1
  refine ⟨hw, funext fun q => ?_⟩
  rw [find_eq hw, Function.update_apply, find_eq h]
  by_cases hq : q = [] <;> simp [hq]

theorem fresh_of_dropWhile {node : RadixNode T} (h : WellKeyed node) {r : JsString} (v : T)
    (hr : r ≠ []) (hdw : node.children.dropWhile
      (fun e => decide (getCommonPrefixLength r e.2.pfx = 0)) = []) :
    ∀ e ∈ node.children, e.1 ≠ (newNode r v).pfx.head? := by
  intro e he
  have h0 : getCommonPrefixLength r e.2.pfx = 0 := by
    simpa using List.dropWhile_eq_nil_iff.mp hdw e he
  obtain ⟨-, hne, hkey⟩ := h.of_mem he
  rw [← hkey]
  exact head?_ne_of_getCommonPrefixLength hr hne h0

theorem find_setChild_newNode {node : RadixNode T} (h : WellKeyed node) {r : JsString} (v : T)
    (hr : r ≠ []) (hdw : node.children.dropWhile
      (fun e => decide (getCommonPrefixLength r e.2.pfx = 0)) = []) :
    WellKeyed { node with children := setChild node.children (newNode r v) } ∧
      find { node with children := setChild node.children (newNode r v) } =
        Function.update node.find r (some v) := by
  have hfresh := fresh_of_dropWhile h v hr hdw
  rw [setChild_of_fresh hfresh]
  exact find_append h (wellKeyed_newNode r v) hr hfresh (under_newNode r v) hr rfl

/-- **The loop of `insert`** ends, and writes the remaining key below the node. -/
theorem insertLoop_spec {node : RadixNode T} (h : WellKeyed node) {r : JsString} (v : T) {n : ℕ}
    (hn : r.length < n) : ∃ node', insertLoop n node r v = some node' ∧ WellKeyed node' ∧
      node'.pfx = node.pfx ∧ node'.find = Function.update node.find r (some v) := by
  induction n generalizing node r with
  | zero => omega
  | succ n ih =>
    unfold insertLoop
    by_cases hr : r = []
    · subst hr
      obtain ⟨hw, hf⟩ := find_setValue h v
      exact ⟨_, if_neg (by simp), hw, rfl, hf⟩
    · rw [if_pos (List.length_pos_iff.mpr hr)]
      simp only
      cases hdw : node.children.dropWhile
        fun e => decide (getCommonPrefixLength r e.2.pfx = 0) with
      | nil =>
        obtain ⟨hw, hf⟩ := find_setChild_newNode h v hr hdw
        exact ⟨_, rfl, hw, rfl, hf⟩
      | cons e later =>
        obtain ⟨k, x⟩ := e
        have hcs := (takeWhile_unmatched hdw).1
        have hmem : (k, x) ∈ node.children := by
          rw [hcs]
          exact List.mem_append_right _ List.mem_cons_self
        have hx : WellKeyed x := (h.of_mem hmem).1
        obtain ⟨p, a, b, rfl, hpfx, hlen, hd, hp, hphead, hrhead⟩ := exists_common_part h hdw
        simp only
        rw [hlen]
        by_cases hb : b = []
        · -- the whole prefix matches: go on below the child
          rw [hb, List.append_nil] at hpfx
          have hplen : 0 < p.length := List.length_pos_iff.mpr hp
          rw [List.length_append] at hn
          obtain ⟨y, hy, hyw, hypfx, hyf⟩ := ih hx (r := a) (by omega)
          rw [if_pos (by rw [hpfx]), List.drop_left, hy]
          obtain ⟨hw, hf⟩ := find_replace h hcs (r := p ++ a) (v := v) hyw
            (by rw [hypfx, hpfx]; exact hp) (by rw [hypfx, hpfx]; exact hphead) hrhead
            (by rw [hypfx, hyf, under_update, hpfx])
          exact ⟨_, rfl, hw, rfl, hf⟩
        · -- the prefix and the key part inside the prefix
          have hab : a = [] ∨ a.head? ≠ b.head? := hd.imp_right fun h => h.resolve_left hb
          have hblen : b.length ≠ 0 := fun h0 => hb (List.eq_nil_of_length_eq_zero h0)
          rw [if_neg (by rw [hpfx, List.length_append]; omega)]
          obtain ⟨hyw, hypfx, hyf⟩ := split_spec hx v hb hpfx hab
          obtain ⟨hw, hf⟩ := find_replace h hcs (r := p ++ a) (v := v) hyw
            (by rw [hypfx]; exact hp) (by rw [hypfx]; exact hphead) hrhead
            (by rw [hypfx, hyf])
          exact ⟨_, rfl, hw, rfl, hf⟩

/-! ## The trie -/

theorem wellKeyed_emptyRoot : WellKeyed (emptyRoot : RadixNode T) :=
  .intro List.nodup_nil (fun _ h => absurd h List.not_mem_nil) fun _ h =>
    absurd h List.not_mem_nil

theorem find_emptyRoot : (emptyRoot : RadixNode T).find = fun _ => none := by
  funext q
  rw [find_eq wellKeyed_emptyRoot]
  simp [emptyRoot, findBelow, getChild]

/-- **The trie is a map from strings**: the loops of all inserts and lookups end, and `lookup`
returns the value of the last insert. -/
theorem lookup_insertAll (ws : List (JsString × T)) :
    ∃ root, writeAll insert emptyRoot ws = some root ∧
      ∀ k, lookup root k = some (lastWrite ws k) := by
  have hstep : ∀ (s : RadixNode T) (k : JsString) (v : T), WellKeyed s → ∃ s',
      insert s k v = some s' ∧ WellKeyed s' ∧ s'.find = Function.update s.find k (some v) := by
    intro s k v hs
    obtain ⟨s', hs', hw, -, hf⟩ := insertLoop_spec hs v (Nat.lt_succ_self k.length)
    exact ⟨s', hs', hw, hf⟩
  obtain ⟨root, hroot, hw, hf⟩ := writeAll_refines wellKeyed_emptyRoot find_emptyRoot hstep ws
  refine ⟨root, hroot, fun k => ?_⟩
  rw [lookup_eq hw, hf]

end Logix.Trees.RadixNode
