import Logix.Trees.RadixMap

/-!
# The normal form of the radix trie

A trie is determined by the map that it stands for, up to the order in which the children were
entered.

* `SameTrie`: equality up to the order of the children;
* `Canonical`: no empty prefix, no chain of nodes that could be one, and siblings that start
  differently;
* `Tight`: the invariant behind it, with the values of the nodes;
* `spread_find`: below a tight node, no unit starts all keys;
* `sameTrie_of_find`: two tight nodes that stand for one map are the same trie;
* `tight_split`, `insertLoop_tight`: insertion keeps the nodes tight;
* **`insertAll_canonical`**: the trie does not depend on the order of the inserts.
-/

namespace Logix.Trees.RadixNode

open Spec

variable {T : Type}

/-- **The same trie**, up to the order of the entries of the `children` maps: at every node the same
prefix, mark and value, and the same tries under the same keys. -/
inductive SameTrie : RadixNode T → RadixNode T → Prop
  | intro {a b : RadixNode T} (pfx : a.pfx = b.pfx) (isLeaf : a.isLeaf = b.isLeaf)
      (value : a.value = b.value)
      (keys : (a.children.map Prod.fst).Perm (b.children.map Prod.fst))
      (below : ∀ e ∈ a.children, ∀ e' ∈ b.children, e.1 = e'.1 → SameTrie e.2 e'.2) : SameTrie a b

/-- **The normal form** of a trie, seen from its root. -/
inductive Canonical : RadixNode T → Prop
  | intro {node : RadixNode T} (heads : (node.children.map fun e => e.2.pfx.head?).Nodup)
      (nonempty : ∀ e ∈ node.children, e.2.pfx ≠ [])
      (branch : ∀ e ∈ node.children, e.2.isLeaf = true ∨ 2 ≤ e.2.children.length)
      (below : ∀ e ∈ node.children, Canonical e.2) : Canonical node

/-- **The invariant**: values are at the leaves, and every node below is a leaf or a fork. -/
inductive Tight : RadixNode T → Prop
  | intro {node : RadixNode T} (leaf : node.value.isSome = node.isLeaf)
      (branch : ∀ e ∈ node.children, e.2.isLeaf = true ∨ 2 ≤ e.2.children.length)
      (below : ∀ e ∈ node.children, Tight e.2) : Tight node

/-- A node that may stand below another one. -/
def IsFork (node : RadixNode T) : Prop := node.isLeaf = true ∨ 2 ≤ node.children.length

variable {node a b : RadixNode T} {e : Option UInt16 × RadixNode T}

theorem Tight.leaf (h : Tight node) : node.value.isSome = node.isLeaf := by
  cases h with
  | intro leaf branch below => exact leaf

theorem Tight.of_mem (h : Tight node) (he : e ∈ node.children) : Tight e.2 ∧ IsFork e.2 := by
  cases h with
  | intro leaf branch below => exact ⟨below e he, branch e he⟩

theorem canonical_of_tight (hw : WellKeyed node) (ht : Tight node) : Canonical node := by
  induction ht with
  | intro leaf branch below ih =>
    rename_i node
    refine .intro ?_ (fun e he => (hw.of_mem he).2.1) branch fun e he => ih e he (hw.of_mem he).1
    have hkeys : (node.children.map fun e => e.2.pfx.head?) = node.children.map Prod.fst :=
      List.map_congr_left fun e he => (hw.of_mem he).2.2
    rw [hkeys]
    exact hw.nodup

/-! ## The map of a node tells the node -/

theorem getChild_of_mem {cs : List (Option UInt16 × RadixNode T)} (hnd : (cs.map Prod.fst).Nodup)
    (he : e ∈ cs) : getChild cs e.1 = some e.2 := by
  obtain ⟨as, bs, rfl⟩ := List.append_of_mem he
  have hfresh : getChild as e.1 = none := by
    refine getChild_eq_none fun x hx hxe => ?_
    rw [List.map_append, List.nodup_append] at hnd
    exact hnd.2.2 x.1 (List.mem_map_of_mem hx) e.1 List.mem_cons_self hxe
  rw [getChild_append_cons, hfresh, if_pos rfl, Option.none_or]

theorem find_nil (hw : WellKeyed node) (ht : Tight node) : node.find [] = node.value := by
  rw [find_eq hw, if_pos rfl, ← ht.leaf]
  cases node.value <;> rfl

/-- **The map of a child** is the part of the map that starts with its key. -/
theorem under_child (hw : WellKeyed node) (he : e ∈ node.children) :
    under e.2.pfx e.2.find = fun q => if q.head? = e.1 then node.find q else none := by
  obtain ⟨-, hne, hkey⟩ := hw.of_mem he
  funext q
  split_ifs with hq
  · have hqne : q ≠ [] := by
      rintro rfl
      exact hne (List.head?_eq_none_iff.mp (hkey.trans hq.symm))
    rw [find_eq hw, if_neg hqne, findBelow, hq, getChild_of_mem hw.nodup he, Option.elim_some]
  · exact under_eq_none hne fun h => hq (h.symm.trans hkey)

theorem exists_find_of_mem (hw : WellKeyed node) (he : e ∈ node.children)
    (hs : Spread e.2.find) : ∃ q, node.find q ≠ none ∧ q.head? = e.1 := by
  obtain ⟨q, hq⟩ := hs.exists_key
  rw [← under_append e.2.pfx e.2.find q, under_child hw he] at hq
  refine ⟨e.2.pfx ++ q, ?_⟩
  dsimp only at hq
  split_ifs at hq with hhead
  · exact ⟨hq, hhead⟩
  · exact absurd rfl hq

/-- **Below a tight node that is a leaf or a fork**, no unit starts all keys. -/
theorem spread_find (hw : WellKeyed node) (ht : Tight node) (hf : IsFork node) :
    Spread node.find := by
  induction ht with
  | intro leaf branch below ih =>
    rename_i node
    have hnil := find_nil hw (.intro leaf branch below)
    rcases hf with hleaf | htwo
    · have hval : node.find [] ≠ none := by
        rw [hnil, ← Option.isSome_iff_ne_none, leaf, hleaf]
      exact ⟨⟨[], hval⟩, fun c => ⟨[], hval, by simp⟩⟩
    · -- the keys of two children start differently
      match hcs : node.children, htwo with
      | e₁ :: e₂ :: rest, _ =>
        have he₁ : e₁ ∈ node.children := by simp [hcs]
        have he₂ : e₂ ∈ node.children := by simp [hcs]
        have hnd := hw.nodup
        rw [hcs, List.map_cons, List.nodup_cons] at hnd
        have hne : e₁.1 ≠ e₂.1 := fun h => hnd.1 (h ▸ List.mem_map_of_mem List.mem_cons_self)
        obtain ⟨q₁, hq₁, hk₁⟩ := exists_find_of_mem hw he₁
          (ih e₁ he₁ (hw.of_mem he₁).1 (branch e₁ he₁))
        obtain ⟨q₂, hq₂, hk₂⟩ := exists_find_of_mem hw he₂
          (ih e₂ he₂ (hw.of_mem he₂).1 (branch e₂ he₂))
        refine ⟨⟨q₁, hq₁⟩, fun c => ?_⟩
        by_cases hc : q₁.head? = some c
        · exact ⟨q₂, hq₂, fun h => hne (hk₁.symm.trans ((hc.trans h.symm).trans hk₂))⟩
        · exact ⟨q₁, hq₁, hc⟩

theorem mem_keys_iff (hw : WellKeyed node) (ht : Tight node) {k : Option UInt16} :
    k ∈ node.children.map Prod.fst ↔ ∃ q, q ≠ [] ∧ q.head? = k ∧ node.find q ≠ none := by
  constructor
  · intro hk
    obtain ⟨e, he, rfl⟩ := List.mem_map.mp hk
    obtain ⟨hwe, hne, hkey⟩ := hw.of_mem he
    obtain ⟨hte, hfe⟩ := ht.of_mem he
    obtain ⟨q, hq, hhead⟩ := exists_find_of_mem hw he (spread_find hwe hte hfe)
    refine ⟨q, ?_, hhead, hq⟩
    rintro rfl
    exact hne (List.head?_eq_none_iff.mp (hkey.trans hhead.symm))
  · rintro ⟨q, hq, rfl, hfind⟩
    rw [find_eq hw, if_neg hq, findBelow] at hfind
    cases hc : getChild node.children q.head? with
    | none => simp [hc] at hfind
    | some child => exact List.mem_map_of_mem (f := Prod.fst) (mem_of_getChild hc)

/-- **A tight node is determined by its map.** -/
theorem sameTrie_of_find (ha : Tight a) (hwa : WellKeyed a) (hb : Tight b) (hwb : WellKeyed b)
    (hpfx : a.pfx = b.pfx) (hfind : a.find = b.find) : SameTrie a b := by
  induction ha generalizing b with
  | intro leaf branch below ih =>
    rename_i a
    have hta : Tight a := .intro leaf branch below
    have hvalue : a.value = b.value := by
      rw [← find_nil hwa hta, hfind, find_nil hwb hb]
    refine .intro hpfx ?_ hvalue ?_ fun e he e' he' hkey => ?_
    · rw [← leaf, ← hb.leaf, hvalue]
    · refine (List.perm_ext_iff_of_nodup hwa.nodup hwb.nodup).mpr fun k => ?_
      rw [mem_keys_iff hwa hta, mem_keys_iff hwb hb, hfind]
    · obtain ⟨hte, hfe⟩ := hta.of_mem he
      obtain ⟨hte', hfe'⟩ := hb.of_mem he'
      have hwe := (hwa.of_mem he).1
      have hwe' := (hwb.of_mem he').1
      have hunder : under e.2.pfx e.2.find = under e'.2.pfx e'.2.find := by
        rw [under_child hwa he, under_child hwb he', hkey, hfind]
      obtain ⟨hp, hm⟩ :=
        under_injective (spread_find hwe hte hfe) (spread_find hwe' hte' hfe') hunder
      exact ih e he hwe hte' hwe' hp hm

/-! ## Insertion keeps the nodes tight -/

theorem tight_newNode (r : JsString) (v : T) : Tight (newNode r v) :=
  .intro rfl (fun _ h => absurd h List.not_mem_nil) fun _ h => absurd h List.not_mem_nil

theorem tight_pfx (h : Tight node) (p : JsString) : Tight { node with pfx := p } :=
  .intro h.leaf (fun _ he => (h.of_mem he).2) fun _ he => (h.of_mem he).1

theorem tight_children {cs : List (Option UInt16 × RadixNode T)} (h : Tight node)
    (hcs : ∀ e ∈ cs, e ∈ node.children ∨ Tight e.2 ∧ IsFork e.2) :
    Tight { node with children := cs } := by
  have hall : ∀ e ∈ cs, Tight e.2 ∧ IsFork e.2 := fun e he => (hcs e he).elim h.of_mem id
  exact .intro h.leaf (fun e he => (hall e he).2) fun e he => (hall e he).1

theorem tight_append_child {k : Option UInt16} {x : RadixNode T} (h : Tight node)
    (hx : Tight x ∧ IsFork x) : Tight { node with children := node.children ++ [(k, x)] } ∧
      (IsFork node → IsFork { node with children := node.children ++ [(k, x)] }) := by
  refine ⟨tight_children h fun e he => ?_, fun hf => hf.imp_right fun htwo => ?_⟩
  · refine (List.mem_append.mp he).imp_right fun he => ?_
    rw [List.mem_singleton.mp he]
    exact hx
  · exact htwo.trans (by simp)

theorem tight_replace_child {front later : List (Option UInt16 × RadixNode T)}
    {k : Option UInt16} {x : RadixNode T} (h : Tight node)
    (hcs : node.children = front ++ e :: later) (hx : Tight x ∧ IsFork x) :
    Tight { node with children := front ++ (k, x) :: later } ∧
      (IsFork node → IsFork { node with children := front ++ (k, x) :: later }) := by
  refine ⟨tight_children h fun d hd => ?_, fun hf => hf.imp_right fun htwo => ?_⟩
  · rw [hcs]
    rcases List.mem_append.mp hd with hd | hd
    · exact Or.inl (List.mem_append_left _ hd)
    · rcases List.mem_cons.mp hd with rfl | hd
      · exact Or.inr hx
      · exact Or.inl (List.mem_append_right _ (List.mem_cons_of_mem _ hd))
  · rw [hcs] at htwo
    simpa using htwo

/-- **Splitting a node** leaves a leaf or a fork. -/
theorem tight_split {x : RadixNode T} (h : Tight x) (hf : IsFork x) {p a b : JsString} (v : T)
    (hx : x.pfx = p ++ b) (hab : a = [] ∨ a.head? ≠ b.head?) :
    Tight (x.split p.length (p ++ a) v) ∧ IsFork (x.split p.length (p ++ a) v) := by
  have hdrop : x.pfx.drop p.length = b := by rw [hx, List.drop_left]
  have hset : setChild [] { x with pfx := b } = [(b.head?, { x with pfx := b })] :=
    setChild_of_fresh fun _ he => absurd he List.not_mem_nil
  have hrest : Tight { x with pfx := b } ∧ IsFork { x with pfx := b } := ⟨tight_pfx h b, hf⟩
  unfold split
  rw [hdrop]
  simp only [List.length_append, hset]
  by_cases ha : a = []
  · subst ha
    rw [if_pos (by simp)]
    refine ⟨.intro rfl (fun e he => ?_) fun e he => ?_, Or.inl rfl⟩
    · rw [List.mem_singleton.mp he]
      exact hrest.2
    · rw [List.mem_singleton.mp he]
      exact hrest.1
  · have hhead : a.head? ≠ b.head? := hab.resolve_left ha
    have hlen : a.length ≠ 0 := fun h0 => ha (List.eq_nil_of_length_eq_zero h0)
    have hfresh : ∀ e ∈ [(b.head?, { x with pfx := b })], e.1 ≠ (newNode a v).pfx.head? :=
      List.forall_mem_singleton.mpr hhead.symm
    rw [if_neg (by omega), List.drop_left, setChild_of_fresh hfresh]
    have hall : ∀ e ∈ [(b.head?, { x with pfx := b })] ++ [((newNode a v).pfx.head?, newNode a v)],
        Tight e.2 ∧ IsFork e.2 := by
      intro e he
      rcases List.mem_append.mp he with he | he
      · rw [List.mem_singleton.mp he]
        exact hrest
      · rw [List.mem_singleton.mp he]
        exact ⟨tight_newNode a v, Or.inl rfl⟩
    exact ⟨.intro rfl (fun e he => (hall e he).2) fun e he => (hall e he).1, Or.inr le_rfl⟩

/-- **The loop of `insert`** keeps a node tight, and a leaf or a fork stays one. -/
theorem insertLoop_tight {n : ℕ} {r : JsString} {v : T} (hw : WellKeyed a) (ht : Tight a)
    (h : insertLoop n a r v = some b) : Tight b ∧ (IsFork a → IsFork b) := by
  induction n generalizing a b r with
  | zero => cases h
  | succ n ih =>
    unfold insertLoop at h
    by_cases hr : r = []
    · subst hr
      rw [if_neg (by simp)] at h
      obtain rfl := Option.some.inj h
      exact ⟨.intro rfl (fun _ he => (ht.of_mem he).2) fun _ he => (ht.of_mem he).1,
        fun _ => Or.inl rfl⟩
    · rw [if_pos (List.length_pos_iff.mpr hr)] at h
      simp only at h
      cases hdw : a.children.dropWhile fun e => decide (getCommonPrefixLength r e.2.pfx = 0) with
      | nil =>
        rw [hdw] at h
        obtain rfl := Option.some.inj h
        rw [setChild_of_fresh (fresh_of_dropWhile hw v hr hdw)]
        exact tight_append_child ht ⟨tight_newNode r v, Or.inl rfl⟩
      | cons e later =>
        obtain ⟨k, x⟩ := e
        rw [hdw] at h
        simp only at h
        have hcs := (takeWhile_unmatched hdw).1
        have hmem : (k, x) ∈ a.children := by
          rw [hcs]
          exact List.mem_append_right _ List.mem_cons_self
        obtain ⟨hwx, -, -⟩ := hw.of_mem hmem
        obtain ⟨htx, hfx⟩ := ht.of_mem hmem
        obtain ⟨p, a', b', rfl, hpfx, hlen, hd, hp, -, -⟩ := exists_common_part hw hdw
        rw [hlen] at h
        by_cases hb : b' = []
        · rw [hb, List.append_nil] at hpfx
          rw [if_pos (by rw [hpfx]), List.drop_left] at h
          obtain ⟨y, hy, rfl⟩ := Option.map_eq_some_iff.mp h
          obtain ⟨hty, hfy⟩ := ih hwx htx hy
          exact tight_replace_child ht hcs ⟨hty, hfy hfx⟩
        · have hab : a' = [] ∨ a'.head? ≠ b'.head? := hd.imp_right fun h => h.resolve_left hb
          have hblen : b'.length ≠ 0 := fun h0 => hb (List.eq_nil_of_length_eq_zero h0)
          rw [if_neg (by rw [hpfx, List.length_append]; omega)] at h
          obtain rfl := Option.some.inj h
          exact tight_replace_child ht hcs (tight_split htx hfx v hpfx hab)

/-! ## The trie -/

theorem tight_emptyRoot : Tight (emptyRoot : RadixNode T) :=
  .intro rfl (fun _ h => absurd h List.not_mem_nil) fun _ h => absurd h List.not_mem_nil

theorem exists_insertAll (ws : List (JsString × T)) : ∃ root,
    writeAll insert emptyRoot ws = some root ∧ (WellKeyed root ∧ Tight root ∧ root.pfx = []) ∧
      root.find = lastWrite ws := by
  refine writeAll_refines (I := fun s : RadixNode T => WellKeyed s ∧ Tight s ∧ s.pfx = [])
    ⟨wellKeyed_emptyRoot, tight_emptyRoot, rfl⟩ find_emptyRoot ?_ ws
  rintro s k v ⟨hw, ht, hpfx⟩
  obtain ⟨s', hs', hw', hpfx', hf⟩ := insertLoop_spec hw v (Nat.lt_succ_self k.length)
  exact ⟨s', hs', ⟨hw', (insertLoop_tight hw ht hs').1, hpfx'.trans hpfx⟩, hf⟩

/-- **The normal form**: different keys, inserted in any two orders, make the same trie up to the
order of the children, and this trie is canonical. -/
theorem insertAll_canonical {ws ws' : List (JsString × T)} (hnd : (ws.map Prod.fst).Nodup)
    (hperm : ws.Perm ws') : ∃ root root', writeAll insert emptyRoot ws = some root ∧
      writeAll insert emptyRoot ws' = some root' ∧ SameTrie root root' ∧ Canonical root := by
  obtain ⟨root, hroot, ⟨hw, ht, hpfx⟩, hf⟩ := exists_insertAll ws
  obtain ⟨root', hroot', ⟨hw', ht', hpfx'⟩, hf'⟩ := exists_insertAll ws'
  refine ⟨root, root', hroot, hroot', ?_, canonical_of_tight hw ht⟩
  refine sameTrie_of_find ht hw ht' hw' (hpfx.trans hpfx'.symm) ?_
  rw [hf, hf', lastWrite_perm hnd hperm]

/-- `test`, `team` and the empty key, from both ends. -/
theorem insertAll_canonical_three : ∃ root root',
    writeAll insert emptyRoot [(js "test", 1), (js "team", 2), ([], 3)] = some root ∧
      writeAll insert emptyRoot [([], 3), (js "team", 2), (js "test", 1)] = some root' ∧
      SameTrie root root' ∧ Canonical root :=
  insertAll_canonical (by decide) (by decide)

end Logix.Trees.RadixNode
