import Logix.Spec.InOrder
import Logix.Trees.BPlusMap

/-!
# The shape of the B+ tree index

* `nodes`, `inorder`: the nodes of a tree, and its keys from left to right;
* `Shaped t h`: a tree of height `h` whose nodes below the root are at least half full;
* `splitChild_spec`: a split keeps the shape and the keys in order;
* `insertNonFull_spec`, `insert_spec`: an insert ends, keeps the shape, and adds its key in order;
* `WellShaped t`: what this means for the nodes;
* **`insertAll_wellShaped`**: every run of inserts leaves a well-shaped tree with the inserted keys.
-/

namespace Logix.Trees.BPlusTreeNode

open Spec

variable {K V : Type}

/-! ## The nodes and the keys -/

mutual

/-- The nodes of a tree, a node before those below it. -/
def nodes : BPlusTreeNode K V → List (BPlusTreeNode K V)
  | ⟨isLeaf, keys, values, children⟩ => ⟨isLeaf, keys, values, children⟩ :: nodesBelow children

def nodesBelow : List (BPlusTreeNode K V) → List (BPlusTreeNode K V)
  | [] => []
  | c :: cs => nodes c ++ nodesBelow cs

end

mutual

/-- The keys of a tree from left to right, the separators between the children included. -/
def inorder : BPlusTreeNode K V → List K
  | ⟨_, keys, _, children⟩ => interleave (inorderBelow children) keys

def inorderBelow : List (BPlusTreeNode K V) → List (List K)
  | [] => []
  | c :: cs => inorder c :: inorderBelow cs

end

/-- The keys of all nodes of a tree. -/
def allKeys (node : BPlusTreeNode K V) : List K := node.nodes.flatMap keys

variable {node c : BPlusTreeNode K V} {cs as bs : List (BPlusTreeNode K V)}

theorem nodesBelow_eq (cs : List (BPlusTreeNode K V)) : nodesBelow cs = cs.flatMap nodes := by
  induction cs with
  | nil => rfl
  | cons c cs ih => rw [nodesBelow, ih, List.flatMap_cons]

theorem nodes_eq (node : BPlusTreeNode K V) : node.nodes = node :: node.children.flatMap nodes := by
  rw [← nodesBelow_eq]
  cases node
  rfl

theorem inorder_eq (node : BPlusTreeNode K V) :
    node.inorder = interleave (node.children.map inorder) node.keys := by
  have hbelow : ∀ cs : List (BPlusTreeNode K V), inorderBelow cs = cs.map inorder := by
    intro cs
    induction cs with
    | nil => rfl
    | cons c cs ih => rw [inorderBelow, ih, List.map_cons]
  rw [← hbelow]
  cases node
  rfl

theorem allKeys_eq (node : BPlusTreeNode K V) :
    node.allKeys = node.keys ++ node.children.flatMap allKeys := by
  rw [allKeys, nodes_eq, List.flatMap_cons, List.flatMap_assoc]
  rfl

theorem induction {P : BPlusTreeNode K V → Prop}
    (h : ∀ node : BPlusTreeNode K V, (∀ c ∈ node.children, P c) → P node)
    (node : BPlusTreeNode K V) : P node :=
  BPlusTreeNode.rec (motive_1 := P) (motive_2 := fun cs => ∀ c ∈ cs, P c)
    (fun _ _ _ _ ih => h _ ih) (fun _ hc => absurd hc List.not_mem_nil)
    (fun _ _ ihc ihcs => List.forall_mem_cons.mpr ⟨ihc, ihcs⟩) node

theorem inorder_perm (node : BPlusTreeNode K V) : node.inorder.Perm node.allKeys := by
  induction node using BPlusTreeNode.induction with
  | h node ih =>
    rw [inorder_eq, allKeys_eq]
    refine (interleave_perm _ _).trans (List.Perm.append_left _ ?_)
    rw [← List.flatMap_def]
    exact List.Perm.flatMap_left _ ih

/-! ## The shape -/

/-- **The shape** of a tree of height `h`: leaves at one depth, one child more than keys, and below
the root between `t - 1` and `2 * t - 1` keys. -/
inductive Shaped (t : ℕ) : ℕ → BPlusTreeNode K V → Prop
  | leaf {node : BPlusTreeNode K V} (isLeaf : node.isLeaf = true) (children : node.children = []) :
      Shaped t 0 node
  | inner {h : ℕ} {node : BPlusTreeNode K V} (isLeaf : node.isLeaf = false)
      (length : node.children.length = node.keys.length + 1)
      (least : ∀ c ∈ node.children, t - 1 ≤ c.keys.length)
      (most : ∀ c ∈ node.children, c.keys.length ≤ 2 * t - 1)
      (below : ∀ c ∈ node.children, Shaped t h c) : Shaped t (h + 1) node

variable {t h : ℕ}

theorem Shaped.height_eq (hn : Shaped t h node) : node.height = h := by
  induction hn with
  | leaf isLeaf children =>
    rename_i node
    cases node
    obtain rfl := children
    rfl
  | inner isLeaf length least most below ih =>
    rename_i h node
    have hbelow : ∀ cs : List (BPlusTreeNode K V), cs ≠ [] → (∀ c ∈ cs, c.height = h) →
        heightBelow cs = h + 1 := by
      intro cs hne hall
      induction cs with
      | nil => exact absurd rfl hne
      | cons c cs ihcs =>
        rw [heightBelow, hall c List.mem_cons_self]
        cases cs with
        | nil => simp [heightBelow]
        | cons d cs =>
          rw [ihcs (by simp) fun x hx => hall x (List.mem_cons_of_mem _ hx), max_self]
    have hne : node.children ≠ [] := by
      intro h0
      rw [h0] at length
      cases length
    have := hbelow node.children hne ih
    cases node
    exact this

theorem Shaped.child (hn : Shaped t (h + 1) node) (hcs : node.children = as ++ c :: bs) :
    Shaped t h c := by
  cases hn with
  | inner isLeaf length least most below => exact below c (by simp [hcs])

theorem Shaped.of_children (hn : Shaped t (h + 1) node) {part : BPlusTreeNode K V}
    (isLeaf : part.isLeaf = false) (length : part.children.length = part.keys.length + 1)
    (hpart : ∀ d ∈ part.children, d ∈ node.children) : Shaped t (h + 1) part := by
  cases hn with
  | inner _ _ least most below =>
    exact .inner isLeaf length (fun d hd => least d (hpart d hd)) (fun d hd => most d (hpart d hd))
      fun d hd => below d (hpart d hd)

theorem Shaped.most_child (hn : Shaped t (h + 1) node) (hcs : node.children = as ++ c :: bs) :
    c.keys.length ≤ 2 * t - 1 := by
  cases hn with
  | inner isLeaf length least most below => exact most c (by simp [hcs])

theorem inorder_place {p q : List K} (hcs : node.children = as ++ c :: bs)
    (hks : node.keys = p ++ q) (hlen : as.length = p.length) : node.inorder =
      interleave (as.map inorder) p ++ c.inorder ++ interleave ([] :: bs.map inorder) q := by
  rw [inorder_eq, hcs, hks, List.map_append, List.map_cons,
    interleave_place (by rw [List.length_map, hlen])]

theorem sorted_child [Preorder K] {p q : List K} (hs : node.inorder.Pairwise (· ≤ ·))
    (hcs : node.children = as ++ c :: bs) (hks : node.keys = p ++ q) (hlen : as.length = p.length) :
    c.inorder.Pairwise (· ≤ ·) := by
  rw [inorder_place hcs hks hlen] at hs
  exact (List.pairwise_append.mp (List.pairwise_append.mp hs).1).2.1

/-! ## Splitting a child -/

theorem spliceIn_length {α : Type} (xs ys : List α) (x : α) :
    spliceIn (xs ++ ys) xs.length x = xs ++ x :: ys := by
  rw [spliceIn, List.take_left, List.drop_left]

theorem set_length {α : Type} (xs ys : List α) (x y : α) :
    (xs ++ x :: ys).set xs.length y = xs ++ y :: ys := by
  simp

/-- **A split** puts two halves in the place of a full child, with a separator between them, and
the keys keep their order. -/
theorem splitChild_spec (ht : 2 ≤ t) (hc : Shaped t h c) (hfull : c.keys.length = 2 * t - 1)
    {p q : List K} (hcs : node.children = as ++ c :: bs) (hks : node.keys = p ++ q)
    (hlen : as.length = p.length) : ∃ l r s, splitChild t node as.length c =
        some { node with keys := p ++ s :: q, children := as ++ l :: r :: bs } ∧
      l.keys.length = t - 1 ∧ r.keys.length = t - 1 ∧ Shaped t h l ∧ Shaped t h r ∧
      c.inorder = l.inorder ++ s :: r.inorder := by
  have hlt : t - 1 < c.keys.length := by omega
  have hdrop : c.keys.drop (t - 1) = c.keys[t - 1] :: c.keys.drop t := by
    rw [List.drop_eq_getElem_cons hlt]
    congr 2
    omega
  have hkeys : c.keys = c.keys.take (t - 1) ++ c.keys[t - 1] :: c.keys.drop t := by
    rw [← hdrop, List.take_append_drop]
  have hlast : (c.keys.take t).dropLast = c.keys.take (t - 1) :=
    List.dropLast_take (by omega)
  let l : BPlusTreeNode K V :=
    { isLeaf := c.isLeaf
      keys := c.keys.take (t - 1)
      values := if c.isLeaf then c.values.take (t - 1) else c.values
      children := if c.isLeaf then c.children else c.children.take t }
  let r : BPlusTreeNode K V :=
    { isLeaf := c.isLeaf
      keys := c.keys.drop t
      values := if c.isLeaf then c.values.drop (t - 1) else []
      children := if c.isLeaf then [] else c.children.drop t }
  have hsplit : splitChild t node as.length c = some
      { node with keys := p ++ c.keys[t - 1] :: q, children := as ++ l :: r :: bs } := by
    have hgrow : spliceIn (as ++ l :: bs) (as.length + 1) r = as ++ l :: r :: bs := by
      have := spliceIn_length (as ++ [l]) bs r
      simpa using this
    simp only [splitChild, List.getElem?_eq_getElem hlt, hks, hcs, set_length, hlast]
    rw [← hgrow, hlen, spliceIn_length]
  refine ⟨l, r, c.keys[t - 1], hsplit, ?_, ?_, ?_⟩
  · simp only [l, List.length_take]
    omega
  · simp only [r, List.length_drop]
    omega
  cases hc with
  | leaf isLeaf children =>
    refine ⟨.leaf isLeaf (by simp [l, isLeaf, children]), .leaf isLeaf (by simp [r, isLeaf]), ?_⟩
    simp only [inorder_eq, l, r, isLeaf, children, if_true, List.map_nil, interleave]
    exact hkeys
  | inner isLeaf length least most below =>
    have hwhole := Shaped.inner isLeaf length least most below
    have hl : l.children = c.children.take t := by simp [l, isLeaf]
    have hr : r.children = c.children.drop t := by simp [r, isLeaf]
    refine ⟨hwhole.of_children isLeaf ?_ fun d hd => List.mem_of_mem_take (hl ▸ hd),
      hwhole.of_children isLeaf ?_ fun d hd => List.mem_of_mem_drop (hr ▸ hd), ?_⟩
    · rw [hl, List.length_take, List.length_take]
      omega
    · rw [hr, List.length_drop, List.length_drop]
      omega
    · rw [inorder_eq, inorder_eq, inorder_eq, hl, hr, ← interleave_append_cons, ← hkeys,
        ← List.map_append, List.take_append_drop]
      rw [List.length_map, List.length_take, List.length_take]
      omega

theorem Shaped.split (hn : Shaped t (h + 1) node) {p q : List K}
    (hcs : node.children = as ++ c :: bs) (hks : node.keys = p ++ q) (hlen : as.length = p.length)
    {l r : BPlusTreeNode K V} {s : K} (hl : l.keys.length = t - 1) (hr : r.keys.length = t - 1)
    (hshl : Shaped t h l) (hshr : Shaped t h r) :
    Shaped t (h + 1) { node with keys := p ++ s :: q, children := as ++ l :: r :: bs } := by
  cases hn with
  | inner isLeaf length least most below =>
    rw [hcs] at least most below
    have hmem : ∀ d ∈ as ++ l :: r :: bs, d = l ∨ d = r ∨ d ∈ as ++ c :: bs := by
      intro d hd
      simp only [List.mem_append, List.mem_cons] at hd ⊢
      tauto
    refine .inner isLeaf ?_ (fun d hd => ?_) (fun d hd => ?_) fun d hd => ?_
    · rw [hcs, hks] at length
      simp only [List.length_append, List.length_cons] at length ⊢
      omega
    · rcases hmem d hd with rfl | rfl | hd
      · omega
      · omega
      · exact least d hd
    · rcases hmem d hd with rfl | rfl | hd
      · omega
      · omega
      · exact most d hd
    · rcases hmem d hd with rfl | rfl | hd
      · exact hshl
      · exact hshr
      · exact below d hd

theorem inorder_split {p q : List K} (hcs : node.children = as ++ c :: bs)
    (hks : node.keys = p ++ q) (hlen : as.length = p.length) {l r : BPlusTreeNode K V} {s : K}
    (hord : c.inorder = l.inorder ++ s :: r.inorder) :
    inorder { node with keys := p ++ s :: q, children := as ++ l :: r :: bs } = node.inorder := by
  have hplace : inorder { node with keys := p ++ s :: q, children := as ++ l :: r :: bs } =
      interleave (as.map inorder) p ++ l.inorder ++
        interleave ([] :: (r :: bs).map inorder) (s :: q) := inorder_place rfl rfl hlen
  rw [hplace, inorder_place hcs hks hlen, hord, List.map_cons, interleave,
    interleave_cons r.inorder]
  simp

/-! ## Inserting below a node -/

section Insert

variable [LinearOrder K] {key : K} {p q : List K}

theorem insertIdx_spec (key : K) {keys : List K} (hs : keys.Pairwise (· ≤ ·)) :
    insertIdx keys key ≤ keys.length ∧ (∀ k ∈ keys.take (insertIdx keys key), k ≤ key) ∧
      ∀ k ∈ keys.drop (insertIdx keys key), key ≤ k := by
  have hpre := List.rdropWhile_prefix (fun k => decide (key < k)) (l := keys)
  have htake : keys.take (insertIdx keys key) = keys.rdropWhile fun k => decide (key < k) :=
    (List.prefix_iff_eq_take.mp hpre).symm
  refine ⟨hpre.length_le, fun k hk => ?_, fun k hk => ?_⟩
  · rw [htake] at hk
    have hne := List.ne_nil_of_mem hk
    have hlast : (keys.rdropWhile fun k => decide (key < k)).getLast hne ≤ key := by
      simpa using List.rdropWhile_last_not (fun k => decide (key < k)) keys hne
    have hsorted := hs.sublist hpre.sublist
    rw [← List.dropLast_append_getLast hne] at hk hsorted
    rcases List.mem_append.mp hk with hk | hk
    · exact ((List.pairwise_append.mp hsorted).2.2 k hk _ (List.mem_singleton_self _)).trans hlast
    · rw [List.mem_singleton.mp hk]
      exact hlast
  · exact (BPlusTreeDatabaseIndex.lt_of_mem_drop hk).le

theorem inserts_child (hn : Shaped t (h + 1) node) (hs : node.inorder.Pairwise (· ≤ ·))
    (hcs : node.children = as ++ c :: bs) (hks : node.keys = p ++ q) (hlen : as.length = p.length)
    (hp : ∀ k ∈ p, k ≤ key) (hq : ∀ k ∈ q, key ≤ k) {c' : BPlusTreeNode K V} (hc' : Shaped t h c')
    (hleast : c.keys.length ≤ c'.keys.length) (hmost : c'.keys.length ≤ 2 * t - 1)
    (hins : InsertsKey key c.inorder c'.inorder) :
    Shaped t (h + 1) { node with children := as ++ c' :: bs } ∧
      InsertsKey key node.inorder (inorder { node with children := as ++ c' :: bs }) := by
  cases hn with
  | inner isLeaf length least most below =>
    rw [hcs] at length least most below
    have hmem : ∀ d ∈ as ++ c' :: bs, d = c' ∨ d ∈ as ++ c :: bs := by
      intro d hd
      simp only [List.mem_append, List.mem_cons] at hd ⊢
      tauto
    constructor
    · refine .inner isLeaf (by simpa using length) (fun d hd => ?_) (fun d hd => ?_) fun d hd => ?_
      · rcases hmem d hd with rfl | hd
        · exact (least c (by simp)).trans hleast
        · exact least d hd
      · rcases hmem d hd with rfl | hd
        · exact hmost
        · exact most d hd
      · rcases hmem d hd with rfl | hd
        · exact hc'
        · exact below d hd
    · have hbs : (bs.map inorder).length = q.length := by
        rw [List.length_map]
        rw [hks] at length
        simp only [List.length_append, List.length_cons] at length
        omega
      have has : (as.map inorder).length = p.length := by rw [List.length_map, hlen]
      have hplace := inorder_place hcs hks hlen
      have hsorted := hs
      rw [hplace] at hsorted ⊢
      obtain ⟨hfront, hback, -⟩ := List.pairwise_append.mp hsorted
      have hplace' : inorder { node with children := as ++ c' :: bs } =
          interleave (as.map inorder) p ++ c'.inorder ++ interleave ([] :: bs.map inorder) q :=
        inorder_place rfl hks hlen
      rw [hplace']
      refine hins.between (fun x hx => ?_) fun x hx => ?_
      · obtain ⟨k, hk, hle⟩ := exists_le_of_mem_front has (List.pairwise_append.mp hfront).1 hx
        exact hle.trans (hp k hk)
      · obtain ⟨k, hk, hle⟩ := exists_le_of_mem_back hbs hback hx
        exact (hq k hk).trans hle

/-- **The child of an insert**, with what is in front of it and behind it. -/
theorem exists_place (hn : Shaped t (h + 1) node) (hs : node.inorder.Pairwise (· ≤ ·)) (key : K) :
    ∃ as c bs p q, node.children = as ++ c :: bs ∧ node.keys = p ++ q ∧ as.length = p.length ∧
      insertIdx node.keys key = as.length ∧ (∀ k ∈ p, k ≤ key) ∧ ∀ k ∈ q, key ≤ k := by
  cases hn with
  | inner isLeaf length least most below =>
    have hskeys : node.keys.Pairwise (· ≤ ·) := by
      rw [inorder_eq] at hs
      exact hs.sublist (sublist_interleave _ _)
    obtain ⟨hle, hbefore, hafter⟩ := insertIdx_spec key hskeys
    have hi : insertIdx node.keys key < node.children.length := by omega
    refine ⟨node.children.take (insertIdx node.keys key), node.children[insertIdx node.keys key],
      node.children.drop (insertIdx node.keys key + 1), node.keys.take (insertIdx node.keys key),
      node.keys.drop (insertIdx node.keys key), ?_, (List.take_append_drop _ _).symm, ?_, ?_,
      hbefore, hafter⟩
    · rw [← List.drop_eq_getElem_cons hi, List.take_append_drop]
    · rw [List.length_take_of_le hi.le, List.length_take_of_le hle]
    · rw [List.length_take_of_le hi.le]

theorem insertNonFull_of_room (hleaf : node.isLeaf = false) (hcs : node.children = as ++ c :: bs)
    (hi : insertIdx node.keys key = as.length) (hc : c.keys.length ≠ 2 * t - 1) (value : V)
    (levels : ℕ) : insertNonFull t (levels + 1) node key value =
      (insertNonFull t levels c key value).map fun c' =>
        { node with children := as ++ c' :: bs } := by
  simp [insertNonFull, hleaf, hi, hcs, hc]

theorem insertNonFull_of_full (hleaf : node.isLeaf = false) (hcs : node.children = as ++ c :: bs)
    (hi : insertIdx node.keys key = as.length) (hc : c.keys.length = 2 * t - 1)
    (hlen : as.length = p.length) {l r : BPlusTreeNode K V} {s : K}
    (hsplit : splitChild t node as.length c =
      some { node with keys := p ++ s :: q, children := as ++ l :: r :: bs }) (value : V)
    (levels : ℕ) : insertNonFull t (levels + 1) node key value =
      if s < key then (insertNonFull t levels r key value).map fun c' =>
        { node with keys := p ++ s :: q, children := as ++ l :: c' :: bs }
      else (insertNonFull t levels l key value).map fun c' =>
        { node with keys := p ++ s :: q, children := as ++ c' :: r :: bs } := by
  have hs : (p ++ s :: q)[as.length]? = some s := by simp [hlen]
  have hset : ∀ c', (as ++ l :: r :: bs).set (as.length + 1) c' = as ++ l :: c' :: bs := by simp
  by_cases hlt : s < key
  · simp [insertNonFull, hleaf, hi, hcs, hc, hsplit, hs, hlt, hset]
  · simp [insertNonFull, hleaf, hi, hcs, hc, hsplit, hs, hlt]

theorem insertNonFull_leaf (hn : Shaped t 0 node) (hs : node.inorder.Pairwise (· ≤ ·))
    (hroom : node.keys.length < 2 * t - 1) (key : K) (value : V) (levels : ℕ) :
    ∃ node', insertNonFull t (levels + 1) node key value = some node' ∧ Shaped t 0 node' ∧
      node.keys.length ≤ node'.keys.length ∧ node'.keys.length ≤ 2 * t - 1 ∧
      InsertsKey key node.inorder node'.inorder := by
  cases hn with
  | leaf isLeaf children =>
    have hkeys : node.inorder = node.keys := by simp [inorder_eq, children, interleave]
    rw [hkeys] at hs
    obtain ⟨hle, hbefore, hafter⟩ := insertIdx_spec key hs
    have hlen := (BPlusTreeDatabaseIndex.spliceIn_perm node.keys (insertIdx node.keys key)
      key).length_eq
    rw [List.length_cons] at hlen
    refine ⟨{ node with
      keys := spliceIn node.keys (insertIdx node.keys key) key
      values := spliceIn node.values (insertIdx node.keys key) value },
      by simp [insertNonFull, isLeaf], .leaf isLeaf children, (Nat.le_succ _).trans hlen.ge,
      hlen.le.trans hroom, ?_⟩
    rw [hkeys]
    refine ⟨_, _, (List.take_append_drop _ _).symm, ?_, hbefore, hafter⟩
    simp [inorder_eq, children, interleave, spliceIn]

/-- **An insert into a node with room** ends, keeps the shape, and adds the key in order. -/
theorem insertNonFull_spec (ht : 2 ≤ t) (hn : Shaped t h node) (hs : node.inorder.Pairwise (· ≤ ·))
    (hroom : node.keys.length < 2 * t - 1) (key : K) (value : V) {levels : ℕ} (hl : h < levels) :
    ∃ node', insertNonFull t levels node key value = some node' ∧ Shaped t h node' ∧
      node.keys.length ≤ node'.keys.length ∧ node'.keys.length ≤ 2 * t - 1 ∧
      InsertsKey key node.inorder node'.inorder := by
  induction h generalizing node levels with
  | zero =>
    obtain ⟨levels, rfl⟩ : ∃ m, levels = m + 1 := ⟨levels - 1, by omega⟩
    exact insertNonFull_leaf hn hs hroom key value levels
  | succ h ih =>
    obtain ⟨levels, rfl⟩ : ∃ m, levels = m + 1 := ⟨levels - 1, by omega⟩
    -- a child with room, at a place where the key fits
    have hchild : ∀ {m : BPlusTreeNode K V} {as bs c p q}, Shaped t (h + 1) m →
        m.inorder.Pairwise (· ≤ ·) → m.children = as ++ c :: bs → m.keys = p ++ q →
        as.length = p.length → (∀ k ∈ p, k ≤ key) → (∀ k ∈ q, key ≤ k) →
        c.keys.length < 2 * t - 1 → ∃ c', insertNonFull t levels c key value = some c' ∧
          Shaped t (h + 1) { m with children := as ++ c' :: bs } ∧
          InsertsKey key m.inorder (inorder { m with children := as ++ c' :: bs }) := by
      intro m as bs c p q hm hsm hcs hks hlen hp hq hc
      obtain ⟨c', hc', hshape, hleast, hmost, hins⟩ :=
        ih (hm.child hcs) (sorted_child hsm hcs hks hlen) hc (by omega : h < levels)
      exact ⟨c', hc', inserts_child hm hsm hcs hks hlen hp hq hshape hleast hmost hins⟩
    obtain ⟨as, c, bs, p, q, hcs, hks, hlen, hi, hp, hq⟩ := exists_place hn hs key
    have hleaf : node.isLeaf = false := by
      cases hn
      assumption
    by_cases hfull : c.keys.length = 2 * t - 1
    · obtain ⟨l, r, s, hsplit, hl, hr, hshl, hshr, hord⟩ :=
        splitChild_spec ht (hn.child hcs) hfull hcs hks hlen
      rw [insertNonFull_of_full hleaf hcs hi hfull hlen hsplit]
      -- the node after the split
      let m : BPlusTreeNode K V := { node with keys := p ++ s :: q, children := as ++ l :: r :: bs }
      have hm : Shaped t (h + 1) m := hn.split hcs hks hlen hl hr hshl hshr
      have hmord : m.inorder = node.inorder := inorder_split hcs hks hlen hord
      have hsm : m.inorder.Pairwise (· ≤ ·) := hmord ▸ hs
      have hmlen : m.keys.length = node.keys.length + 1 := by
        simp only [m, hks, List.length_append, List.length_cons]
        omega
      by_cases hlt : s < key
      · -- the key goes to the right half
        rw [if_pos hlt]
        obtain ⟨c', hc', hshape, hins⟩ := @hchild m (as ++ [l]) bs r (p ++ [s]) q hm hsm
          (by simp [m]) (by simp [m]) (by simp [hlen])
          (by simpa [or_imp, forall_and, hlt.le] using hp) hq (by omega)
        refine ⟨_, by rw [hc', Option.map_some], by simpa [m] using hshape, ?_, ?_, ?_⟩
        · exact hmlen.ge.trans' (Nat.le_succ _)
        · exact hmlen.le.trans hroom
        · rw [hmord] at hins
          simpa [m] using hins
      · -- the key goes to the left half
        rw [if_neg hlt]
        have hle : key ≤ s := not_lt.mp hlt
        obtain ⟨c', hc', hshape, hins⟩ := @hchild m as (r :: bs) l p (s :: q) hm hsm rfl rfl hlen hp
          (List.forall_mem_cons.mpr ⟨hle, hq⟩) (by omega)
        refine ⟨_, by rw [hc', Option.map_some], hshape, ?_, ?_, ?_⟩
        · exact hmlen.ge.trans' (Nat.le_succ _)
        · exact hmlen.le.trans hroom
        · rw [hmord] at hins
          exact hins
    · have hmost := hn.most_child hcs
      obtain ⟨c', hc', hshape, hins⟩ := hchild hn hs hcs hks hlen hp hq (by omega)
      rw [insertNonFull_of_room hleaf hcs hi hfull, hc']
      exact ⟨_, rfl, hshape, le_rfl, hroom.le, hins⟩

end Insert

/-! ## What the shape means for the nodes -/

/-- **A leaf** at a depth below a node. -/
inductive HasLeaf : ℕ → BPlusTreeNode K V → Prop
  | here {node : BPlusTreeNode K V} (isLeaf : node.isLeaf = true) : HasLeaf 0 node
  | lower {d : ℕ} {node c : BPlusTreeNode K V} (isLeaf : node.isLeaf = false)
      (child : c ∈ node.children) (leaf : HasLeaf d c) : HasLeaf (d + 1) node

theorem Shaped.depth_eq (hn : Shaped t h node) {d : ℕ} (hd : HasLeaf d node) : d = h := by
  induction hn generalizing d with
  | leaf isLeaf children =>
    cases hd with
    | here => rfl
    | lower isLeaf' child leaf => exact absurd (isLeaf.symm.trans isLeaf') (by simp)
  | inner isLeaf length least most below ih =>
    cases hd with
    | here isLeaf' => exact absurd (isLeaf.symm.trans isLeaf') (by simp)
    | lower isLeaf' child leaf => rw [ih _ child leaf]

theorem Shaped.of_mem_below [Preorder K] (hn : Shaped t h node)
    (hs : node.inorder.Pairwise (· ≤ ·)) :
    ∀ m ∈ node.children.flatMap nodes, (∃ h', Shaped t h' m) ∧ m.inorder.Pairwise (· ≤ ·) ∧
      t - 1 ≤ m.keys.length ∧ m.keys.length ≤ 2 * t - 1 := by
  induction hn with
  | leaf isLeaf children =>
    rw [children]
    exact fun m hm => absurd hm List.not_mem_nil
  | inner isLeaf length least most below ih =>
    rename_i h node
    intro m hm
    obtain ⟨c, hc, hm⟩ := List.mem_flatMap.mp hm
    have hsc : c.inorder.Pairwise (· ≤ ·) := by
      obtain ⟨as, bs, hcs⟩ := List.append_of_mem hc
      rw [hcs] at length
      have hlen : as.length = (node.keys.take as.length).length := by
        rw [List.length_append, List.length_cons] at length
        rw [List.length_take_of_le (by omega)]
      exact sorted_child hs hcs (List.take_append_drop as.length _).symm hlen
    rw [nodes_eq] at hm
    rcases List.mem_cons.mp hm with rfl | hm
    · exact ⟨⟨h, below m hc⟩, hsc, least m hc, most m hc⟩
    · exact ih c hc hsc m hm

/-- **A well-shaped tree**: what the shape and the order of the keys say of each node. -/
structure WellShaped [LE K] (t : ℕ) (root : BPlusTreeNode K V) : Prop where
  depth : ∀ d d', HasLeaf d root → HasLeaf d' root → d = d'
  most : ∀ node ∈ root.nodes, node.keys.length ≤ 2 * t - 1
  least : ∀ node ∈ root.children.flatMap nodes, t - 1 ≤ node.keys.length
  leaf : ∀ node ∈ root.nodes, node.isLeaf = true → node.children = []
  inner : ∀ node ∈ root.nodes, node.isLeaf = false →
    node.children.length = node.keys.length + 1
  sorted : ∀ node ∈ root.nodes, node.keys.Pairwise (· ≤ ·)
  between : ∀ node ∈ root.nodes, ∀ i k, node.keys[i]? = some k →
    (∀ c, node.children[i]? = some c → ∀ x ∈ c.allKeys, x ≤ k) ∧
      ∀ c, node.children[i + 1]? = some c → ∀ x ∈ c.allKeys, k ≤ x

theorem Shaped.between [Preorder K] (hn : Shaped t h node) (hs : node.inorder.Pairwise (· ≤ ·))
    {i : ℕ} {k : K} (hk : node.keys[i]? = some k) :
    (∀ c, node.children[i]? = some c → ∀ x ∈ c.allKeys, x ≤ k) ∧
      ∀ c, node.children[i + 1]? = some c → ∀ x ∈ c.allKeys, k ≤ x := by
  cases hn with
  | leaf isLeaf children => simp [children]
  | inner isLeaf length least most below =>
    rw [inorder_eq] at hs
    obtain ⟨hl, hr⟩ := between_of_sorted (by rw [List.length_map, length]) hs hk
    refine ⟨fun c hc x hx => hl c.inorder ?_ x ?_, fun c hc x hx => hr c.inorder ?_ x ?_⟩
    · rw [List.getElem?_map, hc, Option.map_some]
    · exact c.inorder_perm.mem_iff.mpr hx
    · rw [List.getElem?_map, hc, Option.map_some]
    · exact c.inorder_perm.mem_iff.mpr hx

theorem Shaped.wellShaped [Preorder K] (hn : Shaped t h node) (hmost : node.keys.length ≤ 2 * t - 1)
    (hs : node.inorder.Pairwise (· ≤ ·)) : WellShaped t node := by
  have hbelow := hn.of_mem_below hs
  have hall : ∀ m ∈ node.nodes, (∃ h', Shaped t h' m) ∧ m.inorder.Pairwise (· ≤ ·) ∧
      m.keys.length ≤ 2 * t - 1 := by
    intro m hm
    rw [nodes_eq] at hm
    rcases List.mem_cons.mp hm with rfl | hm
    · exact ⟨⟨h, hn⟩, hs, hmost⟩
    · obtain ⟨hsh, hsm, -, hle⟩ := hbelow m hm
      exact ⟨hsh, hsm, hle⟩
  refine ⟨fun d d' hd hd' => (hn.depth_eq hd).trans (hn.depth_eq hd').symm,
    fun m hm => (hall m hm).2.2, fun m hm => (hbelow m hm).2.2.1, fun m hm hleaf => ?_,
    fun m hm hinner => ?_, fun m hm => ?_, fun m hm i k hk => ?_⟩ <;>
      obtain ⟨⟨h', hsh⟩, hsm, -⟩ := hall m hm
  · cases hsh with
    | leaf isLeaf children => exact children
    | inner isLeaf => exact absurd (isLeaf.symm.trans hleaf) (by simp)
  · cases hsh with
    | leaf isLeaf => exact absurd (isLeaf.symm.trans hinner) (by simp)
    | inner isLeaf length => exact length
  · rw [inorder_eq] at hsm
    exact hsm.sublist (sublist_interleave _ _)
  · exact hsh.between hsm hk

end Logix.Trees.BPlusTreeNode

namespace Logix.Trees.BPlusTreeDatabaseIndex

open Spec BPlusTreeNode

variable {K V : Type} [LinearOrder K] {ix : BPlusTreeDatabaseIndex K V}

/-! ## Whole runs -/

/-- **The invariant** of the index: the shape, and the keys in order. -/
structure Valid (ix : BPlusTreeDatabaseIndex K V) : Prop where
  shaped : ∃ h, Shaped ix.order h ix.root
  most : ix.root.keys.length ≤ 2 * ix.order - 1
  sorted : ix.root.inorder.Pairwise (· ≤ ·)

theorem Valid.new (t : ℕ) : Valid (new K V t) := by
  refine ⟨⟨0, .leaf rfl rfl⟩, Nat.zero_le _, ?_⟩
  simp [BPlusTreeDatabaseIndex.new, inorder_eq, interleave]

/-- **An insert** ends, keeps the invariant, and adds its key in order. -/
theorem insert_spec (ht : 2 ≤ ix.order) (hv : Valid ix) (key : K) (value : V) :
    ∃ ix', ix.insert key value = some ix' ∧ ix'.order = ix.order ∧ Valid ix' ∧
      InsertsKey key ix.root.inorder ix'.root.inorder := by
  obtain ⟨⟨h, hsh⟩, hmost, hs⟩ := hv
  by_cases hfull : ix.root.keys.length = 2 * ix.order - 1
  · -- a new root over the old one, which is split
    let s : BPlusTreeNode K V := ⟨false, [], [], [ix.root]⟩
    obtain ⟨l, r, k, hsplit, hl, hr, hshl, hshr, hord⟩ :=
      @splitChild_spec _ _ s _ [] [] _ _ ht hsh hfull [] [] rfl rfl rfl
    let s' : BPlusTreeNode K V := { s with keys := [k], children := [l, r] }
    have hs' : Shaped ix.order (h + 1) s' := by
      have hmem : ∀ {P : BPlusTreeNode K V → Prop}, P l → P r → ∀ c ∈ s'.children, P c := by
        intro P hPl hPr
        simp [s', hPl, hPr]
      exact .inner rfl rfl (hmem hl.ge hr.ge) (hmem (by omega) (by omega)) (hmem hshl hshr)
    have hord' : s'.inorder = ix.root.inorder := by
      rw [inorder_eq, hord]
      simp [s', interleave]
    obtain ⟨root, hroot, hshape, -, hle, hins⟩ := insertNonFull_spec ht hs' (hord' ▸ hs)
      (by simp only [s', List.length_singleton]; omega) key value (Nat.lt_succ_self _)
    refine ⟨{ ix with root }, ?_, rfl, ⟨⟨_, hshape⟩, hle, ?_⟩, hord' ▸ hins⟩
    · unfold insert
      rw [if_pos hfull]
      change (splitChild ix.order s ([] : List (BPlusTreeNode K V)).length ix.root).bind _ = _
      rw [hsplit, Option.bind_some]
      change (insertNonFull ix.order (s'.height + 1) s' key value).map _ = _
      rw [hs'.height_eq, hroot, Option.map_some]
    · exact (hord' ▸ hins).sorted hs
  · obtain ⟨root, hroot, hshape, -, hle, hins⟩ :=
      insertNonFull_spec ht hsh hs (by omega) key value (Nat.lt_succ_self _)
    refine ⟨{ ix with root }, ?_, rfl, ⟨⟨_, hshape⟩, hle, hins.sorted hs⟩, hins⟩
    unfold insert
    rw [if_neg hfull, hsh.height_eq, hroot, Option.map_some]

/-- **Every run of inserts** leaves a well-shaped tree with the inserted keys. -/
theorem insertAll_wellShaped {t : ℕ} (ht : 2 ≤ t) (ws : List (K × V)) :
    ∃ ix, writeAll insert (new K V t) ws = some ix ∧ WellShaped t ix.root ∧
      ix.root.allKeys.Perm (ws.map Prod.fst) := by
  -- the run keeps the invariant, and the keys in order are those written
  have hrun : ∃ ix, writeAll insert (new K V t) ws = some ix ∧ ix.order = t ∧ Valid ix ∧
      ix.root.inorder.Perm (ws.map Prod.fst) := by
    induction ws using List.reverseRecOn with
    | nil => exact ⟨_, rfl, rfl, .new t, by simp [new, inorder_eq, interleave]⟩
    | append_singleton ws w ih =>
      obtain ⟨ix, hix, rfl, hv, hperm⟩ := ih
      obtain ⟨ix', hix', horder, hv', hins⟩ := insert_spec ht hv w.1 w.2
      refine ⟨ix', ?_, horder, hv', ?_⟩
      · rw [writeAll_concat, hix, Option.bind_some, hix']
      · rw [List.map_append, List.map_singleton]
        exact hins.perm.trans ((hperm.cons _).trans (List.perm_append_singleton _ _).symm)
  obtain ⟨ix, hix, rfl, ⟨⟨h, hsh⟩, hmost, hs⟩, hperm⟩ := hrun
  exact ⟨ix, hix, hsh.wellShaped hmost hs, (inorder_perm _).symm.trans hperm⟩

end Logix.Trees.BPlusTreeDatabaseIndex
