import Logix.Spec.Segment
import Logix.Trees.BPlusShape

/-!
# The links between the leaves of the B+ tree index

The index with a reference for each node and the `next` links of the leaves.

* `LinkedNode`, `splitChild`, `insertNonFull`, `insert`: the code of the index, with the next
  reference that a `new` takes;
* `erase`: the tree without its references; `erase_insert`: an insert does to it what it does
  without links;
* `Grows`: nodes that are put in the place of others lead from where and to where these do, and
  have new references in addition;
* **`insertAll_leaves`**: every run of inserts leaves a well-shaped tree with the inserted keys,
  whose links lead from the leftmost leaf through all leaves.
-/

namespace Logix.Trees

/-- `BPlusTreeNode<K, V>`, an object: its reference, and its `next`. -/
structure LinkedNode (K V : Type) where
  ref : ℕ
  isLeaf : Bool
  keys : List K
  values : List V
  children : List (LinkedNode K V)
  next : Option ℕ

/-- `BPlusTreeDatabaseIndex<K, V>`, and the reference of the next `new`. -/
structure LinkedIndex (K V : Type) where
  order : ℕ
  root : LinkedNode K V
  fresh : ℕ

namespace LinkedNode

open Spec BPlusTreeNode

variable {K V : Type}

mutual

/-- **The tree without references.** -/
def erase : LinkedNode K V → BPlusTreeNode K V
  | ⟨_, isLeaf, keys, values, children, _⟩ => ⟨isLeaf, keys, values, eraseBelow children⟩

def eraseBelow : List (LinkedNode K V) → List (BPlusTreeNode K V)
  | [] => []
  | c :: cs => erase c :: eraseBelow cs

end

mutual

/-- The nodes of a tree, a node before those below it. -/
def nodes : LinkedNode K V → List (LinkedNode K V)
  | ⟨ref, isLeaf, keys, values, children, next⟩ =>
    ⟨ref, isLeaf, keys, values, children, next⟩ :: nodesBelow children

def nodesBelow : List (LinkedNode K V) → List (LinkedNode K V)
  | [] => []
  | c :: cs => nodes c ++ nodesBelow cs

end

mutual

/-- The leaves of a tree from left to right. -/
def leaves : LinkedNode K V → List (LinkedNode K V)
  | ⟨ref, isLeaf, keys, values, children, next⟩ =>
    if isLeaf then [⟨ref, isLeaf, keys, values, children, next⟩] else leavesBelow children

def leavesBelow : List (LinkedNode K V) → List (LinkedNode K V)
  | [] => []
  | c :: cs => leaves c ++ leavesBelow cs

end

/-- The nodes that following `next` from a node visits. -/
def followNext (root : LinkedNode K V) (start : Option ℕ) : Option (List (LinkedNode K V)) :=
  follow ref next root.nodes root.nodes.length start

/-! ## The code -/

/-- `splitChild(parent, idx, child)`: the parent afterwards. -/
def splitChild (order fresh : ℕ) (parent : LinkedNode K V) (idx : ℕ) (child : LinkedNode K V) :
    Option (LinkedNode K V × ℕ) :=
  let t := order
  match child.keys[t - 1]? with
  | none => none
  | some separator =>
    let z : LinkedNode K V :=
      { ref := fresh
        isLeaf := child.isLeaf
        keys := child.keys.drop t
        values := if child.isLeaf then child.values.drop (t - 1) else []
        children := if child.isLeaf then [] else child.children.drop t
        next := if child.isLeaf then child.next else none }
    let rest : LinkedNode K V :=
      { ref := child.ref
        isLeaf := child.isLeaf
        keys := (child.keys.take t).dropLast
        values := if child.isLeaf then child.values.take (t - 1) else child.values
        children := if child.isLeaf then child.children else child.children.take t
        next := if child.isLeaf then some z.ref else child.next }
    some
      ({ parent with
        keys := spliceIn parent.keys idx separator
        children := spliceIn (parent.children.set idx rest) (idx + 1) z }, fresh + 1)

variable [LinearOrder K]

/-- `insertNonFull(node, key, value)`, at most `levels` levels down. -/
def insertNonFull (order : ℕ) : ℕ → ℕ → LinkedNode K V → K → V → Option (LinkedNode K V × ℕ)
  | 0, _, _, _, _ => none
  | levels + 1, fresh, node, key, value =>
    let i := insertIdx node.keys key
    if node.isLeaf then
      some ({ node with
        keys := spliceIn node.keys i key
        values := spliceIn node.values i value }, fresh)
    else
      match node.children[i]? with
      | none => none
      | some child =>
        if child.keys.length = 2 * order - 1 then
          match splitChild order fresh node i child with
          | none => none
          | some (node', fresh) =>
            let j := if node'.keys[i]?.any fun k => decide (k < key) then i + 1 else i
            match node'.children[j]? with
            | none => none
            | some child' =>
              (insertNonFull order levels fresh child' key value).map fun c =>
                ({ node' with children := node'.children.set j c.1 }, c.2)
        else
          (insertNonFull order levels fresh child key value).map fun c =>
            ({ node with children := node.children.set i c.1 }, c.2)

/-! ## Without references -/

omit [LinearOrder K] in
theorem erase_eq (node : LinkedNode K V) :
    node.erase = ⟨node.isLeaf, node.keys, node.values, node.children.map erase⟩ := by
  have hbelow : ∀ cs : List (LinkedNode K V), eraseBelow cs = cs.map erase := by
    intro cs
    induction cs with
    | nil => rfl
    | cons c cs ih => rw [eraseBelow, ih, List.map_cons]
  rw [← hbelow]
  cases node
  rfl

omit [LinearOrder K] in
theorem erase_splitChild (order fresh : ℕ) (parent : LinkedNode K V) (idx : ℕ)
    (child : LinkedNode K V) : (splitChild order fresh parent idx child).map (fun p => p.1.erase) =
      BPlusTreeNode.splitChild order parent.erase idx child.erase := by
  unfold splitChild BPlusTreeNode.splitChild
  rw [erase_eq parent, erase_eq child]
  cases hk : child.keys[order - 1]? with
  | none => simp [hk]
  | some separator =>
    cases child.isLeaf <;>
      simp [hk, erase_eq, spliceIn, List.map_take, List.map_drop, List.map_set]

section Fields

omit [LinearOrder K]

variable (node : LinkedNode K V)

theorem erase_isLeaf : node.erase.isLeaf = node.isLeaf := by rw [erase_eq]

theorem erase_keys : node.erase.keys = node.keys := by rw [erase_eq]

theorem erase_values : node.erase.values = node.values := by rw [erase_eq]

theorem erase_children : node.erase.children = node.children.map erase := by rw [erase_eq]

end Fields

theorem erase_insertNonFull (order levels fresh : ℕ) (node : LinkedNode K V) (key : K) (value : V) :
    (insertNonFull order levels fresh node key value).map (fun p => p.1.erase) =
      BPlusTreeNode.insertNonFull order levels node.erase key value := by
  induction levels generalizing fresh node with
  | zero => rfl
  | succ levels ih =>
    -- going on in a child
    have hset : ∀ (m : LinkedNode K V) (i : ℕ) (c : LinkedNode K V) (fresh : ℕ),
        ((insertNonFull order levels fresh c key value).map fun c =>
          ({ m with children := m.children.set i c.1 }, c.2)).map (fun p => p.1.erase) =
        (BPlusTreeNode.insertNonFull order levels c.erase key value).map fun c =>
          ⟨m.isLeaf, m.keys, m.values, (m.children.map erase).set i c⟩ := by
      intro m i c fresh
      rw [← ih fresh c, Option.map_map, Option.map_map]
      congr 1
      funext p
      simp [erase_eq, List.map_set]
    unfold insertNonFull BPlusTreeNode.insertNonFull
    simp only [erase_isLeaf, erase_keys, erase_values, erase_children, List.getElem?_map]
    generalize insertIdx node.keys key = i
    split
    · simp [erase_eq]
    · cases node.children[i]? with
      | none => rfl
      | some child =>
        simp only [Option.map_some, erase_keys]
        split
        · rw [← erase_splitChild order fresh]
          cases splitChild order fresh node i child with
          | none => rfl
          | some p =>
            obtain ⟨node', fresh'⟩ := p
            simp only [Option.map_some, erase_isLeaf, erase_keys, erase_values, erase_children,
              List.getElem?_map]
            generalize (if node'.keys[i]?.any fun k => decide (k < key) then i + 1 else i) = j
            cases node'.children[j]? with
            | none => rfl
            | some child' => exact hset node' j child' fresh'
        · exact hset node i child fresh

/-! ## References and links -/

section Grows

omit [LinearOrder K]

/-- The references of the nodes of some trees. -/
def refs (cs : List (LinkedNode K V)) : List ℕ := (cs.flatMap nodes).map ref

/-- The leaves of some trees, each with its link. -/
def links (cs : List (LinkedNode K V)) : List (ℕ × Option ℕ) :=
  (cs.flatMap leaves).map fun l => (l.ref, l.next)

theorem nodes_eq (node : LinkedNode K V) : node.nodes = node :: node.children.flatMap nodes := by
  have hbelow : ∀ cs : List (LinkedNode K V), nodesBelow cs = cs.flatMap nodes := by
    intro cs
    induction cs with
    | nil => rfl
    | cons c cs ih => rw [nodesBelow, ih, List.flatMap_cons]
  rw [← hbelow]
  cases node
  rfl

theorem leaves_eq (node : LinkedNode K V) :
    node.leaves = if node.isLeaf then [node] else node.children.flatMap leaves := by
  have hbelow : ∀ cs : List (LinkedNode K V), leavesBelow cs = cs.flatMap leaves := by
    intro cs
    induction cs with
    | nil => rfl
    | cons c cs ih => rw [leavesBelow, ih, List.flatMap_cons]
  rw [← hbelow]
  cases node
  rfl

theorem leaves_sublist (node : LinkedNode K V) : node.leaves.Sublist node.nodes := by
  refine LinkedNode.rec (motive_1 := fun node => node.leaves.Sublist node.nodes)
    (motive_2 := fun cs => (cs.flatMap leaves).Sublist (cs.flatMap nodes))
    (fun ref isLeaf keys values children next ih => ?_) (List.Sublist.refl _)
    (fun c cs ihc ihcs => ?_) node
  · rw [leaves_eq, nodes_eq]
    cases isLeaf with
    | true => exact (List.nil_sublist _).cons_cons _
    | false => exact ih.cons _
  · rw [List.flatMap_cons, List.flatMap_cons]
    exact ihc.append ihcs

variable {a b c fresh : ℕ} {cs cs' cs'' : List (LinkedNode K V)} {node node' : LinkedNode K V}

theorem refs_append (cs cs' : List (LinkedNode K V)) : refs (cs ++ cs') = refs cs ++ refs cs' := by
  simp [refs]

theorem links_append (cs cs' : List (LinkedNode K V)) :
    links (cs ++ cs') = links cs ++ links cs' := by
  simp [links]

theorem refs_singleton (node : LinkedNode K V) : refs [node] = node.ref :: refs node.children := by
  simp [refs, nodes_eq]

theorem links_leaf (h : node.isLeaf = true) : links [node] = [(node.ref, node.next)] := by
  simp [links, leaves_eq, h]

theorem links_inner (h : node.isLeaf = false) : links [node] = links node.children := by
  simp [links, leaves_eq, h]

/-- **Trees that grow** into others: these lead from where and to where those do, and have the
references from `a` up to `b` in addition. -/
structure Grows (a b : ℕ) (cs cs' : List (LinkedNode K V)) : Prop where
  le : a ≤ b
  link : Relinks (links cs) (links cs')
  new : (refs cs').Perm (List.range' a (b - a) ++ refs cs)

theorem Grows.refl (a : ℕ) (cs : List (LinkedNode K V)) : Grows a a cs cs :=
  ⟨le_rfl, .refl _, by simp⟩

theorem Grows.trans (h : Grows a b cs cs') (h' : Grows b c cs' cs'') : Grows a c cs cs'' := by
  refine ⟨h.le.trans h'.le, h.link.trans h'.link, ?_⟩
  have hrange : List.range' a (b - a) ++ List.range' b (c - b) = List.range' a (c - a) := by
    have hab := h.le
    have hbc := h'.le
    have hb : a + 1 * (b - a) = b := by omega
    have hc : b - a + (c - b) = c - a := by omega
    rw [← hc, ← List.range'_append, hb]
  rw [← hrange]
  refine h'.new.trans ((h.new.append_left _).trans ?_)
  rw [← List.append_assoc]
  exact List.perm_append_comm.append_right _

theorem Grows.between (h : Grows a b cs cs') (f g : List (LinkedNode K V)) :
    Grows a b (f ++ cs ++ g) (f ++ cs' ++ g) := by
  refine ⟨h.le, ?_, ?_⟩
  · rw [links_append, links_append, links_append, links_append]
    exact h.link.between _ _
  · rw [refs_append, refs_append, refs_append, refs_append]
    refine ((h.new.append_left _).append_right _).trans ?_
    rw [← List.append_assoc, ← List.append_assoc, ← List.append_assoc]
    exact (List.perm_append_comm.append_right _).append_right _

theorem Grows.up (h : Grows a b node.children node'.children) (hr : node'.ref = node.ref)
    (hn : node.isLeaf = false) (hn' : node'.isLeaf = false) : Grows a b [node] [node'] := by
  refine ⟨h.le, ?_, ?_⟩
  · rw [links_inner hn, links_inner hn']
    exact h.link
  · rw [refs_singleton, refs_singleton, hr]
    exact (h.new.cons _).trans List.perm_middle.symm

theorem Grows.cut {rest z : LinkedNode K V} (hr : rest.ref = node.ref) (hz : z.ref = fresh)
    (hrefs : refs rest.children ++ refs z.children = refs node.children)
    (hlinks : Relinks (links [node]) (links [rest, z])) :
    Grows fresh (fresh + 1) [node] [rest, z] := by
  refine ⟨Nat.le_succ _, hlinks, ?_⟩
  have hpair : refs [rest, z] = refs [rest] ++ refs [z] := refs_append [rest] [z]
  rw [hpair, refs_singleton, refs_singleton, refs_singleton, hr, hz, ← hrefs]
  have hnew : (fresh + 1 - fresh) = 1 := by omega
  rw [hnew]
  exact List.perm_middle

theorem exists_place_of_getElem? {i : ℕ} (h : cs[i]? = some node) :
    ∃ as bs, as.length = i ∧ cs = as ++ [node] ++ bs ∧ ∀ x, cs.set i x = as ++ [x] ++ bs := by
  obtain ⟨hi, rfl⟩ := List.getElem?_eq_some_iff.mp h
  have hcs : cs = cs.take i ++ cs[i] :: cs.drop (i + 1) := by
    rw [← List.drop_eq_getElem_cons hi, List.take_append_drop]
  refine ⟨cs.take i, cs.drop (i + 1), List.length_take_of_le hi.le, ?_, fun x => ?_⟩
  · rwa [List.append_assoc, List.singleton_append]
  · rw [List.set_eq_take_append_cons_drop, if_pos hi, List.append_assoc, List.singleton_append]

theorem splitChild_grows {order idx fresh' : ℕ} {parent parent' child : LinkedNode K V}
    (hp : parent.isLeaf = false) (hc : parent.children[idx]? = some child)
    (h : splitChild order fresh parent idx child = some (parent', fresh')) :
    Grows fresh fresh' [parent] [parent'] ∧ parent'.isLeaf = false := by
  unfold splitChild at h
  obtain ⟨as, bs, hlen, hcs, hset⟩ := exists_place_of_getElem? hc
  have hsplice : ∀ rest z : LinkedNode K V,
      spliceIn (as ++ [rest] ++ bs) (idx + 1) z = as ++ [rest, z] ++ bs := by
    intro rest z
    have := spliceIn_length (as ++ [rest]) bs z
    simpa [hlen] using this
  cases hk : child.keys[order - 1]? with
  | none => simp [hk] at h
  | some separator =>
    simp only [hk, hset, hsplice, Option.some.injEq, Prod.mk.injEq] at h
    obtain ⟨rfl, rfl⟩ := h
    refine ⟨.up ?_ rfl hp hp, hp⟩
    rw [hcs]
    refine Grows.between (.cut ?_ ?_ ?_ ?_) as bs
    · rfl
    · rfl
    · cases child.isLeaf
      · simp [← refs_append]
      · simp [refs]
    · have hpair : ∀ l r : LinkedNode K V, links [l, r] = links [l] ++ links [r] := fun l r =>
        links_append [l] [r]
      cases hl : child.isLeaf with
      | true =>
        -- a leaf is cut in two
        rw [hpair, links_leaf hl, links_leaf rfl, links_leaf rfl]
        exact Relinks.cut _ _ _
      | false =>
        -- the leaves below stay as they are
        rw [hpair, links_inner hl, links_inner rfl, links_inner rfl, ← links_append]
        simp only [Bool.false_eq_true, if_false, List.take_append_drop]
        exact Relinks.refl _

end Grows

theorem insertNonFull_grows {order levels fresh fresh' : ℕ} {node node' : LinkedNode K V} {key : K}
    {value : V} (h : insertNonFull order levels fresh node key value = some (node', fresh')) :
    Grows fresh fresh' [node] [node'] := by
  induction levels generalizing fresh fresh' node node' with
  | zero => simp [insertNonFull] at h
  | succ levels ih =>
    -- going on in a child
    have hset : ∀ {m : LinkedNode K V} {i fresh : ℕ} {c : LinkedNode K V}, m.isLeaf = false →
        m.children[i]? = some c → ((insertNonFull order levels fresh c key value).map fun c =>
          ({ m with children := m.children.set i c.1 }, c.2)) = some (node', fresh') →
        Grows fresh fresh' [m] [node'] := by
      intro m i fresh c hm hc h
      obtain ⟨⟨c', fresh''⟩, hc', heq⟩ := Option.map_eq_some_iff.mp h
      obtain ⟨rfl, rfl⟩ := Prod.mk.inj heq
      obtain ⟨as, bs, -, hcs, hset⟩ := exists_place_of_getElem? hc
      refine .up ?_ rfl hm hm
      rw [hset, hcs]
      exact (ih hc').between as bs
    unfold insertNonFull at h
    generalize insertIdx node.keys key = i at h
    cases hleaf : node.isLeaf with
    | true =>
      simp only [hleaf, if_true, Option.some.injEq, Prod.mk.injEq] at h
      obtain ⟨rfl, rfl⟩ := h
      refine ⟨le_rfl, ?_, ?_⟩
      · rw [links_leaf hleaf, links_leaf rfl]
        exact Relinks.refl _
      · simp [refs_singleton]
    | false =>
      rw [if_neg (by simp [hleaf])] at h
      cases hc : node.children[i]? with
      | none => simp [hc] at h
      | some child =>
        simp only [hc] at h
        split at h
        · cases hs : splitChild order fresh node i child with
          | none => simp [hs] at h
          | some p =>
            obtain ⟨m, fresh''⟩ := p
            obtain ⟨hgrows, hm⟩ := splitChild_grows hleaf hc hs
            simp only [hs] at h
            generalize (if m.keys[i]?.any fun k => decide (k < key) then i + 1 else i) = j at h
            cases hj : m.children[j]? with
            | none => simp [hj] at h
            | some child' =>
              simp only [hj] at h
              exact hgrows.trans (hset hm hj h)
        · exact hset hleaf hc h

end LinkedNode

namespace LinkedIndex

open Spec BPlusTreeNode LinkedNode

variable {K V : Type}

/-- `new BPlusTreeDatabaseIndex(order)`. -/
def new (K V : Type) (order : ℕ) : LinkedIndex K V := ⟨order, ⟨0, true, [], [], [], none⟩, 1⟩

/-- The index without references. -/
def erase (ix : LinkedIndex K V) : BPlusTreeDatabaseIndex K V := ⟨ix.order, ix.root.erase⟩

variable [LinearOrder K]

/-- `insert(key, value)`. -/
def insert (ix : LinkedIndex K V) (key : K) (value : V) : Option (LinkedIndex K V) :=
  if ix.root.keys.length = 2 * ix.order - 1 then
    let s : LinkedNode K V := ⟨ix.fresh, false, [], [], [ix.root], none⟩
    (s.splitChild ix.order (ix.fresh + 1) 0 ix.root).bind fun s =>
      (s.1.insertNonFull ix.order (s.1.erase.height + 1) s.2 key value).map fun r =>
        { ix with root := r.1, fresh := r.2 }
  else
    (ix.root.insertNonFull ix.order (ix.root.erase.height + 1) ix.fresh key value).map fun r =>
      { ix with root := r.1, fresh := r.2 }

/-! ## Whole runs -/

variable {ix : LinkedIndex K V}

/-- **An insert** does to the index without references what it does without links. -/
theorem erase_insert (ix : LinkedIndex K V) (key : K) (value : V) :
    (ix.insert key value).map erase = ix.erase.insert key value := by
  unfold insert BPlusTreeDatabaseIndex.insert
  simp only [erase, erase_keys]
  split
  · let s : LinkedNode K V := ⟨ix.fresh, false, [], [], [ix.root], none⟩
    have hs : s.erase = ⟨false, [], [], [ix.root.erase]⟩ := by simp [s, erase_eq]
    rw [← hs, ← erase_splitChild ix.order (ix.fresh + 1)]
    cases s.splitChild ix.order (ix.fresh + 1) 0 ix.root with
    | none => rfl
    | some p =>
      simp only [Option.bind_some, Option.map_some]
      rw [← erase_insertNonFull ix.order _ p.2, Option.map_map, Option.map_map]
      rfl
  · rw [← erase_insertNonFull ix.order _ ix.fresh, Option.map_map, Option.map_map]
    rfl

theorem insert_grows {ix' : LinkedIndex K V} {key : K} {value : V}
    (h : ix.insert key value = some ix') : Grows ix.fresh ix'.fresh [ix.root] [ix'.root] := by
  unfold insert at h
  split at h
  · -- a new root over the old one
    let s : LinkedNode K V := ⟨ix.fresh, false, [], [], [ix.root], none⟩
    have hroot : Grows ix.fresh (ix.fresh + 1) [ix.root] [s] := by
      refine ⟨Nat.le_succ _, ?_, ?_⟩
      · rw [links_inner (show s.isLeaf = false from rfl)]
        exact Relinks.refl _
      · have hnew : ix.fresh + 1 - ix.fresh = 1 := by omega
        rw [refs_singleton s, hnew]
        exact List.Perm.refl _
    obtain ⟨⟨p, fresh⟩, hs, h⟩ := Option.bind_eq_some_iff.mp h
    obtain ⟨⟨root, fresh'⟩, hr, rfl⟩ := Option.map_eq_some_iff.mp h
    exact (hroot.trans (splitChild_grows rfl rfl hs).1).trans (insertNonFull_grows hr)
  · obtain ⟨⟨root, fresh'⟩, hr, rfl⟩ := Option.map_eq_some_iff.mp h
    exact insertNonFull_grows hr

/-- **The links of a run**: they lead from the first leaf through all leaves, and the references
are those taken so far. -/
structure Linked (ix : LinkedIndex K V) : Prop where
  segment : Segment (some 0) (links [ix.root]) none
  refs : (refs [ix.root]).Perm (List.range ix.fresh)

omit [LinearOrder K] in
theorem Linked.new (t : ℕ) : Linked (new K V t) := by
  refine ⟨?_, ?_⟩
  · rw [links_leaf rfl]
    exact ⟨rfl, rfl⟩
  · rw [refs_singleton]
    exact List.Perm.refl _

theorem Linked.insert (hl : Linked ix) {ix' : LinkedIndex K V} {key : K} {value : V}
    (h : ix.insert key value = some ix') : Linked ix' := by
  have hgrows := insert_grows h
  refine ⟨hgrows.link _ _ hl.segment, hgrows.new.trans ((hl.refs.append_left _).trans ?_)⟩
  refine List.perm_append_comm.trans ?_
  have hrange : List.range ix.fresh ++ List.range' ix.fresh (ix'.fresh - ix.fresh) =
      List.range ix'.fresh := by
    have hle := hgrows.le
    have hsum : ix.fresh + (ix'.fresh - ix.fresh) = ix'.fresh := by omega
    rw [List.range_eq_range', List.range_eq_range', ← hsum, ← List.range'_append]
    simp
  rw [hrange]

omit [LinearOrder K] in
theorem Linked.followNext (hl : Linked ix) : ix.root.leaves ≠ [] ∧
    ix.root.followNext (ix.root.leaves.head?.map ref) = some ix.root.leaves := by
  have hlinks : links [ix.root] = ix.root.leaves.map fun l => (l.ref, l.next) := by
    simp [links]
  have hseg := hl.segment
  rw [hlinks] at hseg
  have hstart := hseg.start
  rw [List.head?_map, Option.map_map] at hstart
  constructor
  · intro h0
    rw [h0] at hstart
    cases hstart
  · have hnd : (ix.root.nodes.map ref).Nodup := by
      have := hl.refs.nodup_iff.mpr List.nodup_range
      simpa [LinkedNode.refs] using this
    have hsub := leaves_sublist ix.root
    have hhead : ix.root.leaves.head?.map ref = some 0 := hstart.symm
    rw [hhead]
    exact follow_of_segment hnd hsub.subset hseg hsub.length_le

/-- **Every run of inserts** leaves a well-shaped tree with the inserted keys, whose links lead
from the leftmost leaf through all leaves, from left to right. -/
theorem insertAll_leaves (t : ℕ) (ht : 2 ≤ t) (ws : List (K × V)) :
    ∃ ix, writeAll insert (new K V t) ws = some ix ∧ WellShaped t ix.root.erase ∧
      ix.root.erase.allKeys.Perm (ws.map Prod.fst) ∧ ix.root.leaves ≠ [] ∧
      ix.root.followNext (ix.root.leaves.head?.map ref) = some ix.root.leaves := by
  obtain ⟨tree, htree, hshape, hkeys⟩ := BPlusTreeDatabaseIndex.insertAll_wellShaped ht ws
  -- the run with links is the run without them, and keeps the links
  have hrun : ∀ {tree}, writeAll BPlusTreeDatabaseIndex.insert
      (BPlusTreeDatabaseIndex.new K V t) ws = some tree →
      ∃ ix, writeAll insert (new K V t) ws = some ix ∧ ix.erase = tree ∧ Linked ix := by
    clear htree hshape hkeys
    induction ws using List.reverseRecOn with
    | nil =>
      intro tree h
      refine ⟨_, rfl, ?_, .new t⟩
      rw [← Option.some.inj h]
      simp [erase, new, erase_eq, BPlusTreeDatabaseIndex.new]
    | append_singleton ws w ih =>
      intro tree h
      rw [writeAll_concat] at h
      obtain ⟨tree', htree', h⟩ := Option.bind_eq_some_iff.mp h
      obtain ⟨ix, hix, rfl, hl⟩ := ih htree'
      rw [← erase_insert] at h
      obtain ⟨ix', hix', rfl⟩ := Option.map_eq_some_iff.mp h
      exact ⟨ix', by rw [writeAll_concat, hix, Option.bind_some, hix'], rfl, hl.insert hix'⟩
  obtain ⟨ix, hix, rfl, hl⟩ := hrun htree
  exact ⟨ix, hix, hshape, hkeys, hl.followNext⟩

/-- Five inserts of order two, one key twice. -/
theorem insertAll_leaves_two : ∃ ix, writeAll insert (new ℕ ℕ 2)
    [(2, 20), (1, 10), (3, 30), (2, 21), (4, 40)] = some ix ∧ WellShaped 2 ix.root.erase ∧
      ix.root.erase.allKeys.Perm [2, 1, 3, 2, 4] ∧ ix.root.leaves ≠ [] ∧
      ix.root.followNext (ix.root.leaves.head?.map ref) = some ix.root.leaves :=
  insertAll_leaves 2 le_rfl [(2, 20), (1, 10), (3, 30), (2, 21), (4, 40)]

end LinkedIndex

end Logix.Trees
