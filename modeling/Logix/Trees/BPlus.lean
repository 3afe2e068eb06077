import Mathlib.Data.List.DropRight
import Mathlib.Data.Nat.Notation
import Mathlib.Order.Lattice

/-!
# The B+ tree index

`BPlusTreeDatabaseIndex<K, V>` over a totally ordered type of keys.

* `BPlusTreeNode`: a node with its parallel arrays;
* `searchLoop`: the descent of `search`, at most a given number of rounds;
* `splitChild`, `insertNonFull`, `insert`: insertion with splits on the way down. A method gives
  `none` where the code reads a node that is not there, or goes below the last level.

The `next` links of the leaves, which no method reads, are the subject of `BPlusLinks`.
-/

namespace Logix.Trees

/-- `BPlusTreeNode<K, V>`. -/
structure BPlusTreeNode (K V : Type) where
  isLeaf : Bool
  keys : List K
  values : List V
  children : List (BPlusTreeNode K V)

/-- `BPlusTreeDatabaseIndex<K, V>`. -/
structure BPlusTreeDatabaseIndex (K V : Type) where
  order : ℕ
  root : BPlusTreeNode K V

/-- What `search` returns: `null`, or the element of an array, which may be missing. -/
inductive SearchResult (V : Type) where
  | null
  | undefined
  | value (v : V)
  deriving DecidableEq, Repr

/-- The answer of a map. -/
def SearchResult.ofOption {V : Type} : Option V → SearchResult V
  | none => .null
  | some v => .value v

/-- `xs.splice(i, 0, x)`. -/
def spliceIn {α : Type} (xs : List α) (i : ℕ) (x : α) : List α := xs.take i ++ x :: xs.drop i

namespace BPlusTreeNode

variable {K V : Type}

mutual

/-- The number of levels below a node. -/
def height : BPlusTreeNode K V → ℕ
  | ⟨_, _, _, children⟩ => heightBelow children

/-- The number of levels that the children make. -/
def heightBelow : List (BPlusTreeNode K V) → ℕ
  | [] => 0
  | c :: cs => max (height c + 1) (heightBelow cs)

end

variable [LinearOrder K]

/-- The loop `while (idx < keys.length && key >= keys[idx]) idx++`. -/
def childIdx (keys : List K) (key : K) : ℕ := (keys.takeWhile fun k => decide (k ≤ key)).length

/-- The loop `while (i >= 0 && key < keys[i]) i--` from the end; the value of `i + 1`. -/
def insertIdx (keys : List K) (key : K) : ℕ := (keys.rdropWhile fun k => decide (key < k)).length

/-- The `for` loop of `search` over the keys of a leaf. -/
def searchLeaf (curr : BPlusTreeNode K V) (key : K) : SearchResult V :=
  match curr.keys.findIdx? fun k => decide (k = key) with
  | none => .null
  | some i =>
    match curr.values[i]? with
    | none => .undefined
    | some v => .value v

/-- The descent of `search`, at most `rounds` levels down. -/
def searchLoop : ℕ → BPlusTreeNode K V → K → Option (SearchResult V)
  | 0, _, _ => none
  | rounds + 1, curr, key =>
    if curr.isLeaf then some (curr.searchLeaf key)
    else
      match curr.children[childIdx curr.keys key]? with
      | none => none
      | some child => searchLoop rounds child key

/-- `splitChild(parent, idx, child)`: the parent afterwards. -/
def splitChild (order : ℕ) (parent : BPlusTreeNode K V) (idx : ℕ) (child : BPlusTreeNode K V) :
    Option (BPlusTreeNode K V) :=
  let t := order
  match child.keys[t - 1]? with
  | none => none
  | some separator =>
    let z : BPlusTreeNode K V :=
      { isLeaf := child.isLeaf
        keys := child.keys.drop t
        values := if child.isLeaf then child.values.drop (t - 1) else []
        children := if child.isLeaf then [] else child.children.drop t }
    let rest : BPlusTreeNode K V :=
      { isLeaf := child.isLeaf
        keys := (child.keys.take t).dropLast
        values := if child.isLeaf then child.values.take (t - 1) else child.values
        children := if child.isLeaf then child.children else child.children.take t }
    some
      { parent with
        keys := spliceIn parent.keys idx separator
        children := spliceIn (parent.children.set idx rest) (idx + 1) z }

/-- `insertNonFull(node, key, value)`, at most `levels` levels down. -/
def insertNonFull (order : ℕ) : ℕ → BPlusTreeNode K V → K → V → Option (BPlusTreeNode K V)
  | 0, _, _, _ => none
  | levels + 1, node, key, value =>
    let i := insertIdx node.keys key
    if node.isLeaf then
      some { node with keys := spliceIn node.keys i key, values := spliceIn node.values i value }
    else
      match node.children[i]? with
      | none => none
      | some child =>
        if child.keys.length = 2 * order - 1 then
          match splitChild order node i child with
          | none => none
          | some node' =>
            let j := if node'.keys[i]?.any fun k => decide (k < key) then i + 1 else i
            match node'.children[j]? with
            | none => none
            | some child' =>
              (insertNonFull order levels child' key value).map fun c =>
                { node' with children := node'.children.set j c }
        else
          (insertNonFull order levels child key value).map fun c =>
            { node with children := node.children.set i c }

end BPlusTreeNode

namespace BPlusTreeDatabaseIndex

variable {K V : Type}

/-- `new BPlusTreeDatabaseIndex(order)`. -/
def new (K V : Type) (order : ℕ) : BPlusTreeDatabaseIndex K V := ⟨order, ⟨true, [], [], []⟩⟩

variable [LinearOrder K]

/-- `search(key)`: one round for each level. -/
def search (ix : BPlusTreeDatabaseIndex K V) (key : K) : Option (SearchResult V) :=
  ix.root.searchLoop (ix.root.height + 1) key

/-- `insert(key, value)`. -/
def insert (ix : BPlusTreeDatabaseIndex K V) (key : K) (value : V) :
    Option (BPlusTreeDatabaseIndex K V) :=
  if ix.root.keys.length = 2 * ix.order - 1 then
    let s : BPlusTreeNode K V := ⟨false, [], [], [ix.root]⟩
    (s.splitChild ix.order 0 ix.root).bind fun s =>
      (s.insertNonFull ix.order (s.height + 1) key value).map fun root => { ix with root }
  else
    (ix.root.insertNonFull ix.order (ix.root.height + 1) key value).map fun root => { ix with root }

end BPlusTreeDatabaseIndex

end Logix.Trees
