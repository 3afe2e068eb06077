import Logix.Js.Text
import Logix.Spec.LastWrite

/-!
# The radix trie

`RadixTrieRoutingIndex<T>`: keys are strings, a node carries a piece of them.

* `RadixNode`: a node with its children, a `Map` keyed by the first unit of their prefixes;
* `insertLoop`, `lookupLoop`: the `while` loops, `none` when they are not over after the given
  number of rounds;
* `insert`, `lookup`: the methods, with one round more than the key has units.
-/

namespace Logix.Trees

/-- `IRadixNode<T>`. The keys of `children` are `prefix[0]`, which is missing on an empty
prefix. -/
structure RadixNode (T : Type) where
  pfx : JsString
  isLeaf : Bool
  value : Option T
  children : List (Option UInt16 × RadixNode T)

namespace RadixNode

variable {T : Type}

/-- `children.get(k)`. -/
def getChild (cs : List (Option UInt16 × RadixNode T)) (k : Option UInt16) :
    Option (RadixNode T) :=
  (cs.find? fun e => e.1 = k).map Prod.snd

/-- `children.set(node.prefix[0], node)`. -/
def setChild (cs : List (Option UInt16 × RadixNode T)) (node : RadixNode T) :
    List (Option UInt16 × RadixNode T) :=
  if cs.any fun e => e.1 = node.pfx.head? then
    cs.map fun e => if e.1 = node.pfx.head? then (e.1, node) else e
  else cs ++ [(node.pfx.head?, node)]

/-- `getCommonPrefixLength(a, b)`. -/
def getCommonPrefixLength : JsString → JsString → ℕ
  | a :: as, b :: bs => if a = b then getCommonPrefixLength as bs + 1 else 0
  | _, _ => 0

/-- A node without children that ends a key. -/
def newNode (remaining : JsString) (value : T) : RadixNode T := ⟨remaining, true, some value, []⟩

/-- `childNode` after it was split at `commonLen` and `remaining` was inserted. -/
def split (childNode : RadixNode T) (commonLen : ℕ) (remaining : JsString) (value : T) :
    RadixNode T :=
  let splitNode : RadixNode T := { childNode with pfx := childNode.pfx.drop commonLen }
  let children := setChild [] splitNode
  if commonLen = remaining.length then
    ⟨childNode.pfx.take commonLen, true, some value, children⟩
  else
    ⟨childNode.pfx.take commonLen, false, none,
      setChild children (newNode (remaining.drop commonLen) value)⟩

/-- The loop of `insert` below `curr`, at most `rounds` times. -/
def insertLoop : ℕ → RadixNode T → JsString → T → Option (RadixNode T)
  | 0, _, _, _ => none
  | rounds + 1, curr, remaining, value =>
    if 0 < remaining.length then
      -- the `for` loop goes past the children that share no unit with `remaining`
      let unmatched := fun e : Option UInt16 × RadixNode T =>
        decide (getCommonPrefixLength remaining e.2.pfx = 0)
      match curr.children.dropWhile unmatched with
      | [] => some { curr with children := setChild curr.children (newNode remaining value) }
      | (childKey, childNode) :: later =>
        let earlier := curr.children.takeWhile unmatched
        let commonLen := getCommonPrefixLength remaining childNode.pfx
        if commonLen = childNode.pfx.length then
          (insertLoop rounds childNode (remaining.drop commonLen) value).map fun child =>
            { curr with children := earlier ++ (childKey, child) :: later }
        else
          some { curr with children :=
            earlier ++ (childKey, childNode.split commonLen remaining value) :: later }
    else some { curr with isLeaf := true, value := some value }

/-- The loop of `lookup` from `curr`, at most `rounds` times. -/
def lookupLoop : ℕ → RadixNode T → JsString → Option (Option T)
  | 0, _, _ => none
  | rounds + 1, curr, remaining =>
    if 0 < remaining.length then
      match getChild curr.children remaining.head? with
      | none => some none
      | some child =>
        if child.pfx.isPrefixOf remaining then
          lookupLoop rounds child (remaining.drop child.pfx.length)
        else some none
    else some (if curr.isLeaf then curr.value else none)

/-- The root of an empty trie. -/
def emptyRoot : RadixNode T := ⟨[], false, none, []⟩

/-- `insert(key, value)`. -/
def insert (root : RadixNode T) (key : JsString) (value : T) : Option (RadixNode T) :=
  insertLoop (key.length + 1) root key value

/-- `lookup(key)`. -/
def lookup (root : RadixNode T) (key : JsString) : Option (Option T) :=
  lookupLoop (key.length + 1) root key

end RadixNode

end Logix.Trees
