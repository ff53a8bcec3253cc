import Gamin.Library.LinkedTrees
import Gamin.Library.Runs
import Gamin.Polling.Generic
import Mathlib.Data.List.AList

/-! # The path tree in memory

`gam_tree.c` and `gam_node.c` with their pointers: a `GamNode` and its `GNode` point to each other, the
`GNode`s make up the tree, and `node_hash` has all of them but the root under their paths.  A pointer that is
NULL is `none`.  An address stands for one piece of memory for good: it is not handed out again.

A function that fails an assertion, or reads memory that was freed, does not return.
-/

namespace Gamin.Polling

open Gamin Gamin.Server Gamin.Inotify Gamin.Library

/-- A `GamNode`. -/
structure HeapNode where
  path : Bytes
  subs : List GamSubscription
  node : Option Pointer
  isDir : Bool
  newNode : Bool
  pollTime : Nat
  monType : GamFsMonType
  checks : Nat
  pflags : MonFlags
  lasttime : Nat
  sbuf : StatBuf
  deriving DecidableEq, Repr

/-- A `GNode`. -/
structure GNode extends Links Pointer where
  data : Pointer
  deriving DecidableEq, Repr

/-- `GamTree`, the memory, the resource lists and the file system. -/
structure PathTree where
  root : Pointer
  nodeHash : AList fun _ : Bytes => Pointer
  gamNodes : Pointer → Option HeapNode
  gNodes : Pointer → Option GNode
  next : Pointer
  missing : List Pointer
  busy : List Pointer
  all : List Pointer
  views : Nat → FsView

/-- What the next system call sees. -/
def PathTree.view (tree : PathTree) : FsView := tree.views 0

/-- The state after a system call. -/
def PathTree.called (tree : PathTree) : PathTree := { tree with views := fun call => tree.views (call + 1) }

/-! ## Nodes -/

/-- The node that `gam_node_new` makes. -/
def PathTree.newHeapNode (tree : PathTree) (path : Bytes) (isDir : Bool) : HeapNode where
  path := path
  subs := []
  node := none
  isDir := isDir
  newNode := false
  pollTime := tree.view.pollTimeout path
  monType := tree.view.monType path
  checks := 0
  pflags := .none
  lasttime := 0
  sbuf := .zero

/-- `gam_node_new`. -/
def PathTree.gamNodeNew (tree : PathTree) (path : Bytes) (isDir : Bool) : Pointer × PathTree :=
  (tree.next, { tree with
    gamNodes := Function.update tree.gamNodes tree.next (some (tree.newHeapNode path isDir)), next := tree.next + 1 })

/-- `gam_node_free`. -/
def PathTree.gamNodeFree (tree : PathTree) (node : Pointer) : Option PathTree := do
  let heapNode ← tree.gamNodes node
  if heapNode.subs = [] then some { tree with gamNodes := Function.update tree.gamNodes node none } else none

/-- `gam_node_parent`. -/
def PathTree.gamNodeParent (tree : PathTree) (node : Pointer) : Option (Option Pointer) := do
  let heapNode ← tree.gamNodes node
  match heapNode.node with
  | none => some none
  | some gnode =>
    let cell ← tree.gNodes gnode
    match cell.parent with
    | none => some none
    | some parent =>
      let above ← tree.gNodes parent
      some (some above.data)

/-- `gam_node_add_subscription`. -/
def PathTree.gamNodeAddSubscription (tree : PathTree) (node : Pointer) (sub : GamSubscription) : Option PathTree := do
  let heapNode ← tree.gamNodes node
  if sub ∈ heapNode.subs then none
  else
    some { tree with
      gamNodes := Function.update tree.gamNodes node (some { heapNode with subs := sub :: heapNode.subs }) }

/-- `gam_node_remove_subscription`. -/
def PathTree.gamNodeRemoveSubscription (tree : PathTree) (node : Pointer) (sub : GamSubscription) :
    Option PathTree := do
  let heapNode ← tree.gamNodes node
  if sub ∈ heapNode.subs then
    some { tree with
      gamNodes := Function.update tree.gamNodes node
        (some { heapNode with subs := heapNode.subs.filter (· ≠ sub) }) }
  else none

/-! ## Cells -/

/-- `new_node`. -/
def PathTree.newNode (tree : PathTree) (node : Pointer) : Option (Pointer × PathTree) := do
  let heapNode ← tree.gamNodes node
  some (tree.next, { tree with
    gNodes := Function.update tree.gNodes tree.next (some ⟨⟨none, []⟩, node⟩)
    gamNodes := Function.update tree.gamNodes node (some { heapNode with node := some tree.next })
    next := tree.next + 1 })

/-- `g_node_append`, which does nothing for a parent that is NULL, or for a cell that has a parent. -/
def PathTree.gNodeAppend (tree : PathTree) (parent : Option Pointer) (node : Pointer) : Option PathTree :=
  match parent with
  | none => some tree
  | some parent => do
    let cell ← tree.gNodes node
    let above ← tree.gNodes parent
    if cell.parent.isSome then some tree
    else
      let gNodes := Function.update tree.gNodes parent (some { above with children := above.children ++ [node] })
      some { tree with gNodes := Function.update gNodes node (some { cell with parent := some parent }) }

/-- The loop of `g_node_is_ancestor`, for as many rounds. -/
def PathTree.gNodeIsAncestor (tree : PathTree) (node : Pointer) : Nat → Pointer → Option Bool
  | 0, _ => none
  | rounds + 1, descendant => do
    let cell ← tree.gNodes descendant
    match cell.parent with
    | none => some false
    | some parent => if parent = node then some true else tree.gNodeIsAncestor node rounds parent

/-- `g_node_unlink`. -/
def PathTree.gNodeUnlink (tree : PathTree) (node : Pointer) : Option PathTree := do
  let cell ← tree.gNodes node
  match cell.parent with
  | none => some tree
  | some parent =>
    let above ← tree.gNodes parent
    let gNodes := Function.update tree.gNodes parent (some { above with children := above.children.erase node })
    some { tree with gNodes := Function.update gNodes node (some { cell with parent := none }) }

/-- `g_node_destroy` of a cell without children. -/
def PathTree.gNodeDestroy (tree : PathTree) (node : Pointer) : PathTree :=
  { tree with gNodes := Function.update tree.gNodes node none }

/-! ## The tree -/

/-- `gam_tree_new`. -/
def PathTree.new (views : Nat → FsView) : PathTree :=
  let tree : PathTree :=
    { root := 1, nodeHash := ∅, gamNodes := fun _ => none, gNodes := fun _ => none, next := 0, missing := [],
      busy := [],
      all := [], views := views }
  { tree with
    gamNodes := Function.update tree.gamNodes 0 (some { tree.newHeapNode [slash] true with node := some 1 })
    gNodes := Function.update tree.gNodes 1 (some ⟨⟨none, []⟩, 0⟩)
    next := 2 }

/-- `gam_tree_get_size`. -/
def PathTree.gamTreeGetSize (tree : PathTree) : Nat := tree.nodeHash.entries.length

/-- `gam_tree_get_at_path`. -/
def PathTree.gamTreeGetAtPath (tree : PathTree) (path : Bytes) : Option (Option Pointer) :=
  match tree.nodeHash.lookup path with
  | none => some none
  | some gnode => (tree.gNodes gnode).map fun cell => some cell.data

/-- `gam_tree_has_children`. -/
def PathTree.gamTreeHasChildren (tree : PathTree) (node : Pointer) : Option Bool := do
  let heapNode ← tree.gamNodes node
  match heapNode.node with
  | none => some false
  | some gnode =>
    let cell ← tree.gNodes gnode
    some (cell.children ≠ [])

/-- `gam_tree_add`. -/
def PathTree.gamTreeAdd (tree : PathTree) (parent child : Pointer) : Option (Bool × PathTree) := do
  let heapNode ← tree.gamNodes child
  if (tree.nodeHash.lookup heapNode.path).isSome then some (false, tree)
  else
    let (gnode, tree) ← tree.newNode child
    let above ← tree.gamNodes parent
    let tree ← tree.gNodeAppend above.node gnode
    some (true, { tree with nodeHash := tree.nodeHash.insert heapNode.path gnode })

/-- `gam_tree_remove`.  The cells above one are older than it, so there are no more of them than its address
counts. -/
def PathTree.gamTreeRemove (tree : PathTree) (node : Pointer) : Option (Bool × PathTree) := do
  let heapNode ← tree.gamNodes node
  match heapNode.node with
  | none => some (false, tree)
  | some gnode =>
    let below ← tree.gNodeIsAncestor tree.root (gnode + 1) gnode
    if ¬ below then some (false, tree)
    else
      let cell ← tree.gNodes gnode
      if cell.children ≠ [] then none
      else
        let tree := { tree with nodeHash := tree.nodeHash.erase heapNode.path }
        let tree ← tree.gNodeUnlink gnode
        let tree ← (tree.gNodeDestroy gnode).gamNodeFree node
        some (true, tree)

/-- The loop of `gam_tree_add_at_path` over the parents of the path. -/
def PathTree.addParents (tree : PathTree) (parent : Pointer) : List Bytes → Option (Pointer × PathTree)
  | [] => some (parent, tree)
  | path :: paths => do
    match ← tree.gamTreeGetAtPath path with
    | some newParent => tree.addParents newParent paths
    | none =>
      let (newParent, tree) := tree.gamNodeNew path true
      let (_, tree) ← tree.gamTreeAdd parent newParent
      tree.addParents newParent paths

/-- `gam_tree_add_at_path`. -/
def PathTree.gamTreeAddAtPath (tree : PathTree) (path : Bytes) (isDir : Bool) :
    Option (Option Pointer × PathTree) :=
  if path = [] then some (none, tree)
  else do
    match ← tree.gamTreeGetAtPath path with
    | some node => some (some node, tree)
    | none =>
      let found := (tree.view.stat path).exists
      let tree := tree.called
      let isDir := if found then (tree.view.stat path).isDir else isDir
      let tree := if found then tree.called else tree
      let cell ← tree.gNodes tree.root
      let (parent, tree) ← tree.addParents cell.data (pathParents path)
      let (node, tree) := tree.gamNodeNew path isDir
      let (_, tree) ← tree.gamTreeAdd parent node
      some (some node, tree)

/-! ## Pruning -/

/-- `gam_poll_generic_add_missing`, and its like for the other two lists. -/
def PathTree.gamPollGenericAddMissing (tree : PathTree) (node : Pointer) : PathTree :=
  if node ∈ tree.missing then tree else { tree with missing := node :: tree.missing }

def PathTree.gamPollGenericAddBusy (tree : PathTree) (node : Pointer) : PathTree :=
  if node ∈ tree.busy then tree else { tree with busy := node :: tree.busy }

def PathTree.gamPollGenericAdd (tree : PathTree) (node : Pointer) : PathTree :=
  if node ∈ tree.all then tree else { tree with all := node :: tree.all }

/-- `gam_poll_generic_unregister_node`. -/
def PathTree.gamPollGenericUnregisterNode (tree : PathTree) (node : Pointer) : PathTree :=
  { tree with
    missing := tree.missing.filter (· ≠ node)
    busy := tree.busy.filter (· ≠ node)
    all := tree.all.erase node }

/-- `gam_poll_generic_prune_tree`, which calls itself as many times. -/
def PathTree.gamPollGenericPruneTree (tree : PathTree) : Nat → Pointer → Option PathTree
  | 0, _ => none
  | rounds + 1, node => do
    match ← tree.gamNodeParent node with
    | none => some tree
    | some parent =>
      let children ← tree.gamTreeHasChildren node
      let heapNode ← tree.gamNodes node
      if ¬ children ∧ heapNode.subs = [] then
        let (_, tree) ← (tree.gamPollGenericUnregisterNode node).gamTreeRemove node
        tree.gamPollGenericPruneTree rounds parent
      else some tree

end Gamin.Polling
