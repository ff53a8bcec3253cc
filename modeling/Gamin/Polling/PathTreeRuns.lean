import Gamin.Polling.InitialEvents
import Gamin.Polling.PathTreeRules
import Mathlib.Data.Set.Function

/-! # Runs of the path tree

Whatever is done to the tree, the hash is a bijection between its keys and the nodes below the root, and adding
a path comes back with the node that looking it up gives.  A new node comes with nodes for the ancestors of its
path.  A node that is there already may be without them, because `gam_tree_add` takes the parent that it is
given; in a run that gives every node a parent of its path, all of them have their ancestors.
-/

namespace Gamin.Polling

open Gamin Gamin.Server Gamin.Inotify Gamin.Library

/-- What is done to the tree, to its nodes and to the resource lists. -/
inductive PathTreeInput where
  | gamNodeNew (path : Bytes) (isDir : Bool)
  | gamTreeAdd (parent child : Pointer)
  | gamTreeAddAtPath (path : Bytes) (isDir : Bool)
  | gamTreeRemove (node : Pointer)
  | gamPollGenericPruneTree (node : Pointer)
  | gamNodeAddSubscription (node : Pointer) (sub : GamSubscription)
  | gamNodeRemoveSubscription (node : Pointer) (sub : GamSubscription)
  | gamPollGenericAddMissing (node : Pointer)
  | gamPollGenericAddBusy (node : Pointer)
  | gamPollGenericAdd (node : Pointer)

/-- Pruning goes up from an address to older ones, so the number of addresses bounds it. -/
def pathTreeStep (tree : PathTree) : PathTreeInput → Option PathTree
  | .gamNodeNew path isDir => some (tree.gamNodeNew path isDir).2
  | .gamTreeAdd parent child => (tree.gamTreeAdd parent child).map (·.2)
  | .gamTreeAddAtPath path isDir => (tree.gamTreeAddAtPath path isDir).map (·.2)
  | .gamTreeRemove node => (tree.gamTreeRemove node).map (·.2)
  | .gamPollGenericPruneTree node => tree.gamPollGenericPruneTree tree.next node
  | .gamNodeAddSubscription node sub => tree.gamNodeAddSubscription node sub
  | .gamNodeRemoveSubscription node sub => tree.gamNodeRemoveSubscription node sub
  | .gamPollGenericAddMissing node => some (tree.gamPollGenericAddMissing node)
  | .gamPollGenericAddBusy node => some (tree.gamPollGenericAddBusy node)
  | .gamPollGenericAdd node => some (tree.gamPollGenericAdd node)

/-! ## The nodes of the tree -/

/-- The cell is in the tree, and is not the root. -/
def PathTree.Below (tree : PathTree) (gnode : Pointer) : Prop :=
  InTree tree.links tree.root gnode ∧ gnode ≠ tree.root

/-- The node is one of the tree. -/
def PathTree.Member (tree : PathTree) (node : Pointer) : Prop :=
  ∃ gnode, InTree tree.links tree.root gnode ∧ tree.dataOf gnode = some node

/-- The tree has a node with the path. -/
def PathTree.Present (tree : PathTree) (path : Bytes) : Prop :=
  ∃ gnode, InTree tree.links tree.root gnode ∧ tree.pathOf gnode = some path

/-- What stands before one of the separators of a path, and the root directory for the first one. -/
def Ancestor (ancestor path : Bytes) : Prop :=
  ∃ front rest, path = front ++ slash :: rest ∧ ancestor = if front = [] then [slash] else front

/-! ## The calls -/

/-- `gam_tree_add` is given a node of the tree and a node that is not, with a path that no node below the root
has, and `gam_tree_add_at_path` an absolute path. -/
def PathTree.Allowed (tree : PathTree) : PathTreeInput → Prop
  | .gamTreeAdd parent child => tree.Member parent ∧ ¬ tree.Member child ∧
      ∃ path, tree.nameOf child = some path ∧ ∀ gnode, tree.Below gnode → tree.pathOf gnode ≠ some path
  | .gamTreeAddAtPath path _ => path.head? = some slash
  | _ => True

/-- `gam_tree_add` is given a parent with a path that the path of the node goes below. -/
def PathTree.AllowedBelow (tree : PathTree) (input : PathTreeInput) : Prop :=
  tree.Allowed input ∧ ∀ parent child, input = .gamTreeAdd parent child →
    ∀ parentPath path, tree.nameOf parent = some parentPath → tree.nameOf child = some path → GoesBelow parentPath path

/-- The call is for a node of the tree; one to remove has no children and no subscriptions. -/
def PathTree.Proper (tree : PathTree) : PathTreeInput → Prop
  | .gamTreeRemove node => ∃ gnode cell heapNode, InTree tree.links tree.root gnode ∧ tree.gNodes gnode = some cell ∧
      cell.data = node ∧ cell.children = [] ∧ tree.gamNodes node = some heapNode ∧ heapNode.subs = []
  | .gamPollGenericPruneTree node => tree.Member node
  | .gamNodeAddSubscription _ _ | .gamNodeRemoveSubscription _ _ => False
  | input => tree.Allowed input

/-! ## What holds -/

/-- The hash and the tree are in step. -/
structure PathTree.Indexed (tree : PathTree) : Prop where
  bijection : Set.BijOn (fun path => tree.nodeHash.lookup path) {path | path ∈ tree.nodeHash}
    (some '' {gnode | tree.Below gnode})
  own : ∀ path gnode, tree.nodeHash.lookup path = some gnode → tree.pathOf gnode = some path
  size : ∃ gnodes : List Pointer, gnodes.Nodup ∧ (∀ gnode, gnode ∈ gnodes ↔ tree.Below gnode) ∧
    gnodes.length = tree.gamTreeGetSize
  agree : ∀ parent child, parentLink tree.links child = some (some parent) ↔ ChildOf tree.links parent child
  once : ∀ gnode cell, tree.links gnode = some cell → cell.children.Nodup
  parentless : ∀ gnode, parentLink tree.links gnode = some none ↔ gnode = tree.root
  paired : ∀ gnode node, tree.dataOf gnode = some node ↔ tree.nodeOf node = some gnode
  adds : ∀ path isDir, path.head? = some slash → ∃ node after,
    tree.gamTreeAddAtPath path isDir = some (some node, after) ∧ after.gamTreeGetAtPath path = some (some node) ∧
      (tree.gamTreeGetAtPath path = some none → ∀ ancestor, Ancestor ancestor path → after.Present ancestor)
  returns : ∀ input, tree.Proper input → (pathTreeStep tree input).isSome

/-- Every path that is added has its ancestors in the tree. -/
def PathTree.Covered (tree : PathTree) : Prop :=
  ∀ path isDir, path.head? = some slash → ∃ node after,
    tree.gamTreeAddAtPath path isDir = some (some node, after) ∧
      ∀ ancestor, Ancestor ancestor path → after.Present ancestor

section

variable {tree after : PathTree} {node gnode parent above child : Pointer} {heapNode : HeapNode}
  {cell aboveCell : GNode}
  {path : Bytes}

theorem PathTree.Kept.inTree_iff (kept : tree.Kept) :
    InTree tree.links tree.root gnode ↔ ∃ node, tree.dataOf gnode = some node := by
  rw [kept.linked.inTree_iff]
  unfold PathTree.links PathTree.dataOf
  cases tree.gNodes gnode with
  | none => simp
  | some cell => simp

theorem PathTree.Kept.member_iff (kept : tree.Kept) : tree.Member node ↔ ∃ gnode, tree.nodeOf node = some gnode := by
  constructor
  · rintro ⟨gnode, _, data⟩
    exact ⟨gnode, (kept.paired gnode node).mp data⟩
  · rintro ⟨gnode, placed⟩
    have data := (kept.paired gnode node).mpr placed
    exact ⟨gnode, kept.inTree_iff.mpr ⟨node, data⟩, data⟩

/-- The hash has a key for each path below the root. -/
theorem PathTree.Kept.hash_iff (kept : tree.Kept) :
    tree.nodeHash.lookup path = some gnode ↔ tree.Below gnode ∧ tree.pathOf gnode = some path := by
  rw [kept.hash]
  constructor
  · rintro ⟨below, named⟩
    obtain ⟨node, data, _⟩ := Option.bind_eq_some_iff.mp named
    exact ⟨⟨kept.inTree_iff.mpr ⟨node, data⟩, below⟩, named⟩
  · rintro ⟨⟨_, below⟩, named⟩
    exact ⟨below, named⟩

theorem PathTree.Kept.named (kept : tree.Kept) (inTree : InTree tree.links tree.root gnode) :
    ∃ path, tree.pathOf gnode = some path := by
  obtain ⟨node, data⟩ := kept.inTree_iff.mp inTree
  obtain ⟨heapNode, there, _⟩ := Option.bind_eq_some_iff.mp ((kept.paired gnode node).mp data)
  exact ⟨heapNode.path, by rw [PathTree.pathOf, data, Option.bind_some, nameOf_of there]⟩

theorem PathTree.Kept.bijection (kept : tree.Kept) :
    Set.BijOn (fun path => tree.nodeHash.lookup path) {path | path ∈ tree.nodeHash}
      (some '' {gnode | tree.Below gnode}) := by
  refine ⟨?_, ?_, ?_⟩
  · intro path member
    obtain ⟨gnode, lookup⟩ := Option.isSome_iff_exists.mp (AList.lookup_isSome.mpr member)
    exact ⟨gnode, (kept.hash_iff.mp lookup).1, lookup.symm⟩
  · intro first memberFirst second _ same
    obtain ⟨gnode, lookup⟩ := Option.isSome_iff_exists.mp (AList.lookup_isSome.mpr memberFirst)
    have other : tree.nodeHash.lookup second = some gnode := same.symm.trans lookup
    exact Option.some.inj ((kept.hash_iff.mp lookup).2.symm.trans (kept.hash_iff.mp other).2)
  · rintro _ ⟨gnode, below, rfl⟩
    obtain ⟨path, named⟩ := kept.named below.1
    have lookup := kept.hash_iff.mpr ⟨below, named⟩
    exact ⟨path, AList.lookup_isSome.mp (by rw [lookup]; rfl), lookup⟩

/-- The cells below the root are as many as the keys. -/
theorem PathTree.Kept.size (kept : tree.Kept) :
    ∃ gnodes : List Pointer, gnodes.Nodup ∧ (∀ gnode, gnode ∈ gnodes ↔ tree.Below gnode) ∧
      gnodes.length = tree.gamTreeGetSize := by
  have held {path : Bytes} (key : path ∈ tree.nodeHash.keys) : ∃ gnode, tree.nodeHash.lookup path = some gnode :=
    Option.isSome_iff_exists.mp (AList.lookup_isSome.mpr key)
  refine ⟨tree.nodeHash.keys.map fun path => (tree.nodeHash.lookup path).getD tree.root, ?_, fun gnode => ?_, ?_⟩
  · refine List.Nodup.map_on (fun first firstKey second secondKey same => ?_) tree.nodeHash.keys_nodup
    obtain ⟨gnode, lookup⟩ := held firstKey
    obtain ⟨other, otherLookup⟩ := held secondKey
    rw [lookup, otherLookup, Option.getD_some, Option.getD_some] at same
    rw [← same, kept.hash_iff] at otherLookup
    exact Option.some.inj ((kept.hash_iff.mp lookup).2.symm.trans otherLookup.2)
  · rw [List.mem_map]
    constructor
    · rintro ⟨path, key, rfl⟩
      obtain ⟨gnode, lookup⟩ := held key
      rw [lookup, Option.getD_some]
      exact (kept.hash_iff.mp lookup).1
    · intro below
      obtain ⟨path, named⟩ := kept.named below.1
      have lookup := kept.hash_iff.mpr ⟨below, named⟩
      exact ⟨path, AList.lookup_isSome.mp (by rw [lookup]; rfl), by rw [lookup, Option.getD_some]⟩
  · rw [List.length_map]
    exact List.length_map _

theorem ancestor_cases {ancestor path : Bytes} (before : Ancestor ancestor path) :
    ancestor = [slash] ∨ ancestor ∈ pathParents path := by
  obtain ⟨front, rest, shape, rfl⟩ := before
  split
  case isTrue => exact .inl rfl
  case isFalse nonempty => exact .inr (mem_pathParents.mpr ⟨nonempty, rest, shape⟩)

theorem PathTree.Kept.present (kept : tree.Kept) (found : tree.gamTreeGetAtPath path = some (some node)) :
    tree.Present path := by
  obtain ⟨gnode, placed, named⟩ := kept.found found
  exact ⟨gnode, kept.inTree_iff.mpr ⟨node, (kept.paired gnode node).mpr placed⟩, named⟩

/-- A path that is not found is nobody's, or the root's. -/
theorem PathTree.Kept.not_present (kept : tree.Kept) (absent : tree.gamTreeGetAtPath path = some none)
    (other : path ≠ [slash]) : ¬ tree.Present path := by
  rintro ⟨gnode, inTree, named⟩
  have below : gnode ≠ tree.root := by
    rintro rfl
    rw [kept.top, Option.some.injEq] at named
    exact other named.symm
  have lookup := kept.hash_iff.mpr ⟨⟨inTree, below⟩, named⟩
  rw [gamTreeGetAtPath_eq_none.mp absent] at lookup
  contradiction

theorem PathTree.Kept.present_root (kept : tree.Kept) : tree.Present [slash] := ⟨tree.root, .refl, kept.top⟩

/-! ## Steps -/

variable {placing : Bytes → Bytes → Prop} {input : PathTreeInput}

theorem PathTree.Kept.allowed_add (kept : tree.Kept) (allowed : tree.Allowed (.gamTreeAdd parent child))
    (goes : ∀ parentPath path, tree.nameOf parent = some parentPath → tree.nameOf child = some path →
      placing parentPath path) :
    ∃ after, tree.gamTreeAdd parent child = some (true, after) ∧ tree.Moves placing after := by
  obtain ⟨⟨above, _, data⟩, outside, path, childNamed, unused⟩ := allowed
  have placed := (kept.paired above parent).mp data
  obtain ⟨parentNode, parentThere, _⟩ := Option.bind_eq_some_iff.mp placed
  obtain ⟨heapNode, there, rfl⟩ := Option.map_eq_some_iff.mp childNamed
  have loose : heapNode.node = none := by
    rw [← nodeOf_of there, Option.eq_none_iff_forall_ne_some]
    exact fun gnode its => outside (kept.member_iff.mpr ⟨gnode, its⟩)
  have absent : tree.nodeHash.lookup heapNode.path = none := by
    rw [Option.eq_none_iff_forall_ne_some]
    intro gnode lookup
    obtain ⟨below, named⟩ := kept.hash_iff.mp lookup
    exact unused gnode below named
  have parentNamed := nameOf_of parentThere
  obtain ⟨after, added, grows, _⟩ := kept.gamTreeAdd placed
    (show tree.pathOf above = some parentNode.path by rw [PathTree.pathOf, data, Option.bind_some, parentNamed])
    there loose absent (goes _ _ parentNamed childNamed)
  exact ⟨after, added, grows.moves⟩

theorem anywhere {parentName childName : Option Bytes} (parentPath path : Bytes) (_ : parentName = some parentPath)
    (_ : childName = some path) : Anywhere parentPath path := trivial

theorem PathTree.Untouched.addSubscription {sub : GamSubscription}
    (subscribed : tree.gamNodeAddSubscription node sub = some after) : tree.Untouched after := by
  obtain ⟨heapNode, there, subscribed⟩ := Option.bind_eq_some_iff.mp subscribed
  split at subscribed
  · contradiction
  · cases subscribed
    refine .of_identity rfl rfl rfl rfl fun other => ?_
    by_cases same : other = node
    · subst same
      simp [there, HeapNode.identity]
    · simp [same]

theorem PathTree.Untouched.removeSubscription {sub : GamSubscription}
    (cancelled : tree.gamNodeRemoveSubscription node sub = some after) : tree.Untouched after := by
  obtain ⟨heapNode, there, cancelled⟩ := Option.bind_eq_some_iff.mp cancelled
  split at cancelled
  · cases cancelled
    refine .of_identity rfl rfl rfl rfl fun other => ?_
    by_cases same : other = node
    · subst same
      simp [there, HeapNode.identity]
    · simp [same]
  · contradiction

/-- A call that is allowed moves the tree. -/
theorem PathTree.Kept.step (kept : tree.Kept)
    (wider : ∀ parentPath path, GoesBelow parentPath path → placing parentPath path) (allowed : tree.Allowed input)
    (goes : ∀ parent child, input = .gamTreeAdd parent child → ∀ parentPath path, tree.nameOf parent = some parentPath →
      tree.nameOf child = some path → placing parentPath path)
    (stepped : pathTreeStep tree input = some after) : tree.Moves placing after := by
  cases input with
  | gamNodeNew path isDir =>
    cases stepped
    exact .single (.untouched (kept.gamNodeNew path isDir))
  | gamTreeAdd parent child =>
    obtain ⟨next, added, moves⟩ := kept.allowed_add allowed (goes parent child rfl)
    simp only [pathTreeStep, added, Option.map_some, Option.some.injEq] at stepped
    rwa [← stepped]
  | gamTreeAddAtPath path isDir =>
    have nonempty : path ≠ [] := by
      rintro rfl
      contradiction
    obtain ⟨found, next, added, moves, _⟩ := kept.gamTreeAddAtPath nonempty isDir
    simp only [pathTreeStep, added, Option.map_some, Option.some.injEq] at stepped
    rw [← stepped]
    exact moves.imp wider
  | gamTreeRemove node =>
    obtain ⟨⟨gone, next⟩, removed, rfl⟩ := Option.map_eq_some_iff.mp stepped
    exact kept.gamTreeRemove removed
  | gamPollGenericPruneTree node => exact kept.gamPollGenericPruneTree stepped
  | gamNodeAddSubscription node sub => exact .single (.untouched (.addSubscription stepped))
  | gamNodeRemoveSubscription node sub => exact .single (.untouched (.removeSubscription stepped))
  | gamPollGenericAddMissing node =>
    cases stepped
    refine .single (.untouched ?_)
    unfold PathTree.gamPollGenericAddMissing
    split <;> exact .of_identity rfl rfl rfl rfl fun _ => rfl
  | gamPollGenericAddBusy node =>
    cases stepped
    refine .single (.untouched ?_)
    unfold PathTree.gamPollGenericAddBusy
    split <;> exact .of_identity rfl rfl rfl rfl fun _ => rfl
  | gamPollGenericAdd node =>
    cases stepped
    refine .single (.untouched ?_)
    unfold PathTree.gamPollGenericAdd
    split <;> exact .of_identity rfl rfl rfl rfl fun _ => rfl

/-- A call for a node of the tree comes back. -/
theorem PathTree.Kept.returns (kept : tree.Kept) (proper : tree.Proper input) : (pathTreeStep tree input).isSome := by
  cases input with
  | gamTreeAdd parent child =>
    obtain ⟨after, added, _⟩ := kept.allowed_add proper anywhere
    simp [pathTreeStep, added]
  | gamTreeAddAtPath path isDir =>
    have absolute : path.head? = some slash := proper
    have nonempty : path ≠ [] := by
      rintro rfl
      contradiction
    obtain ⟨node, after, added, _⟩ := kept.gamTreeAddAtPath nonempty isDir
    simp [pathTreeStep, added]
  | gamTreeRemove node =>
    obtain ⟨gnode, cell, heapNode, _, lookup, rfl, leaf, there, unwatched⟩ := proper
    have own := (kept.paired gnode cell.data).mp (dataOf_of lookup)
    rw [nodeOf_of there] at own
    obtain ⟨unchanged, _⟩ | ⟨_, _, _, _, placed, found, _, _, _, outcome⟩ := kept.gamTreeRemove_cases there
    · simp [pathTreeStep, unchanged]
    · rw [own, Option.some.injEq] at placed
      rw [← placed, lookup, Option.some.injEq] at found
      rw [← found, if_pos ⟨leaf, unwatched⟩] at outcome
      simp [pathTreeStep, outcome]
  | gamPollGenericPruneTree node =>
    obtain ⟨gnode, placed⟩ := kept.member_iff.mp proper
    obtain ⟨cell, lookup, _⟩ := Option.map_eq_some_iff.mp ((kept.paired gnode node).mpr placed)
    -- a parent is older than its child, so the pruning comes to an end
    obtain ⟨after, pruned⟩ := kept.prune_returns placed (kept.older lookup)
    simp [pathTreeStep, pruned]
  | gamNodeAddSubscription => exact proper.elim
  | gamNodeRemoveSubscription => exact proper.elim
  | gamNodeNew => rfl
  | gamPollGenericAddMissing => rfl
  | gamPollGenericAddBusy => rfl
  | gamPollGenericAdd => rfl

theorem PathTree.Kept.indexed (kept : tree.Kept) : tree.Indexed where
  bijection := kept.bijection
  own := fun _ _ lookup => (kept.hash_iff.mp lookup).2
  size := kept.size
  agree := kept.linked.agree
  once := kept.linked.distinct
  parentless := kept.linked.rooted
  paired := kept.paired
  adds := by
    intro path isDir absolute
    have nonempty : path ≠ [] := by
      rintro rfl
      contradiction
    obtain ⟨node, after, added, moves, found, parents⟩ := kept.gamTreeAddAtPath nonempty isDir
    have keptAfter := kept.moves moves
    refine ⟨node, after, added, found, fun absent ancestor before => ?_⟩
    obtain rfl | part := ancestor_cases before
    · exact keptAfter.present_root
    · obtain ⟨upper, foundUpper⟩ := parents absent ancestor part
      exact keptAfter.present foundUpper
  returns := fun _ => kept.returns

theorem PathTree.Settled.moves (settled : tree.Settled) (kept : tree.Kept) (moves : tree.Moves GoesBelow after) :
    after.Settled := by
  induction moves with
  | refl => exact settled
  | tail earlier move inductionHypothesis => exact inductionHypothesis.move (kept.moves earlier) move

/-- Above a cell there are cells for the ancestors of its path.  By induction on the addresses, which go down
towards the root. -/
theorem PathTree.Settled.present (settled : tree.Settled) (kept : tree.Kept) {part : Bytes}
    (named : tree.pathOf gnode = some path) (before : part ∈ pathParents path) : tree.Present part := by
  induction gnode using Nat.strong_induction_on generalizing path with
  | h gnode inductionHypothesis =>
    obtain ⟨node, data, _⟩ := Option.bind_eq_some_iff.mp named
    obtain ⟨cell, lookup, _⟩ := Option.map_eq_some_iff.mp data
    by_cases top : gnode = tree.root
    · rw [top, kept.top, Option.some.injEq] at named
      rw [← named] at before
      contradiction
    · obtain ⟨above, aboveCell, up, lookupAbove, older, _⟩ := kept.parented lookup top
      have link : parentLink tree.links gnode = some (some above) := by rw [parentLink_of (links_of lookup), up]
      have inTree := kept.inTree_iff.mpr ⟨aboveCell.data, dataOf_of lookupAbove⟩
      obtain ⟨parentPath, parentNamed⟩ := kept.named inTree
      obtain rfl | further := settled gnode above path parentPath link named parentNamed part before
      · exact ⟨above, inTree, parentNamed⟩
      · exact inductionHypothesis above older parentNamed further

theorem PathTree.Settled.covered (settled : tree.Settled) (kept : tree.Kept) : tree.Covered := by
  intro path isDir absolute
  have nonempty : path ≠ [] := by
    rintro rfl
    contradiction
  obtain ⟨node, after, added, moves, found, _⟩ := kept.gamTreeAddAtPath nonempty isDir
  have keptAfter := kept.moves moves
  obtain ⟨gnode, _, named⟩ := keptAfter.found found
  refine ⟨node, after, added, fun ancestor before => ?_⟩
  obtain rfl | part := ancestor_cases before
  · exact keptAfter.present_root
  · exact (settled.moves kept moves).present keptAfter named part

theorem PathTree.links_new (views : Nat → FsView) :
    (PathTree.new views).links = Function.update (fun _ => none) 1 (some ⟨none, []⟩) := by
  funext gnode
  unfold PathTree.links PathTree.new
  by_cases root : gnode = 1
  · simp [root]
  · simp [root]

theorem PathTree.dataOf_new (views : Nat → FsView) :
    (PathTree.new views).dataOf = Function.update (fun _ => none) 1 (some 0) := by
  funext gnode
  unfold PathTree.dataOf PathTree.new
  by_cases root : gnode = 1
  · simp [root]
  · simp [root]

theorem PathTree.nodeOf_new (views : Nat → FsView) :
    (PathTree.new views).nodeOf = Function.update (fun _ => none) 0 (some 1) := by
  funext node
  unfold PathTree.nodeOf PathTree.new
  by_cases root : node = 0
  · simp [root]
  · simp [root]

theorem PathTree.kept_new (views : Nat → FsView) : (PathTree.new views).Kept where
  linked := by
    have link (gnode : Pointer) :
        parentLink (PathTree.new views).links gnode = if gnode = 1 then some none else none := by
      rw [parentLink, links_new, Function.update_apply]
      split <;> rfl
    have below (first second : Pointer) : ¬ ChildOf (PathTree.new views).links first second := by
      rintro ⟨cell, lookup, member⟩
      rw [links_new, Function.update_apply] at lookup
      split at lookup
      · cases lookup
        contradiction
      · contradiction
    refine ⟨fun gnode => ?_, fun gnode parent has => ?_, fun parent child => ?_, fun gnode cell lookup => ?_⟩
    · rw [link]
      exact ite_eq_left_iff.trans (by simp; rfl)
    · rw [link] at has
      split at has <;> simp at has
    · rw [link]
      refine iff_of_false (fun has => ?_) (below parent child)
      split at has <;> simp at has
    · rw [links_new, Function.update_apply] at lookup
      split at lookup
      · cases lookup
        exact List.nodup_nil
      · contradiction
  paired := by
    intro gnode node
    rw [dataOf_new, nodeOf_new, Function.update_apply, Function.update_apply]
    split <;> split <;> simp_all [eq_comm]
  hash := by
    intro path gnode
    refine iff_of_false (fun lookup => ?_) ?_
    · contradiction
    · rintro ⟨below, named⟩
      have other : gnode ≠ 1 := below
      rw [PathTree.pathOf, dataOf_new, Function.update_of_ne other] at named
      contradiction
  top := rfl
  freshNode := by
    intro node fresh
    have later : 2 ≤ node := fresh
    exact Function.update_of_ne (Nat.ne_of_gt (Nat.lt_of_succ_lt later)) _ _
  freshCell := by
    intro gnode fresh
    have later : 2 ≤ gnode := fresh
    exact Function.update_of_ne (Nat.ne_of_gt later) _ _

theorem PathTree.settled_new (views : Nat → FsView) : (PathTree.new views).Settled := by
  intro gnode parent path parentPath link
  have below := ((kept_new views).linked.agree parent gnode).mp link
  obtain ⟨cell, lookup, member⟩ := below
  rw [links_new, Function.update_apply] at lookup
  split at lookup
  · cases lookup
    contradiction
  · contradiction

end

/-! ## Runs -/

/-- The hash and the tree are in step in every state of a run, and every path has its ancestors if each node has been
added below one that its path goes below. -/
theorem pathTree_indexed (views : Nat → FsView) (inputs : List PathTreeInput)
    (allowed : Guarded (partialStep pathTreeStep) (GuardIfAny PathTree.Allowed) (some (.new views)) inputs) :
    Throughout (partialStep pathTreeStep) (IfAny PathTree.Indexed) (some (.new views)) inputs ∧
      (Guarded (partialStep pathTreeStep) (GuardIfAny PathTree.AllowedBelow) (some (.new views)) inputs →
        Throughout (partialStep pathTreeStep) (IfAny PathTree.Covered) (some (.new views)) inputs) := by
  constructor
  · refine Throughout.imp (IfAny.imp fun _ => PathTree.Kept.indexed)
      (Throughout.of_partial ?_ (PathTree.kept_new views) allowed)
    intro tree input after kept guard stepped
    have moves : tree.Moves Anywhere after := kept.step (fun _ _ _ => trivial) guard (fun _ _ _ => anywhere) stepped
    exact kept.moves moves
  · intro below
    have start : (PathTree.new views).Kept ∧ (PathTree.new views).Settled :=
      ⟨PathTree.kept_new views, PathTree.settled_new views⟩
    have step (tree : PathTree) (input : PathTreeInput) (after : PathTree) (holds : tree.Kept ∧ tree.Settled)
        (guard : tree.AllowedBelow input) (stepped : pathTreeStep tree input = some after) :
        after.Kept ∧ after.Settled := by
      have moves := holds.1.step (fun _ _ => id) guard.1 guard.2 stepped
      exact ⟨holds.1.moves moves, holds.2.moves holds.1 moves⟩
    exact Throughout.imp (IfAny.imp fun _ holds => PathTree.Settled.covered holds.2 holds.1)
      (Throughout.of_partial step start below)

/-- What `gam_tree_add` is given, when the node has just been made. -/
theorem PathTree.Kept.allowed {tree : PathTree} {parent child above : Pointer} {path : Bytes} (kept : tree.Kept)
    (placed : tree.nodeOf parent = some above) (loose : tree.nodeOf child = none)
    (named : tree.nameOf child = some path) (absent : tree.nodeHash.lookup path = none) :
    tree.Allowed (.gamTreeAdd parent child) := by
  refine ⟨kept.member_iff.mpr ⟨above, placed⟩, fun member => ?_, path, named, fun gnode below its => ?_⟩
  · obtain ⟨gnode, its⟩ := kept.member_iff.mp member
    rw [loose] at its
    contradiction
  · have lookup := kept.hash_iff.mpr ⟨below, its⟩
    rw [absent] at lookup
    contradiction

/-- A directory, a file in it, and both pruned. -/
def directoryPruned : List PathTreeInput :=
  [.gamNodeNew [47, 97] true, .gamTreeAdd 0 2, .gamTreeAddAtPath [47, 97, 47, 98] false, .gamPollGenericPruneTree 4]

theorem pathTree_indexed_pruned :
    Throughout (partialStep pathTreeStep) (IfAny PathTree.Indexed) (some (.new fun _ => nothingThere)) directoryPruned ∧
      Throughout (partialStep pathTreeStep) (IfAny PathTree.Covered) (some (.new fun _ => nothingThere))
        directoryPruned := by
  have kept := PathTree.kept_new fun _ => nothingThere
  have added : PathTree.Allowed _ (.gamTreeAdd 0 2) :=
    (kept.untouched (kept.gamNodeNew [47, 97] true)).allowed rfl rfl rfl rfl
  obtain ⟨indexed, covered⟩ :=
    pathTree_indexed (fun _ => nothingThere) directoryPruned ⟨trivial, added, rfl, trivial, trivial⟩
  refine ⟨indexed, covered ⟨⟨trivial, nofun⟩, ⟨added, ?_⟩, ⟨rfl, nofun⟩, ⟨trivial, nofun⟩, trivial⟩⟩
  rintro _ _ ⟨⟩ parentPath path _ named
  cases named
  exact fun part member => absurd (show part ∈ pathParents [47, 97] from member) List.not_mem_nil

/-- `/a/b` put below the root. -/
def misplacedNode : List PathTreeInput := [.gamNodeNew [47, 97, 47, 98] false, .gamTreeAdd 0 2]

/-- Adding its path gives the node, and there is none for `/a`. -/
theorem misplaced_node_uncovered :
    Guarded (partialStep pathTreeStep) (GuardIfAny PathTree.Allowed) (some (.new fun _ => nothingThere)) misplacedNode ∧
      (run (partialStep pathTreeStep) (some (.new fun _ => nothingThere)) misplacedNode).any (fun tree =>
        (tree.gamTreeAddAtPath [47, 97, 47, 98] false).any fun (node, after) =>
          node = some 2 ∧ after.gamTreeGetAtPath [47, 97] = some none) ∧
      ¬ Throughout (partialStep pathTreeStep) (IfAny PathTree.Covered) (some (.new fun _ => nothingThere))
        misplacedNode := by
  have kept := PathTree.kept_new fun _ => nothingThere
  have keptNode := kept.untouched (kept.gamNodeNew [47, 97, 47, 98] false)
  have allowed : PathTree.Allowed _ (.gamTreeAdd 0 2) := keptNode.allowed rfl rfl rfl rfl
  have alone : (run (partialStep pathTreeStep) (some (.new fun _ => nothingThere)) misplacedNode).any (fun tree =>
      (tree.gamTreeAddAtPath [47, 97, 47, 98] false).any fun (node, after) =>
        node = some 2 ∧ after.gamTreeGetAtPath [47, 97] = some none) := by
    decide +kernel
  refine ⟨⟨trivial, allowed, trivial⟩, alone, fun covered => ?_⟩
  obtain ⟨tree, added, moves⟩ := keptNode.allowed_add allowed anywhere
  have last : run (partialStep pathTreeStep) (some (.new fun _ => nothingThere)) misplacedNode = some tree := by
    change (((PathTree.new fun _ => nothingThere).gamNodeNew [47, 97, 47, 98] false).2.gamTreeAdd 0 2).map (·.2) = _
    rw [added, Option.map_some]
  have holds := covered.last
  rw [last] at holds alone
  obtain ⟨node, after, addedPath, present⟩ := holds [47, 97, 47, 98] false rfl
  have nonempty : ([47, 97, 47, 98] : Bytes) ≠ [] := nofun
  obtain ⟨_, _, again, movesPath, _⟩ := (keptNode.moves moves).gamTreeAddAtPath nonempty false
  rw [addedPath, Option.some.injEq, Prod.mk.injEq] at again
  rw [Option.any_some, addedPath, Option.any_some, decide_eq_true_eq] at alone
  refine ((keptNode.moves moves).moves (again.2 ▸ movesPath)).not_present alone.2 (by decide) ?_
  exact present [47, 97] ⟨[47, 97], [98], rfl, rfl⟩

end Gamin.Polling
