import Gamin.Polling.PathTree
import Gamin.Polling.Registration

/-! # What the path tree keeps

Every function of the tree moves it in one of three ways: it leaves the cells alone, it puts a new cell below
another one, or it takes out a cell that has nothing below it.  Each move keeps the links, the pointers between
the nodes and their cells, and the hash in step.
-/

namespace Gamin.Polling

open Gamin Gamin.Server Gamin.Inotify Gamin.Library

/-! ## What the pointers keep -/

/-- The links of the cells. -/
def PathTree.links (tree : PathTree) (gnode : Pointer) : Option (Links Pointer) :=
  (tree.gNodes gnode).map (·.toLinks)

/-- The node that a cell is of. -/
def PathTree.dataOf (tree : PathTree) (gnode : Pointer) : Option Pointer := (tree.gNodes gnode).map (·.data)

/-- The cell that a node has. -/
def PathTree.nodeOf (tree : PathTree) (node : Pointer) : Option Pointer := (tree.gamNodes node).bind (·.node)

def PathTree.nameOf (tree : PathTree) (node : Pointer) : Option Bytes := (tree.gamNodes node).map (·.path)

/-- The path of the node that a cell is of. -/
def PathTree.pathOf (tree : PathTree) (gnode : Pointer) : Option Bytes := (tree.dataOf gnode).bind tree.nameOf

/-- The cells are a tree, they and their nodes point to each other, and all but the root are in the hash. -/
structure PathTree.Kept (tree : PathTree) : Prop where
  linked : Linked tree.links tree.root
  paired : ∀ gnode node, tree.dataOf gnode = some node ↔ tree.nodeOf node = some gnode
  hash : ∀ path gnode, tree.nodeHash.lookup path = some gnode ↔ gnode ≠ tree.root ∧ tree.pathOf gnode = some path
  top : tree.pathOf tree.root = some [slash]
  freshNode : ∀ node, tree.next ≤ node → tree.gamNodes node = none
  freshCell : ∀ gnode, tree.next ≤ gnode → tree.gNodes gnode = none

section

variable {tree after : PathTree} {node gnode parent above child : Pointer} {heapNode : HeapNode}
  {cell aboveCell : GNode}
  {path : Bytes}

theorem PathTree.links_of (lookup : tree.gNodes gnode = some cell) : tree.links gnode = some cell.toLinks := by
  rw [PathTree.links, lookup, Option.map_some]

theorem PathTree.dataOf_of (lookup : tree.gNodes gnode = some cell) : tree.dataOf gnode = some cell.data := by
  rw [PathTree.dataOf, lookup, Option.map_some]

theorem PathTree.nodeOf_of (lookup : tree.gamNodes node = some heapNode) : tree.nodeOf node = heapNode.node := by
  rw [PathTree.nodeOf, lookup, Option.bind_some]

theorem PathTree.nameOf_of (lookup : tree.gamNodes node = some heapNode) : tree.nameOf node = some heapNode.path := by
  rw [PathTree.nameOf, lookup, Option.map_some]

theorem PathTree.Kept.unusedCell (kept : tree.Kept) (fresh : tree.next ≤ gnode) : tree.dataOf gnode = none := by
  rw [PathTree.dataOf, kept.freshCell gnode fresh, Option.map_none]

theorem PathTree.Kept.unusedNode (kept : tree.Kept) (fresh : tree.next ≤ node) : tree.nodeOf node = none := by
  rw [PathTree.nodeOf, kept.freshNode node fresh, Option.bind_none]

theorem PathTree.Kept.older (kept : tree.Kept) (lookup : tree.gNodes gnode = some cell) : gnode < tree.next := by
  by_contra later
  rw [kept.freshCell gnode (Nat.not_lt.mp later)] at lookup
  contradiction

/-! ## The cells left alone -/

/-- The cells are the same, and their nodes are at the same places and have the same paths. -/
structure PathTree.Untouched (tree after : PathTree) : Prop where
  root : after.root = tree.root
  hash : after.nodeHash = tree.nodeHash
  cells : after.gNodes = tree.gNodes
  places : after.nodeOf = tree.nodeOf
  paths : after.pathOf = tree.pathOf
  next : tree.next ≤ after.next
  fresh : ∀ node, after.next ≤ node → tree.gamNodes node = none → after.gamNodes node = none

/-- What the tree reads of a node. -/
def HeapNode.identity (heapNode : HeapNode) : Bytes × Option Pointer := (heapNode.path, heapNode.node)

/-- Writing to the other fields of the nodes leaves the cells alone. -/
theorem PathTree.Untouched.of_identity (root : after.root = tree.root) (hash : after.nodeHash = tree.nodeHash)
    (cells : after.gNodes = tree.gNodes) (next : after.next = tree.next)
    (nodes : ∀ node, (after.gamNodes node).map HeapNode.identity = (tree.gamNodes node).map HeapNode.identity) :
    tree.Untouched after := by
  have names : after.nameOf = tree.nameOf := by
    funext node
    have same := congrArg (Option.map Prod.fst) (nodes node)
    rwa [Option.map_map, Option.map_map] at same
  have places : after.nodeOf = tree.nodeOf := by
    funext node
    have same := congrArg (·.bind Prod.snd) (nodes node)
    rwa [Option.bind_map, Option.bind_map] at same
  refine ⟨root, hash, cells, places, ?_, next.ge, fun node _ absent => ?_⟩
  · funext gnode
    rw [PathTree.pathOf, PathTree.pathOf, PathTree.dataOf, PathTree.dataOf, cells, names]
  · have same := nodes node
    rwa [absent, Option.map_none, Option.map_eq_none_iff] at same

theorem PathTree.Untouched.refl (tree : PathTree) : tree.Untouched tree := .of_identity rfl rfl rfl rfl fun _ => rfl

theorem PathTree.Kept.gamNodeNew (kept : tree.Kept) (path : Bytes) (isDir : Bool) :
    tree.Untouched (tree.gamNodeNew path isDir).2 := by
  have nodes : (tree.gamNodeNew path isDir).2.gamNodes =
      Function.update tree.gamNodes tree.next (some (tree.newHeapNode path isDir)) := rfl
  refine ⟨rfl, rfl, rfl, ?_, ?_, Nat.le_succ tree.next, fun node fresh absent => ?_⟩
  · funext node
    by_cases isNew : node = tree.next
    · rw [isNew, kept.unusedNode le_rfl, PathTree.nodeOf, nodes, Function.update_self]
      rfl
    · rw [PathTree.nodeOf, nodes, Function.update_of_ne isNew, PathTree.nodeOf]
  · funext gnode
    have same : (tree.gamNodeNew path isDir).2.dataOf gnode = tree.dataOf gnode := rfl
    rw [PathTree.pathOf, PathTree.pathOf, same]
    cases data : tree.dataOf gnode with
    | none => rfl
    | some node =>
      have old : node ≠ tree.next := by
        rintro rfl
        rw [kept.paired, kept.unusedNode le_rfl] at data
        contradiction
      rw [Option.bind_some, Option.bind_some, PathTree.nameOf, nodes, Function.update_of_ne old, PathTree.nameOf]
  · have later : tree.next < node := fresh
    rw [nodes, Function.update_of_ne later.ne', absent]

theorem PathTree.Kept.untouched (kept : tree.Kept) (same : tree.Untouched after) : after.Kept where
  linked := by
    have links : after.links = tree.links := funext fun gnode => by rw [PathTree.links, PathTree.links, same.cells]
    rw [links, same.root]
    exact kept.linked
  paired := by
    have data : after.dataOf = tree.dataOf := funext fun gnode => by rw [PathTree.dataOf, PathTree.dataOf, same.cells]
    rw [data, same.places]
    exact kept.paired
  hash := by
    rw [same.hash, same.root, same.paths]
    exact kept.hash
  top := by
    rw [same.paths, same.root]
    exact kept.top
  freshNode := fun node fresh => same.fresh node fresh (kept.freshNode node (same.next.trans fresh))
  freshCell := by
    intro gnode fresh
    rw [same.cells]
    exact kept.freshCell gnode (same.next.trans fresh)

/-! ## A new cell -/

/-- The tree with a new cell for a node. -/
def PathTree.grafted (tree : PathTree) (above : Pointer) (aboveCell : GNode) (child : Pointer) (heapNode : HeapNode) :
    PathTree :=
  { tree with
    nodeHash := tree.nodeHash.insert heapNode.path tree.next
    gamNodes := Function.update tree.gamNodes child (some { heapNode with node := some tree.next })
    gNodes := Function.update
      (Function.update tree.gNodes above (some { aboveCell with children := aboveCell.children ++ [tree.next] }))
      tree.next (some ⟨⟨some above, []⟩, child⟩)
    next := tree.next + 1 }

theorem PathTree.links_grafted (lookup : tree.gNodes above = some aboveCell) :
    (tree.grafted above aboveCell child heapNode).links = graft tree.links above aboveCell.toLinks tree.next := by
  funext gnode
  unfold PathTree.links PathTree.grafted graft
  by_cases isNew : gnode = tree.next
  · simp [isNew]
  · by_cases isAbove : gnode = above
    · subst isAbove
      simp [isNew]
    · simp [isNew, isAbove]

theorem PathTree.dataOf_grafted (lookup : tree.gNodes above = some aboveCell) :
    (tree.grafted above aboveCell child heapNode).dataOf gnode =
      if gnode = tree.next then some child else tree.dataOf gnode := by
  unfold PathTree.dataOf PathTree.grafted
  by_cases isNew : gnode = tree.next
  · simp [isNew]
  · by_cases isAbove : gnode = above
    · subst isAbove
      simp [isNew, lookup]
    · simp [isNew, isAbove]

theorem PathTree.nodeOf_grafted :
    (tree.grafted above aboveCell child heapNode).nodeOf node =
      if node = child then some tree.next else tree.nodeOf node := by
  unfold PathTree.nodeOf PathTree.grafted
  by_cases isChild : node = child
  · simp [isChild]
  · simp [isChild]

theorem PathTree.nameOf_grafted (there : tree.gamNodes child = some heapNode) :
    (tree.grafted above aboveCell child heapNode).nameOf = tree.nameOf := by
  funext node
  unfold PathTree.nameOf PathTree.grafted
  by_cases isChild : node = child
  · simp [isChild, there]
  · simp [isChild]

theorem PathTree.pathOf_grafted (lookup : tree.gNodes above = some aboveCell)
    (there : tree.gamNodes child = some heapNode) :
    (tree.grafted above aboveCell child heapNode).pathOf gnode =
      if gnode = tree.next then some heapNode.path else tree.pathOf gnode := by
  rw [PathTree.pathOf, dataOf_grafted lookup, nameOf_grafted there]
  split
  case isTrue => rw [Option.bind_some, nameOf_of there]
  case isFalse => rfl

theorem PathTree.Kept.grafted (kept : tree.Kept) (lookup : tree.gNodes above = some aboveCell)
    (there : tree.gamNodes child = some heapNode) (loose : heapNode.node = none)
    (absent : tree.nodeHash.lookup heapNode.path = none) :
    (tree.grafted above aboveCell child heapNode).Kept := by
  have unplaced : tree.nodeOf child = none := by rw [nodeOf_of there, loose]
  -- the new cell is not the root, and nobody has it
  have old : tree.root ≠ tree.next := by
    intro same
    have top := kept.top
    rw [PathTree.pathOf, kept.unusedCell (Nat.le_of_eq same.symm)] at top
    contradiction
  constructor
  case linked =>
    rw [PathTree.links_grafted lookup]
    exact kept.linked.graft (PathTree.links_of lookup) (by rw [PathTree.links, kept.freshCell _ le_rfl]; rfl)
      (kept.older lookup)
  case paired =>
    intro gnode node
    have unused := kept.unusedCell (le_refl tree.next)
    rw [dataOf_grafted lookup, nodeOf_grafted]
    split
    case isTrue isNew =>
      split
      case isTrue isChild => simp [isNew, isChild]
      case isFalse isOther => simp [Ne.symm isOther, isNew, ← kept.paired, unused]
    case isFalse isOld =>
      split
      case isTrue isChild => simp [isChild, Ne.symm isOld, kept.paired, unplaced]
      case isFalse => exact kept.paired gnode node
  case hash =>
    intro path gnode
    rw [pathOf_grafted lookup there]
    change (tree.nodeHash.insert heapNode.path tree.next).lookup path = _ ↔ gnode ≠ tree.root ∧ _
    by_cases isPath : path = heapNode.path
    · rw [isPath, AList.lookup_insert, Option.some.injEq]
      split
      case isTrue isNew => simp [isNew, old.symm]
      case isFalse isOld =>
        rw [← kept.hash, absent]
        simp [Ne.symm isOld]
    · rw [AList.lookup_insert_ne isPath, kept.hash]
      split
      case isTrue isNew => simp [isNew, PathTree.pathOf, kept.unusedCell (le_refl tree.next), Ne.symm isPath]
      case isFalse => rfl
  case top =>
    change (tree.grafted above aboveCell child heapNode).pathOf tree.root = _
    rw [pathOf_grafted lookup there, if_neg old]
    exact kept.top
  case freshNode =>
    intro node fresh
    have later : tree.next < node := fresh
    have isOther : node ≠ child := by
      rintro rfl
      rw [kept.freshNode node later.le] at there
      contradiction
    rw [PathTree.grafted]
    dsimp only
    rw [Function.update_of_ne isOther]
    exact kept.freshNode node later.le
  case freshCell =>
    intro gnode fresh
    have later : tree.next < gnode := fresh
    rw [PathTree.grafted]
    dsimp only
    rw [Function.update_of_ne later.ne', Function.update_of_ne ((kept.older lookup).trans later).ne']
    exact kept.freshCell gnode later.le

theorem PathTree.Kept.gamTreeAdd_eq (kept : tree.Kept) (placed : tree.nodeOf parent = some above)
    (lookup : tree.gNodes above = some aboveCell) (there : tree.gamNodes child = some heapNode)
    (loose : heapNode.node = none) (absent : tree.nodeHash.lookup heapNode.path = none) :
    tree.gamTreeAdd parent child = some (true, tree.grafted above aboveCell child heapNode) := by
  have different : parent ≠ child := by
    rintro rfl
    rw [nodeOf_of there, loose] at placed
    contradiction
  obtain ⟨parentNode, parentThere, parentPlaced⟩ := Option.bind_eq_some_iff.mp placed
  have older := (kept.older lookup).ne
  simp [PathTree.gamTreeAdd, there, absent, PathTree.newNode, parentThere, different, parentPlaced,
    PathTree.gNodeAppend, lookup, older, PathTree.grafted, Function.update_comm older.symm]

/-! ## A cell less -/

/-- The tree without the cell of a node, and without the node. -/
def PathTree.removed (tree : PathTree) (above : Pointer) (aboveCell : GNode) (gnode node : Pointer) (path : Bytes) :
    PathTree :=
  { tree with
    nodeHash := tree.nodeHash.erase path
    gamNodes := Function.update tree.gamNodes node none
    gNodes := Function.update
      (Function.update tree.gNodes above (some { aboveCell with children := aboveCell.children.erase gnode }))
      gnode none }

theorem PathTree.links_removed :
    (tree.removed above aboveCell gnode node path).links = cut tree.links above aboveCell.toLinks gnode := by
  funext other
  unfold PathTree.links PathTree.removed cut
  by_cases isGone : other = gnode
  · simp [isGone]
  · by_cases isAbove : other = above
    · subst isAbove
      simp [isGone]
    · simp [isGone, isAbove]

theorem PathTree.dataOf_removed (lookup : tree.gNodes above = some aboveCell) {other : Pointer} :
    (tree.removed above aboveCell gnode node path).dataOf other =
      if other = gnode then none else tree.dataOf other := by
  unfold PathTree.dataOf PathTree.removed
  by_cases isGone : other = gnode
  · simp [isGone]
  · by_cases isAbove : other = above
    · subst isAbove
      simp [isGone, lookup]
    · simp [isGone, isAbove]

theorem PathTree.nodeOf_removed {other : Pointer} :
    (tree.removed above aboveCell gnode node path).nodeOf other =
      if other = node then none else tree.nodeOf other := by
  unfold PathTree.nodeOf PathTree.removed
  by_cases isGone : other = node
  · simp [isGone]
  · simp [isGone]

theorem PathTree.Kept.pathOf_removed (kept : tree.Kept) (lookup : tree.gNodes above = some aboveCell)
    (placed : tree.nodeOf node = some gnode) {other : Pointer} :
    (tree.removed above aboveCell gnode node path).pathOf other =
      if other = gnode then none else tree.pathOf other := by
  rw [PathTree.pathOf, dataOf_removed lookup]
  split
  case isTrue => rfl
  case isFalse isThere =>
    rw [PathTree.pathOf]
    cases data : tree.dataOf other with
    | none => rfl
    | some its =>
      have different : its ≠ node := by
        rintro rfl
        rw [kept.paired, placed, Option.some.injEq] at data
        exact isThere data.symm
      rw [Option.bind_some, Option.bind_some, PathTree.nameOf, PathTree.nameOf, PathTree.removed]
      dsimp only
      rw [Function.update_of_ne different]

theorem PathTree.Kept.removed (kept : tree.Kept) (lookup : tree.gNodes above = some aboveCell)
    (there : tree.links gnode = some ⟨some above, []⟩) (placed : tree.nodeOf node = some gnode)
    (named : tree.nameOf node = some path) : (tree.removed above aboveCell gnode node path).Kept := by
  -- the cell has a parent, so it is not the root
  have below : gnode ≠ tree.root := by
    rintro rfl
    have top := (kept.linked.rooted tree.root).mpr rfl
    rw [parentLink_of there] at top
    cases top
  have own : tree.nodeHash.lookup path = some gnode := by
    rw [kept.hash, PathTree.pathOf, (kept.paired gnode node).mpr placed]
    exact ⟨below, named⟩
  constructor
  case linked =>
    rw [PathTree.links_removed]
    exact kept.linked.cut (PathTree.links_of lookup) there
  case paired =>
    intro other its
    rw [dataOf_removed lookup, nodeOf_removed]
    split
    case isTrue isGone =>
      split
      case isTrue => simp
      case isFalse isOther =>
        rw [isGone, ← kept.paired, (kept.paired gnode node).mpr placed]
        simp [Ne.symm isOther]
    case isFalse isThere =>
      split
      case isTrue isNode => simp [isNode, kept.paired, placed, Ne.symm isThere]
      case isFalse => exact kept.paired other its
  case hash =>
    intro key other
    rw [kept.pathOf_removed lookup placed]
    change (tree.nodeHash.erase path).lookup key = _ ↔ other ≠ tree.root ∧ _
    by_cases isPath : key = path
    · rw [isPath, AList.lookup_erase]
      split
      case isTrue => simp
      case isFalse isThere =>
        rw [← kept.hash, own]
        simp [Ne.symm isThere]
    · rw [AList.lookup_erase_ne isPath, kept.hash]
      split
      case isTrue isGone =>
        rw [isGone, ← kept.hash]
        have different : tree.nodeHash.lookup key ≠ some gnode := by
          intro same
          rw [kept.hash] at own same
          exact isPath (Option.some.inj (same.2.symm.trans own.2))
        simp [different]
      case isFalse => rfl
  case top =>
    change (tree.removed above aboveCell gnode node path).pathOf tree.root = _
    rw [kept.pathOf_removed lookup placed, if_neg below.symm]
    exact kept.top
  case freshNode =>
    intro other fresh
    rw [PathTree.removed]
    dsimp only
    by_cases isGone : other = node
    · rw [isGone, Function.update_self]
    · rw [Function.update_of_ne isGone]
      exact kept.freshNode other fresh
  case freshCell =>
    intro other fresh
    rw [PathTree.removed]
    dsimp only
    by_cases isGone : other = gnode
    · rw [isGone, Function.update_self]
    · rw [Function.update_of_ne isGone, Function.update_of_ne ((kept.older lookup).trans_le fresh).ne']
      exact kept.freshCell other fresh

/-- A cell below the root has a cell above it. -/
theorem PathTree.Kept.parented (kept : tree.Kept) (lookup : tree.gNodes gnode = some cell) (below : gnode ≠ tree.root) :
    ∃ above aboveCell, cell.parent = some above ∧ tree.gNodes above = some aboveCell ∧ above < gnode ∧
      gnode ∈ aboveCell.children := by
  have there := PathTree.links_of lookup
  obtain ⟨above, up⟩ := kept.linked.parented there below
  have link : parentLink tree.links gnode = some (some above) := by rw [parentLink_of there, up]
  obtain ⟨links, found, member⟩ := (kept.linked.agree above gnode).mp link
  obtain ⟨aboveCell, lookupAbove, rfl⟩ := Option.map_eq_some_iff.mp found
  exact ⟨above, aboveCell, up, lookupAbove, kept.linked.older gnode above link, member⟩

theorem PathTree.Kept.root_parent (kept : tree.Kept) (lookup : tree.gNodes tree.root = some cell) :
    cell.parent = none := by
  have top := (kept.linked.rooted tree.root).mpr rfl
  rw [parentLink_of (PathTree.links_of lookup), Option.some.injEq] at top
  exact top

/-- The root is above every other cell. -/
theorem PathTree.Kept.gNodeIsAncestor (kept : tree.Kept) {rounds : Nat} (lookup : tree.gNodes gnode = some cell)
    (enough : gnode < rounds) : tree.gNodeIsAncestor tree.root rounds gnode = some (decide (gnode ≠ tree.root)) := by
  induction rounds generalizing gnode cell with
  | zero => exact absurd enough (Nat.not_lt_zero gnode)
  | succ rounds inductionHypothesis =>
    rw [PathTree.gNodeIsAncestor, lookup, Option.bind_eq_bind, Option.bind_some]
    by_cases top : gnode = tree.root
    · subst top
      simp [kept.root_parent lookup]
    · obtain ⟨above, aboveCell, up, lookupAbove, before, _⟩ := kept.parented lookup top
      rw [up]
      dsimp only
      split
      case isTrue => simp [top]
      case isFalse further =>
        rw [inductionHypothesis lookupAbove (before.trans_le (Nat.le_of_lt_succ enough))]
        simp [top, further]

theorem PathTree.Kept.gamTreeRemove_eq (kept : tree.Kept) (there : tree.gamNodes node = some heapNode)
    (placed : heapNode.node = some gnode) (lookup : tree.gNodes gnode = some cell) (up : cell.parent = some above)
    (lookupAbove : tree.gNodes above = some aboveCell) :
    tree.gamTreeRemove node =
      if cell.children = [] ∧ heapNode.subs = [] then
        some (true, tree.removed above aboveCell gnode node heapNode.path)
      else none := by
  have below : gnode ≠ tree.root := by
    rintro rfl
    rw [kept.root_parent lookup] at up
    contradiction
  have ancestor := kept.gNodeIsAncestor lookup (Nat.lt_succ_self gnode)
  by_cases leaf : cell.children = []
  · simp [PathTree.gamTreeRemove, there, placed, ancestor, below, lookup, leaf, PathTree.gNodeUnlink, up, lookupAbove,
      PathTree.gNodeDestroy, PathTree.gamNodeFree, PathTree.removed]
    split <;> rfl
  · simp [PathTree.gamTreeRemove, there, placed, ancestor, below, lookup, leaf]

/-! ## Moves -/

/-- One thing done to the tree.  A new cell is put below one whose path goes with the path of its node. -/
inductive PathTree.Move (placing : Bytes → Bytes → Prop) (tree : PathTree) : PathTree → Prop
  | untouched {after : PathTree} (same : tree.Untouched after) : Move placing tree after
  | grafted {above child : Pointer} {aboveCell : GNode} {heapNode : HeapNode} {parentPath : Bytes}
      (lookup : tree.gNodes above = some aboveCell) (there : tree.gamNodes child = some heapNode)
      (loose : heapNode.node = none) (absent : tree.nodeHash.lookup heapNode.path = none)
      (named : tree.pathOf above = some parentPath) (placed : placing parentPath heapNode.path) :
      Move placing tree (tree.grafted above aboveCell child heapNode)
  | removed {above gnode node : Pointer} {aboveCell : GNode} {path : Bytes}
      (lookup : tree.gNodes above = some aboveCell) (there : tree.links gnode = some ⟨some above, []⟩)
      (placed : tree.nodeOf node = some gnode) (named : tree.nameOf node = some path) :
      Move placing tree (tree.removed above aboveCell gnode node path)

/-- One thing done after the other. -/
def PathTree.Moves (placing : Bytes → Bytes → Prop) : PathTree → PathTree → Prop :=
  Relation.ReflTransGen (PathTree.Move placing)

variable {placing : Bytes → Bytes → Prop}

theorem PathTree.Kept.move (kept : tree.Kept) (move : tree.Move placing after) : after.Kept := by
  cases move with
  | untouched same => exact kept.untouched same
  | grafted lookup there loose absent named placed => exact kept.grafted lookup there loose absent
  | removed lookup there placed named => exact kept.removed lookup there placed named

theorem PathTree.Kept.moves (kept : tree.Kept) (moves : tree.Moves placing after) : after.Kept := by
  induction moves with
  | refl => exact kept
  | tail _ move inductionHypothesis => exact inductionHypothesis.move move

theorem PathTree.Moves.imp {wider : Bytes → Bytes → Prop}
    (implied : ∀ parent path, placing parent path → wider parent path)
    (moves : tree.Moves placing after) : tree.Moves wider after := by
  refine Relation.ReflTransGen.mono ?_ _ _ moves
  intro before next move
  cases move with
  | untouched same => exact .untouched same
  | grafted lookup there loose absent named placed =>
    exact .grafted lookup there loose absent named (implied _ _ placed)
  | removed lookup there placed named => exact .removed lookup there placed named

/-! ## The parts of a path -/

theorem mem_pathParents {path part : Bytes} :
    part ∈ pathParents path ↔ part ≠ [] ∧ ∃ rest, path = part ++ slash :: rest := by
  simp only [pathParents, List.mem_map, List.mem_filter, List.mem_range, decide_eq_true_eq]
  constructor
  · rintro ⟨i, ⟨inside, positive, separator⟩, rfl⟩
    rw [List.getElem?_eq_getElem inside, Option.some.injEq] at separator
    refine ⟨fun empty => ?_, path.drop (i + 1), ?_⟩
    · have length := congrArg List.length empty
      rw [List.length_take, List.length_nil] at length
      omega
    · rw [← separator, ← List.drop_eq_getElem_cons inside, List.take_append_drop]
  · rintro ⟨nonempty, rest, rfl⟩
    have positive := List.length_pos_iff.mpr nonempty
    exact ⟨part.length, ⟨by simp, positive, by simp⟩, List.take_left' rfl⟩

theorem pathParents_take (path : Bytes) {length : Nat} (within : length ≤ path.length) :
    pathParents (path.take length) =
      ((List.range length).filter fun i => 1 ≤ i ∧ path[i]? = some slash).map (path.take ·) := by
  have same (i : Nat) (inside : i < length) : (path.take length)[i]? = path[i]? := List.getElem?_take_of_lt inside
  rw [pathParents, List.length_take_of_le within]
  have chosen : ((List.range length).filter fun i => 1 ≤ i ∧ (path.take length)[i]? = some slash) =
      (List.range length).filter fun i => 1 ≤ i ∧ path[i]? = some slash := by
    refine List.filter_congr fun i member => ?_
    rw [same i (List.mem_range.mp member)]
  rw [chosen]
  refine List.map_congr_left fun i member => ?_
  have inside := List.mem_range.mp (List.mem_filter.mp member).1
  rw [List.take_take, Nat.min_eq_left inside.le]

/-- The parents of a part of a path are the parts before it.  By induction on how far the path is taken apart. -/
theorem pathParents_part {path part : Bytes} {front back : List Bytes}
    (split : pathParents path ++ [path] = front ++ part :: back) : pathParents part = front := by
  have upTo (length : Nat) (within : length ≤ path.length) (back : List Bytes)
      (split : pathParents (path.take length) ++ [path.take length] = front ++ part :: back) :
      pathParents part = front := by
    induction length generalizing back with
    | zero =>
      cases front with
      | nil =>
        rw [List.take_zero] at split
        rw [← (List.cons.inj split).1]
        rfl
      | cons first front =>
        have lengths := congrArg List.length split
        simp only [List.take_zero, List.length_append, List.length_cons] at lengths
        have noParents : (pathParents []).length = 0 := rfl
        simp only [List.length_nil] at lengths
        omega
    | succ length inductionHypothesis =>
      obtain rfl | ⟨later, last, rfl⟩ := List.eq_nil_or_concat' back
      · obtain ⟨same, isLast⟩ := List.append_inj' split rfl
        rw [← List.singleton_inj.mp isLast, same]
      · rw [← List.cons_append, ← List.append_assoc] at split
        have parents := (List.append_inj' split rfl).1
        rw [pathParents_take path within, List.range_succ, List.filter_append, List.map_append,
          ← pathParents_take path (Nat.le_of_succ_le within)] at parents
        -- behind a separator comes one more parent, elsewhere the path only grows
        by_cases separator : 1 ≤ length ∧ path[length]? = some slash
        · rw [List.filter_cons_of_pos (by simpa using separator)] at parents
          exact inductionHypothesis (Nat.le_of_succ_le within) later parents
        · rw [List.filter_cons_of_neg (by simpa using separator), List.filter_nil, List.map_nil,
            List.append_nil] at parents
          refine inductionHypothesis (Nat.le_of_succ_le within) (later ++ [path.take length]) ?_
          rw [parents, List.append_assoc, List.cons_append]
  exact upTo path.length le_rfl back (by rwa [List.take_length])

/-- Below any node. -/
def Anywhere (_parentPath _path : Bytes) : Prop := True

/-- The parents of the path are the other path and its parents, or some of them. -/
def GoesBelow (parentPath path : Bytes) : Prop :=
  ∀ part ∈ pathParents path, part = parentPath ∨ part ∈ pathParents parentPath

/-- What is built from the path of a directory and a name goes below the directory. -/
theorem goesBelow_gBuildFilename (dir name : Bytes) (plain : slash ∉ name) :
    GoesBelow dir (gBuildFilename dir name) := by
  -- a separator of a path with a name at its end is one of what stands before the name
  have before {front part : Bytes} (member : part ∈ pathParents (front ++ name)) :
      part ≠ [] ∧ ∃ rest, front = part ++ slash :: rest := by
    obtain ⟨nonempty, rest, shape⟩ := mem_pathParents.mp member
    refine ⟨nonempty, ?_⟩
    obtain ⟨middle, rfl, tail⟩ | ⟨middle, same, tail⟩ := List.append_eq_append_iff.mp shape
    · exact absurd (tail ▸ List.mem_append_right middle List.mem_cons_self) plain
    · cases middle with
      | nil =>
        rw [List.nil_append] at tail
        exact absurd (tail ▸ List.mem_cons_self) plain
      | cons first middle => exact ⟨middle, by rw [same, ← (List.cons.inj tail).1]⟩
  intro part member
  unfold gBuildFilename at member
  split at member
  case isTrue => exact .inr member
  case isFalse =>
    dsimp only at member
    split at member
    case isTrue => exact .inr (mem_pathParents.mpr (before member))
    case isFalse =>
      rw [← List.singleton_append, ← List.append_assoc] at member
      obtain ⟨nonempty, rest, shape⟩ := before member
      have whole := List.rdropWhile_append_rtakeWhile (p := fun byte => decide (byte = slash)) (l := dir)
      generalize dir.rdropWhile (fun byte => decide (byte = slash)) = core at whole shape
      obtain rfl | ⟨between, last, rfl⟩ := List.eq_nil_or_concat' rest
      · obtain rfl := (List.append_inj' shape rfl).1
        cases tail : dir.rtakeWhile fun byte => decide (byte = slash) with
        | nil =>
          rw [tail, List.append_nil] at whole
          exact .inl whole
        | cons first more =>
          have isSlash : first = slash := by
            have all := List.mem_rtakeWhile_imp
              (tail ▸ List.mem_cons_self : first ∈ dir.rtakeWhile fun byte => decide (byte = slash))
            exact of_decide_eq_true all
          exact .inr (mem_pathParents.mpr ⟨nonempty, more, by rw [← whole, tail, isSlash]⟩)
      · rw [← List.cons_append, ← List.append_assoc] at shape
        obtain rfl := (List.append_inj' shape rfl).1
        refine .inr (mem_pathParents.mpr ⟨nonempty, between ++ dir.rtakeWhile fun byte => decide (byte = slash), ?_⟩)
        rw [← List.cons_append, ← List.append_assoc, whole]

/-- Every cell is below one whose path its own goes below. -/
def PathTree.Settled (tree : PathTree) : Prop :=
  ∀ gnode parent path parentPath, parentLink tree.links gnode = some (some parent) → tree.pathOf gnode = some path →
    tree.pathOf parent = some parentPath → GoesBelow parentPath path

theorem PathTree.Settled.move (settled : tree.Settled) (kept : tree.Kept) (move : tree.Move GoesBelow after) :
    after.Settled := by
  intro gnode parent path parentPath link here there
  -- a new cell is where it was placed, and the others keep their names and parents
  cases move with
  | untouched same =>
    rw [parentLink, PathTree.links, same.cells] at link
    rw [same.paths] at here there
    exact settled gnode parent path parentPath link here there
  | grafted lookup thereChild loose absent named placed =>
    rw [PathTree.links_grafted lookup, parentLink_graft (PathTree.links_of lookup)] at link
    rw [PathTree.pathOf_grafted lookup thereChild] at here there
    split at link
    case isTrue isNew =>
      rw [Option.some.injEq, Option.some.injEq] at link
      rw [if_pos isNew, Option.some.injEq] at here
      rw [← link, if_neg (kept.older lookup).ne, named, Option.some.injEq] at there
      rw [← here, ← there]
      exact placed
    case isFalse isOld =>
      obtain ⟨links, found, _⟩ := (kept.linked.agree parent gnode).mp link
      obtain ⟨cell, parentLookup, _⟩ := Option.map_eq_some_iff.mp found
      rw [if_neg isOld] at here
      rw [if_neg (kept.older parentLookup).ne] at there
      exact settled gnode parent path parentPath link here there
  | removed lookup thereLinks placed named =>
    rw [PathTree.links_removed, parentLink_cut (PathTree.links_of lookup)] at link
    rw [kept.pathOf_removed lookup placed] at here there
    split at link
    case isTrue => contradiction
    case isFalse isThere =>
      rw [if_neg isThere] at here
      split at there
      case isTrue => contradiction
      case isFalse => exact settled gnode parent path parentPath link here there

/-! ## Looking up -/

theorem PathTree.gamTreeGetAtPath_eq_some :
    tree.gamTreeGetAtPath path = some (some node) ↔
      ∃ gnode, tree.nodeHash.lookup path = some gnode ∧ tree.dataOf gnode = some node := by
  unfold PathTree.gamTreeGetAtPath PathTree.dataOf
  cases tree.nodeHash.lookup path with
  | none => simp
  | some gnode => simp [Option.map_eq_some_iff]

theorem PathTree.gamTreeGetAtPath_eq_none :
    tree.gamTreeGetAtPath path = some none ↔ tree.nodeHash.lookup path = none := by
  unfold PathTree.gamTreeGetAtPath
  cases tree.nodeHash.lookup path with
  | none => simp
  | some gnode => simp

theorem PathTree.Kept.gamTreeGetAtPath (kept : tree.Kept) (path : Bytes) :
    tree.gamTreeGetAtPath path = some none ∨ ∃ node, tree.gamTreeGetAtPath path = some (some node) := by
  cases lookup : tree.nodeHash.lookup path with
  | none => exact .inl (gamTreeGetAtPath_eq_none.mpr lookup)
  | some gnode =>
    obtain ⟨node, data, _⟩ := Option.bind_eq_some_iff.mp ((kept.hash path gnode).mp lookup).2
    exact .inr ⟨node, gamTreeGetAtPath_eq_some.mpr ⟨gnode, lookup, data⟩⟩

/-- The node that is found has a cell, and the path. -/
theorem PathTree.Kept.found (kept : tree.Kept) (found : tree.gamTreeGetAtPath path = some (some node)) :
    ∃ gnode, tree.nodeOf node = some gnode ∧ tree.pathOf gnode = some path := by
  obtain ⟨gnode, lookup, data⟩ := gamTreeGetAtPath_eq_some.mp found
  exact ⟨gnode, (kept.paired gnode node).mp data, ((kept.hash path gnode).mp lookup).2⟩

/-- The tree has grown by nodes with these paths, unless they were there, and with no others. -/
structure PathTree.Grows (placing : Bytes → Bytes → Prop) (tree after : PathTree) (paths : List Bytes) : Prop where
  moves : tree.Moves placing after
  stay : ∀ path node, tree.gamTreeGetAtPath path = some (some node) → after.gamTreeGetAtPath path = some (some node)
  come : ∀ path ∈ paths, ∃ node, after.gamTreeGetAtPath path = some (some node)
  only : ∀ path ∉ paths, tree.nodeHash.lookup path = none → after.nodeHash.lookup path = none

theorem PathTree.Grows.refl (tree : PathTree) : Grows placing tree tree [] :=
  ⟨.refl, fun _ _ => id, nofun, fun _ _ => id⟩

theorem PathTree.Grows.trans {last : PathTree} {front back : List Bytes} (first : Grows placing tree after front)
    (second : Grows placing after last back) : Grows placing tree last (front ++ back) where
  moves := first.moves.trans second.moves
  stay := fun path node found => second.stay path node (first.stay path node found)
  come := by
    intro path member
    obtain inFront | inBack := List.mem_append.mp member
    · obtain ⟨node, found⟩ := first.come path inFront
      exact ⟨node, second.stay path node found⟩
    · exact second.come path inBack
  only := by
    intro path outside absent
    rw [List.mem_append, not_or] at outside
    exact second.only path outside.2 (first.only path outside.1 absent)

theorem PathTree.Untouched.grows (same : tree.Untouched after) : Grows placing tree after [] where
  moves := .single (.untouched same)
  stay := by
    intro path node found
    rw [gamTreeGetAtPath_eq_some] at found ⊢
    rwa [same.hash, show after.dataOf = tree.dataOf from funext fun gnode => by
      rw [PathTree.dataOf, PathTree.dataOf, same.cells]]
  come := nofun
  only := fun path _ absent => by rwa [same.hash]

/-! ## Adding -/

/-- A node that is not in the tree, added to a node that is. -/
theorem PathTree.Kept.gamTreeAdd (kept : tree.Kept) {parentPath : Bytes} (placed : tree.nodeOf parent = some above)
    (named : tree.pathOf above = some parentPath) (there : tree.gamNodes child = some heapNode)
    (loose : heapNode.node = none) (absent : tree.nodeHash.lookup heapNode.path = none)
    (goes : placing parentPath heapNode.path) :
    ∃ after, tree.gamTreeAdd parent child = some (true, after) ∧ Grows placing tree after [heapNode.path] ∧
      after.gamTreeGetAtPath heapNode.path = some (some child) := by
  obtain ⟨aboveCell, lookup, _⟩ := Option.map_eq_some_iff.mp ((kept.paired above parent).mpr placed)
  have found : (tree.grafted above aboveCell child heapNode).gamTreeGetAtPath heapNode.path = some (some child) := by
    refine gamTreeGetAtPath_eq_some.mpr ⟨tree.next, AList.lookup_insert _, ?_⟩
    rw [dataOf_grafted lookup, if_pos rfl]
  refine ⟨_, kept.gamTreeAdd_eq placed lookup there loose absent,
    ⟨.single (.grafted lookup there loose absent named goes), ?_, ?_, ?_⟩, found⟩
  · intro path node before
    obtain ⟨gnode, here, data⟩ := gamTreeGetAtPath_eq_some.mp before
    have other : path ≠ heapNode.path := by
      rintro rfl
      rw [absent] at here
      contradiction
    have old : gnode ≠ tree.next := by
      rintro rfl
      rw [kept.unusedCell le_rfl] at data
      contradiction
    refine gamTreeGetAtPath_eq_some.mpr ⟨gnode, (AList.lookup_insert_ne other).trans here, ?_⟩
    rw [dataOf_grafted lookup, if_neg old, data]
  · rintro path (_ | ⟨_, ⟨⟩⟩)
    exact ⟨child, found⟩
  · intro path outside before
    exact (AList.lookup_insert_ne (List.ne_of_not_mem_cons outside)).trans before

/-- A new node added to a node of the tree. -/
theorem PathTree.Kept.addNew (kept : tree.Kept) {parentPath : Bytes} (placed : tree.nodeOf parent = some above)
    (named : tree.pathOf above = some parentPath) (absent : tree.nodeHash.lookup path = none)
    (goes : placing parentPath path) (isDir : Bool) :
    ∃ after, (tree.gamNodeNew path isDir).2.gamTreeAdd parent tree.next = some (true, after) ∧
      Grows placing tree after [path] ∧ after.gamTreeGetAtPath path = some (some tree.next) := by
  have same := kept.gamNodeNew path isDir
  have placedStill : (tree.gamNodeNew path isDir).2.nodeOf parent = some above := by rw [same.places, placed]
  have namedStill : (tree.gamNodeNew path isDir).2.pathOf above = some parentPath := by rw [same.paths, named]
  have there : (tree.gamNodeNew path isDir).2.gamNodes tree.next = some (tree.newHeapNode path isDir) :=
    Function.update_self _ _ _
  have addition : ∃ after, (tree.gamNodeNew path isDir).2.gamTreeAdd parent tree.next = some (true, after) ∧
      Grows placing (tree.gamNodeNew path isDir).2 after [path] ∧
      after.gamTreeGetAtPath path = some (some tree.next) :=
    (kept.untouched same).gamTreeAdd placedStill namedStill there rfl absent goes
  obtain ⟨after, added, grows, found⟩ := addition
  exact ⟨after, added, same.grows.trans grows, found⟩

/-- The parents of a part of a path are the part before it and the parents of that. -/
theorem goesBelow_part {path part parentPath : Bytes} {front back : List Bytes}
    (split : pathParents path ++ [path] = front ++ part :: back)
    (last : ∀ before, front.getLast? = some before → before = parentPath) : GoesBelow parentPath part := by
  intro upper member
  rw [pathParents_part split] at member
  obtain rfl | ⟨init, before, rfl⟩ := List.eq_nil_or_concat' front
  · contradiction
  · obtain rfl := last before List.getLast?_concat
    obtain inFront | isLast := List.mem_append.mp member
    · rw [List.append_assoc, List.singleton_append] at split
      exact .inr (pathParents_part split ▸ inFront)
    · exact .inl (List.mem_singleton.mp isLast)

/-- The loop of `gam_tree_add_at_path`, some of the parents of the path done. -/
theorem PathTree.Kept.addParents (kept : tree.Kept) {front paths : List Bytes} {parentPath : Bytes}
    (placed : tree.nodeOf parent = some above) (named : tree.pathOf above = some parentPath)
    (split : pathParents path = front ++ paths)
    (last : ∀ before, front.getLast? = some before → before = parentPath) :
    ∃ node gnode lastPath after, tree.addParents parent paths = some (node, after) ∧
      Grows GoesBelow tree after paths ∧ after.nodeOf node = some gnode ∧ after.pathOf gnode = some lastPath ∧
      ∀ before, (pathParents path).getLast? = some before → before = lastPath := by
  induction paths generalizing tree front parent above parentPath with
  | nil =>
    rw [List.append_nil] at split
    exact ⟨parent, above, parentPath, tree, rfl, .refl tree, placed, named, split ▸ last⟩
  | cons part paths inductionHypothesis =>
    -- the next part of the path goes below the last one that was found or made
    have goes : GoesBelow parentPath part :=
      goesBelow_part (by rw [split, List.append_assoc, List.cons_append]) last
    have next : pathParents path = front ++ [part] ++ paths := by rw [split, List.append_assoc, List.singleton_append]
    have lastNext : ∀ before, (front ++ [part]).getLast? = some before → before = part := by
      intro before isLast
      rw [List.getLast?_concat] at isLast
      exact (Option.some.inj isLast).symm
    obtain absent | ⟨there, found⟩ := kept.gamTreeGetAtPath part
    · obtain ⟨added, addition, grown, foundNew⟩ :=
        kept.addNew placed named (gamTreeGetAtPath_eq_none.mp absent) goes true
      have keptAdded := kept.moves grown.moves
      obtain ⟨gnode, placedNew, namedNew⟩ := keptAdded.found foundNew
      obtain ⟨node, cell, lastPath, after, rest, grows, ends⟩ :=
        inductionHypothesis keptAdded placedNew namedNew next lastNext
      refine ⟨node, cell, lastPath, after, ?_, grown.trans grows, ends⟩
      rw [PathTree.addParents, absent]
      change ((tree.gamNodeNew part true).2.gamTreeAdd parent tree.next).bind _ = _
      rw [addition, Option.bind_some]
      exact rest
    · obtain ⟨gnode, placedNew, namedNew⟩ := kept.found found
      obtain ⟨node, cell, lastPath, after, rest, grows, ends⟩ :=
        inductionHypothesis kept placedNew namedNew next lastNext
      refine ⟨node, cell, lastPath, after, ?_, ⟨grows.moves, grows.stay, ?_, ?_⟩, ends⟩
      · rw [PathTree.addParents, found]
        exact rest
      · rintro other (_ | ⟨_, later⟩)
        · exact ⟨there, grows.stay _ _ found⟩
        · exact grows.come other later
      · exact fun other outside => grows.only other (List.not_mem_of_not_mem_cons outside)

theorem PathTree.Untouched.called (tree : PathTree) : tree.Untouched tree.called :=
  .of_identity rfl rfl rfl rfl fun _ => rfl

/-- `gam_tree_add_at_path` comes back with a node that is then found, and a new one comes with its parents. -/
theorem PathTree.Kept.gamTreeAddAtPath (kept : tree.Kept) (nonempty : path ≠ []) (isDir : Bool) :
    ∃ node after, tree.gamTreeAddAtPath path isDir = some (some node, after) ∧ tree.Moves GoesBelow after ∧
      after.gamTreeGetAtPath path = some (some node) ∧
      (tree.gamTreeGetAtPath path = some none →
        ∀ part ∈ pathParents path, ∃ node, after.gamTreeGetAtPath part = some (some node)) := by
  rw [PathTree.gamTreeAddAtPath, if_neg nonempty]
  obtain absent | ⟨node, found⟩ := kept.gamTreeGetAtPath path
  · rw [absent]
    dsimp only [Option.bind_eq_bind, Option.bind_some]
    generalize asked : (if (tree.view.stat path).exists then tree.called.called else tree.called) = looked
    generalize (if (tree.view.stat path).exists then (tree.called.view.stat path).isDir else isDir) = isDir
    have same : Grows GoesBelow tree looked [] := by
      rw [← asked]
      split
      · exact (Untouched.called tree).grows.trans (Untouched.called tree.called).grows
      · exact (Untouched.called tree).grows
    have keptLooked := kept.moves same.moves
    obtain ⟨root, data, named⟩ := Option.bind_eq_some_iff.mp keptLooked.top
    obtain ⟨cell, lookup, rfl⟩ := Option.map_eq_some_iff.mp data
    obtain ⟨parent, above, parentPath, climbed, climb, parents, placed, parentNamed, last⟩ :=
      keptLooked.addParents ((keptLooked.paired _ _).mp data) keptLooked.top
        (show pathParents path = [] ++ pathParents path from rfl) nofun
    have before := same.trans parents
    have stillAbsent := before.only path (not_mem_pathParents path) (gamTreeGetAtPath_eq_none.mp absent)
    obtain ⟨after, addition, grown, found⟩ :=
      (kept.moves before.moves).addNew placed parentNamed stillAbsent (goesBelow_part rfl last) isDir
    refine ⟨climbed.next, after, ?_, (before.trans grown).moves, found, fun _ part member => ?_⟩
    · rw [lookup, Option.bind_some, climb, Option.bind_some]
      change ((climbed.gamNodeNew path isDir).2.gamTreeAdd parent climbed.next).bind _ = _
      rw [addition, Option.bind_some]
      rfl
    · exact (before.trans grown).come part (List.mem_append_left _ member)
  · rw [found]
    exact ⟨node, tree, rfl, .refl, found, fun absent => by simp at absent⟩

/-! ## Removing -/

/-- A node that has no cell is not removed, the root is not, and one that has is if nothing holds it. -/
theorem PathTree.Kept.gamTreeRemove_cases (kept : tree.Kept) (there : tree.gamNodes node = some heapNode) :
    tree.gamTreeRemove node = some (false, tree) ∧ (∀ gnode, heapNode.node = some gnode → gnode = tree.root) ∨
      ∃ gnode cell above aboveCell, heapNode.node = some gnode ∧ tree.gNodes gnode = some cell ∧
        cell.parent = some above ∧ tree.gNodes above = some aboveCell ∧ above < gnode ∧
        tree.gamTreeRemove node =
          if cell.children = [] ∧ heapNode.subs = [] then
            some (true, tree.removed above aboveCell gnode node heapNode.path)
          else none := by
  cases placed : heapNode.node with
  | none => exact .inl ⟨by simp [PathTree.gamTreeRemove, there, placed], nofun⟩
  | some gnode =>
    have data := (kept.paired gnode node).mpr ((nodeOf_of there).trans placed)
    obtain ⟨cell, lookup, _⟩ := Option.map_eq_some_iff.mp data
    by_cases top : gnode = tree.root
    · subst top
      have ancestor := kept.gNodeIsAncestor lookup (Nat.lt_succ_self tree.root)
      left
      refine ⟨by simp [PathTree.gamTreeRemove, there, placed, ancestor], ?_⟩
      rintro _ ⟨⟩
      rfl
    · obtain ⟨above, aboveCell, up, lookupAbove, before, _⟩ := kept.parented lookup top
      exact .inr ⟨gnode, cell, above, aboveCell, rfl, lookup, up, lookupAbove, before,
        kept.gamTreeRemove_eq there placed lookup up lookupAbove⟩

theorem PathTree.Kept.gamTreeRemove (kept : tree.Kept) {gone : Bool}
    (removed : tree.gamTreeRemove node = some (gone, after)) : tree.Moves placing after := by
  cases there : tree.gamNodes node with
  | none => simp [PathTree.gamTreeRemove, there] at removed
  | some heapNode =>
    obtain ⟨unchanged, _⟩ | ⟨gnode, cell, above, aboveCell, placed, lookup, up, lookupAbove, _, outcome⟩ :=
      kept.gamTreeRemove_cases there
    · rw [unchanged] at removed
      cases removed
      exact .refl
    · rw [outcome] at removed
      split at removed
      case isTrue loose =>
        cases removed
        have links := PathTree.links_of lookup
        rw [show cell.toLinks = ⟨some above, []⟩ by rw [← up, ← loose.1]] at links
        exact .single (.removed lookupAbove links ((nodeOf_of there).trans placed) (nameOf_of there))
      case isFalse => contradiction

/-- What has a cell and nothing holds is removed. -/
theorem PathTree.Kept.gamTreeRemove_leaf (kept : tree.Kept) (there : tree.gamNodes node = some heapNode)
    (placed : heapNode.node = some gnode) (lookup : tree.gNodes gnode = some cell) (below : gnode ≠ tree.root)
    (leaf : cell.children = []) (unwatched : heapNode.subs = []) :
    ∃ above aboveCell, cell.parent = some above ∧ tree.gNodes above = some aboveCell ∧ above < gnode ∧
      tree.gamTreeRemove node = some (true, tree.removed above aboveCell gnode node heapNode.path) := by
  obtain ⟨above, aboveCell, up, lookupAbove, before, _⟩ := kept.parented lookup below
  refine ⟨above, aboveCell, up, lookupAbove, before, ?_⟩
  rw [kept.gamTreeRemove_eq there placed lookup up lookupAbove, if_pos ⟨leaf, unwatched⟩]

/-! ## Pruning -/

theorem PathTree.Untouched.unregister (tree : PathTree) (node : Pointer) :
    tree.Untouched (tree.gamPollGenericUnregisterNode node) :=
  .of_identity rfl rfl rfl rfl fun _ => rfl

theorem PathTree.Kept.gamPollGenericPruneTree (kept : tree.Kept) {rounds : Nat}
    (pruned : tree.gamPollGenericPruneTree rounds node = some after) : tree.Moves placing after := by
  induction rounds generalizing tree node with
  | zero => contradiction
  | succ rounds inductionHypothesis =>
    rw [PathTree.gamPollGenericPruneTree] at pruned
    obtain ⟨up, _, pruned⟩ := Option.bind_eq_some_iff.mp pruned
    cases up with
    | none =>
      cases pruned
      exact .refl
    | some parent =>
      obtain ⟨children, _, pruned⟩ := Option.bind_eq_some_iff.mp pruned
      obtain ⟨heapNode, _, pruned⟩ := Option.bind_eq_some_iff.mp pruned
      split at pruned
      case isTrue =>
        obtain ⟨⟨gone, less⟩, removed, pruned⟩ := Option.bind_eq_some_iff.mp pruned
        have same := Untouched.unregister tree node
        have moves : tree.Moves placing less := .head (.untouched same) ((kept.untouched same).gamTreeRemove removed)
        exact moves.trans (inductionHypothesis (kept.moves moves) pruned)
      case isFalse =>
        cases pruned
        exact .refl

theorem PathTree.Kept.gamNodeParent_root (kept : tree.Kept) (there : tree.gamNodes node = some heapNode)
    (top : heapNode.node = some tree.root) : tree.gamNodeParent node = some none := by
  obtain ⟨cell, lookup, _⟩ := Option.map_eq_some_iff.mp ((kept.paired _ _).mpr ((nodeOf_of there).trans top))
  simp [PathTree.gamNodeParent, there, top, lookup, kept.root_parent lookup]

/-- Pruning ends at the root, if not before. -/
theorem PathTree.Kept.prune_returns (kept : tree.Kept) {rounds : Nat} (placed : tree.nodeOf node = some gnode)
    (enough : gnode < rounds) : ∃ after, tree.gamPollGenericPruneTree rounds node = some after := by
  induction rounds generalizing tree node gnode with
  | zero => exact absurd enough (Nat.not_lt_zero gnode)
  | succ rounds inductionHypothesis =>
    obtain ⟨heapNode, there, own⟩ := Option.bind_eq_some_iff.mp placed
    obtain ⟨cell, lookup, _⟩ := Option.map_eq_some_iff.mp ((kept.paired gnode node).mpr placed)
    rw [PathTree.gamPollGenericPruneTree]
    by_cases top : gnode = tree.root
    · exact ⟨tree, by rw [kept.gamNodeParent_root there (own.trans (congrArg some top))]; rfl⟩
    · obtain ⟨above, aboveCell, up, lookupAbove, before, _⟩ := kept.parented lookup top
      have parent : tree.gamNodeParent node = some (some aboveCell.data) := by
        simp [PathTree.gamNodeParent, there, own, lookup, up, lookupAbove]
      have children : tree.gamTreeHasChildren node = some (decide (cell.children ≠ [])) := by
        simp [PathTree.gamTreeHasChildren, there, own, lookup]
      simp only [parent, children, there, Option.bind_eq_bind, Option.bind_some]
      split
      case isTrue loose =>
        have keptNext := kept.untouched (.unregister tree node)
        obtain ⟨above', aboveCell', upAgain, lookupAgain, _, removed⟩ :=
          keptNext.gamTreeRemove_leaf there own lookup top (by simpa using loose.1) loose.2
        obtain rfl := Option.some.inj (up.symm.trans upAgain)
        obtain rfl := Option.some.inj (lookupAbove.symm.trans lookupAgain)
        have placedAbove := (kept.paired above aboveCell.data).mp (dataOf_of lookupAbove)
        have other : aboveCell.data ≠ node := by
          intro same
          rw [same, placed] at placedAbove
          exact before.ne' (Option.some.inj placedAbove)
        have moves : (tree.gamPollGenericUnregisterNode node).Moves GoesBelow _ := keptNext.gamTreeRemove removed
        rw [removed, Option.bind_some]
        exact inductionHypothesis (keptNext.moves moves) (nodeOf_removed.trans ((if_neg other).trans placedAbove))
          (before.trans_le (Nat.le_of_lt_succ enough))
      case isFalse => exact ⟨tree, rfl⟩

end

end Gamin.Polling
