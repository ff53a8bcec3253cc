import Gamin.Polling.Cancelling
import Mathlib.Logic.Relation

/-! # Entries that should have been kept

A directory that somebody has subscribed to has a node for each of its entries, which is how a scan
tells the new ones.  `gam_poll_basic_remove_subscription` looks at the parent before it takes out the
node of the subscription.  `gam_poll_generic_prune_tree` takes out the nodes above and does not look.
-/

namespace Gamin.Polling

open Gamin Gamin.Server Gamin.Inotify Gamin.Library Relation

/-! ## What should hold, and when -/

/-- No node is gone whose path exists and whose parent still has a directory subscription. -/
def KeepsEntries (view : FsView) (poll after : Poll) : Prop :=
  ∀ node ∈ poll.nodes, parentHasDirSubscriptions after node.parent = true →
    (view.stat node.path).exists = true → node.path ∈ after.paths

instance (view : FsView) (poll after : Poll) : Decidable (KeepsEntries view poll after) :=
  inferInstanceAs (Decidable (∀ node ∈ poll.nodes, _ → _ → _))

/-- The node leaves the tree with the subscription: nobody else has subscribed to it, its parent is no
directory that somebody has subscribed to, and no child must stay. -/
structure Goes (poll : Poll) (sub : GamSubscription) (node : GamNode) : Prop where
  last : ∀ other ∈ node.subs, other = sub
  free : parentHasDirSubscriptions poll node.parent = false
  children : ∀ child ∈ gamTreeGetChildren poll node.path, ¬ Stays poll child

/-- A node without subscriptions that has only the one child. -/
structure OnlyAbove (poll : Poll) (below above : Bytes) : Prop where
  parent : ∃ node ∈ poll.nodes, node.path = below ∧ node.parent = some above
  bare : subsAt poll above = []
  only : ∀ other ∈ poll.nodes, other.parent = some above → other.path = below

/-- The condition on the state before: when the node goes, no node on the way up from it that has
neither subscriptions nor other children exists as an entry of a directory that somebody has
subscribed to. -/
def PruneGuard (view : FsView) (poll : Poll) (sub : GamSubscription) : Prop :=
  ∀ node, gamTreeGetAtPath poll sub.path = some node → Goes poll sub node →
    ∀ top ∈ poll.nodes, TransGen (OnlyAbove poll) node.path top.path →
      parentHasDirSubscriptions poll top.parent = true → (view.stat top.path).exists = false

/-! ## What pruning takes out -/

/-- Nodes are further from the root than their parents. -/
def Ranked (rank : Bytes → Nat) (poll : Poll) : Prop :=
  ∀ node ∈ poll.nodes, ∀ parent, node.parent = some parent → rank parent < rank node.path

/-- The tree without the nodes that are gone, which are the last one and nodes below it. -/
structure Uprooted (base : Poll) (gone : List Bytes) (last : GamNode) (poll : Poll) : Prop where
  nodes : poll.nodes = base.nodes.filter (·.path ∉ gone)
  known : last ∈ base.nodes
  isGone : last.path ∈ gone
  closed : ∀ node ∈ base.nodes, node.path ∈ gone → node = last ∨ ∃ parent ∈ gone, node.parent = some parent
  topmost : ∃ rank, Ranked rank base ∧ ∀ path ∈ gone, rank last.path ≤ rank path

section

variable {base poll : Poll} {gone : List Bytes} {last : GamNode}

theorem Uprooted.mem (uprooted : Uprooted base gone last poll) {node : GamNode} :
    node ∈ poll.nodes ↔ node ∈ base.nodes ∧ node.path ∉ gone := by
  rw [uprooted.nodes, List.mem_filter, decide_eq_true_eq]

/-- The parent of the last node that went is next if it had no subscriptions and no other child. -/
theorem Uprooted.next (rooted : Rooted base) (uprooted : Uprooted base gone last poll) {node : GamNode}
    (found : gamTreeGetAtPath poll node.path = some node) (isParent : last.parent = some node.path) :
    (¬ gamTreeHasChildren poll node.path = true ∧ node.subs = []) ↔ OnlyAbove base last.path node.path := by
  obtain ⟨member, present⟩ := uprooted.mem.mp (gamTreeGetAtPath_mem found)
  have subs : subsAt base node.path = node.subs := by
    rw [subsAt, gamTreeGetAtPath_of_mem rooted.distinct member]
    rfl
  rw [Bool.not_eq_true, hasChildren_false]
  constructor
  · rintro ⟨childless, bare⟩
    refine ⟨⟨last, uprooted.known, rfl, isParent⟩, subs.trans bare, fun other memberOther isChild => ?_⟩
    by_cases gone : other.path ∈ gone
    · rcases uprooted.closed other memberOther gone with rfl | ⟨parent, parentGone, otherParent⟩
      · rfl
      · -- then the parent itself would be gone
        rw [isChild, Option.some.injEq] at otherParent
        exact absurd (otherParent ▸ parentGone) present
    · exact absurd isChild (childless other (uprooted.mem.mpr ⟨memberOther, gone⟩))
  · intro onlyAbove
    refine ⟨fun child memberChild isChild => ?_, subs.symm.trans onlyAbove.bare⟩
    obtain ⟨memberBase, notGone⟩ := uprooted.mem.mp memberChild
    rw [onlyAbove.only child memberBase isChild] at notGone
    exact notGone uprooted.isGone

/-- Pruning takes one more node out. -/
theorem Uprooted.prune (rooted : Rooted base) (uprooted : Uprooted base gone last poll) {node : GamNode}
    (found : gamTreeGetAtPath poll node.path = some node) (isParent : last.parent = some node.path) :
    Uprooted base (node.path :: gone) node
      (gamTreeRemove (gamPollGenericUnregisterNode poll node.path) node.path) := by
  have member := (uprooted.mem.mp (gamTreeGetAtPath_mem found)).1
  obtain ⟨rank, ranked, topmost⟩ := uprooted.topmost
  have up := ranked last uprooted.known node.path isParent
  refine ⟨?_, member, List.mem_cons_self, fun other memberOther gone => ?_, rank, ranked,
    List.forall_mem_cons.mpr ⟨le_rfl, fun path gone => up.le.trans (topmost path gone)⟩⟩
  · rw [gamTreeRemove]
    dsimp only [gamPollGenericUnregisterNode, gamPollGenericRemoveBusy, gamPollGenericRemoveMissing]
    rw [uprooted.nodes, List.filter_filter]
    refine List.filter_congr fun other _ => ?_
    simp only [List.mem_cons, not_or, Bool.decide_and]
  · by_cases same : other.path = node.path
    · exact .inl (List.inj_on_of_nodup_map rooted.distinct memberOther member same)
    · right
      rcases uprooted.closed other memberOther (List.mem_of_ne_of_mem same gone) with rfl | ⟨parent, parentGone, above⟩
      · exact ⟨node.path, List.mem_cons_self, isParent⟩
      · exact ⟨parent, List.mem_cons_of_mem _ parentGone, above⟩

/-- The way up from a node is the only one. -/
theorem OnlyAbove.unique (rooted : Rooted base) {node : GamNode} (member : node ∈ base.nodes) {above : Bytes}
    (onlyAbove : OnlyAbove base node.path above) : node.parent = some above := by
  obtain ⟨same, memberSame, path, isParent⟩ := onlyAbove.parent
  rwa [List.inj_on_of_nodup_map rooted.distinct memberSame member path] at isParent

/-- `gam_poll_generic_prune_tree` goes up as long as it comes to nodes without subscriptions and without
other children, and takes them all out. -/
theorem Uprooted.pruneTree (rooted : Rooted base) (uprooted : Uprooted base gone last poll) {node : GamNode} :
    node ∈ (gamPollGenericPruneTree poll last.parent).nodes ↔
      node ∈ base.nodes ∧ node.path ∉ gone ∧ ¬ TransGen (OnlyAbove base) last.path node.path := by
  -- when there is no next node, nothing more is taken out
  have stopped {last : GamNode} {gone : List Bytes} {poll : Poll} (uprooted : Uprooted base gone last poll)
      (none : ∀ above, last.parent = some above → ¬ OnlyAbove base last.path above) :
      node ∈ poll.nodes ↔
        node ∈ base.nodes ∧ node.path ∉ gone ∧ ¬ TransGen (OnlyAbove base) last.path node.path := by
    have noWay : ¬ TransGen (OnlyAbove base) last.path node.path := by
      rw [TransGen.head'_iff]
      rintro ⟨above, onlyAbove, -⟩
      exact none above (onlyAbove.unique rooted uprooted.known) onlyAbove
    rw [uprooted.mem]
    simp only [noWay, not_false_eq_true, and_true]
  generalize isParent : last.parent = start
  fun_induction gamPollGenericPruneTree poll start generalizing gone last with
  | case1 poll =>
    apply stopped uprooted
    rintro above isAbove
    rw [isParent] at isAbove
    contradiction
  | case2 poll path absent =>
    -- the parent was there, and is above all that is gone
    obtain ⟨rank, ranked, topmost⟩ := uprooted.topmost
    obtain ⟨parent, member, rfl⟩ := List.mem_map.mp (rooted.parents last uprooted.known path isParent)
    have up := ranked last uprooted.known _ isParent
    have kept : parent ∈ poll.nodes := uprooted.mem.mpr ⟨member, fun gone => Nat.not_le.mpr up (topmost _ gone)⟩
    exact absurd absent (Option.isSome_iff_ne_none.mp (gamTreeGetAtPath_isSome.mpr (List.mem_map_of_mem kept)))
  | case3 poll path above found prunable inductionHypothesis =>
    have here := gamTreeGetAtPath_path found
    subst here
    have onlyAbove := (uprooted.next rooted found isParent).mp prunable
    have way : TransGen (OnlyAbove base) last.path node.path ↔
        node.path = above.path ∨ TransGen (OnlyAbove base) above.path node.path := by
      rw [TransGen.head'_iff]
      constructor
      · rintro ⟨next, onlyNext, rest⟩
        have isNext := onlyNext.unique rooted uprooted.known
        rw [isParent, Option.some.injEq] at isNext
        subst isNext
        exact reflTransGen_iff_eq_or_transGen.mp rest
      · exact fun rest => ⟨above.path, onlyAbove, reflTransGen_iff_eq_or_transGen.mpr rest⟩
    refine (inductionHypothesis (uprooted.prune rooted found isParent) rfl).trans ?_
    simp only [way, List.mem_cons, not_or, and_assoc, and_left_comm]
  | case4 poll path above found other =>
    have here := gamTreeGetAtPath_path found
    subst here
    apply stopped uprooted
    intro next isNext onlyAbove
    rw [isParent, Option.some.injEq] at isNext
    subst isNext
    exact other ((uprooted.next rooted found isParent).mpr onlyAbove)

end

/-! ## The outcomes -/

section

variable {poll : Poll}

theorem parentHasDirSubscriptions_iff {parent : Option Bytes} : parentHasDirSubscriptions poll parent = true ↔
    ∃ path node, parent = some path ∧ gamTreeGetAtPath poll path = some node ∧
      gamNodeHasDirSubscriptions node = true := by
  cases parent with
  | none => simp [parentHasDirSubscriptions]
  | some path => cases found : gamTreeGetAtPath poll path <;> simp [parentHasDirSubscriptions, found]

theorem parentHasDirSubscriptions_of_fewer (rooted : Rooted poll) {after : Poll}
    (fewer : ∀ node ∈ after.nodes, node ∈ poll.nodes) {parent : Option Bytes}
    (has : parentHasDirSubscriptions after parent = true) : parentHasDirSubscriptions poll parent = true := by
  obtain ⟨path, node, rfl, found, subscribed⟩ := parentHasDirSubscriptions_iff.mp has
  refine parentHasDirSubscriptions_iff.mpr ⟨path, node, rfl, ?_, subscribed⟩
  rw [← gamTreeGetAtPath_path found]
  exact gamTreeGetAtPath_of_mem rooted.distinct (fewer node (gamTreeGetAtPath_mem found))

theorem parentHasDirSubscriptions_congr {after : Poll} {parent : Option Bytes}
    (same : ∀ path, parent = some path → gamTreeGetAtPath after path = gamTreeGetAtPath poll path) :
    parentHasDirSubscriptions after parent = parentHasDirSubscriptions poll parent := by
  cases parent with
  | none => rfl
  | some path => rw [parentHasDirSubscriptions, Option.bind_some, same path rfl, parentHasDirSubscriptions,
      Option.bind_some]

/-- Nothing stops the loop over the children exactly when it leaves none. -/
theorem childrenRemoved_childless (rooted : Rooted poll) {dir : Bytes} :
    gamTreeHasChildren (childrenRemoved poll dir) dir = false ↔
      ∀ child ∈ gamTreeGetChildren poll dir, ¬ Stays poll child := by
  have left {node : GamNode} : node ∈ (childrenRemoved poll dir).nodes ↔ node ∈ poll.nodes ∧
      node.path ∉ (gamTreeGetChildren poll dir).takeWhile fun child => ¬ Stays poll child := by
    rw [childrenRemoved_nodes rooted, List.mem_filter, decide_eq_true_eq]
  rw [hasChildren_false]
  constructor
  · rintro childless child isChild
    obtain ⟨node, member, isParent, rfl⟩ := mem_gamTreeGetChildren.mp isChild
    by_contra stays
    refine childless node (left.mpr ⟨member, fun taken => ?_⟩) isParent
    have leaves := List.mem_takeWhile_imp taken
    exact absurd stays (of_decide_eq_true leaves)
  · rintro leaves node member isParent
    obtain ⟨before, kept⟩ := left.mp member
    rw [List.takeWhile_eq_self_iff.mpr (by simpa using leaves)] at kept
    exact kept (mem_gamTreeGetChildren.mpr ⟨node, before, isParent, rfl⟩)

/-- Above a node that is there, nothing is pruned. -/
theorem gamPollGenericPruneTree_child {node : GamNode} (member : node ∈ poll.nodes) :
    gamPollGenericPruneTree poll node.parent = poll := by
  cases isParent : node.parent with
  | none => rw [gamPollGenericPruneTree]
  | some path =>
    have children : gamTreeHasChildren poll path = true := by
      rw [gamTreeHasChildren, List.any_eq_true]
      exact ⟨node, member, decide_eq_true isParent⟩
    unfold gamPollGenericPruneTree
    simp only [children, not_true_eq_false, false_and, if_false]
    split <;> rfl

/-- What is written to a node does not matter when the node goes. -/
theorem setNode_filter {node : GamNode} {gone : List Bytes} (isGone : node.path ∈ gone) :
    (poll.setNode node).nodes.filter (·.path ∉ gone) = poll.nodes.filter (·.path ∉ gone) := by
  rw [Poll.setNode]
  induction poll.nodes with
  | nil => rfl
  | cons other others inductionHypothesis =>
    rw [List.map_cons]
    by_cases same : other.path = node.path
    · rw [if_pos same, List.filter_cons_of_neg (by simpa using isGone), List.filter_cons_of_neg
        (by simpa [same] using isGone), inductionHypothesis]
    · rw [if_neg same, List.filter_cons, List.filter_cons, inductionHypothesis]

section

variable {node : GamNode} (rooted : Rooted poll) (found : gamTreeGetAtPath poll node.path = some node)
  (sub : GamSubscription)

include rooted found

theorem not_own_parent {parent : Bytes} (isParent : node.parent = some parent) : parent ≠ node.path := by
  obtain ⟨rank, ranked⟩ := rooted.ranked
  rintro rfl
  exact lt_irrefl _ (ranked node (gamTreeGetAtPath_mem found) _ isParent)

theorem parent_not_child {parent : Bytes} (isParent : node.parent = some parent) :
    parent ∉ gamTreeGetChildren poll node.path := by
  obtain ⟨rank, ranked⟩ := rooted.ranked
  intro isChild
  obtain ⟨above, member, isAbove, rfl⟩ := mem_gamTreeGetChildren.mp isChild
  exact lt_asymm (ranked node (gamTreeGetAtPath_mem found) _ isParent) (ranked above member _ isAbove)

/-- What `node_remove_directory_subscription` asks about the parent does not depend on what it does
before. -/
theorem entry_without : parentHasDirSubscriptions (poll.setNode (node.without sub)) node.parent =
    parentHasDirSubscriptions poll node.parent := by
  apply parentHasDirSubscriptions_congr
  intro parent isParent
  apply gamTreeGetAtPath_setNode_other poll
  exact not_own_parent rooted found isParent

theorem entry_childrenRemoved : parentHasDirSubscriptions (childrenRemoved poll node.path) node.parent =
    parentHasDirSubscriptions poll node.parent := by
  apply parentHasDirSubscriptions_congr
  intro parent isParent
  exact removeChildren_other _ (parent_not_child rooted found isParent) true

/-- When the node goes, all that is gone before the pruning is the node and its children. -/
theorem uprooted_of_nodes {tree : Poll} {children : List Bytes} (nodes : tree.nodes =
      (poll.setNode (node.without sub)).nodes.filter (·.path ∉ node.path :: children))
    (below : ∀ child ∈ children, child ∈ gamTreeGetChildren poll node.path) :
    Uprooted poll (node.path :: children) node tree := by
  obtain ⟨rank, ranked⟩ := rooted.ranked
  have member := gamTreeGetAtPath_mem found
  refine ⟨?_, member, List.mem_cons_self, fun other memberOther gone => ?_, rank, ranked, ?_⟩
  · rw [nodes]
    apply setNode_filter
    exact List.mem_cons_self
  · cases List.mem_cons.mp gone with
    | inl itself => exact .inl (List.inj_on_of_nodup_map rooted.distinct memberOther member itself)
    | inr child =>
      obtain ⟨same, memberSame, isParent, path⟩ := mem_gamTreeGetChildren.mp (below _ child)
      rw [List.inj_on_of_nodup_map rooted.distinct memberSame memberOther path] at isParent
      exact .inr ⟨node.path, List.mem_cons_self, isParent⟩
  · refine List.forall_mem_cons.mpr ⟨le_rfl, fun path child => ?_⟩
    obtain ⟨same, memberSame, isParent, rfl⟩ := mem_gamTreeGetChildren.mp (below _ child)
    exact (ranked same memberSame _ isParent).le

theorem uprooted_file : Uprooted poll [node.path] node (gamTreeRemove
    (gamPollGenericUnregisterNode (poll.setNode (node.without sub)) node.path) node.path) := by
  refine uprooted_of_nodes rooted found sub ?_ fun _ none => nomatch none
  refine List.filter_congr fun other _ => ?_
  simp only [List.mem_singleton]

theorem uprooted_directory (leaves : ∀ child ∈ gamTreeGetChildren poll node.path, ¬ Stays poll child) :
    Uprooted poll (node.path :: gamTreeGetChildren poll node.path) node (gamTreeRemove
      (gamPollGenericUnregisterNode (childrenRemoved (poll.setNode (node.without sub)) node.path) node.path)
        node.path) := by
  refine uprooted_of_nodes rooted found sub ?_ fun _ child => child
  have rootedNext : Rooted (poll.setNode (node.without sub)) := rooted.setNode found rfl rfl
  have all : ((gamTreeGetChildren poll node.path).takeWhile
      fun child => ¬ Stays (poll.setNode (node.without sub)) child) = gamTreeGetChildren poll node.path := by
    rw [List.takeWhile_eq_self_iff]
    intro child isChild
    simpa [stays_without rooted found sub isChild] using leaves child isChild
  show List.filter _ (childrenRemoved (poll.setNode (node.without sub)) node.path).nodes = _
  rw [childrenRemoved_nodes rootedNext, (children_without found sub rooted.distinct node.path).1, all,
    List.filter_filter]
  refine List.filter_congr fun other _ => ?_
  simp only [List.mem_cons, not_or, Bool.decide_and]

/-- When the children are taken out and the node stays, it keeps no entries. -/
theorem childrenRemoved_entries (bare : (node.without sub).subs = []) {after : Poll}
    (nodes : after.nodes = (childrenRemoved (poll.setNode (node.without sub)) node.path).nodes)
    {other : GamNode} (member : other ∈ poll.nodes) : other.path ∈ after.paths ∨
      other.parent = some node.path ∧ parentHasDirSubscriptions after (some node.path) = false := by
  have rootedNext : Rooted (poll.setNode (node.without sub)) := rooted.setNode found rfl rfl
  have foundNext := found_without found sub
  by_cases child : other.path ∈ gamTreeGetChildren poll node.path
  · right
    obtain ⟨same, memberSame, isParent, path⟩ := mem_gamTreeGetChildren.mp child
    rw [List.inj_on_of_nodup_map rooted.distinct memberSame member path] at isParent
    have foundAfter : gamTreeGetAtPath after node.path = some (node.without sub) := by
      rw [gamTreeGetAtPath, nodes, ← foundNext]
      exact removeChildren_other _ (rootedNext.not_own_child node.path) true
    exact ⟨isParent, by simp [parentHasDirSubscriptions, foundAfter, gamNodeHasDirSubscriptions, bare]⟩
  · left
    have there : other.path ∈ (poll.setNode (node.without sub)).paths := by
      rw [Poll.setNode_paths]
      exact List.mem_map_of_mem member
    have notChild : other.path ∉ gamTreeGetChildren (poll.setNode (node.without sub)) node.path := by
      rwa [(children_without found sub rooted.distinct node.path).1]
    rw [← gamTreeGetAtPath_isSome] at there ⊢
    rwa [gamTreeGetAtPath, nodes, ← gamTreeGetAtPath, childrenRemoved, removeChildren_other _ notChild]

/-- A cancellation leaves the node where it is, with the entries of every directory that somebody has
subscribed to, or it takes the node out and prunes above it. -/
theorem Cancelled.goes {after : Poll}
    (cancelled : Cancelled (node.without sub) (poll.setNode (node.without sub)) after) :
    (¬ Goes poll sub node ∧ ∀ other ∈ poll.nodes, other.path ∈ after.paths ∨
      other.parent = some node.path ∧ parentHasDirSubscriptions after (some node.path) = false) ∨
    (Goes poll sub node ∧ ∃ gone tree, Uprooted poll gone node tree ∧
      after = gamPollGenericPruneTree tree node.parent) := by
  have rootedNext : Rooted (poll.setNode (node.without sub)) := rooted.setNode found rfl rfl
  have foundNext := found_without found sub
  have entry := entry_without rooted found sub
  have entryLeft := (@entry_childrenRemoved _ (node.without sub) rootedNext foundNext).trans entry
  cases cancelled with
  | shared others =>
    refine .inl ⟨fun goes => others (without_subs_eq_nil.mpr goes.last), fun other member => .inl ?_⟩
    rw [Poll.setNode_paths]
    exact List.mem_map_of_mem member
  | fileKept bare file childless isEntry =>
    refine .inl ⟨fun goes => ?_, fun other member => .inl ?_⟩
    · exact Bool.false_ne_true ((goes.free.symm.trans entry.symm).trans isEntry)
    · show other.path ∈ (poll.setNode (node.without sub)).paths
      rw [Poll.setNode_paths]
      exact List.mem_map_of_mem member
  | fileGone bare file childless free =>
    -- a file without children is taken out of the tree at once
    have noChild := (children_without found sub rooted.distinct node.path).2.symm.trans childless
    refine .inr ⟨⟨without_subs_eq_nil.mp bare, entry.symm.trans free, fun child isChild => ?_⟩, _, _,
      uprooted_file rooted found sub, rfl⟩
    obtain ⟨below, member, isParent, _⟩ := mem_gamTreeGetChildren.mp isChild
    exact absurd isParent (hasChildren_false.mp noChild below member)
  | dirKept bare directory isEntry =>
    refine .inl ⟨fun goes => ?_, fun other => childrenRemoved_entries rooted found sub bare rfl⟩
    exact Bool.false_ne_true ((goes.free.symm.trans entryLeft.symm).trans isEntry)
  | dirParent bare directory free children =>
    refine .inl ⟨fun goes => ?_, fun other => childrenRemoved_entries rooted found sub bare ?_⟩
    · -- one of the children stays
      have stays := mt (childrenRemoved_childless rootedNext).mpr (ne_of_eq_of_ne children (by decide))
      refine stays fun child isChild => ?_
      rw [(children_without found sub rooted.distinct _).1] at isChild
      rw [stays_without rooted found sub isChild]
      exact goes.children child isChild
    · -- so does the node, and with it those above it
      have foundLeft : gamTreeGetAtPath (childrenRemoved (poll.setNode (node.without sub)) node.path) node.path =
          some (node.without sub) := by
        rw [← foundNext]
        exact removeChildren_other _ (rootedNext.not_own_child node.path) true
      have still := @gamPollGenericPruneTree_child (gamPollGenericUnregisterNode
        (childrenRemoved (poll.setNode (node.without sub)) node.path) node.path) _ (gamTreeGetAtPath_mem foundLeft)
      have nodes := congrArg Poll.nodes still
      exact nodes
  | dirGone bare directory free childless =>
    have leaves := (childrenRemoved_childless rootedNext).mp childless
    rw [(children_without found sub rooted.distinct _).1] at leaves
    have leavesAll (child : Bytes) (isChild : child ∈ gamTreeGetChildren poll node.path) : ¬ Stays poll child := by
      rw [← stays_without rooted found sub isChild]
      exact leaves child isChild
    exact .inr ⟨⟨without_subs_eq_nil.mp bare, entryLeft.symm.trans free, leavesAll⟩, _, _,
      uprooted_directory rooted found sub leavesAll, rfl⟩

end

/-- The way up comes nearer to the root. -/
theorem rank_of_onlyAbove {rank : Bytes → Nat} (ranked : Ranked rank poll) {below above : Bytes}
    (way : TransGen (OnlyAbove poll) below above) : rank above < rank below := by
  induction way with
  | single onlyAbove =>
    obtain ⟨node, member, rfl, isParent⟩ := onlyAbove.parent
    exact ranked node member _ isParent
  | tail _ onlyAbove inductionHypothesis =>
    obtain ⟨node, member, rfl, isParent⟩ := onlyAbove.parent
    exact (ranked node member _ isParent).trans inductionHypothesis

/-- A node above is taken out, but the parent that it is an entry of is still there. -/
theorem Uprooted.entry_kept (rooted : Rooted poll) {gone : List Bytes} {last top : GamNode} {tree : Poll}
    (uprooted : Uprooted poll gone last tree)
    (rootedAfter : Rooted (gamPollGenericPruneTree tree last.parent)) (member : top ∈ poll.nodes)
    (way : TransGen (OnlyAbove poll) last.path top.path)
    (entry : parentHasDirSubscriptions poll top.parent = true) :
    parentHasDirSubscriptions (gamPollGenericPruneTree tree last.parent) top.parent = true := by
  obtain ⟨path, above, isParent, found, subscribed⟩ := parentHasDirSubscriptions_iff.mp entry
  have here := gamTreeGetAtPath_path found
  subst here
  have memberAbove := gamTreeGetAtPath_mem found
  have notGone : above.path ∉ gone := by
    obtain ⟨rank, ranked, topmost⟩ := uprooted.topmost
    have up := (ranked top member _ isParent).trans (rank_of_onlyAbove ranked way)
    exact fun isGone => Nat.not_le.mpr up (topmost _ isGone)
  -- it has a subscription, so the way up ends below it
  have noWay : ¬ TransGen (OnlyAbove poll) last.path above.path := by
    rw [TransGen.tail'_iff]
    rintro ⟨below, -, onlyAbove⟩
    have bare := onlyAbove.bare
    rw [subsAt, found] at bare
    simp [gamNodeHasDirSubscriptions, show above.subs = [] from bare] at subscribed
  refine parentHasDirSubscriptions_iff.mpr ⟨above.path, above, isParent, ?_, subscribed⟩
  have kept := (uprooted.pruneTree rooted).mpr ⟨memberAbove, notGone, noWay⟩
  exact gamTreeGetAtPath_of_mem rootedAfter.distinct kept

/-- A subscription is cancelled without the loss of any entry exactly when nothing that exists is pruned
below a directory that somebody has subscribed to. -/
theorem keepsEntries_iff (view : FsView) {poll after : Poll} {sub : GamSubscription} (rooted : Rooted poll)
    (removed : gamPollBasicRemoveSubscription poll sub = some after) :
    KeepsEntries view poll after ↔ PruneGuard view poll sub := by
  have rootedAfter := basicRule_rooted.removeSubscription subsRule_rooted removed rooted
  rcases gamPollBasicRemoveSubscription_cancelled removed with ⟨absent, rfl⟩ | ⟨node, found, listed, outcome⟩
  · refine ⟨fun _ node found => ?_, fun _ node member _ _ => List.mem_map_of_mem member⟩
    rw [absent] at found
    contradiction
  · have isNode {other : GamNode} (foundOther : gamTreeGetAtPath poll sub.path = some other) : other = node :=
      Option.some.inj (foundOther.symm.trans found)
    have foundHere : gamTreeGetAtPath poll node.path = some node := by
      rwa [gamTreeGetAtPath_path found]
    rcases outcome.goes rooted foundHere sub with ⟨stays, kept⟩ | ⟨goes, gone, tree, uprooted, rfl⟩
    · refine ⟨fun _ other foundOther goes => absurd goes (isNode foundOther ▸ stays), ?_⟩
      intro _ other member entry _
      refine (kept other member).resolve_right ?_
      rintro ⟨isParent, empty⟩
      rw [isParent, empty] at entry
      contradiction
    · constructor
      · -- a node on the way that exists would be pruned, and it was an entry
        rintro keeps other foundOther - top member way entry
        cases isNode foundOther
        by_contra present
        have still := keeps top member (uprooted.entry_kept rooted rootedAfter member way entry)
          (by simpa using present)
        obtain ⟨same, memberSame, path⟩ := List.mem_map.mp still
        have noWay := ((uprooted.pruneTree rooted).mp memberSame).2.2
        rw [path] at noWay
        exact noWay way
      · intro guard other member entry present
        have fewer (node : GamNode) (kept : node ∈ (gamPollGenericPruneTree tree _).nodes) : node ∈ poll.nodes :=
          ((uprooted.pruneTree rooted).mp kept).1
        -- an entry of what is left was one before, and neither goes with the node nor is pruned
        have entryBefore := parentHasDirSubscriptions_of_fewer rooted fewer entry
        refine List.mem_map_of_mem ((uprooted.pruneTree rooted).mpr ⟨member, fun isGone => ?_, fun way => ?_⟩)
        · rcases uprooted.closed other member isGone with rfl | ⟨parent, parentGone, isParent⟩
          · rw [goes.free] at entryBefore
            contradiction
          · obtain ⟨path, above, isAbove, foundAbove, -⟩ := parentHasDirSubscriptions_iff.mp entry
            rw [isParent, Option.some.injEq] at isAbove
            have notGone := ((uprooted.pruneTree rooted).mp (gamTreeGetAtPath_mem foundAbove)).2.1
            rw [gamTreeGetAtPath_path foundAbove, ← isAbove] at notGone
            exact notGone parentGone
        · rw [guard node found goes other member way entryBefore] at present
          contradiction

end

/-! ## Below a monitored directory -/

/-- `/d` has a directory `s` with a file `f`. -/
def deepFile : FsView where
  stat path :=
    if path = [47, 100] ∨ path = [47, 100, 47, 115] then .found { StatBuf.zero with isDir := true }
    else if path = [47, 100, 47, 115, 47, 102] then .found .zero
    else .noent
  listing path :=
    if path = [47, 100] then some [[115]]
    else if path = [47, 100, 47, 115] then some [[102]]
    else none
  excluded _ := false
  monType _ := .poll
  pollTimeout _ := 1

def deepSubscription (reqno : Nat) : GamSubscription :=
  gamSubscriptionNew reqno [47, 100, 47, 115, 47, 102] requestedEvents reqno false 0

/-- The directory `/d` is monitored, and files below it. -/
def monitoredBelow (view : FsView) (files : List GamSubscription) : Option BasicState :=
  run (partialStep BasicState.step) (some (.new fun _ => view))
    (.subscribe 1000 (gamSubscriptionNew 1 [47, 100] requestedEvents 1 true 0) :: files.map (.subscribe 1000))

theorem monitoredBelow_rooted {view : FsView} {files : List GamSubscription} {state : BasicState}
    (reached : monitoredBelow view files = some state) : Rooted state.poll := by
  have rooted : Throughout (partialStep BasicState.step) (IfAny fun state => Rooted state.poll)
      (some (.new fun _ => view))
      (.subscribe 1000 (gamSubscriptionNew 1 [47, 100] requestedEvents 1 true 0) ::
        files.map (.subscribe 1000)) :=
    .of_partial_kept (fun _ _ _ (before : Rooted _) stepped => before.step stepped) (rooted_new _) _
  have last := rooted.last
  rw [show run _ _ _ = some state from reached] at last
  exact last

/-- The directory is monitored, and the file too. -/
def deepMonitored (reqnos : List Nat) : Option BasicState :=
  monitoredBelow deepFile (reqnos.map deepSubscription)

/-- Whether cancelling a subscription keeps the entries. -/
def cancelKeeps (view : FsView) (monitored : Option BasicState) (sub : GamSubscription) : Option Bool :=
  monitored.bind fun state => (gamPollBasicRemoveSubscription state.poll sub).map fun after =>
    decide (KeepsEntries view state.poll after)

/-- The directory `s` of `/d` has a file `g` and a directory `t` with a file `f`. -/
def twoBranches : FsView where
  stat path :=
    if path = [47, 100, 47, 115, 47, 103] ∨ path = [47, 100, 47, 115, 47, 116, 47, 102] then .found .zero
    else if path ∈ [[47, 100], [47, 100, 47, 115], [47, 100, 47, 115, 47, 116]] then
      .found { StatBuf.zero with isDir := true }
    else .noent
  listing path :=
    if path = [47, 100] then some [[115]]
    else if path = [47, 100, 47, 115] then some [[103], [116]]
    else if path = [47, 100, 47, 115, 47, 116] then some [[102]]
    else none
  excluded _ := false
  monType _ := .poll
  pollTimeout _ := 1

def deeperSubscription : GamSubscription :=
  gamSubscriptionNew 2 [47, 100, 47, 115, 47, 116, 47, 102] requestedEvents 2 false 0

def siblingSubscription : GamSubscription :=
  gamSubscriptionNew 3 [47, 100, 47, 115, 47, 103] requestedEvents 3 false 0

/-- The nodes of `f` and `t` go, and the way up ends at `s`, which has another file: no entry of `/d` is
lost. -/
theorem keepsEntries_iff_pruned :
    ∃ state after, monitoredBelow twoBranches [deeperSubscription, siblingSubscription] = some state ∧
      gamPollBasicRemoveSubscription state.poll deeperSubscription = some after ∧
      KeepsEntries twoBranches state.poll after ∧ PruneGuard twoBranches state.poll deeperSubscription ∧
      (gamTreeGetAtPath state.poll [47, 100, 47, 115, 47, 116]).isSome = true ∧
      gamTreeGetAtPath after [47, 100, 47, 115, 47, 116] = none := by
  have kept : cancelKeeps twoBranches (monitoredBelow twoBranches [deeperSubscription, siblingSubscription])
      deeperSubscription = some true := by decide +kernel
  obtain ⟨state, reached, cancelled⟩ := Option.bind_eq_some_iff.mp kept
  obtain ⟨after, removed, keeps⟩ := Option.map_eq_some_iff.mp cancelled
  have before : (monitoredBelow twoBranches [deeperSubscription, siblingSubscription]).map
      (fun state => (gamTreeGetAtPath state.poll [47, 100, 47, 115, 47, 116]).isSome) = some true := by
    decide +kernel
  have pruned : (monitoredBelow twoBranches [deeperSubscription, siblingSubscription]).bind (fun state =>
      (gamPollBasicRemoveSubscription state.poll deeperSubscription).map fun after =>
        (gamTreeGetAtPath after [47, 100, 47, 115, 47, 116]).isNone) = some true := by
    decide +kernel
  rw [reached] at before pruned
  rw [Option.bind_some, removed] at pruned
  refine ⟨state, after, reached, removed, of_decide_eq_true keeps, ?_, Option.some.inj before,
    Option.isNone_iff_eq_none.mp (Option.some.inj pruned)⟩
  exact (keepsEntries_iff twoBranches (monitoredBelow_rooted reached) removed).mp (of_decide_eq_true keeps)

/-- The last subscription to the file takes the entry `s` of `/d` with it, and the next scan says that
it was created. -/
theorem deep_file_loses_entry :
    (∃ state after, deepMonitored [2] = some state ∧
      gamPollBasicRemoveSubscription state.poll (deepSubscription 2) = some after ∧
      ¬ KeepsEntries deepFile state.poll after) ∧
    ((deepMonitored [2]).map fun state => (run (partialStep BasicState.step) (some state)
      [.cancel (deepSubscription 2), .tick 1005 10]).map fun final =>
        (final.poll.sent.drop state.poll.sent.length).map fun emission => (emission.path, emission.event)) =
          some (some [([47, 100, 47, 115], .created)]) := by
  have lost : cancelKeeps deepFile (deepMonitored [2]) (deepSubscription 2) = some false := by decide +kernel
  obtain ⟨state, reached, cancelled⟩ := Option.bind_eq_some_iff.mp lost
  obtain ⟨after, removed, loses⟩ := Option.map_eq_some_iff.mp cancelled
  exact ⟨⟨state, after, reached, removed, of_decide_eq_false loses⟩, by decide +kernel⟩

end Gamin.Polling
