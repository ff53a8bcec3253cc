import Gamin.Polling.ResourceLists
import Mathlib.Data.Finset.Max

/-! # The tree below the root

Paths do not repeat, parents are in the tree, and every node is further from the root than its
parent.  Nothing that the backend does to the tree changes that.
-/

namespace Gamin.Polling

open Gamin Gamin.Server Gamin.Inotify Gamin.Library

/-- The nodes are a tree below the root; `rank` counts upwards from it. -/
structure Rooted (poll : Poll) : Prop where
  distinct : poll.paths.Nodup
  parents : ∀ node ∈ poll.nodes, ∀ parent, node.parent = some parent → parent ∈ poll.paths
  ranked : ∃ rank : Bytes → Nat, ∀ node ∈ poll.nodes, ∀ parent, node.parent = some parent →
    rank parent < rank node.path

section

variable {poll : Poll}

theorem rooted_new (views : Nat → FsView) : Rooted (.new views) :=
  ⟨.nil, fun _ member => (nomatch member), fun _ => 0, fun _ member => (nomatch member)⟩

theorem Rooted.elsewhere (rooted : Rooted poll) {after : Poll} (nodes : after.nodes = poll.nodes) :
    Rooted after := by
  have paths : after.paths = poll.paths := by rw [Poll.paths, nodes, Poll.paths]
  refine ⟨?_, ?_, ?_⟩
  · rw [paths]
    exact rooted.distinct
  · rw [paths, nodes]
    exact rooted.parents
  · rw [nodes]
    exact rooted.ranked

/-- What is in the tree after a node is written back has its path and its parent from before. -/
theorem setNode_source {old node : GamNode} (found : gamTreeGetAtPath poll old.path = some old)
    (path : node.path = old.path) (parent : node.parent = old.parent) {other : GamNode}
    (written : other ∈ (poll.setNode node).nodes) :
    ∃ earlier ∈ poll.nodes, other.path = earlier.path ∧ other.parent = earlier.parent := by
  obtain ⟨earlier, member, rfl⟩ := List.mem_map.mp written
  split
  · exact ⟨old, gamTreeGetAtPath_mem found, path, parent⟩
  · exact ⟨earlier, member, rfl, rfl⟩

theorem Rooted.setNode (rooted : Rooted poll) {old node : GamNode}
    (found : gamTreeGetAtPath poll old.path = some old) (path : node.path = old.path)
    (parent : node.parent = old.parent) : Rooted (poll.setNode node) := by
  obtain ⟨rank, ranked⟩ := rooted.ranked
  refine ⟨?_, ?_, rank, ?_⟩
  · rw [Poll.setNode_paths]
    exact rooted.distinct
  · intro other written above isParent
    rw [Poll.setNode_paths]
    obtain ⟨earlier, member, -, sameParent⟩ := setNode_source found path parent written
    exact rooted.parents earlier member above (sameParent ▸ isParent)
  · intro other written above isParent
    obtain ⟨earlier, member, samePath, sameParent⟩ := setNode_source found path parent written
    rw [samePath]
    exact ranked earlier member above (sameParent ▸ isParent)

/-- A new node is one further from the root than its parent. -/
theorem Rooted.gamTreeAdd (rooted : Rooted poll) {child : GamNode}
    (absent : gamTreeGetAtPath poll child.path = none)
    (parentThere : ∀ parent, child.parent = some parent → (gamTreeGetAtPath poll parent).isSome) :
    Rooted (gamTreeAdd poll child) := by
  obtain ⟨rank, ranked⟩ := rooted.ranked
  have new : child.path ∉ poll.paths := by
    rw [← gamTreeGetAtPath_isSome, absent]
    exact Bool.false_ne_true
  have paths : ({ poll with nodes := poll.nodes ++ [child] } : Poll).paths = poll.paths ++ [child.path] :=
    List.map_append
  have there {parent : Bytes} (isParent : child.parent = some parent) : parent ∈ poll.paths :=
    gamTreeGetAtPath_isSome.mp (parentThere parent isParent)
  have older {path : Bytes} (known : path ∈ poll.paths) : path ≠ child.path := by
    rintro rfl
    exact new known
  rw [Polling.gamTreeAdd, absent, Option.isSome_none, if_neg Bool.false_ne_true]
  -- its rank is one more than that of its parent
  refine ⟨?_, ?_, Function.update rank child.path ((child.parent.map rank).getD 0 + 1), ?_⟩
  · rw [paths]
    exact List.Nodup.append rooted.distinct (List.nodup_singleton _) (by simpa using new)
  · intro node member parent isParent
    rw [paths]
    refine List.mem_append_left _ ?_
    cases List.mem_append.mp member with
    | inl old => exact rooted.parents node old parent isParent
    | inr added =>
      rw [List.mem_singleton.mp added] at isParent
      exact there isParent
  · intro node member parent isParent
    cases List.mem_append.mp member with
    | inl old =>
      rw [Function.update_of_ne (older (List.mem_map_of_mem old)),
        Function.update_of_ne (older (rooted.parents node old parent isParent))]
      exact ranked node old parent isParent
    | inr added =>
      rw [List.mem_singleton.mp added] at isParent ⊢
      rw [Function.update_self, Function.update_of_ne (older (there isParent)), isParent]
      exact Nat.lt_succ_self _

theorem Rooted.removed (rooted : Rooted poll) {path : Bytes} (childless : gamTreeHasChildren poll path = false) :
    Rooted (gamTreeRemove (gamPollGenericUnregisterNode poll path) path) := by
  obtain ⟨rank, ranked⟩ := rooted.ranked
  have noChild : ∀ node ∈ poll.nodes, node.parent ≠ some path := by simpa [gamTreeHasChildren] using childless
  have paths : (gamTreeRemove (gamPollGenericUnregisterNode poll path) path).paths =
      poll.paths.filter (· ≠ path) := by
    simp only [Poll.paths, gamTreeRemove, List.filter_map]
    rfl
  refine ⟨?_, ?_, rank, fun node member => ranked node (gamTreeRemove_fewer member)⟩
  · rw [paths]
    exact rooted.distinct.filter _
  · intro node member parent isParent
    have before : node ∈ poll.nodes := gamTreeRemove_fewer member
    rw [paths]
    refine List.mem_filter.mpr ⟨rooted.parents node before parent isParent, ?_⟩
    have different : parent ≠ path := by
      rintro rfl
      exact noChild node before isParent
    simpa using different

theorem Rooted.gamPollGenericAddMissing (rooted : Rooted poll) (path : Bytes) :
    Rooted (gamPollGenericAddMissing poll path) := by
  unfold Polling.gamPollGenericAddMissing
  split
  · exact rooted
  · exact rooted.elsewhere rfl

theorem rooted_firstScanMissing (rooted : Rooted poll) (sub : GamSubscription) {dpath : Bytes} :
    Rooted (firstScanMissing poll sub dpath) := by
  unfold firstScanMissing
  extract_lets sent
  split
  · exact rooted.elsewhere rfl
  case h_2 node found =>
    have foundSent : gamTreeGetAtPath sent.called.called node.path = some node := by
      rw [gamTreeGetAtPath_path found]
      exact found
    have rootedSent : Rooted sent.called.called := rooted.elsewhere rfl
    simp only
    split
    · exact rootedSent.setNode foundSent rfl rfl
    · apply Rooted.gamPollGenericAddMissing
      exact rootedSent.setNode foundSent rfl rfl

theorem plainRule_rooted : PlainRule gamPollBasicPollFile .free Rooted where
  hook := gamPollBasicPollFile_keeps
  elsewhere _ _ _ rooted := rooted.elsewhere rfl
  polled := by
    intro poll node found _ rooted
    obtain ⟨next, write, polledAs⟩ := gamPollBasicPollFile_writes poll node
    have called : Rooted poll.called := rooted.elsewhere rfl
    have written : Rooted (poll.called.setNode next) := called.setNode found polledAs.path polledAs.parent
    generalize (gamPollBasicPollFile poll node).1 = after at write ⊢
    cases write with
    | nothing => exact rooted
    | written => exact written
    | appeared => exact written.elsewhere rfl
    | vanished =>
      apply Rooted.gamPollGenericAddMissing
      exact written.elsewhere rfl
  added absent _ parentThere _ rooted := rooted.gamTreeAdd absent parentThere
  cleared found rooted := rooted.setNode found rfl rfl
  missed _ rooted := rooted_firstScanMissing rooted _

theorem basicRule_rooted : BasicRule .free Rooted where
  toFirstRule := plainRule_rooted.firstRule
  missing _ rooted := rooted.gamPollGenericAddMissing _
  listed _ rooted := by
    unfold gamPollGenericAdd
    split
    · exact rooted
    · exact rooted.elsewhere rfl
  found rooted := rooted.elsewhere rfl
  unregistered _ rooted := rooted.elsewhere rfl
  removed _ childless rooted := rooted.removed childless

end

/-! ## Operations -/

theorem subsRule_rooted : SubsRule Rooted where
  subscribed found _ _ rooted := rooted.setNode found rfl rfl
  cancelled found rooted := rooted.setNode found rfl rfl

/-- The nodes are a tree in every state that the backend comes to. -/
theorem Rooted.step {state after : BasicState} (rooted : Rooted state.poll) {input : BasicInput}
    (stepped : state.step input = some after) : Rooted after.poll :=
  basicRule_rooted.step subsRule_rooted stepped rooted

/-! ## Going up and down -/

/-- Somewhere in a tree with nodes there is one without children. -/
theorem Rooted.exists_childless {poll : Poll} (rooted : Rooted poll) (nonempty : poll.nodes ≠ []) :
    ∃ node ∈ poll.nodes, gamTreeHasChildren poll node.path = false := by
  obtain ⟨rank, ranked⟩ := rooted.ranked
  -- a node that is as far from the root as any
  obtain ⟨node, there, farthest⟩ :=
    poll.nodes.toFinset.exists_max_image (rank ·.path) (List.toFinset_nonempty_iff _ |>.mpr nonempty)
  refine ⟨node, List.mem_toFinset.mp there, ?_⟩
  rw [gamTreeHasChildren, List.any_eq_false]
  intro child member isChild
  have below := ranked child member node.path (by simpa using isChild)
  exact absurd (farthest child (List.mem_toFinset.mpr member)) (Nat.not_le.mpr below)

end Gamin.Polling
