import Gamin.Polling.Rooted

/-! # What a cancellation does to the tree

`gam_poll_basic_remove_subscription` in terms of the nodes: the node of the subscription loses it,
and if nobody else has subscribed there, its children and the node itself may be taken out, and
then the nodes above that are not needed any more.
-/

namespace Gamin.Polling

open Gamin Gamin.Server Gamin.Inotify Gamin.Library

section

variable {poll : Poll}

/-! ## Taking a node out -/

theorem subsAt_remove {path other : Bytes} (different : other ≠ path) :
    subsAt (gamTreeRemove (gamPollGenericUnregisterNode poll path) path) other = subsAt poll other := by
  rw [subsAt, gamTreeGetAtPath_remove different, subsAt]

theorem hasChildren_remove {path other : Bytes}
    (elsewhere : ∀ node ∈ poll.nodes, node.path = path → node.parent ≠ some other) :
    gamTreeHasChildren (gamTreeRemove (gamPollGenericUnregisterNode poll path) path) other =
      gamTreeHasChildren poll other := by
  rw [Bool.eq_iff_iff]
  simp only [gamTreeHasChildren, gamTreeRemove, List.any_eq_true, List.mem_filter]
  constructor
  · rintro ⟨node, ⟨member, _⟩, isChild⟩
    exact ⟨node, member, isChild⟩
  · rintro ⟨node, member, isChild⟩
    refine ⟨node, ⟨member, ?_⟩, isChild⟩
    have different : node.path ≠ path := fun here => elsewhere node member here (by simpa using isChild)
    simpa using different

/-! ## The children of a directory -/

theorem mem_gamTreeGetChildren {path child : Bytes} :
    child ∈ gamTreeGetChildren poll path ↔ ∃ node ∈ poll.nodes, node.parent = some path ∧ node.path = child := by
  simp [gamTreeGetChildren, and_assoc]

/-- Nothing is below itself. -/
theorem Rooted.not_own_child (rooted : Rooted poll) (path : Bytes) : path ∉ gamTreeGetChildren poll path := by
  intro itself
  obtain ⟨rank, ranked⟩ := rooted.ranked
  obtain ⟨node, member, isParent, rfl⟩ := mem_gamTreeGetChildren.mp itself
  exact absurd (ranked node member node.path isParent) (lt_irrefl _)

/-- A child that the removal of its directory must leave where it is. -/
def Stays (poll : Poll) (child : Bytes) : Prop :=
  subsAt poll child ≠ [] ∨ gamTreeHasChildren poll child = true

instance (poll : Poll) (child : Bytes) : Decidable (Stays poll child) :=
  inferInstanceAs (Decidable (_ ∨ _))

/-- Taking out one child makes no difference to the others. -/
theorem stays_remove (rooted : Rooted poll) {node : GamNode} (found : gamTreeGetAtPath poll node.path = some node)
    {dir sibling : Bytes} (isChild : node.parent = some dir)
    (isSibling : ∃ other, gamTreeGetAtPath poll sibling = some other ∧ other.parent = some dir)
    (different : sibling ≠ node.path) :
    Stays (gamTreeRemove (gamPollGenericUnregisterNode poll node.path) node.path) sibling ↔ Stays poll sibling := by
  obtain ⟨other, foundOther, otherParent⟩ := isSibling
  rw [Stays, Stays, subsAt_remove different, hasChildren_remove]
  intro twin memberTwin path isParent
  rw [List.inj_on_of_nodup_map rooted.distinct memberTwin (gamTreeGetAtPath_mem found) path, isChild,
    Option.some.injEq] at isParent
  -- then the sibling would be its own parent
  refine rooted.not_own_child dir (mem_gamTreeGetChildren.mpr ⟨other, gamTreeGetAtPath_mem foundOther, otherParent, ?_⟩)
  rw [gamTreeGetAtPath_path foundOther, isParent]

/-- From the first child that stays on, nothing is taken out. -/
theorem removeChildren_stop (children : List Bytes) :
    children.foldl removeChild (poll, false) = (poll, false) := by
  induction children with
  | nil => rfl
  | cons child children inductionHypothesis =>
    rw [List.foldl_cons, removeChild, if_neg (by simp)]
    exact inductionHypothesis

/-- Nothing but children is taken out. -/
theorem removeChildren_other {path : Bytes} (children : List Bytes) (elsewhere : path ∉ children) (removeDir : Bool) :
    gamTreeGetAtPath (children.foldl removeChild (poll, removeDir)).1 path = gamTreeGetAtPath poll path := by
  induction children generalizing poll removeDir with
  | nil => rfl
  | cons child children inductionHypothesis =>
    rw [List.mem_cons, not_or] at elsewhere
    rw [List.foldl_cons, removeChild]
    split
    · rw [inductionHypothesis elsewhere.2, gamTreeGetAtPath_remove elsewhere.1]
    · exact inductionHypothesis elsewhere.2 false

/-! ## Losing a subscription -/

/-- Who is below whom does not depend on what else is written to a node. -/
theorem setNode_links (distinct : poll.paths.Nodup) {old node : GamNode}
    (found : gamTreeGetAtPath poll old.path = some old) (path : node.path = old.path)
    (parent : node.parent = old.parent) :
    (poll.setNode node).nodes.map (fun other => (other.path, other.parent)) =
      poll.nodes.map fun other => (other.path, other.parent) := by
  rw [Poll.setNode, List.map_map]
  refine List.map_congr_left fun other member => ?_
  simp only [Function.comp_apply]
  split
  case isTrue same =>
    have here : other = old :=
      List.inj_on_of_nodup_map distinct member (gamTreeGetAtPath_mem found) (same.trans path)
    rw [here, path, parent]
  case isFalse => rfl

theorem children_of_links {before after : Poll}
    (links : after.nodes.map (fun other => (other.path, other.parent)) =
      before.nodes.map fun other => (other.path, other.parent)) (path : Bytes) :
    gamTreeGetChildren after path = gamTreeGetChildren before path ∧
      gamTreeHasChildren after path = gamTreeHasChildren before path := by
  have list (poll : Poll) : gamTreeGetChildren poll path =
      (((poll.nodes.map fun other => (other.path, other.parent)).filter (·.2 = some path)).map (·.1)).reverse := by
    rw [gamTreeGetChildren, List.filter_map, List.map_map]
    rfl
  have any (poll : Poll) : gamTreeHasChildren poll path =
      (poll.nodes.map fun other => (other.path, other.parent)).any (·.2 = some path) := by
    rw [gamTreeHasChildren, List.any_map]
    rfl
  exact ⟨by rw [list, links, ← list], by rw [any, links, ← any]⟩

/-- The node as it is written back by `gam_node_remove_subscription`. -/
def GamNode.without (node : GamNode) (sub : GamSubscription) : GamNode :=
  { node with subs := node.subs.filter (· ≠ sub) }

theorem without_subs_eq_nil {node : GamNode} {sub : GamSubscription} :
    (node.without sub).subs = [] ↔ ∀ other ∈ node.subs, other = sub := by
  simp [GamNode.without, List.filter_eq_nil_iff]

section

variable {node : GamNode} (found : gamTreeGetAtPath poll node.path = some node) (sub : GamSubscription)

include found

theorem children_without (distinct : poll.paths.Nodup) (path : Bytes) :
    gamTreeGetChildren (poll.setNode (node.without sub)) path = gamTreeGetChildren poll path ∧
      gamTreeHasChildren (poll.setNode (node.without sub)) path = gamTreeHasChildren poll path := by
  apply children_of_links
  exact setNode_links distinct found rfl rfl

theorem found_without :
    gamTreeGetAtPath (poll.setNode (node.without sub)) node.path = some (node.without sub) := by
  rw [gamTreeGetAtPath_setNode, found, Option.map_some]
  exact congrArg some (if_pos rfl)

theorem subsAt_without_self : subsAt (poll.setNode (node.without sub)) node.path = (node.without sub).subs :=
  subsAt_setNode_self (Option.isSome_of_eq_some found)

end

theorem subsAt_without {node : GamNode} {path : Bytes} (different : path ≠ node.path) (sub : GamSubscription) :
    subsAt (poll.setNode (node.without sub)) path = subsAt poll path :=
  subsAt_setNode_other poll different

/-- A child stays or goes as before. -/
theorem stays_without (rooted : Rooted poll) {node : GamNode} (found : gamTreeGetAtPath poll node.path = some node)
    (sub : GamSubscription) {child : Bytes} (isChild : child ∈ gamTreeGetChildren poll node.path) :
    Stays (poll.setNode (node.without sub)) child ↔ Stays poll child := by
  have different : child ≠ node.path := by
    rintro rfl
    exact rooted.not_own_child _ isChild
  rw [Stays, Stays, subsAt_without different, (children_without found sub rooted.distinct child).2]

/-! ## The outcomes -/

/-- The end of the loop over the children of a directory. -/
def childrenRemoved (poll : Poll) (path : Bytes) : Poll :=
  ((gamTreeGetChildren poll path).foldl removeChild (poll, true)).1

/-- What becomes of the tree when a node has lost a subscription. -/
inductive Cancelled (node : GamNode) (poll : Poll) : Poll → Prop where
  | shared (others : node.subs ≠ []) : Cancelled node poll poll
  | fileKept (bare : node.subs = []) (file : node.isDir = false)
      (childless : gamTreeHasChildren poll node.path = false)
      (entry : parentHasDirSubscriptions poll node.parent = true) :
      Cancelled node poll (gamPollGenericUnregisterNode poll node.path)
  | fileGone (bare : node.subs = []) (file : node.isDir = false)
      (childless : gamTreeHasChildren poll node.path = false)
      (free : parentHasDirSubscriptions poll node.parent = false) :
      Cancelled node poll (gamPollGenericPruneTree
        (gamTreeRemove (gamPollGenericUnregisterNode poll node.path) node.path) node.parent)
  | dirKept (bare : node.subs = []) (directory : node.isDir = true)
      (entry : parentHasDirSubscriptions (childrenRemoved poll node.path) node.parent = true) :
      Cancelled node poll (childrenRemoved poll node.path)
  | dirParent (bare : node.subs = []) (directory : node.isDir = true)
      (free : parentHasDirSubscriptions (childrenRemoved poll node.path) node.parent = false)
      (children : gamTreeHasChildren (childrenRemoved poll node.path) node.path = true) :
      Cancelled node poll (gamPollGenericPruneTree
        (gamPollGenericUnregisterNode (childrenRemoved poll node.path) node.path) node.parent)
  | dirGone (bare : node.subs = []) (directory : node.isDir = true)
      (free : parentHasDirSubscriptions (childrenRemoved poll node.path) node.parent = false)
      (childless : gamTreeHasChildren (childrenRemoved poll node.path) node.path = false) :
      Cancelled node poll (gamPollGenericPruneTree
        (gamTreeRemove (gamPollGenericUnregisterNode (childrenRemoved poll node.path) node.path) node.path)
        node.parent)

theorem takeWhile_same {Item : Type*} {first second : Item → Bool} (items : List Item)
    (same : ∀ item ∈ items, first item = second item) : items.takeWhile first = items.takeWhile second := by
  induction items with
  | nil => rfl
  | cons item items inductionHypothesis =>
    rw [List.takeWhile_cons, List.takeWhile_cons, same item List.mem_cons_self,
      inductionHypothesis fun other member => same other (List.mem_cons_of_mem _ member)]

/-- The children in front of the first one that stays are taken out, and no others. -/
theorem foldl_removeChild_nodes (rooted : Rooted poll) {dir : Bytes} (children : List Bytes) (distinct : children.Nodup)
    (below : ∀ child ∈ children, ∃ node, gamTreeGetAtPath poll child = some node ∧ node.parent = some dir) :
    (children.foldl removeChild (poll, true)).1.nodes =
      poll.nodes.filter (·.path ∉ children.takeWhile fun child => ¬ Stays poll child) := by
  induction children generalizing poll with
  | nil => simp
  | cons child children inductionHypothesis =>
    rw [List.nodup_cons] at distinct
    obtain ⟨node, found, isChild⟩ := below child List.mem_cons_self
    have here := gamTreeGetAtPath_path found
    subst here
    rw [List.foldl_cons, removeChild]
    by_cases stays : Stays poll node.path
    · rw [if_neg fun removable => stays.elim (fun subscribed => subscribed removable.1)
        (fun children => removable.2.2 children), removeChildren_stop]
      simp [stays]
    · have removable := not_or.mp stays
      rw [if_pos ⟨not_not.mp removable.1, rfl, removable.2⟩]
      have elsewhere {other : Bytes} (member : other ∈ children) : other ≠ node.path := by
        rintro rfl
        exact distinct.1 member
      -- whether the others stay does not depend on the one that is taken out
      have same {other : Bytes} (member : other ∈ children) := stays_remove rooted found isChild
        (below other (List.mem_cons_of_mem _ member)) (elsewhere member)
      rw [inductionHypothesis (rooted.removed (eq_false_of_ne_true removable.2)) distinct.2 fun other member => by
        obtain ⟨sibling, foundSibling, isSibling⟩ := below other (List.mem_cons_of_mem _ member)
        exact ⟨sibling, by rwa [gamTreeGetAtPath_remove (elsewhere member)], isSibling⟩]
      have taken : (children.takeWhile fun child => ¬ Stays (gamTreeRemove
          (gamPollGenericUnregisterNode poll node.path) node.path) child) =
            children.takeWhile fun child => ¬ Stays poll child :=
        takeWhile_same children fun other member => by simp only [same member]
      rw [taken, List.takeWhile_cons_of_pos (by simpa using stays), gamTreeRemove, List.filter_filter]
      refine List.filter_congr fun other _ => ?_
      simp only [List.mem_cons, not_or, Bool.decide_and]
      exact Bool.and_comm ..

theorem Rooted.children_nodup (rooted : Rooted poll) (dir : Bytes) : (gamTreeGetChildren poll dir).Nodup := by
  have part : (gamTreeGetChildren poll dir).reverse.Sublist poll.paths := by
    rw [gamTreeGetChildren, List.reverse_reverse]
    exact List.filter_sublist.map _
  exact List.nodup_reverse.mp (rooted.distinct.sublist part)

theorem Rooted.children_below (rooted : Rooted poll) (dir child : Bytes)
    (listed : child ∈ gamTreeGetChildren poll dir) :
    ∃ found, gamTreeGetAtPath poll child = some found ∧ found.parent = some dir := by
  obtain ⟨found, member, isParent, rfl⟩ := mem_gamTreeGetChildren.mp listed
  exact ⟨found, gamTreeGetAtPath_of_mem rooted.distinct member, isParent⟩

theorem childrenRemoved_nodes (rooted : Rooted poll) (dir : Bytes) :
    (childrenRemoved poll dir).nodes =
      poll.nodes.filter (·.path ∉ (gamTreeGetChildren poll dir).takeWhile fun child => ¬ Stays poll child) :=
  foldl_removeChild_nodes rooted _ (rooted.children_nodup dir) (rooted.children_below dir)

theorem removeChildren_eq {poll : Poll} {node : GamNode} : removeChildren poll node =
    if subsAt poll node.path = [] then
      (childrenRemoved poll node.path, !parentHasDirSubscriptions (childrenRemoved poll node.path) node.parent)
    else (poll, false) := by
  unfold removeChildren childrenRemoved
  by_cases bare : subsAt poll node.path = []
  · simp only [bare, decide_true, Bool.true_and, if_true]
    simp
  · simp only [bare, decide_false, removeChildren_stop, Bool.false_and, if_false]

/-- A cancellation that returns finds no node, or the node loses the subscription and one of the
outcomes follows. -/
theorem gamPollBasicRemoveSubscription_cancelled {after : Poll} {sub : GamSubscription}
    (removed : gamPollBasicRemoveSubscription poll sub = some after) :
    (gamTreeGetAtPath poll sub.path = none ∧ after = poll) ∨
      ∃ node, gamTreeGetAtPath poll sub.path = some node ∧ sub ∈ node.subs ∧
        Cancelled (node.without sub) (poll.setNode (node.without sub)) after := by
  unfold gamPollBasicRemoveSubscription at removed
  cases found : gamTreeGetAtPath poll sub.path with
  | none =>
    simp only [found] at removed
    cases removed
    exact .inl ⟨rfl, rfl⟩
  | some node =>
    simp only [found] at removed
    obtain ⟨next, lost, rest⟩ := Option.bind_eq_some_iff.mp removed
    unfold gamNodeRemoveSubscription at lost
    split at lost
    case isFalse => contradiction
    case isTrue listed =>
    refine .inr ⟨node, rfl, listed, ?_⟩
    have isNext : poll.setNode (node.without sub) = next := Option.some.inj lost
    rw [← gamTreeGetAtPath_path found] at found
    have subs := subsAt_without_self found sub
    rw [isNext] at subs ⊢
    rw [removeChildren_eq, subs] at rest
    by_cases bare : (node.without sub).subs = []
    · rw [if_pos bare, if_pos bare] at rest
      -- taking a node off the lists changes nothing in the tree
      have listed (poll : Poll) :
          gamTreeHasChildren (gamPollGenericUnregisterNode poll node.path) node.path =
            gamTreeHasChildren poll node.path := rfl
      have entries (poll : Poll) :
          parentHasDirSubscriptions (gamPollGenericUnregisterNode poll node.path) node.parent =
            parentHasDirSubscriptions poll node.parent := rfl
      cases directory : node.isDir with
      | false =>
        simp only [directory, Bool.false_eq_true, not_false_eq_true, if_true, listed, entries] at rest
        cases childless : gamTreeHasChildren next node.path with
        | true =>
          rw [childless] at rest
          contradiction
        | false =>
          rw [childless] at rest
          cases entry : parentHasDirSubscriptions next node.parent with
          | true =>
            simp only [entry] at rest
            cases rest
            exact .fileKept bare directory childless entry
          | false =>
            simp only [entry] at rest
            cases rest
            exact .fileGone bare directory childless entry
      | true =>
        simp only [directory, not_true_eq_false, if_false, listed] at rest
        cases entry : parentHasDirSubscriptions (childrenRemoved next node.path) node.parent with
        | true =>
          simp only [entry] at rest
          cases rest
          exact .dirKept bare directory entry
        | false =>
          simp only [entry] at rest
          cases rest
          cases children : gamTreeHasChildren (childrenRemoved next node.path) node.path with
          | true => exact .dirParent bare directory entry children
          | false => exact .dirGone bare directory entry children
    · rw [if_neg bare, if_neg bare] at rest
      have unchanged : next = after := by
        split at rest <;> exact Option.some.inj rest
      rw [← unchanged]
      exact .shared bare

end

end Gamin.Polling
