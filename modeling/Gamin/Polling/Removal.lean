import Gamin.Polling.RemovalRules

/-! # Who refers to a subscription

A subscription comes to the node of its path when it is added, and it is gone from the tree when
it has been removed.  No other subscription is touched.
-/

namespace Gamin.Polling

open Gamin Gamin.Server Gamin.Inotify

/-! ## Adding -/

/-- Besides what was there, the new subscription may be at the node of its path. -/
def SubsWith (before : Poll) (sub : GamSubscription) (after : Poll) : Prop :=
  ∀ node ∈ after.nodes, ∀ other ∈ node.subs,
    (∃ old ∈ before.nodes, old.path = node.path ∧ other ∈ old.subs) ∨ other = sub ∧ node.path = sub.path

theorem SubsFrom.with {before after : Poll} (source : SubsFrom before after) (sub : GamSubscription) :
    SubsWith before sub after :=
  fun node member other subscribed => .inl (source node member other subscribed)

theorem SubsWith.then {before poll after : Poll} {sub : GamSubscription}
    (first : SubsWith before sub poll) (second : SubsFrom poll after) : SubsWith before sub after := by
  intro node member other subscribed
  obtain ⟨middle, memberMiddle, samePath, subscribedMiddle⟩ := second node member other subscribed
  rw [← samePath]
  exact first middle memberMiddle other subscribedMiddle

theorem gamNodeAddSubscription_with {before poll after : Poll} {sub : GamSubscription}
    (source : SubsFrom before poll) (added : gamNodeAddSubscription poll sub.path sub = some after) :
    SubsWith before sub after := by
  unfold gamNodeAddSubscription at added
  split at added
  · contradiction
  case h_2 node found =>
    have here := gamTreeGetAtPath_path found
    split at added
    · contradiction
    · cases added
      intro other written listed subscribed
      obtain ⟨earlier, memberEarlier, rfl⟩ := List.mem_map.mp written
      split at subscribed
      case isTrue same =>
        rw [if_pos same]
        cases List.mem_cons.mp subscribed with
        | inl new => exact .inr ⟨new, here⟩
        | inr old => exact .inl (source node (gamTreeGetAtPath_mem found) listed old)
      case isFalse different =>
        rw [if_neg different]
        exact .inl (source earlier memberEarlier listed subscribed)

theorem gamPollBasicAddSubscription_with {poll after : Poll} {now : Nat} {sub : GamSubscription}
    (added : gamPollBasicAddSubscription poll now sub = some after) : SubsWith poll sub after := by
  have clock : SameSubs poll { poll with currentTime := now } := (SameSubs.refl poll).of_nodes rfl
  obtain ⟨tree, listed, subscribed⟩ := Option.bind_eq_some_iff.mp added
  obtain ⟨node, found, rfl⟩ := Option.map_eq_some_iff.mp subscribed
  have atNode := gamNodeAddSubscription_with (clock.gamTreeAddAtPath sub.path sub.isDir).source listed
  rw [← gamTreeGetAtPath_path found] at found
  exact atNode.then (subscribedNode_keeps sub found).source

/-- The node at the path of a new subscription is the one that has been written. -/
theorem gamNodeAddSubscription_at {poll after : Poll} {path : Bytes} {node : GamNode} {sub : GamSubscription}
    (found : gamTreeGetAtPath poll path = some node) (added : gamNodeAddSubscription poll path sub = some after) :
    gamTreeGetAtPath after path = some { node with subs := sub :: node.subs } := by
  by_cases listed : sub ∈ node.subs
  · simp only [gamNodeAddSubscription, found, if_pos listed, reduceCtorEq] at added
  · obtain ⟨equation, atPath⟩ := gamNodeAddSubscription_eq found listed
    rw [equation] at added
    cases added
    exact atPath

/-- `node_add_subscription` refuses a path that does not start with a slash. -/
theorem nodeAddSubscription_with {handler : Bool} {before poll after : Poll} {sub : GamSubscription}
    {listed : Bool} (source : SubsFrom before poll)
    (added : nodeAddSubscription handler poll sub.path sub = some (after, listed)) :
    SubsWith before sub after ∧ (sub.path.head? ≠ some slash → SubsFrom before after ∧ listed = false) := by
  unfold nodeAddSubscription at added
  split at added
  · cases added
    exact ⟨source.with sub, fun _ => ⟨source, rfl⟩⟩
  case h_2 node found =>
    have samePath := gamTreeGetAtPath_path found
    split at added
    · cases added
      exact ⟨source.with sub, fun _ => ⟨source, rfl⟩⟩
    case isFalse absolute =>
      obtain ⟨tree, inTree, polled⟩ := Option.map_eq_some_iff.mp added
      refine ⟨?_, fun relative => absurd relative (samePath ▸ absolute)⟩
      have atNode := gamNodeAddSubscription_with source inTree
      have written := gamNodeAddSubscription_at found inTree
      rw [← samePath] at written
      split at polled
      · cases polled
        refine atNode.then (SameSubs.gamPollGenericAddMissing ?_ _).source
        split
        · exact gamPollDnotifyPollFile_keeps handler tree _ written
        · exact .refl tree
      · cases polled
        exact atNode.then ((SameSubs.refl tree).watches
          (watchesOnly_triggerHandler handler tree node (.inl rfl))).source

theorem gamPollDnotifyAddSubscription_with {handler : Bool} {poll after : Poll} {now : Nat}
    {sub : GamSubscription} {listed : Bool}
    (added : gamPollDnotifyAddSubscription handler poll now sub = some (after, listed)) :
    SubsWith poll sub after ∧ (sub.path.head? ≠ some slash → SubsFrom poll after) := by
  have clock : SameSubs poll { poll with currentTime := now } := (SameSubs.refl poll).of_nodes rfl
  obtain ⟨⟨tree, inTree⟩, atNode, polled⟩ := Option.map_eq_some_iff.mp added
  obtain ⟨subscribed, refused⟩ :=
    nodeAddSubscription_with (clock.gamTreeAddAtPath sub.path sub.isDir).source atNode
  simp only at polled
  split at polled
  case h_1 node found =>
    cases polled
    rw [← gamTreeGetAtPath_path found] at found
    refine ⟨subscribed.then (dnotifySubscribedNode_keeps handler sub found).source, fun relative => ?_⟩
    exact absurd (refused relative).2 (by decide)
  case h_2 =>
    cases polled
    exact ⟨subscribed, fun relative => (refused relative).1⟩

/-! ## Removing -/

theorem gamTreeRemove_fewer {poll : Poll} {path : Bytes} {node : GamNode}
    (member : node ∈ (gamTreeRemove (gamPollGenericUnregisterNode poll path) path).nodes) :
    node ∈ poll.nodes :=
  List.mem_of_mem_filter member

/-- The subscription is only at nodes with its path. -/
def Placed (poll : Poll) (sub : GamSubscription) : Prop :=
  ∀ node ∈ poll.nodes, sub ∈ node.subs → node.path = sub.path

/-- The node at the path of a subscription loses it, and no other has it. -/
theorem gamNodeRemoveSubscription_removes {poll after : Poll} {node : GamNode} {sub : GamSubscription}
    (placed : Placed poll sub) (found : gamTreeGetAtPath poll sub.path = some node)
    (removed : gamNodeRemoveSubscription poll node sub = some after) :
    SubsFrom poll after ∧ Unsubscribed after sub := by
  unfold gamNodeRemoveSubscription at removed
  split at removed
  · cases removed
    have same := gamTreeGetAtPath_path found
    refine ⟨?_, fun other written subscribed => ?_⟩
    · exact (SameSubs.refl poll).source.setNode (gamTreeGetAtPath_mem found) rfl
        fun _ subscribed => List.mem_of_mem_filter subscribed
    · obtain ⟨earlier, memberEarlier, rfl⟩ := List.mem_map.mp written
      split at subscribed
      case isTrue samePath => simp at subscribed
      case isFalse different =>
        exact different ((placed earlier memberEarlier subscribed).trans same.symm)
  · contradiction

theorem Unsubscribed.fewer {poll after : Poll} {sub : GamSubscription} (unsubscribed : Unsubscribed poll sub)
    (fewer : ∀ node ∈ after.nodes, node ∈ poll.nodes) : Unsubscribed after sub :=
  fun node member => unsubscribed node (fewer node member)

/-- Where there is no node for the path, there is no such subscription. -/
theorem Placed.unsubscribed {poll : Poll} {sub : GamSubscription} (placed : Placed poll sub)
    (absent : gamTreeGetAtPath poll sub.path = none) : Unsubscribed poll sub := by
  intro node member subscribed
  have different := List.find?_eq_none.mp absent node member
  simp [placed node member subscribed] at different

/-- What is gone stays gone. -/
theorem unsubscribedRule (base : Poll) (sub : GamSubscription) :
    RemovalRule fun poll => SubsFrom base poll ∧ Unsubscribed poll sub where
  unregistered _ gone := gone
  removed _ _ gone := ⟨gone.1.of_nodes fun _ member => gamTreeRemove_fewer member,
    gone.2.fewer fun _ member => gamTreeRemove_fewer member⟩

/-- The basic backend has forgotten a subscription that it has removed. -/
theorem gamPollBasicRemoveSubscription_removes {poll after : Poll} {sub : GamSubscription}
    (placed : Placed poll sub) (removed : gamPollBasicRemoveSubscription poll sub = some after) :
    SubsFrom poll after ∧ Unsubscribed after sub := by
  refine (unsubscribedRule poll sub).removeSubscription removed (fun absent => ?_) fun node next found lost => ?_
  · exact ⟨(SameSubs.refl poll).source, placed.unsubscribed absent⟩
  · exact gamNodeRemoveSubscription_removes placed found lost

/-- After `gam_node_remove_subscription` only the watches change. -/
theorem nodeRemoveSubscription_cases {handler : Bool} {poll after : Poll} {node : GamNode}
    {sub : GamSubscription} (removed : nodeRemoveSubscription handler poll node sub = some after) :
    (node.path.head? ≠ some slash ∧ after = poll) ∨
      ∃ next, node.path.head? = some slash ∧ gamNodeRemoveSubscription poll node sub = some next ∧
        after.nodes = next.nodes := by
  unfold nodeRemoveSubscription at removed
  split at removed
  case isTrue relative =>
    cases removed
    exact .inl ⟨relative, rfl⟩
  case isFalse absolute =>
    obtain ⟨next, lost, rest⟩ := Option.map_eq_some_iff.mp removed
    refine .inr ⟨next, not_not.mp absolute, lost, ?_⟩
    have left : (if subsAt next node.path = [] then leaveLoaded next node.path else next).nodes = next.nodes := by
      split <;> rfl
    dsimp only at rest
    generalize (if subsAt next node.path = [] then leaveLoaded next node.path else next) = tree at left rest
    split at rest
    · rw [← rest]
      exact (watchesOnly_triggerHandler handler tree node (.inr rfl)).nodes.trans left
    · rw [← rest]
      exact left

/-- So has the backend beside dnotify, which has none at a path that does not start with a
slash. -/
theorem gamPollDnotifyRemoveSubscription_removes {handler : Bool} {poll after : Poll}
    {sub : GamSubscription} (placed : Placed poll sub)
    (absolute : ¬ Unsubscribed poll sub → sub.path.head? = some slash)
    (removed : gamPollDnotifyRemoveSubscription handler poll sub = some after) :
    SubsFrom poll after ∧ Unsubscribed after sub := by
  refine (unsubscribedRule poll sub).dnotifyRemoveSubscription removed (fun absent => ?_) fun node next found lost => ?_
  · exact ⟨(SameSubs.refl poll).source, placed.unsubscribed absent⟩
  · cases nodeRemoveSubscription_cases lost with
    | inl nothing =>
      obtain ⟨relative, rfl⟩ := nothing
      rw [gamTreeGetAtPath_path found] at relative
      exact ⟨(SameSubs.refl _).source, by_contra fun subscribed => relative (absolute subscribed)⟩
    | inr written =>
      obtain ⟨tree, _, inTree, nodes⟩ := written
      have gone := gamNodeRemoveSubscription_removes placed found inTree
      have same : ∀ other ∈ next.nodes, other ∈ tree.nodes := fun _ member => nodes ▸ member
      exact ⟨gone.1.of_nodes same, gone.2.fewer same⟩

end Gamin.Polling
