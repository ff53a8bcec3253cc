import Gamin.Polling.Removal

/-! # Who stays at a node

Adding a subscription leaves the others where they are, and so does removing one: a node is only
taken out of the tree when nobody has subscribed to it.  Both polling backends assert on the way
that the subscription is there, and the basic one that a file has no children.
-/

namespace Gamin.Polling

open Gamin Gamin.Server Gamin.Inotify

/-- Everybody but the subscription stays. -/
def OthersStay (before : Poll) (sub : GamSubscription) (after : Poll) : Prop :=
  ∀ path other, other ≠ sub → SubscribedAt before path other → SubscribedAt after path other

theorem SameSubs.othersStay {before after : Poll} (same : SameSubs before after) (sub : GamSubscription) :
    OthersStay before sub after :=
  fun _ _ _ subscribed => subscribed.kept same

theorem OthersStay.trans {before poll after : Poll} {sub : GamSubscription} (first : OthersStay before sub poll)
    (second : OthersStay poll sub after) : OthersStay before sub after :=
  fun path other different subscribed => second path other different (first path other different subscribed)

/-- A node is written back with or without the subscription. -/
theorem othersStay_setNode {poll : Poll} {sub : GamSubscription} {old node : GamNode}
    (found : gamTreeGetAtPath poll node.path = some old)
    (stay : ∀ other ∈ old.subs, other ≠ sub → other ∈ node.subs) :
    OthersStay poll sub (poll.setNode node) := by
  intro path other different subscribed
  obtain ⟨at_path, foundAt, member⟩ := subscribed
  refine ⟨_, by rw [gamTreeGetAtPath_setNode, foundAt]; rfl, ?_⟩
  dsimp only
  split
  case isTrue same =>
    rw [← same, gamTreeGetAtPath_path foundAt, foundAt] at found
    cases found
    exact stay other member different
  case isFalse => exact member

/-! ## Adding -/

theorem gamNodeAddSubscription_stay {poll after : Poll} {sub : GamSubscription}
    (added : gamNodeAddSubscription poll sub.path sub = some after) : OthersStay poll sub after := by
  unfold gamNodeAddSubscription at added
  split at added
  · contradiction
  case h_2 node found =>
    split at added
    · contradiction
    · cases added
      apply @othersStay_setNode _ _ node { node with subs := sub :: node.subs }
      · rw [← gamTreeGetAtPath_path found] at found
        exact found
      · exact fun other member _ => List.mem_cons_of_mem _ member

theorem gamPollBasicAddSubscription_stay {poll after : Poll} {now : Nat} {sub : GamSubscription}
    (added : gamPollBasicAddSubscription poll now sub = some after) : OthersStay poll sub after := by
  have clock : SameSubs poll { poll with currentTime := now } := (SameSubs.refl poll).of_nodes rfl
  obtain ⟨tree, listed, subscribed⟩ := Option.bind_eq_some_iff.mp added
  obtain ⟨node, found, rfl⟩ := Option.map_eq_some_iff.mp subscribed
  rw [← gamTreeGetAtPath_path found] at found
  exact (((clock.gamTreeAddAtPath sub.path sub.isDir).othersStay sub).trans
    (gamNodeAddSubscription_stay listed)).trans ((subscribedNode_keeps sub found).othersStay sub)

theorem nodeAddSubscription_stay {handler : Bool} {poll after : Poll} {sub : GamSubscription} {listed : Bool}
    (added : nodeAddSubscription handler poll sub.path sub = some (after, listed)) :
    OthersStay poll sub after := by
  unfold nodeAddSubscription at added
  split at added
  · cases added
    exact (SameSubs.refl poll).othersStay sub
  case h_2 node found =>
    split at added
    · cases added
      exact (SameSubs.refl poll).othersStay sub
    · obtain ⟨tree, inTree, polled⟩ := Option.map_eq_some_iff.mp added
      have stay := gamNodeAddSubscription_stay inTree
      have written := gamNodeAddSubscription_at found inTree
      rw [← gamTreeGetAtPath_path found] at written
      split at polled
      · cases polled
        refine stay.trans (SameSubs.othersStay ?_ sub)
        apply SameSubs.gamPollGenericAddMissing
        split
        · exact gamPollDnotifyPollFile_keeps handler tree _ written
        · exact .refl tree
      · cases polled
        exact stay.trans (((SameSubs.refl tree).watches
          (watchesOnly_triggerHandler handler tree node (.inl rfl))).othersStay sub)

theorem gamPollDnotifyAddSubscription_stay {handler : Bool} {poll after : Poll} {now : Nat}
    {sub : GamSubscription} {listed : Bool}
    (added : gamPollDnotifyAddSubscription handler poll now sub = some (after, listed)) :
    OthersStay poll sub after := by
  have clock : SameSubs poll { poll with currentTime := now } := (SameSubs.refl poll).of_nodes rfl
  obtain ⟨⟨tree, inTree⟩, atNode, polled⟩ := Option.map_eq_some_iff.mp added
  have stay := ((clock.gamTreeAddAtPath sub.path sub.isDir).othersStay sub).trans
    (nodeAddSubscription_stay atNode)
  simp only at polled
  split at polled
  case h_1 node found =>
    cases polled
    rw [← gamTreeGetAtPath_path found] at found
    exact stay.trans ((dnotifySubscribedNode_keeps handler sub found).othersStay sub)
  case h_2 =>
    cases polled
    exact stay

/-- The backend beside dnotify always comes back with a new subscription. -/
theorem gamPollDnotifyAddSubscription_returns (handler : Bool) {poll : Poll} (now : Nat)
    {sub : GamSubscription} (new : Unsubscribed poll sub) :
    ∃ after listed, gamPollDnotifyAddSubscription handler poll now sub = some (after, listed) ∧
      (sub.path.head? = some slash → SubscribedAt after sub.path sub) := by
  by_cases nonempty : sub.path = []
  · -- there is no node for an empty path, or one that is not absolute
    have refused : ∃ after, nodeAddSubscription handler
        (gamTreeAddAtPath { poll with currentTime := now } sub.path sub.isDir) sub.path sub = some (after, false) := by
      unfold nodeAddSubscription
      split
      · exact ⟨_, rfl⟩
      case h_2 node found =>
        rw [gamTreeGetAtPath_path found, nonempty, if_pos (by decide)]
        exact ⟨_, rfl⟩
    obtain ⟨after, refused⟩ := refused
    refine ⟨after, false, by simp only [gamPollDnotifyAddSubscription, refused, Option.map_some], fun absolute => ?_⟩
    rw [nonempty] at absolute
    contradiction
  · obtain ⟨after, added, subscribed⟩ := gamPollDnotifyAddSubscription_subscribes handler now new nonempty
    exact ⟨after, _, added, subscribed⟩

/-! ## Removing -/

theorem gamNodeRemoveSubscription_stay {poll after : Poll} {node : GamNode} {sub : GamSubscription}
    (found : gamTreeGetAtPath poll sub.path = some node)
    (removed : gamNodeRemoveSubscription poll node sub = some after) : OthersStay poll sub after := by
  rw [← gamTreeGetAtPath_path found] at found
  unfold gamNodeRemoveSubscription at removed
  split at removed
  · cases removed
    refine @othersStay_setNode _ _ node { node with subs := node.subs.filter (· ≠ sub) } found ?_
    exact fun other member different => List.mem_filter.mpr ⟨member, by simpa using different⟩
  · contradiction

theorem othersStayRule (base : Poll) (sub : GamSubscription) : RemovalRule (OthersStay base sub) where
  unregistered _ stay := stay
  removed bare _ stay path other different subscribed :=
    (gamTreeRemove_prunes bare).kept (stay path other different subscribed)

/-- The others stay when the basic backend has removed a subscription. -/
theorem gamPollBasicRemoveSubscription_stay {poll after : Poll} {sub : GamSubscription}
    (removed : gamPollBasicRemoveSubscription poll sub = some after) : OthersStay poll sub after :=
  (othersStayRule poll sub).removeSubscription removed (fun _ => (SameSubs.refl poll).othersStay sub)
    fun _ _ found lost => gamNodeRemoveSubscription_stay found lost

/-- So they do with the backend beside dnotify. -/
theorem gamPollDnotifyRemoveSubscription_stay {handler : Bool} {poll after : Poll} {sub : GamSubscription}
    (removed : gamPollDnotifyRemoveSubscription handler poll sub = some after) :
    OthersStay poll sub after := by
  have nobody := (SameSubs.refl poll).othersStay sub
  refine (othersStayRule poll sub).dnotifyRemoveSubscription removed (fun _ => nobody) fun node next found lost => ?_
  cases nodeRemoveSubscription_cases lost with
  | inl nothing =>
    obtain ⟨_, rfl⟩ := nothing
    exact nobody
  | inr written =>
    obtain ⟨tree, _, inTree, nodes⟩ := written
    exact (gamNodeRemoveSubscription_stay found inTree).trans (((SameSubs.refl tree).of_nodes nodes).othersStay sub)

/-! ## The assertions -/

theorem gamNodeRemoveSubscription_eq {poll : Poll} {node : GamNode} {sub : GamSubscription}
    (member : sub ∈ node.subs) : gamNodeRemoveSubscription poll node sub =
      some (poll.setNode { node with subs := node.subs.filter (· ≠ sub) }) := if_pos member

/-- Nobody comes to have children when a node is written back. -/
theorem childless_setNode {poll : Poll} {old node : GamNode} {path : Bytes}
    (found : gamTreeGetAtPath poll path = some old) (parent : node.parent = old.parent)
    (childless : gamTreeHasChildren poll path = false) : gamTreeHasChildren (poll.setNode node) path = false := by
  have noChild : ∀ other ∈ poll.nodes, other.parent ≠ some path := by
    simpa [gamTreeHasChildren] using childless
  simp only [gamTreeHasChildren, Poll.setNode, List.any_map, List.any_eq_false, Function.comp_apply,
    decide_eq_true_eq]
  intro other member
  split
  · rw [parent]
    exact noChild old (gamTreeGetAtPath_mem found)
  · exact noChild other member

/-- Somebody else has subscribed to the node. -/
def Shared (node : GamNode) (sub : GamSubscription) : Prop := ∃ other ∈ node.subs, other ≠ sub

instance (node : GamNode) (sub : GamSubscription) : Decidable (Shared node sub) :=
  inferInstanceAs (Decidable (∃ other ∈ node.subs, other ≠ sub))

/-- The basic backend asserts that the node has the subscription, and that a file which nobody else
has subscribed to has no children. -/
theorem gamPollBasicRemoveSubscription_returns {poll : Poll} {sub : GamSubscription}
    (listed : ∀ node, gamTreeGetAtPath poll sub.path = some node → sub ∈ node.subs)
    (childless : ∀ node, gamTreeGetAtPath poll sub.path = some node →
      node.isDir = true ∨ Shared node sub ∨ gamTreeHasChildren poll sub.path = false) :
    ∃ after, gamPollBasicRemoveSubscription poll sub = some after := by
  cases found : gamTreeGetAtPath poll sub.path with
  | none => exact ⟨poll, by simp only [gamPollBasicRemoveSubscription, found]⟩
  | some node =>
    have path := gamTreeGetAtPath_path found
    simp only [gamPollBasicRemoveSubscription, found, gamNodeRemoveSubscription_eq (listed node found),
      Option.bind_some]
    generalize written : poll.setNode { node with subs := node.subs.filter (· ≠ sub) } = next
    have bare : subsAt next node.path = [] ↔ ¬ Shared node sub := by
      rw [← written, subsAt, gamTreeGetAtPath_setNode, path, found]
      simp [path, Shared, List.filter_eq_nil_iff]
    -- the assertion is on a file that nobody else has subscribed to
    rcases childless node found with isDir | shared | noChild
    · simp only [isDir, not_true_eq_false, if_false]
      generalize removeChildren next node = outcome
      obtain ⟨_, removeDir⟩ := outcome
      cases removeDir <;> exact ⟨_, rfl⟩
    · simp only [if_neg (mt bare.mp (not_not.mpr shared))]
      split
      · exact ⟨next, rfl⟩
      · generalize removeChildren next node = outcome
        obtain ⟨_, removeDir⟩ := outcome
        cases removeDir <;> exact ⟨_, rfl⟩
    · have stillNone : gamTreeHasChildren (gamPollGenericUnregisterNode next node.path) node.path = false := by
        rw [path, ← written]
        exact childless_setNode found rfl noChild
      simp only [stillNone, Bool.false_eq_true, if_false]
      split
      · split
        · split <;> exact ⟨_, rfl⟩
        · exact ⟨next, rfl⟩
      · generalize removeChildren next node = outcome
        obtain ⟨_, removeDir⟩ := outcome
        cases removeDir <;> exact ⟨_, rfl⟩

/-- The backend beside dnotify only asserts that the node has the subscription. -/
theorem gamPollDnotifyRemoveSubscription_returns (handler : Bool) {poll : Poll} {sub : GamSubscription}
    (listed : ∀ node, gamTreeGetAtPath poll sub.path = some node → sub.path.head? = some slash →
      sub ∈ node.subs) : ∃ after, gamPollDnotifyRemoveSubscription handler poll sub = some after := by
  cases found : gamTreeGetAtPath poll sub.path with
  | none => exact ⟨poll, by simp only [gamPollDnotifyRemoveSubscription, found]⟩
  | some node =>
    simp only [gamPollDnotifyRemoveSubscription, found, nodeRemoveSubscription, gamTreeGetAtPath_path found]
    by_cases absolute : sub.path.head? = some slash
    · rw [if_neg (not_not.mpr absolute), gamNodeRemoveSubscription_eq (listed node found absolute)]
      exact ⟨_, rfl⟩
    · rw [if_pos absolute]
      exact ⟨_, rfl⟩

end Gamin.Polling
