import Gamin.Polling.Registration

/-! # What a cancellation keeps

Once a node has lost a subscription, nodes that nobody has subscribed to go off the lists and out of the
tree, for as long as they have no children.  What each of these removals keeps is kept by the whole
cancellation, in both polling backends.
-/

namespace Gamin.Polling

open Gamin Gamin.Server Gamin.Inotify

/-- What taking nodes off the lists and out of the tree keeps. -/
structure RemovalRule (property : Poll → Prop) : Prop where
  unregistered : ∀ {poll path}, subsAt poll path = [] → property poll →
    property (gamPollGenericUnregisterNode poll path)
  removed : ∀ {poll path}, subsAt poll path = [] → gamTreeHasChildren poll path = false →
    property poll → property (gamTreeRemove (gamPollGenericUnregisterNode poll path) path)

/-! ## Taking nodes out of the tree -/

/-- Nodes go, but only those that nobody has subscribed to. -/
def Prunes (before after : Poll) : Prop :=
  ∀ path, gamTreeGetAtPath after path = gamTreeGetAtPath before path ∨
    gamTreeGetAtPath after path = none ∧ subsAt before path = []

theorem Prunes.refl (poll : Poll) : Prunes poll poll := fun _ => .inl rfl

theorem Prunes.bare {before after : Poll} (prunes : Prunes before after) {path : Bytes}
    (bare : subsAt before path = []) : subsAt after path = [] := by
  cases prunes path with
  | inl same =>
    rw [subsAt, same]
    exact bare
  | inr gone => rw [subsAt, gone.1, Option.map_none, Option.getD_none]

theorem Prunes.trans {before poll after : Poll} (first : Prunes before poll) (second : Prunes poll after) :
    Prunes before after := by
  intro path
  cases second path with
  | inl same =>
    rw [same]
    exact first path
  | inr gone =>
    refine .inr ⟨gone.1, ?_⟩
    cases first path with
    | inl same =>
      rw [subsAt, ← same]
      exact gone.2
    | inr goneBefore => exact goneBefore.2

theorem Prunes.kept {before after : Poll} (prunes : Prunes before after) {path : Bytes}
    {sub : GamSubscription} (subscribed : SubscribedAt before path sub) : SubscribedAt after path sub := by
  obtain ⟨node, found, member⟩ := subscribed
  cases prunes path with
  | inl same => exact ⟨node, same.trans found, member⟩
  | inr gone =>
    have bare := gone.2
    rw [subsAt, found, Option.map_some, Option.getD_some] at bare
    rw [bare] at member
    contradiction

theorem gamTreeGetAtPath_remove {poll : Poll} {path other : Bytes} (different : other ≠ path) :
    gamTreeGetAtPath (gamTreeRemove (gamPollGenericUnregisterNode poll path) path) other =
      gamTreeGetAtPath poll other := by
  simp only [gamTreeGetAtPath, gamTreeRemove, List.find?_filter]
  refine congrArg (List.find? · _) (funext fun node => ?_)
  by_cases here : node.path = other
  · simp [here, different]
  · simp [here]

theorem gamTreeRemove_prunes {poll : Poll} {path : Bytes} (bare : subsAt poll path = []) :
    Prunes poll (gamTreeRemove (gamPollGenericUnregisterNode poll path) path) := by
  intro other
  by_cases here : other = path
  · subst here
    refine .inr ⟨?_, bare⟩
    simp [gamTreeGetAtPath, gamTreeRemove, List.find?_filter]
  · exact .inl (gamTreeGetAtPath_remove here)

theorem prunesRule (base : Poll) : RemovalRule (Prunes base) where
  unregistered _ prunes := prunes.trans fun _ => .inl rfl
  removed bare _ prunes := prunes.trans (gamTreeRemove_prunes bare)

section

variable {property : Poll → Prop}

/-- Nodes without subscriptions and children go, up to the first one that stays. -/
theorem RemovalRule.pruneTree (rule : RemovalRule property) {poll : Poll} {path : Option Bytes}
    (holds : property poll) : property (gamPollGenericPruneTree poll path) := by
  fun_induction gamPollGenericPruneTree poll path with
  | case1 => exact holds
  | case2 => exact holds
  | case3 poll path node found bare inductionHypothesis =>
    apply inductionHypothesis
    refine rule.removed ?_ (by simpa using bare.1) holds
    rw [subsAt, found]
    exact bare.2
  | case4 => exact holds

theorem RemovalRule.removeChild (rule : RemovalRule property) (children : List Bytes) {poll : Poll}
    (removeDir : Bool) (holds : property poll) :
    property (children.foldl removeChild (poll, removeDir)).1 := by
  induction children generalizing poll removeDir with
  | nil => exact holds
  | cons child children inductionHypothesis =>
    simp only [List.foldl_cons, Polling.removeChild]
    split
    case isTrue removable =>
      exact inductionHypothesis _ (rule.removed removable.1 (by simpa using removable.2.2) holds)
    case isFalse => exact inductionHypothesis _ holds

theorem removeChild_prunes (poll : Poll) (removeDir : Bool) (children : List Bytes) :
    Prunes poll (children.foldl removeChild (poll, removeDir)).1 :=
  (prunesRule poll).removeChild children removeDir (.refl poll)

/-! ## The two backends -/

/-- What follows when a directory node has lost a subscription. -/
theorem RemovalRule.removedDirectory (rule : RemovalRule property) {poll : Poll} (dir : GamNode)
    (holds : property poll) :
    property
      (match removeChildren poll dir with
      | (poll, false) => poll
      | (poll, true) =>
        let poll := gamPollGenericUnregisterNode poll dir.path
        let poll := if gamTreeHasChildren poll dir.path then poll else gamTreeRemove poll dir.path
        gamPollGenericPruneTree poll dir.parent) := by
  have kept := rule.removeChild (gamTreeGetChildren poll dir.path)
    (decide (subsAt poll dir.path = [])) holds
  have prunes := removeChild_prunes poll (decide (subsAt poll dir.path = []))
    (gamTreeGetChildren poll dir.path)
  simp only [removeChildren]
  generalize (gamTreeGetChildren poll dir.path).foldl Polling.removeChild
    (poll, decide (subsAt poll dir.path = [])) = outcome at kept prunes ⊢
  obtain ⟨next, _⟩ := outcome
  by_cases bare : subsAt poll dir.path = []
  · cases parentHasDirSubscriptions next dir.parent with
    | true => simpa [bare] using kept
    | false =>
      simp only [bare, decide_true, Bool.and_self, Bool.false_eq_true, not_false_eq_true]
      have stillBare : subsAt next dir.path = [] := prunes.bare bare
      split
      · exact rule.pruneTree (rule.unregistered stillBare kept)
      case isFalse childless =>
        exact rule.pruneTree (rule.removed stillBare (eq_false_of_ne_true childless) kept)
  · simpa [bare] using kept

/-- After `gam_node_remove_subscription` has done its part. -/
theorem RemovalRule.removeSubscription (rule : RemovalRule property) {poll after : Poll}
    {sub : GamSubscription} (removed : gamPollBasicRemoveSubscription poll sub = some after)
    (absent : gamTreeGetAtPath poll sub.path = none → property poll)
    (lost : ∀ node next, gamTreeGetAtPath poll sub.path = some node →
      gamNodeRemoveSubscription poll node sub = some next → property next) : property after := by
  unfold gamPollBasicRemoveSubscription at removed
  split at removed
  case h_1 notFound =>
    cases removed
    exact absent notFound
  case h_2 node found =>
    obtain ⟨next, written, rest⟩ := Option.bind_eq_some_iff.mp removed
    have kept := lost node next found written
    simp only at rest
    split at rest
    · split at rest
      case isTrue bare =>
        split at rest
        case isTrue => contradiction
        case isFalse childless =>
          split at rest
          · cases rest
            exact rule.pruneTree (rule.removed bare (eq_false_of_ne_true childless) kept)
          · cases rest
            exact rule.unregistered bare kept
      case isFalse =>
        cases rest
        exact kept
    · -- a directory goes with those of its children that may go, if all of them do
      have pruned := rule.removedDirectory node kept
      generalize removeChildren next node = outcome at rest pruned
      obtain ⟨_, removeDir⟩ := outcome
      cases removeDir <;> cases rest <;> exact pruned

/-- After `node_remove_subscription` has done its part. -/
theorem RemovalRule.dnotifyRemoveSubscription (rule : RemovalRule property) {handler : Bool} {poll after : Poll}
    {sub : GamSubscription} (removed : gamPollDnotifyRemoveSubscription handler poll sub = some after)
    (absent : gamTreeGetAtPath poll sub.path = none → property poll)
    (lost : ∀ node next, gamTreeGetAtPath poll sub.path = some node →
      nodeRemoveSubscription handler poll node sub = some next → property next) : property after := by
  unfold gamPollDnotifyRemoveSubscription at removed
  split at removed
  case h_1 notFound =>
    cases removed
    exact absent notFound
  case h_2 node found =>
    obtain ⟨next, written, rfl⟩ := Option.map_eq_some_iff.mp removed
    have kept := lost node next found written
    dsimp only
    split
    · split
      case isTrue bare =>
        split
        · exact rule.unregistered bare kept
        case isFalse childless =>
          split
          · exact rule.pruneTree (rule.removed bare (eq_false_of_ne_true childless) kept)
          · exact rule.unregistered bare kept
      case isFalse => exact kept
    · exact rule.removedDirectory node kept

end

/-! ## Subscriptions of a node -/

/-- What a node that gains or loses a subscription keeps. -/
structure SubsRule (property : Poll → Prop) : Prop where
  subscribed : ∀ {poll node sub}, gamTreeGetAtPath poll node.path = some node → node.path = sub.path →
    sub ∉ node.subs → property poll → property (poll.setNode { node with subs := sub :: node.subs })
  cancelled : ∀ {poll node sub}, gamTreeGetAtPath poll node.path = some node →
    property poll → property (poll.setNode { node with subs := node.subs.filter (· ≠ sub) })

section

variable {property : Poll → Prop} {poll after : Poll} {sub : GamSubscription}

theorem SubsRule.gamNodeAddSubscription (rule : SubsRule property)
    (added : Polling.gamNodeAddSubscription poll sub.path sub = some after) (holds : property poll) :
    property after := by
  unfold Polling.gamNodeAddSubscription at added
  split at added
  case h_1 => contradiction
  case h_2 node found =>
    split at added
    case isTrue => contradiction
    case isFalse new =>
      cases added
      have own := gamTreeGetAtPath_path found
      rw [← own] at found
      exact rule.subscribed found own new holds

theorem SubsRule.gamNodeRemoveSubscription (rule : SubsRule property) {path : Bytes} {node : GamNode}
    (found : gamTreeGetAtPath poll path = some node)
    (lost : Polling.gamNodeRemoveSubscription poll node sub = some after) (holds : property poll) :
    property after := by
  unfold Polling.gamNodeRemoveSubscription at lost
  split at lost
  case isTrue =>
    cases lost
    rw [← gamTreeGetAtPath_path found] at found
    exact rule.cancelled found holds
  case isFalse => contradiction

end

end Gamin.Polling
