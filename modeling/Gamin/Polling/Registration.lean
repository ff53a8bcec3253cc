import Gamin.Polling.NodeFrames

/-! # Nodes keep their subscriptions

Polling and scanning add nodes and rewrite their attributes, but no node loses or gains a
subscription.  So a subscription is at its node after both polling backends have added it.
-/

namespace Gamin.Polling

open Gamin Gamin.Server Gamin.Inotify

/-! ## Nodes and their subscriptions -/

/-- Every node is still there with its subscriptions. -/
def KeepsSubs (before after : Poll) : Prop :=
  ∀ path node, gamTreeGetAtPath before path = some node →
    ∃ next, gamTreeGetAtPath after path = some next ∧ next.subs = node.subs

/-- Every subscription at a node has been at a node with the same path. -/
def SubsFrom (before after : Poll) : Prop :=
  ∀ node ∈ after.nodes, ∀ sub ∈ node.subs, ∃ old ∈ before.nodes, old.path = node.path ∧ sub ∈ old.subs

/-- No node loses or gains a subscription. -/
structure SameSubs (before after : Poll) : Prop where
  keeps : KeepsSubs before after
  source : SubsFrom before after

theorem SubsFrom.trans {before poll after : Poll} (first : SubsFrom before poll)
    (second : SubsFrom poll after) : SubsFrom before after := by
  intro node member sub subscribed
  obtain ⟨middle, memberMiddle, samePath, subscribedMiddle⟩ := second node member sub subscribed
  obtain ⟨old, memberOld, samePathOld, subscribedOld⟩ :=
    first middle memberMiddle sub subscribedMiddle
  exact ⟨old, memberOld, samePathOld.trans samePath, subscribedOld⟩

/-- Nodes go, or are written back with fewer subscriptions. -/
theorem SubsFrom.of_nodes {before poll after : Poll} (source : SubsFrom before poll)
    (fewer : ∀ node ∈ after.nodes, node ∈ poll.nodes) : SubsFrom before after :=
  fun node member => source node (fewer node member)

theorem SameSubs.refl (poll : Poll) : SameSubs poll poll where
  keeps := fun _ node found => ⟨node, found, rfl⟩
  source := fun node member _ subscribed => ⟨node, member, rfl, subscribed⟩

theorem SameSubs.trans {before poll after : Poll} (first : SameSubs before poll)
    (second : SameSubs poll after) : SameSubs before after where
  keeps := by
    intro path node found
    obtain ⟨middle, foundMiddle, subsMiddle⟩ := first.keeps path node found
    obtain ⟨last, foundLast, subsLast⟩ := second.keeps path middle foundMiddle
    exact ⟨last, foundLast, subsLast.trans subsMiddle⟩
  source := first.source.trans second.source

/-- What is not in the tree does not matter. -/
theorem SameSubs.of_nodes {before poll after : Poll} (same : SameSubs before poll)
    (nodes : after.nodes = poll.nodes) : SameSubs before after where
  keeps := by
    intro path node found
    obtain ⟨next, foundNext, subs⟩ := same.keeps path node found
    exact ⟨next, by simpa only [gamTreeGetAtPath, nodes] using foundNext, subs⟩
  source := same.source.of_nodes fun node member => nodes ▸ member

/-- What is written to a node has been there. -/
theorem SubsFrom.setNode {before poll : Poll} (source : SubsFrom before poll) {old node : GamNode}
    (member : old ∈ before.nodes) (path : node.path = old.path) (subs : ∀ sub ∈ node.subs, sub ∈ old.subs) :
    SubsFrom before (poll.setNode node) := by
  intro other written sub subscribed
  obtain ⟨earlier, memberEarlier, rfl⟩ := List.mem_map.mp written
  split at subscribed
  case isTrue same =>
    rw [if_pos same]
    exact ⟨old, member, path.symm, subs sub subscribed⟩
  case isFalse different =>
    rw [if_neg different]
    exact source earlier memberEarlier sub subscribed

/-- A node is written back with the subscriptions it had. -/
theorem SameSubs.setNode {before poll : Poll} (same : SameSubs before poll)
    {old node : GamNode} (found : gamTreeGetAtPath before old.path = some old)
    (path : node.path = old.path) (subs : node.subs = old.subs) :
    SameSubs before (poll.setNode node) where
  keeps := by
    intro otherPath other foundOther
    obtain ⟨next, foundNext, subsNext⟩ := same.keeps otherPath other foundOther
    rw [gamTreeGetAtPath_setNode, foundNext]
    refine ⟨_, rfl, ?_⟩
    dsimp only
    split
    case isFalse => exact subsNext
    case isTrue samePath =>
      have here : otherPath = old.path := by
        rw [← gamTreeGetAtPath_path foundNext, samePath, path]
      rw [here, found] at foundOther
      cases foundOther
      exact subs
  source := same.source.setNode (gamTreeGetAtPath_mem found) path fun _ subscribed => subs ▸ subscribed

theorem SameSubs.gamTreeAdd {before poll : Poll} (same : SameSubs before poll)
    {child : GamNode} (bare : child.subs = []) : SameSubs before (gamTreeAdd poll child) := by
  simp only [Polling.gamTreeAdd]
  split
  · exact same
  · refine ⟨fun path node found => ?_, fun node member sub subscribed => ?_⟩
    · obtain ⟨next, foundNext, subs⟩ := same.keeps path node found
      refine ⟨next, ?_, subs⟩
      simp only [gamTreeGetAtPath] at foundNext ⊢
      rw [List.find?_append, foundNext, Option.some_or]
    · cases List.mem_append.mp member with
      | inl old => exact same.source node old sub subscribed
      | inr new =>
        rw [List.mem_singleton.mp new, bare] at subscribed
        exact absurd subscribed List.not_mem_nil

theorem SameSubs.addParents {before poll : Poll} (same : SameSubs before poll)
    (parent : Option Bytes) (paths : List Bytes) :
    SameSubs before (addParents poll parent paths).1 := by
  induction paths generalizing poll parent with
  | nil => exact same
  | cons path paths inductionHypothesis =>
    exact inductionHypothesis (same.gamTreeAdd rfl) (some path)

theorem SameSubs.gamTreeAddAtPath {before poll : Poll} (same : SameSubs before poll)
    (path : Bytes) (isDir : Bool) : SameSubs before (gamTreeAddAtPath poll path isDir) := by
  simp only [Polling.gamTreeAddAtPath]
  split
  · exact same
  · split
    · exact same
    · refine SameSubs.gamTreeAdd (SameSubs.addParents ?_ none _) rfl
      split
      · exact same.of_nodes rfl
      · exact same.of_nodes rfl

/-! ## Polling a node -/

theorem sameSubs_frame : NodeFrame SameSubs where
  refl := .refl
  trans first second := first.trans second
  known same there := by
    obtain ⟨node, found⟩ := Option.isSome_iff_exists.mp there
    obtain ⟨next, foundNext, _⟩ := same.keeps _ node found
    exact Option.isSome_of_eq_some foundNext
  write write := (SameSubs.refl _).of_nodes write.nodes
  of_nodes same nodes := same.of_nodes nodes
  setNode same found rewrites := same.setNode found rewrites.path rewrites.subs

/-- A hook that polls a node of the tree and keeps all subscriptions. -/
def KeepingHook (pollFile : PollFile) : Prop :=
  ∀ poll node, gamTreeGetAtPath poll node.path = some node → SameSubs poll (pollFile poll node).1

theorem gamPollBasicPollFile_keeps : KeepingHook gamPollBasicPollFile :=
  fun _ _ found => sameSubs_frame.basicPollFile found

theorem gamPollDnotifyPollFile_keeps (handler : Bool) : KeepingHook (gamPollDnotifyPollFile handler) :=
  fun _ _ found => sameSubs_frame.dnotifyPollFile handler found

theorem SameSubs.watches {before poll after : Poll} (same : SameSubs before poll)
    (only : WatchesOnly poll after) : SameSubs before after := same.of_nodes only.nodes

theorem SameSubs.gamPollGenericAddMissing {before poll : Poll} (same : SameSubs before poll)
    (path : Bytes) : SameSubs before (gamPollGenericAddMissing poll path) := sameSubs_frame.addMissing same path

theorem SameSubs.gamPollGenericRemoveMissing {before poll : Poll} (same : SameSubs before poll)
    (path : Bytes) : SameSubs before (gamPollGenericRemoveMissing poll path) := same.of_nodes rfl

theorem SameSubs.gamPollGenericRemoveBusy {before poll : Poll} (same : SameSubs before poll)
    (path : Bytes) : SameSubs before (gamPollGenericRemoveBusy poll path) := same.of_nodes rfl

theorem SameSubs.gamPollGenericAdd {before poll : Poll} (same : SameSubs before poll)
    (path : Bytes) : SameSubs before (gamPollGenericAdd poll path) := sameSubs_frame.add same path

theorem SameSubs.flowControl {before poll : Poll} (same : SameSubs before poll)
    (handler : Bool) (node : GamNode) (start : Bool) :
    SameSubs before (flowControl handler poll node start) :=
  sameSubs_frame.flowControl same handler node start

/-! ## The first scan -/

theorem SameSubs.firstScanName {before poll : Poll} (same : SameSubs before poll)
    (sub : GamSubscription) (withExists : Bool) (dpath name : Bytes) :
    SameSubs before (firstScanName sub withExists dpath poll name) := by
  have called : SameSubs before poll.called.called := same.of_nodes rfl
  have announced {known : Poll} (same : SameSubs before known) :
      SameSubs before (if withExists then gamServerEmitEvent known name true .exists [sub] true
        else known) := by
    split
    · exact same.of_nodes rfl
    · exact same
  apply announced
  split
  · exact same
  · exact called.gamTreeAdd rfl

theorem SameSubs.firstScanNames {before poll : Poll} (same : SameSubs before poll)
    (sub : GamSubscription) (withExists : Bool) (dpath : Bytes) (names : List Bytes) :
    SameSubs before (names.foldl (Polling.firstScanName sub withExists dpath) poll) := by
  induction names generalizing poll with
  | nil => exact same
  | cons name names inductionHypothesis =>
    exact inductionHypothesis (same.firstScanName sub withExists dpath name)

theorem firstScanPresent_keeps {pollFile : PollFile} (hook : KeepingHook pollFile) (poll : Poll)
    (sub : GamSubscription) (withExists : Bool) (dpath : Bytes) :
    SameSubs poll (firstScanPresent pollFile poll sub withExists dpath) := by
  unfold firstScanPresent
  extract_lets polled announced
  have samePolled : SameSubs poll polled := by
    simp only [polled]
    split
    case h_1 node found =>
      split
      · apply hook
        rw [gamTreeGetAtPath_path found]
        exact found
      · exact .refl poll
    case h_2 => exact .refl poll
  have sameAnnounced : SameSubs poll announced.called := by
    simp only [announced]
    split
    · exact samePolled.of_nodes rfl
    · exact samePolled.of_nodes rfl
  split
  · exact sameAnnounced
  · exact sameAnnounced.firstScanNames sub withExists dpath _

theorem gamPollGenericFirstScanDir_keeps {pollFile : PollFile} (hook : KeepingHook pollFile)
    (poll : Poll) (sub : GamSubscription) (dpath : Bytes) :
    SameSubs poll (gamPollGenericFirstScanDir pollFile poll sub dpath) := by
  have called : SameSubs poll poll.called := (SameSubs.refl poll).of_nodes rfl
  have scanned : ∀ withExists : Bool, SameSubs poll
      (if (poll.view.stat dpath).exists then firstScanPresent pollFile poll.called sub withExists dpath
        else firstScanMissing poll.called sub dpath) := by
    intro withExists
    split
    · exact called.trans (firstScanPresent_keeps hook poll.called sub withExists dpath)
    · exact called.trans (sameSubs_frame.firstScanMissing poll.called sub dpath)
  simp only [gamPollGenericFirstScanDir]
  split
  · exact (scanned _).of_nodes rfl
  · exact scanned _

/-! ## Adding a subscription -/

/-- The node at a path has the subscription. -/
def SubscribedAt (poll : Poll) (path : Bytes) (sub : GamSubscription) : Prop :=
  ∃ node, gamTreeGetAtPath poll path = some node ∧ sub ∈ node.subs

theorem SubscribedAt.kept {before after : Poll} {path : Bytes} {sub : GamSubscription}
    (subscribed : SubscribedAt before path sub) (same : SameSubs before after) :
    SubscribedAt after path sub := by
  obtain ⟨node, found, member⟩ := subscribed
  obtain ⟨next, foundNext, subs⟩ := same.keeps path node found
  exact ⟨next, foundNext, by rwa [subs]⟩

theorem gamTreeAdd_isSome (poll : Poll) (child : GamNode) :
    (gamTreeGetAtPath (gamTreeAdd poll child) child.path).isSome := by
  simp only [gamTreeAdd]
  split
  case isTrue present => exact present
  case isFalse => simp [gamTreeGetAtPath]

theorem gamTreeAdd_other (poll : Poll) {child : GamNode} {path : Bytes} (different : child.path ≠ path) :
    gamTreeGetAtPath (gamTreeAdd poll child) path = gamTreeGetAtPath poll path := by
  simp only [gamTreeAdd]
  split
  · rfl
  · simp [gamTreeGetAtPath, List.find?_append, different]

theorem gamTreeAdd_self {poll : Poll} {child : GamNode} (unknown : gamTreeGetAtPath poll child.path = none) :
    gamTreeGetAtPath (gamTreeAdd poll child) child.path = some child := by
  simp only [gamTreeAdd, unknown, Option.isSome_none, Bool.false_eq_true, if_false]
  rw [gamTreeGetAtPath, List.find?_append, ← gamTreeGetAtPath, unknown]
  simp

theorem addParents_other {path : Bytes} (paths : List Bytes) (absent : path ∉ paths) (poll : Poll)
    (parent : Option Bytes) :
    gamTreeGetAtPath (addParents poll parent paths).1 path = gamTreeGetAtPath poll path := by
  induction paths generalizing poll parent with
  | nil => rfl
  | cons first paths inductionHypothesis =>
    rw [List.mem_cons, not_or] at absent
    rw [addParents, inductionHypothesis absent.2]
    exact gamTreeAdd_other poll (Ne.symm absent.1)

/-- The parents of a path are shorter than the path. -/
theorem not_mem_pathParents (path : Bytes) : path ∉ pathParents path := by
  intro member
  obtain ⟨i, chosen, same⟩ := List.mem_map.mp member
  have short : i < path.length := List.mem_range.mp (List.mem_filter.mp chosen).1
  have length := congrArg List.length same
  rw [List.length_take] at length
  omega

/-- A path that is not empty has a node in the end. -/
theorem gamTreeAddAtPath_isSome (poll : Poll) {path : Bytes} (nonempty : path ≠ []) (isDir : Bool) :
    (gamTreeGetAtPath (gamTreeAddAtPath poll path isDir) path).isSome := by
  simp only [gamTreeAddAtPath, if_neg nonempty]
  split
  case isTrue present => exact present
  case isFalse => exact gamTreeAdd_isSome _ (gamNodeNew _ path _ _)

/-- A path that has a node keeps it as it is. -/
theorem gamTreeAddAtPath_known {poll : Poll} {path : Bytes} {node : GamNode}
    (known : gamTreeGetAtPath poll path = some node) (isDir : Bool) : gamTreeAddAtPath poll path isDir = poll := by
  unfold gamTreeAddAtPath
  split
  · rfl
  · rw [known, Option.isSome_some, if_pos rfl]

/-- A path without a node gets a new one. -/
theorem gamTreeAddAtPath_fresh {poll : Poll} {path : Bytes} (nonempty : path ≠ [])
    (absent : gamTreeGetAtPath poll path = none) (isDir : Bool) : ∃ looked isDirNow parent,
      gamTreeGetAtPath (gamTreeAddAtPath poll path isDir) path = some (gamNodeNew looked path isDirNow parent) := by
  unfold gamTreeAddAtPath
  rw [if_neg nonempty, absent, Option.isSome_none, if_neg Bool.false_ne_true]
  extract_lets found called isDirNow looked
  have same : gamTreeGetAtPath looked path = gamTreeGetAtPath poll path := by
    simp only [looked]
    split <;> rfl
  have free := (addParents_other (pathParents path) (not_mem_pathParents path) looked none).trans (same.trans absent)
  exact ⟨_, _, _, gamTreeAdd_self free⟩

/-- Nobody at any node has the subscription. -/
def Unsubscribed (poll : Poll) (sub : GamSubscription) : Prop :=
  ∀ node ∈ poll.nodes, sub ∉ node.subs

theorem Unsubscribed.kept {before after : Poll} {sub : GamSubscription}
    (unsubscribed : Unsubscribed before sub) (source : SubsFrom before after) : Unsubscribed after sub := by
  intro node member subscribed
  obtain ⟨old, memberOld, _, subscribedOld⟩ := source node member sub subscribed
  exact unsubscribed old memberOld subscribedOld

/-- `gam_node_add_subscription` at a node that does not have the subscription. -/
theorem gamNodeAddSubscription_eq {poll : Poll} {path : Bytes} {node : GamNode}
    {sub : GamSubscription} (found : gamTreeGetAtPath poll path = some node)
    (new : sub ∉ node.subs) :
    gamNodeAddSubscription poll path sub =
        some (poll.setNode { node with subs := sub :: node.subs }) ∧
      gamTreeGetAtPath (poll.setNode { node with subs := sub :: node.subs }) path =
        some { node with subs := sub :: node.subs } := by
  constructor
  · simp only [gamNodeAddSubscription, found, if_neg new]
  · simp [gamTreeGetAtPath_setNode, found]

theorem subscribedNode_keeps {poll : Poll} {node : GamNode} (sub : GamSubscription)
    (found : gamTreeGetAtPath poll node.path = some node) :
    SameSubs poll (subscribedNode poll sub node) := by
  unfold subscribedNode
  extract_lets polled missing listed
  have samePolled : SameSubs poll polled := by
    simp only [polled]
    split
    · exact gamPollGenericFirstScanDir_keeps gamPollBasicPollFile_keeps poll sub node.path
    · exact (gamPollBasicPollFile_keeps poll node found).of_nodes rfl
  apply SameSubs.gamPollGenericAdd
  simp only [listed]
  split
  · exact samePolled.gamPollGenericAddMissing node.path
  · exact samePolled

theorem addPolled_keeps {before poll : Poll} (same : SameSubs before poll)
    (sub : GamSubscription) (path : Bytes) (nodeIsDir : Bool) :
    SameSubs before (addPolled poll sub path nodeIsDir) := by
  simp only [addPolled]
  split
  · exact same.gamPollGenericAdd path
  · exact (same.gamTreeAddAtPath _ sub.isDir).gamPollGenericAdd _

theorem dnotifySubscribedNode_keeps (handler : Bool) {poll : Poll} {node : GamNode}
    (sub : GamSubscription) (found : gamTreeGetAtPath poll node.path = some node) :
    SameSubs poll (dnotifySubscribedNode handler poll sub node) := by
  have hook := gamPollDnotifyPollFile_keeps handler
  unfold dnotifySubscribedNode
  extract_lets polled unwatched listed
  have samePolled : SameSubs poll polled := by
    simp only [polled]
    split
    · exact gamPollGenericFirstScanDir_keeps hook poll sub node.path
    · exact (hook poll node found).of_nodes rfl
  apply addPolled_keeps
  simp only [listed]
  split
  · exact samePolled.gamPollGenericAddMissing node.path
  · exact samePolled

/-- Both backends find or make a node at a path that is not empty; nobody has subscribed
to it yet with the new subscription. -/
theorem gamTreeAddAtPath_new {poll : Poll} {sub : GamSubscription} (new : Unsubscribed poll sub)
    (now : Nat) (nonempty : sub.path ≠ []) :
    ∃ node, gamTreeGetAtPath
        (gamTreeAddAtPath { poll with currentTime := now } sub.path sub.isDir) sub.path = some node ∧
      node.path = sub.path ∧ sub ∉ node.subs := by
  obtain ⟨node, found⟩ := Option.isSome_iff_exists.mp
    (gamTreeAddAtPath_isSome { poll with currentTime := now } nonempty sub.isDir)
  have same : SameSubs poll { poll with currentTime := now } := (SameSubs.refl poll).of_nodes rfl
  exact ⟨node, found, gamTreeGetAtPath_path found,
    new.kept (same.gamTreeAddAtPath sub.path sub.isDir).source node (gamTreeGetAtPath_mem found)⟩

/-- The basic backend takes every new subscription to a path that is not empty. -/
theorem gamPollBasicAddSubscription_subscribes {poll : Poll} (now : Nat) {sub : GamSubscription}
    (new : Unsubscribed poll sub) (nonempty : sub.path ≠ []) :
    ∃ after, gamPollBasicAddSubscription poll now sub = some after ∧
      SubscribedAt after sub.path sub := by
  obtain ⟨node, found, path, unlisted⟩ := gamTreeAddAtPath_new new now nonempty
  obtain ⟨added, foundAdded⟩ := gamNodeAddSubscription_eq found unlisted
  generalize written : (gamTreeAddAtPath { poll with currentTime := now } sub.path
    sub.isDir).setNode { node with subs := sub :: node.subs } = listed at added foundAdded
  refine ⟨subscribedNode listed sub { node with subs := sub :: node.subs }, ?_, ?_⟩
  · simp only [gamPollBasicAddSubscription, added, Option.bind_some, foundAdded, Option.map_some]
  · have subscribed : SubscribedAt listed sub.path sub := ⟨_, foundAdded, List.mem_cons_self⟩
    rw [← path] at foundAdded
    exact subscribed.kept (subscribedNode_keeps sub foundAdded)

/-- The backend beside dnotify takes those to an absolute path. -/
theorem gamPollDnotifyAddSubscription_subscribes (handler : Bool) {poll : Poll} (now : Nat)
    {sub : GamSubscription} (new : Unsubscribed poll sub) (nonempty : sub.path ≠ []) :
    ∃ after, gamPollDnotifyAddSubscription handler poll now sub =
        some (after, decide (sub.path.head? = some slash)) ∧
      (sub.path.head? = some slash → SubscribedAt after sub.path sub) := by
  obtain ⟨node, found, path, unlisted⟩ := gamTreeAddAtPath_new new now nonempty
  obtain ⟨added, foundAdded⟩ := gamNodeAddSubscription_eq found unlisted
  by_cases absolute : sub.path.head? = some slash
  · generalize start : gamTreeAddAtPath { poll with currentTime := now } sub.path sub.isDir = tree
      at found added foundAdded
    generalize written : tree.setNode { node with subs := sub :: node.subs } = listed
      at added foundAdded
    -- the poll of an excluded node leaves the subscription where it is
    have subscribed : ∃ next, nodeAddSubscription handler tree sub.path sub = some (next, true) ∧
        SameSubs listed next := by
      have samePath : gamTreeGetAtPath listed { node with subs := sub :: node.subs }.path =
          some { node with subs := sub :: node.subs } := by
        rw [← foundAdded]
        exact congrArg _ path
      have polled := gamPollDnotifyPollFile_keeps handler listed _ samePath
      simp only [nodeAddSubscription, found, path, absolute, ne_eq, not_true_eq_false, if_false,
        added, Option.map_some, Option.some.injEq]
      split
      · refine ⟨_, rfl, ?_⟩
        apply SameSubs.gamPollGenericAddMissing
        split
        · rw [← path]
          exact polled
        · exact .refl listed
      · exact ⟨_, rfl, (SameSubs.refl listed).watches (watchesOnly_triggerHandler handler listed node (.inl rfl))⟩
    obtain ⟨next, done, same⟩ := subscribed
    obtain ⟨nextNode, foundNext, subs⟩ := same.keeps sub.path _ foundAdded
    refine ⟨dnotifySubscribedNode handler next sub nextNode, ?_, fun _ => ?_⟩
    · simp only [gamPollDnotifyAddSubscription, start, done, Option.map_some, foundNext, absolute,
        decide_true]
    · have here : SubscribedAt next sub.path sub :=
        ⟨nextNode, foundNext, by rw [subs]; exact List.mem_cons_self⟩
      rw [← gamTreeGetAtPath_path foundNext] at foundNext
      exact here.kept (dnotifySubscribedNode_keeps handler sub foundNext)
  · have refused : nodeAddSubscription handler
        (gamTreeAddAtPath { poll with currentTime := now } sub.path sub.isDir) sub.path sub =
        some (gamTreeAddAtPath { poll with currentTime := now } sub.path sub.isDir, false) := by
      simp only [nodeAddSubscription, found, path, if_pos absolute]
    refine ⟨gamTreeAddAtPath { poll with currentTime := now } sub.path sub.isDir, ?_,
      fun isAbsolute => absurd isAbsolute absolute⟩
    simp only [gamPollDnotifyAddSubscription, refused, Option.map_some, decide_eq_false absolute]

end Gamin.Polling
