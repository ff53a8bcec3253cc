import Gamin.Polling.RemovalRules
import Gamin.Polling.ScanRules

/-! # What the basic polling backend keeps

The rule for the operations of `gam_poll_basic.c`: besides the writes of a scan, nodes are put on
and taken off the resource lists, and nodes without subscriptions are taken out of the tree.
-/

namespace Gamin.Polling

open Gamin Gamin.Server Gamin.Inotify

/-! ## What is asked along an operation -/

section

variable (guard : WriteGuard)

def scanNodeSafe (poll : Poll) (path : Bytes) : Bool :=
  match gamTreeGetAtPath poll path with
  | none => true
  | some node =>
    if node.isDir then scanDirectorySafe guard gamPollBasicPollFile (poll.nodes.length + 1) path poll
    else guard.polls poll node

def scanAllSafe : Nat → Nat → Poll → Bool
  | 0, _, _ => true
  | rounds + 1, idx, poll =>
    match poll.all[idx]? with
    | none => true
    | some path => scanNodeSafe guard poll path && scanAllSafe rounds (idx + 1) (scanNode poll path)

def scanMissingSafe : Nat → Nat → Poll → Bool
  | 0, _, _ => true
  | rounds + 1, idx, poll =>
    match poll.missing[idx]? with
    | none => true
    | some path =>
      scanNodeSafe guard poll path && scanMissingSafe rounds (idx + 1) (scanMissingNode poll path)

/-- Along `gam_poll_basic_scan_callback`. -/
def scanCallbackSafe (poll : Poll) (now rounds : Nat) : Bool :=
  let poll := { poll with currentTime := now }
  scanAllSafe guard rounds 0 poll && scanMissingSafe guard rounds 0 (scanAll rounds 0 poll)

def subscribedNodeSafe (poll : Poll) (sub : GamSubscription) (node : GamNode) : Bool :=
  if node.isDir then firstScanDirSafe guard gamPollBasicPollFile poll sub node.path
  else guard.polls poll node

/-- Along `gam_poll_basic_add_subscription`. -/
def addSubscriptionSafe (poll : Poll) (now : Nat) (sub : GamSubscription) : Bool :=
  let poll := { poll with currentTime := now }
  addAtPathSafe guard poll sub.path &&
    match gamNodeAddSubscription (gamTreeAddAtPath poll sub.path sub.isDir) sub.path sub with
    | none => true
    | some poll =>
      match gamTreeGetAtPath poll sub.path with
      | none => true
      | some node => subscribedNodeSafe guard poll sub node

end

theorem scanNodeSafe_both (guard other : WriteGuard) (poll : Poll) (path : Bytes) :
    scanNodeSafe (guard.both other) poll path = (scanNodeSafe guard poll path && scanNodeSafe other poll path) := by
  unfold scanNodeSafe
  cases gamTreeGetAtPath poll path with
  | none => rfl
  | some node =>
    dsimp only
    split
    · exact scanDirectorySafe_both guard other gamPollBasicPollFile _ path poll
    · rfl

/-! ## The rule -/

/-- What the scan callback keeps: besides the writes of a scan, a node goes from the missing ones to the
others. -/
structure WalkRule (guard : WriteGuard) (property : Poll → Prop) : Prop
    extends ScanRule gamPollBasicPollFile guard property where
  listed : ∀ {poll path}, (gamTreeGetAtPath poll path).isSome → property poll →
    property (gamPollGenericAdd poll path)
  found : ∀ {poll path}, property poll → property (gamPollGenericRemoveMissing poll path)

/-- What subscribing and the scan callback keep. -/
structure PollRule (guard : WriteGuard) (property : Poll → Prop) : Prop
    extends FirstRule gamPollBasicPollFile guard property, WalkRule guard property where
  missing : ∀ {poll path}, (gamTreeGetAtPath poll path).isSome → property poll →
    property (gamPollGenericAddMissing poll path)

/-- What every operation keeps. -/
structure BasicRule (guard : WriteGuard) (property : Poll → Prop) : Prop
    extends PollRule guard property, RemovalRule property

section

variable {guard : WriteGuard} {property : Poll → Prop}

/-! ## The scan callback -/

theorem ScanRule.scanNode (rule : ScanRule gamPollBasicPollFile guard property) {poll : Poll} {path : Bytes}
    (safe : scanNodeSafe guard poll path = true) (holds : property poll) :
    property (scanNode poll path) := by
  unfold scanNodeSafe at safe
  unfold Polling.scanNode
  cases lookup : gamTreeGetAtPath poll path with
  | none => exact holds
  | some node =>
    simp only [lookup] at safe ⊢
    split
    case isTrue isDir =>
      rw [if_pos isDir] at safe
      exact rule.scanDirectory _ safe holds
    case isFalse file =>
      rw [if_neg file] at safe
      have atNode : gamTreeGetAtPath poll node.path = some node := by rwa [gamTreeGetAtPath_path lookup]
      exact rule.emitted path _ (rule.polled atNode safe holds)

/-- If the visit begins with a poll of the node, it is enough that the property holds after it. -/
theorem ScanRule.scanNodePolled (rule : ScanRule gamPollBasicPollFile guard property) {poll : Poll} {node : GamNode}
    (found : gamTreeGetAtPath poll node.path = some node) (subscribed : node.isDir = true → node.subs ≠ [])
    (late : tooSoon poll node = false) (safe : scanNodeSafe guard poll node.path = true)
    (polled : property (gamPollBasicPollFile poll node).1) : property (Polling.scanNode poll node.path) := by
  unfold scanNodeSafe at safe
  unfold Polling.scanNode
  simp only [found] at safe ⊢
  split
  case isTrue isDir =>
    rw [if_pos isDir] at safe
    exact rule.scanPolled (rule.scanDirectory _) found (subscribed isDir) late safe polled
  case isFalse => exact rule.emitted node.path _ polled

theorem WalkRule.scanAll (rule : WalkRule guard property) {rounds idx : Nat} {poll : Poll}
    (safe : scanAllSafe guard rounds idx poll = true) (holds : property poll) :
    property (scanAll rounds idx poll) := by
  induction rounds generalizing idx poll with
  | zero => exact holds
  | succ rounds inductionHypothesis =>
    unfold scanAllSafe at safe
    unfold Polling.scanAll
    cases next : poll.all[idx]? with
    | none => exact holds
    | some path =>
      simp only [next, Bool.and_eq_true] at safe
      exact inductionHypothesis safe.2 (rule.scanNode safe.1 holds)

theorem WalkRule.scanMissingNode (rule : WalkRule guard property) {poll : Poll} {path : Bytes}
    (safe : scanNodeSafe guard poll path = true) (holds : property poll) :
    property (scanMissingNode poll path) := by
  unfold Polling.scanMissingNode
  extract_lets scanned
  have kept : property scanned := rule.scanNode safe holds
  split
  · exact kept
  case h_2 node there =>
    split
    · exact kept
    · exact rule.listed (Option.isSome_of_eq_some there) (rule.found kept)

theorem WalkRule.scanMissing (rule : WalkRule guard property) {rounds idx : Nat} {poll : Poll}
    (safe : scanMissingSafe guard rounds idx poll = true) (holds : property poll) :
    property (scanMissing rounds idx poll) := by
  induction rounds generalizing idx poll with
  | zero => exact holds
  | succ rounds inductionHypothesis =>
    unfold scanMissingSafe at safe
    unfold Polling.scanMissing
    cases next : poll.missing[idx]? with
    | none => exact holds
    | some path =>
      simp only [next, Bool.and_eq_true] at safe
      exact inductionHypothesis safe.2 (rule.scanMissingNode safe.1 holds)

theorem PollRule.scanCallback (rule : PollRule guard property) {poll : Poll} {now rounds : Nat}
    (safe : scanCallbackSafe guard poll now rounds = true) (holds : property poll) :
    property (gamPollBasicScanCallback poll now rounds) := by
  obtain ⟨safeAll, safeMissing⟩ := Bool.and_eq_true_iff.mp safe
  have clock : property { poll with currentTime := now } := rule.clock now holds
  exact rule.scanMissing safeMissing (rule.scanAll safeAll clock)

/-! ## Adding -/

/-- The events of a subscription to a file are about its path. -/
theorem FirstRule.sentFileState {pollFile : PollFile} (rule : FirstRule pollFile guard property) {poll : Poll}
    {sub : GamSubscription} {path : Bytes} (own : path = sub.path) (nodeIsDir : Bool)
    (event : Option GaminEventType) (holds : property poll) :
    property (sendFileState poll sub path nodeIsDir event) :=
  rule.told nodeIsDir false (.inl own) (rule.told nodeIsDir false (.inl own) holds)

theorem PollRule.subscribedNode (rule : PollRule guard property) {poll : Poll}
    {sub : GamSubscription} {node : GamNode} (found : gamTreeGetAtPath poll node.path = some node)
    (own : node.path = sub.path) (safe : subscribedNodeSafe guard poll sub node = true) (holds : property poll) :
    property (subscribedNode poll sub node) := by
  have there : (gamTreeGetAtPath poll node.path).isSome := Option.isSome_of_eq_some found
  unfold subscribedNodeSafe at safe
  unfold Polling.subscribedNode
  extract_lets polled unwatched listed
  have first : SameSubs poll polled ∧ property polled := by
    simp only [polled]
    split
    case isTrue isDir =>
      rw [if_pos isDir] at safe
      refine ⟨gamPollGenericFirstScanDir_keeps gamPollBasicPollFile_keeps poll sub node.path, ?_⟩
      rw [own] at there safe ⊢
      exact (rule.firstScan sub).firstScanDir there safe holds
    case isFalse file =>
      rw [if_neg file] at safe
      exact ⟨(gamPollBasicPollFile_keeps poll node found).of_nodes rfl,
        rule.sentFileState own _ _ (rule.polled found safe holds)⟩
  have second : (gamTreeGetAtPath listed node.path).isSome ∧ property listed := by
    simp only [listed]
    split
    · exact ⟨(first.1.gamPollGenericAddMissing node.path).isSome there,
        rule.missing (first.1.isSome there) first.2⟩
    · exact ⟨first.1.isSome there, first.2⟩
  exact rule.listed second.1 second.2

end

/-! ## Nothing is asked -/

section

variable {guard : WriteGuard} (easy : guard.Easy)

include easy

theorem WriteGuard.Easy.scanNode (poll : Poll) (path : Bytes) : scanNodeSafe guard poll path = true := by
  unfold scanNodeSafe
  split
  · rfl
  · split
    · exact easy.scanDirectory gamPollBasicPollFile_keeps _ _ _
    · exact easy.polls _ _

theorem WriteGuard.Easy.scanAll (rounds idx : Nat) (poll : Poll) : scanAllSafe guard rounds idx poll = true := by
  induction rounds generalizing idx poll with
  | zero => rfl
  | succ rounds inductionHypothesis =>
    unfold scanAllSafe
    split
    · rfl
    · rw [easy.scanNode, inductionHypothesis, Bool.and_self]

theorem WriteGuard.Easy.scanMissing (rounds idx : Nat) (poll : Poll) :
    scanMissingSafe guard rounds idx poll = true := by
  induction rounds generalizing idx poll with
  | zero => rfl
  | succ rounds inductionHypothesis =>
    unfold scanMissingSafe
    split
    · rfl
    · rw [easy.scanNode, inductionHypothesis, Bool.and_self]

theorem WriteGuard.Easy.scanCallback (poll : Poll) (now rounds : Nat) :
    scanCallbackSafe guard poll now rounds = true := by
  rw [scanCallbackSafe, easy.scanAll, easy.scanMissing, Bool.and_self]

theorem WriteGuard.Easy.subscribedNode {poll : Poll} (sub : GamSubscription) {node : GamNode}
    (subscribed : subsAt poll node.path ≠ []) : subscribedNodeSafe guard poll sub node = true := by
  unfold subscribedNodeSafe
  split
  · exact easy.firstScanDir gamPollBasicPollFile_keeps sub subscribed
  · exact easy.polls _ _

end

theorem scanCallbackSafe_free (poll : Poll) (now rounds : Nat) :
    scanCallbackSafe .free poll now rounds = true :=
  WriteGuard.free_easy.scanCallback poll now rounds

theorem subscribedNodeSafe_free (poll : Poll) (sub : GamSubscription) (node : GamNode) :
    subscribedNodeSafe .free poll sub node = true := by
  unfold subscribedNodeSafe
  split
  · exact firstScanDirSafe_free _ _ _ _
  · rfl

/-! ## Operations of which nothing is asked -/

section

variable {property : Poll → Prop} {poll after : Poll} {sub : GamSubscription}

theorem BasicRule.addSubscription (rule : BasicRule .free property) (subs : SubsRule property) {now : Nat}
    (added : gamPollBasicAddSubscription poll now sub = some after) (holds : property poll) : property after := by
  obtain ⟨tree, inTree, subscribed⟩ := Option.bind_eq_some_iff.mp added
  obtain ⟨node, found, rfl⟩ := Option.map_eq_some_iff.mp subscribed
  have known := rule.gamTreeAddAtPath sub.isDir (addAtPathSafe_free _ sub.path) (rule.clock now holds)
  have own := gamTreeGetAtPath_path found
  rw [← own] at found
  exact rule.subscribedNode found own (subscribedNodeSafe_free tree sub node)
    (subs.gamNodeAddSubscription inTree known)

theorem BasicRule.removeSubscription (rule : BasicRule .free property) (subs : SubsRule property)
    (removed : gamPollBasicRemoveSubscription poll sub = some after) (holds : property poll) : property after :=
  rule.toRemovalRule.removeSubscription removed (fun _ => holds) fun _ _ found lost =>
    subs.gamNodeRemoveSubscription found lost holds

end

end Gamin.Polling
