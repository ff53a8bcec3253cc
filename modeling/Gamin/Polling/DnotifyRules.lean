import Gamin.Polling.BasicRules

/-! # What polling beside dnotify keeps

The rule for the operations of `gam_poll_dnotify.c`.  Besides the writes of a scan there are those that
leave a node to the kernel: after it has been missing, and after it has been busy.
-/

namespace Gamin.Polling

open Gamin Gamin.Server Gamin.Inotify

/-! ## What is asked along an operation -/

/-- Besides what is asked of a scan, what is asked before a node that is not missing any more, or not busy
any more, is left to the kernel. -/
structure DnotifyGuard extends WriteGuard where
  relists : Poll → GamNode → Bool
  settles : Poll → GamNode → Bool

section

variable (guard : DnotifyGuard) (handler : Bool)

def dnotifyScanNodeSafe (guard : WriteGuard) (handler : Bool) (poll : Poll) (path : Bytes) : Bool :=
  match gamTreeGetAtPath poll path with
  | none => true
  | some node =>
    if node.isDir then
      scanDirectorySafe guard (gamPollDnotifyPollFile handler) (poll.nodes.length + 1) path poll
    else guard.polls poll node

def dnotifyScanMissingNodeSafe (poll : Poll) (path : Bytes) : Bool :=
  dnotifyScanNodeSafe guard.toWriteGuard handler poll path &&
    let poll := dnotifyScanNode handler poll path
    match gamTreeGetAtPath poll path with
    | none => true
    | some node => if node.pflags = .none ∧ kernelMonitored poll path then guard.relists poll node else true

def dnotifyScanBusyNodeSafe (poll : Poll) (path : Bytes) : Bool :=
  dnotifyScanNodeSafe guard.toWriteGuard handler poll path &&
    let poll := dnotifyScanNode handler poll path
    match gamTreeGetAtPath poll path with
    | none => true
    | some node =>
      if node.pflags = .none ∧ kernelMonitored poll path ∧ node.subs ≠ [] then guard.settles poll node else true

def dnotifyScanMissingSafe : Nat → Nat → Poll → Bool
  | 0, _, _ => true
  | rounds + 1, idx, poll =>
    match poll.missing[idx]? with
    | none => true
    | some path =>
      dnotifyScanMissingNodeSafe guard handler poll path &&
        dnotifyScanMissingSafe rounds (idx + 1) (dnotifyScanMissingNode handler poll path)

def dnotifyScanBusySafe : Nat → Nat → Poll → Bool
  | 0, _, _ => true
  | rounds + 1, idx, poll =>
    match poll.busy[idx]? with
    | none => true
    | some path =>
      (if path = [] then scanRootSafe guard.toWriteGuard (gamPollDnotifyPollFile handler) poll
        else dnotifyScanBusyNodeSafe guard handler poll path) &&
      dnotifyScanBusySafe rounds (idx + 1)
        (if path = [] then dnotifyScanBusyRoot handler poll else dnotifyScanBusyNode handler poll path)

/-- Along `gam_poll_dnotify_scan_callback`. -/
def dnotifyScanCallbackSafe (poll : Poll) (now rounds : Nat) : Bool :=
  let poll := { poll with currentTime := now }
  dnotifyScanMissingSafe guard handler rounds 0 poll &&
    dnotifyScanBusySafe guard handler rounds 0 (dnotifyScanMissing handler rounds 0 poll)

/-- Along `gam_poll_generic_scan_directory`. -/
def dnotifyScanDirectorySafe (poll : Poll) (now : Nat) (path : Bytes) : Bool :=
  let poll := { poll with currentTime := now }
  addAtPathSafe guard.toWriteGuard poll path &&
    let poll := gamTreeAddAtPath poll path true
    scanDirectorySafe guard.toWriteGuard (gamPollDnotifyPollFile handler) (poll.nodes.length + 1) path poll

/-- What `gam_poll_dnotify_add_subscription` does first with the node that has got the subscription. -/
def dnotifyFirstPoll (poll : Poll) (sub : GamSubscription) (node : GamNode) : Poll :=
  if node.isDir then gamPollGenericFirstScanDir (gamPollDnotifyPollFile handler) poll sub node.path
  else
    match gamPollDnotifyPollFile handler poll node with
    | (poll, event) => sendFileState poll sub node.path node.isDir event

def dnotifyFirstPollSafe (guard : WriteGuard) (handler : Bool) (poll : Poll) (sub : GamSubscription)
    (node : GamNode) : Bool :=
  if node.isDir then firstScanDirSafe guard (gamPollDnotifyPollFile handler) poll sub node.path
  else guard.polls poll node

end

theorem dnotifyScanNodeSafe_both (guard other : WriteGuard) (handler : Bool) (poll : Poll) (path : Bytes) :
    dnotifyScanNodeSafe (guard.both other) handler poll path =
      (dnotifyScanNodeSafe guard handler poll path && dnotifyScanNodeSafe other handler poll path) := by
  unfold dnotifyScanNodeSafe
  cases gamTreeGetAtPath poll path with
  | none => rfl
  | some node =>
    dsimp only
    split
    · exact scanDirectorySafe_both guard other (gamPollDnotifyPollFile handler) _ path poll
    · rfl

/-! ## The rule -/

/-- What the scan callback keeps: besides the writes of a scan, nodes are left to the kernel. -/
structure DnotifyWalkRule (handler : Bool) (guard : DnotifyGuard) (property : Poll → Prop) : Prop
    extends ScanRule (gamPollDnotifyPollFile handler) guard.toWriteGuard property where
  unbusied : ∀ {poll path}, property poll → property (gamPollGenericRemoveBusy poll path)
  relisted : ∀ {poll node}, gamTreeGetAtPath poll node.path = some node →
    guard.relists poll node = true → property poll →
    property
      (let poll := gamPollGenericRemoveMissing poll node.path
      if node.subs ≠ [] then gamPollDnotifyRelistNode handler poll node else poll)
  settled : ∀ {poll node}, gamTreeGetAtPath poll node.path = some node → node.subs ≠ [] →
    guard.settles poll node = true → property poll →
    property (flowControl handler (gamPollGenericRemoveBusy poll node.path) node false)

/-- What every operation keeps. -/
structure DnotifyRule (handler : Bool) (guard : DnotifyGuard) (property : Poll → Prop) : Prop
    extends FirstRule (gamPollDnotifyPollFile handler) guard.toWriteGuard property,
      DnotifyWalkRule handler guard property, RemovalRule property where
  listed : ∀ {poll path}, property poll → property (gamPollGenericAdd poll path)

section

variable {handler : Bool} {guard : DnotifyGuard} {property : Poll → Prop}

/-! ## The scan callback -/

theorem ScanRule.dnotifyScanNode {guard : WriteGuard}
    (rule : ScanRule (gamPollDnotifyPollFile handler) guard property) {poll : Poll} {path : Bytes}
    (safe : dnotifyScanNodeSafe guard handler poll path = true) (holds : property poll) :
    property (dnotifyScanNode handler poll path) := by
  unfold dnotifyScanNodeSafe at safe
  unfold Polling.dnotifyScanNode
  cases lookup : gamTreeGetAtPath poll path with
  | none => exact holds
  | some node =>
    simp only [lookup] at safe ⊢
    split
    case isTrue isDir =>
      rw [if_pos isDir] at safe
      exact rule.scanDirectory _ safe holds
    case isFalse file =>
      rw [if_neg file] at safe
      have atNode : gamTreeGetAtPath poll node.path = some node := by rwa [gamTreeGetAtPath_path lookup]
      exact rule.emitted path _ (rule.polled atNode safe holds)

/-- If the visit begins with a poll of the node, it is enough that the property holds after it. -/
theorem ScanRule.dnotifyScanNodePolled {guard : WriteGuard}
    (rule : ScanRule (gamPollDnotifyPollFile handler) guard property) {poll : Poll} {node : GamNode}
    (found : gamTreeGetAtPath poll node.path = some node) (subscribed : node.isDir = true → node.subs ≠ [])
    (late : tooSoon poll node = false) (safe : dnotifyScanNodeSafe guard handler poll node.path = true)
    (polled : property (gamPollDnotifyPollFile handler poll node).1) :
    property (Polling.dnotifyScanNode handler poll node.path) := by
  unfold dnotifyScanNodeSafe at safe
  unfold Polling.dnotifyScanNode
  simp only [found] at safe ⊢
  split
  case isTrue isDir =>
    rw [if_pos isDir] at safe
    exact rule.scanPolled (rule.scanDirectory _) found (subscribed isDir) late safe polled
  case isFalse => exact rule.emitted node.path _ polled

theorem DnotifyWalkRule.scanMissingNode (rule : DnotifyWalkRule handler guard property) {poll : Poll} {path : Bytes}
    (safe : dnotifyScanMissingNodeSafe guard handler poll path = true)
    (holds : property poll) : property (dnotifyScanMissingNode handler poll path) := by
  unfold dnotifyScanMissingNodeSafe at safe
  obtain ⟨scans, leaves⟩ := Bool.and_eq_true_iff.mp safe
  have kept := rule.dnotifyScanNode scans holds
  unfold Polling.dnotifyScanMissingNode
  dsimp only at leaves ⊢
  generalize dnotifyScanNode handler poll path = scanned at kept leaves ⊢
  cases found : gamTreeGetAtPath scanned path with
  | none => exact kept
  | some node =>
    obtain rfl := gamTreeGetAtPath_path found
    simp only [found] at leaves ⊢
    split
    case isTrue there =>
      rw [if_pos there] at leaves
      exact rule.relisted found leaves kept
    case isFalse => exact kept

theorem DnotifyWalkRule.scanBusyNode (rule : DnotifyWalkRule handler guard property) {poll : Poll} {path : Bytes}
    (safe : dnotifyScanBusyNodeSafe guard handler poll path = true) (holds : property poll) :
    property (dnotifyScanBusyNode handler poll path) := by
  unfold dnotifyScanBusyNodeSafe at safe
  obtain ⟨scans, leaves⟩ := Bool.and_eq_true_iff.mp safe
  have kept := rule.dnotifyScanNode scans holds
  unfold Polling.dnotifyScanBusyNode
  dsimp only at leaves ⊢
  generalize dnotifyScanNode handler poll path = scanned at kept leaves ⊢
  cases found : gamTreeGetAtPath scanned path with
  | none => exact kept
  | some node =>
    obtain rfl := gamTreeGetAtPath_path found
    simp only [found] at leaves ⊢
    split
    case isTrue there =>
      split
      case isTrue subscribed =>
        rw [if_pos ⟨there.1, there.2, subscribed⟩] at leaves
        exact rule.settled found subscribed leaves kept
      case isFalse => exact rule.unbusied kept
    case isFalse => exact kept

theorem DnotifyWalkRule.scanBusyRoot (rule : DnotifyWalkRule handler guard property) {poll : Poll}
    (safe : scanRootSafe guard.toWriteGuard (gamPollDnotifyPollFile handler) poll = true)
    (holds : property poll) : property (dnotifyScanBusyRoot handler poll) := by
  have kept := rule.scanRoot safe holds
  simp only [Polling.dnotifyScanBusyRoot]
  split
  · exact rule.unbusied kept
  · exact kept

theorem DnotifyWalkRule.scanMissing (rule : DnotifyWalkRule handler guard property) {rounds idx : Nat} {poll : Poll}
    (safe : dnotifyScanMissingSafe guard handler rounds idx poll = true) (holds : property poll) :
    property (dnotifyScanMissing handler rounds idx poll) := by
  induction rounds generalizing idx poll with
  | zero => exact holds
  | succ rounds inductionHypothesis =>
    unfold dnotifyScanMissingSafe at safe
    unfold Polling.dnotifyScanMissing
    cases next : poll.missing[idx]? with
    | none => exact holds
    | some path =>
      simp only [next, Bool.and_eq_true] at safe
      exact inductionHypothesis safe.2 (rule.scanMissingNode safe.1 holds)

theorem DnotifyWalkRule.scanBusy (rule : DnotifyWalkRule handler guard property) {rounds idx : Nat} {poll : Poll}
    (safe : dnotifyScanBusySafe guard handler rounds idx poll = true) (holds : property poll) :
    property (dnotifyScanBusy handler rounds idx poll) := by
  induction rounds generalizing idx poll with
  | zero => exact holds
  | succ rounds inductionHypothesis =>
    unfold dnotifyScanBusySafe at safe
    unfold Polling.dnotifyScanBusy
    cases next : poll.busy[idx]? with
    | none => exact holds
    | some path =>
      simp only [next, Bool.and_eq_true] at safe
      refine inductionHypothesis safe.2 ?_
      split
      case isTrue root => exact rule.scanBusyRoot (by simpa only [root, if_true] using safe.1) holds
      case isFalse inTree => exact rule.scanBusyNode (by simpa only [inTree, if_false] using safe.1) holds

theorem DnotifyRule.scanCallback (rule : DnotifyRule handler guard property) {poll : Poll} {now rounds : Nat}
    (safe : dnotifyScanCallbackSafe guard handler poll now rounds = true) (holds : property poll) :
    property (gamPollDnotifyScanCallback handler poll now rounds) := by
  obtain ⟨missing, busy⟩ := Bool.and_eq_true_iff.mp safe
  have clock : property { poll with currentTime := now } := rule.clock now holds
  exact rule.scanBusy busy (rule.scanMissing missing clock)

/-- A directory that dnotify has seen to change. -/
theorem DnotifyRule.scanChanged (rule : DnotifyRule handler guard property) {poll : Poll} {now : Nat}
    {path : Bytes} (safe : dnotifyScanDirectorySafe guard handler poll now path = true) (holds : property poll) :
    property (gamPollGenericScanDirectory (gamPollDnotifyPollFile handler) poll now path) := by
  obtain ⟨adds, scans⟩ := Bool.and_eq_true_iff.mp safe
  have clock : property { poll with currentTime := now } := rule.clock now holds
  exact rule.scanDirectory _ scans (rule.gamTreeAddAtPath true adds clock)

/-! ## Adding -/

theorem FirstRule.dnotifyFirstPoll {guard : WriteGuard}
    (rule : FirstRule (gamPollDnotifyPollFile handler) guard property) {poll : Poll}
    {sub : GamSubscription} {node : GamNode} (found : gamTreeGetAtPath poll node.path = some node)
    (own : node.path = sub.path) (safe : dnotifyFirstPollSafe guard handler poll sub node = true)
    (holds : property poll) :
    property (dnotifyFirstPoll handler poll sub node) := by
  unfold dnotifyFirstPollSafe at safe
  unfold Polling.dnotifyFirstPoll
  split
  case isTrue isDir =>
    have there : (gamTreeGetAtPath poll node.path).isSome := Option.isSome_of_eq_some found
    rw [if_pos isDir] at safe
    rw [own] at there safe ⊢
    exact (rule.firstScan sub).firstScanDir there safe holds
  case isFalse file =>
    rw [if_neg file] at safe
    exact rule.sentFileState own _ _ (rule.polled found safe holds)

theorem DnotifyRule.addPolled (rule : DnotifyRule handler guard property)
    (adds : ∀ poll path, addAtPathSafe guard.toWriteGuard poll path = true) {poll : Poll}
    (sub : GamSubscription) (path : Bytes) (nodeIsDir : Bool) (holds : property poll) :
    property (addPolled poll sub path nodeIsDir) := by
  unfold Polling.addPolled
  split
  · exact rule.listed holds
  · exact rule.listed (rule.gamTreeAddAtPath sub.isDir (adds _ _) holds)

end

/-! ## Nothing is asked -/

/-- Nothing is asked beyond what a scan makes sure of. -/
structure DnotifyGuard.Easy (guard : DnotifyGuard) : Prop extends guard.toWriteGuard.Easy where
  relists : ∀ poll node, guard.relists poll node = true
  settles : ∀ poll node, guard.settles poll node = true

/-- What is asked of a scan and no more. -/
def WriteGuard.dnotify (guard : WriteGuard) : DnotifyGuard where
  toWriteGuard := guard
  relists _ _ := true
  settles _ _ := true

theorem WriteGuard.Easy.dnotify {guard : WriteGuard} (easy : guard.Easy) : guard.dnotify.Easy where
  toEasy := easy
  relists _ _ := rfl
  settles _ _ := rfl

def DnotifyGuard.free : DnotifyGuard := WriteGuard.free.dnotify

theorem DnotifyGuard.free_easy : DnotifyGuard.free.Easy := WriteGuard.free_easy.dnotify

theorem WriteGuard.Easy.dnotifyScanNode {guard : WriteGuard} (easy : guard.Easy) (handler : Bool) (poll : Poll)
    (path : Bytes) : dnotifyScanNodeSafe guard handler poll path = true := by
  unfold dnotifyScanNodeSafe
  split
  · rfl
  · split
    · exact easy.scanDirectory (gamPollDnotifyPollFile_keeps handler) _ _ _
    · exact easy.polls _ _

theorem WriteGuard.Easy.scanRoot {guard : WriteGuard} (easy : guard.Easy) {pollFile : PollFile}
    (hook : KeepingHook pollFile) (poll : Poll) : scanRootSafe guard pollFile poll = true := by
  refine along_free (fun poll path => ?_) _ _
  unfold scanChildSafe
  simp only [easy.polls, Bool.true_and]
  split
  · rfl
  · split
    · rfl
    · split
      · exact easy.scanDirectory hook _ _ _
      · rfl

section

variable {guard : DnotifyGuard} (easy : guard.Easy) (handler : Bool)

include easy

theorem DnotifyGuard.Easy.scanMissingNode (poll : Poll) (path : Bytes) :
    dnotifyScanMissingNodeSafe guard handler poll path = true := by
  unfold dnotifyScanMissingNodeSafe
  refine Bool.and_eq_true_iff.mpr ⟨easy.dnotifyScanNode handler poll path, ?_⟩
  dsimp only
  split
  · rfl
  · split
    · exact easy.relists _ _
    · rfl

theorem DnotifyGuard.Easy.scanBusyNode (poll : Poll) (path : Bytes) :
    dnotifyScanBusyNodeSafe guard handler poll path = true := by
  unfold dnotifyScanBusyNodeSafe
  refine Bool.and_eq_true_iff.mpr ⟨easy.dnotifyScanNode handler poll path, ?_⟩
  dsimp only
  split
  · rfl
  · split
    · exact easy.settles _ _
    · rfl

theorem DnotifyGuard.Easy.scanMissing (rounds idx : Nat) (poll : Poll) :
    dnotifyScanMissingSafe guard handler rounds idx poll = true := by
  induction rounds generalizing idx poll with
  | zero => rfl
  | succ rounds inductionHypothesis =>
    unfold dnotifyScanMissingSafe
    split
    · rfl
    · rw [easy.scanMissingNode, inductionHypothesis, Bool.and_self]

theorem DnotifyGuard.Easy.scanBusy (rounds idx : Nat) (poll : Poll) :
    dnotifyScanBusySafe guard handler rounds idx poll = true := by
  have root := easy.scanRoot (gamPollDnotifyPollFile_keeps handler)
  induction rounds generalizing idx poll with
  | zero => rfl
  | succ rounds inductionHypothesis =>
    unfold dnotifyScanBusySafe
    split
    · rfl
    · rw [inductionHypothesis, easy.scanBusyNode, Bool.and_true]
      split
      · exact root poll
      · rfl

theorem DnotifyGuard.Easy.scanCallback (poll : Poll) (now rounds : Nat) :
    dnotifyScanCallbackSafe guard handler poll now rounds = true := by
  unfold dnotifyScanCallbackSafe
  dsimp only
  rw [easy.scanMissing, easy.scanBusy, Bool.and_self]

end

section

variable (handler : Bool)

theorem dnotifyScanDirectorySafe_free (poll : Poll) (now : Nat) (path : Bytes) :
    dnotifyScanDirectorySafe .free handler poll now path = true :=
  Bool.and_eq_true_iff.mpr ⟨addAtPathSafe_free _ path,
    WriteGuard.free_easy.scanDirectory (gamPollDnotifyPollFile_keeps handler) _ _ _⟩

theorem dnotifyFirstPollSafe_free (poll : Poll) (sub : GamSubscription) (node : GamNode) :
    dnotifyFirstPollSafe .free handler poll sub node = true := by
  unfold dnotifyFirstPollSafe
  split
  · exact firstScanDirSafe_free _ poll sub node.path
  · rfl

end

end Gamin.Polling
