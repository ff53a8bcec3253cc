import Gamin.Polling.Registration

/-! # Scans keep the subscriptions

The scans of the two polling backends go through directories and lists; whatever they find,
every subscription stays at its node.
-/

namespace Gamin.Polling

open Gamin Gamin.Server Gamin.Inotify

/-! ## A directory -/

theorem SameSubs.gamNodeEmitEvent {before poll : Poll} (same : SameSubs before poll) (path : Bytes)
    (event : Option GaminEventType) : SameSubs before (gamNodeEmitEvent poll path event) := by
  unfold Polling.gamNodeEmitEvent
  split
  · exact same.of_nodes rfl
  · exact same

theorem SameSubs.scanNames {before poll : Poll} (same : SameSubs before poll) (dirPath : Bytes)
    (names : List Bytes) : SameSubs before (names.foldl (scanName dirPath) poll) := by
  induction names generalizing poll with
  | nil => exact same
  | cons name names inductionHypothesis =>
    apply inductionHypothesis
    unfold scanName
    extract_lets path isDir called
    have sameCalled : SameSubs before called := same.of_nodes rfl
    split
    · exact same
    · exact sameCalled.gamTreeAdd rfl

section

variable {pollFile : PollFile}

/-- A hook that is called for the node at a path. -/
theorem KeepingHook.at_path (hook : KeepingHook pollFile) {poll : Poll} {path : Bytes} {node : GamNode}
    (found : gamTreeGetAtPath poll path = some node) : SameSubs poll (pollFile poll node).1 := by
  apply hook
  rw [gamTreeGetAtPath_path found]
  exact found

theorem SameSubs.scanChildOf (hook : KeepingHook pollFile) {rescan : Bytes → Poll → Poll}
    (rescans : ∀ path poll, SameSubs poll (rescan path poll)) (scannedIsDir : Poll → Bool)
    {before poll : Poll} (same : SameSubs before poll) (path : Bytes) :
    SameSubs before (scanChildOf pollFile rescan scannedIsDir poll path) := by
  unfold Polling.scanChildOf
  split
  · exact same
  case h_2 node found =>
    have polled := same.trans (hook.at_path found)
    simp only
    split
    · exact polled
    case h_2 next foundNext =>
      split
      · -- a node that is new is announced, or scanned if somebody waits for it
        have here : gamTreeGetAtPath (pollFile poll node).1 next.path = some next := by
          rw [gamTreeGetAtPath_path foundNext]
          exact foundNext
        have known : SameSubs before ((pollFile poll node).1.setNode { next with newNode := false }) :=
          polled.trans ((SameSubs.refl _).setNode here rfl rfl)
        split
        · exact (known.trans (rescans path _)).gamNodeEmitEvent path _
        · exact known.gamNodeEmitEvent path _
      · exact polled.gamNodeEmitEvent path _

theorem SameSubs.scanChildren (hook : KeepingHook pollFile) {rescan : Bytes → Poll → Poll}
    (rescans : ∀ path poll, SameSubs poll (rescan path poll)) (scannedIsDir : Poll → Bool)
    (paths : List Bytes) {before poll : Poll} (same : SameSubs before poll) :
    SameSubs before (paths.foldl (Polling.scanChildOf pollFile rescan scannedIsDir) poll) := by
  induction paths generalizing poll with
  | nil => exact same
  | cons path paths inductionHypothesis =>
    exact inductionHypothesis (same.scanChildOf hook rescans scannedIsDir path)

theorem scanDirectoryInternal_same (hook : KeepingHook pollFile) (depth : Nat) (dirPath : Bytes) (poll : Poll) :
    SameSubs poll (gamPollGenericScanDirectoryInternal pollFile depth dirPath poll) := by
  induction depth generalizing dirPath poll with
  | zero => exact .refl poll
  | succ depth inductionHypothesis =>
    unfold gamPollGenericScanDirectoryInternal
    extract_lets scanFiles
    have files {next : Poll} (same : SameSubs poll next) : SameSubs poll (scanFiles next) :=
      same.scanChildren hook inductionHypothesis _ _
    split
    · exact .refl poll
    case h_2 dirNode found =>
      split
      · exact files (.refl poll)
      · split
        · exact .refl poll
        · have emitted := (hook.at_path found).gamNodeEmitEvent dirPath (pollFile poll dirNode).2
          simp only
          split
          · exact emitted.of_nodes rfl
          · apply files
            have called : SameSubs poll
                (gamNodeEmitEvent (pollFile poll dirNode).1 dirPath (pollFile poll dirNode).2).called :=
              emitted.of_nodes rfl
            exact called.scanNames dirPath _

theorem gamPollGenericScanRoot_same (hook : KeepingHook pollFile) (poll : Poll) :
    SameSubs poll (gamPollGenericScanRoot pollFile poll) :=
  (SameSubs.refl poll).scanChildren hook (scanDirectoryInternal_same hook _) _ _

theorem gamPollGenericScanDirectory_same (hook : KeepingHook pollFile) (poll : Poll) (now : Nat)
    (path : Bytes) : SameSubs poll (gamPollGenericScanDirectory pollFile poll now path) := by
  have clock : SameSubs poll { poll with currentTime := now } := (SameSubs.refl poll).of_nodes rfl
  exact (clock.gamTreeAddAtPath path true).trans (scanDirectoryInternal_same hook _ path _)

end

/-! ## The scan callbacks -/

theorem scanNode_same (poll : Poll) (path : Bytes) : SameSubs poll (scanNode poll path) := by
  unfold scanNode
  split
  · exact .refl poll
  case h_2 node found =>
    split
    · exact scanDirectoryInternal_same gamPollBasicPollFile_keeps _ path poll
    · exact (gamPollBasicPollFile_keeps.at_path found).gamNodeEmitEvent path _

theorem scanAll_same (rounds idx : Nat) (poll : Poll) : SameSubs poll (scanAll rounds idx poll) := by
  induction rounds generalizing idx poll with
  | zero => exact .refl poll
  | succ rounds inductionHypothesis =>
    unfold scanAll
    split
    · exact .refl poll
    case h_2 path listed => exact (scanNode_same poll path).trans (inductionHypothesis _ _)

theorem scanMissingNode_same (poll : Poll) (path : Bytes) : SameSubs poll (scanMissingNode poll path) := by
  unfold scanMissingNode
  extract_lets scanned
  have same : SameSubs poll scanned := scanNode_same poll path
  split
  · exact same
  · split
    · exact same
    · exact (same.gamPollGenericRemoveMissing path).gamPollGenericAdd path

theorem scanMissing_same (rounds idx : Nat) (poll : Poll) : SameSubs poll (scanMissing rounds idx poll) := by
  induction rounds generalizing idx poll with
  | zero => exact .refl poll
  | succ rounds inductionHypothesis =>
    unfold scanMissing
    split
    · exact .refl poll
    case h_2 path listed => exact (scanMissingNode_same poll path).trans (inductionHypothesis _ _)

theorem gamPollBasicScanCallback_same (poll : Poll) (now rounds : Nat) :
    SameSubs poll (gamPollBasicScanCallback poll now rounds) := by
  have clock : SameSubs poll { poll with currentTime := now } := (SameSubs.refl poll).of_nodes rfl
  exact (clock.trans (scanAll_same rounds 0 _)).trans (scanMissing_same rounds 0 _)

theorem dnotifyScanNode_same (handler : Bool) (poll : Poll) (path : Bytes) :
    SameSubs poll (dnotifyScanNode handler poll path) := by
  unfold dnotifyScanNode
  split
  · exact .refl poll
  case h_2 node found =>
    split
    · exact scanDirectoryInternal_same (gamPollDnotifyPollFile_keeps handler) _ path poll
    · exact ((gamPollDnotifyPollFile_keeps handler).at_path found).gamNodeEmitEvent path _

theorem dnotifyScanMissingNode_same (handler : Bool) (poll : Poll) (path : Bytes) :
    SameSubs poll (dnotifyScanMissingNode handler poll path) := by
  have same := dnotifyScanNode_same handler poll path
  unfold dnotifyScanMissingNode
  dsimp only
  split
  · exact same
  · split
    · have unlisted := same.gamPollGenericRemoveMissing path
      split
      · exact unlisted.watches (watchesOnly_relist handler _ _)
      · exact unlisted
    · exact same

theorem dnotifyScanMissing_same (handler : Bool) (rounds idx : Nat) (poll : Poll) :
    SameSubs poll (dnotifyScanMissing handler rounds idx poll) := by
  induction rounds generalizing idx poll with
  | zero => exact .refl poll
  | succ rounds inductionHypothesis =>
    unfold dnotifyScanMissing
    split
    · exact .refl poll
    case h_2 path listed =>
      exact (dnotifyScanMissingNode_same handler poll path).trans (inductionHypothesis _ _)

theorem dnotifyScanBusyRoot_same (handler : Bool) (poll : Poll) :
    SameSubs poll (dnotifyScanBusyRoot handler poll) := by
  have same := gamPollGenericScanRoot_same (gamPollDnotifyPollFile_keeps handler) poll
  unfold dnotifyScanBusyRoot
  dsimp only
  split
  · exact same.gamPollGenericRemoveBusy []
  · exact same

theorem dnotifyScanBusyNode_same (handler : Bool) (poll : Poll) (path : Bytes) :
    SameSubs poll (dnotifyScanBusyNode handler poll path) := by
  have same := dnotifyScanNode_same handler poll path
  unfold dnotifyScanBusyNode
  dsimp only
  split
  · exact same
  · split
    · split
      · exact (same.gamPollGenericRemoveBusy path).flowControl handler _ false
      · exact same.gamPollGenericRemoveBusy path
    · exact same

theorem dnotifyScanBusy_same (handler : Bool) (rounds idx : Nat) (poll : Poll) :
    SameSubs poll (dnotifyScanBusy handler rounds idx poll) := by
  induction rounds generalizing idx poll with
  | zero => exact .refl poll
  | succ rounds inductionHypothesis =>
    unfold dnotifyScanBusy
    split
    · exact .refl poll
    case h_2 path listed =>
      refine SameSubs.trans ?_ (inductionHypothesis _ _)
      split
      · exact dnotifyScanBusyRoot_same handler poll
      · exact dnotifyScanBusyNode_same handler poll path

theorem gamPollDnotifyScanCallback_same (handler : Bool) (poll : Poll) (now rounds : Nat) :
    SameSubs poll (gamPollDnotifyScanCallback handler poll now rounds) := by
  have clock : SameSubs poll { poll with currentTime := now } := (SameSubs.refl poll).of_nodes rfl
  exact (clock.trans (dnotifyScanMissing_same handler rounds 0 _)).trans
    (dnotifyScanBusy_same handler rounds 0 _)

end Gamin.Polling
