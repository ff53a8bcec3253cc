import Gamin.Polling.Generic

/-! # The basic polling backend

`gam_poll_basic.c`.  An operation has no result when one of its assertions is violated.
-/

namespace Gamin.Polling

open Gamin Gamin.Server Gamin.Inotify

/-- `gam_poll_generic_node_changed`. -/
def gamPollGenericNodeChanged (node : GamNode) (sbuf : StatBuf) : Bool :=
  node.sbuf.mtim ≠ sbuf.mtim ∨ node.sbuf.size ≠ sbuf.size ∨ node.sbuf.ctim ≠ sbuf.ctim

/-- The first poll of a node. -/
def pollNewFile (poll : Poll) (node : GamNode) : Poll × Option GaminEventType :=
  match poll.view.stat node.path with
  | .found sbuf =>
    (poll.called.setNode { node with
      isDir := sbuf.isDir, sbuf := sbuf, lasttime := poll.currentTime }, none)
  | _ =>
    (poll.called.setNode { node with
      pflags := { node.pflags with missing := true }
      sbuf := .zero
      lasttime := poll.currentTime }, some .deleted)

/-- A later poll of a node. -/
def pollKnownFile (poll : Poll) (node : GamNode) : Poll × Option GaminEventType :=
  let node := { node with lasttime := poll.currentTime }
  match poll.view.stat node.path with
  | .found sbuf =>
    let next := { node with isDir := sbuf.isDir, sbuf := sbuf }
    if node.pflags.missing then
      (gamPollGenericRemoveMissing (poll.called.setNode { next with
        pflags := { node.pflags with missing := false } }) node.path, some .created)
    else if gamPollGenericNodeChanged node sbuf then (poll.called.setNode next, some .changed)
    else (poll.called.setNode next, none)
  | answer =>
    if answer = .noent ∧ ¬ node.pflags.missing then
      let poll := poll.called.setNode { node with
        pflags := { MonFlags.none with missing := true }, sbuf := .zero }
      (gamPollGenericAddMissing (gamPollGenericRemoveBusy poll node.path) node.path, some .deleted)
    else (poll.called.setNode { node with sbuf := .zero }, none)

/-- `gam_poll_basic_poll_file`. -/
def gamPollBasicPollFile : PollFile := fun poll node =>
  if tooSoon poll node then (poll, none)
  else if node.lasttime = 0 then pollNewFile poll node
  else pollKnownFile poll node

/-! ## Subscriptions -/

/-- `gam_node_add_subscription`, which asserts that there is a node and that it does not have
the subscription. -/
def gamNodeAddSubscription (poll : Poll) (path : Bytes) (sub : GamSubscription) : Option Poll :=
  match gamTreeGetAtPath poll path with
  | none => none
  | some node =>
    if sub ∈ node.subs then none else some (poll.setNode { node with subs := sub :: node.subs })

/-- `gam_node_remove_subscription`, which asserts that the node has the subscription. -/
def gamNodeRemoveSubscription (poll : Poll) (node : GamNode) (sub : GamSubscription) :
    Option Poll :=
  if sub ∈ node.subs then
    some (poll.setNode { node with subs := node.subs.filter (· ≠ sub) })
  else none

/-- The events of a subscription to a node that is not a directory, after a poll. -/
def sendFileState (poll : Poll) (sub : GamSubscription) (path : Bytes) (nodeIsDir : Bool)
    (event : Option GaminEventType) : Poll :=
  let state : GaminEventType :=
    match event with
    | none | some .exists | some .changed | some .created =>
      if sub.isDir then .deleted else .exists
    | some _ => .deleted
  { poll with
    sent := poll.sent ++ gamServerEmitOneEvent path nodeIsDir state sub false ++
      gamServerEmitOneEvent path nodeIsDir .endexists sub false }

/-- The part of `gam_poll_basic_add_subscription` that follows `gam_node_add_subscription`. -/
def subscribedNode (poll : Poll) (sub : GamSubscription) (node : GamNode) : Poll :=
  let poll :=
    if node.isDir then gamPollGenericFirstScanDir gamPollBasicPollFile poll sub node.path
    else
      match gamPollBasicPollFile poll node with
      | (poll, event) => sendFileState poll sub node.path node.isDir event
  let missing := ((gamTreeGetAtPath poll node.path).map (·.pflags.missing)).getD false
  let poll := if missing then gamPollGenericAddMissing poll node.path else poll
  gamPollGenericAdd poll node.path

/-- `gam_poll_basic_add_subscription`, without the entry in the listener. -/
def gamPollBasicAddSubscription (poll : Poll) (now : Nat) (sub : GamSubscription) : Option Poll :=
  let poll := gamTreeAddAtPath { poll with currentTime := now } sub.path sub.isDir
  (gamNodeAddSubscription poll sub.path sub).bind fun poll =>
    (gamTreeGetAtPath poll sub.path).map (subscribedNode poll sub)

/-- The removal of children in `node_remove_directory_subscription`. -/
def removeChild (state : Poll × Bool) (child : Bytes) : Poll × Bool :=
  match state with
  | (poll, removeDir) =>
    if subsAt poll child = [] ∧ removeDir ∧ ¬ gamTreeHasChildren poll child then
      (gamTreeRemove (gamPollGenericUnregisterNode poll child) child, removeDir)
    else (poll, false)

/-- What is left of `node_remove_directory_subscription` when the node has lost the
subscription; it also tells whether to remove the node. -/
def removeChildren (poll : Poll) (node : GamNode) : Poll × Bool :=
  let bare : Bool := subsAt poll node.path = []
  match (gamTreeGetChildren poll node.path).foldl removeChild (poll, bare) with
  | (poll, _) => (poll, bare && ¬ parentHasDirSubscriptions poll node.parent)

/-- `gam_poll_basic_remove_subscription`. -/
def gamPollBasicRemoveSubscription (poll : Poll) (sub : GamSubscription) : Option Poll :=
  match gamTreeGetAtPath poll sub.path with
  | none => some poll
  | some node =>
    (gamNodeRemoveSubscription poll node sub).bind fun poll =>
      if ¬ node.isDir then
        if subsAt poll node.path = [] then
          let poll := gamPollGenericUnregisterNode poll node.path
          if gamTreeHasChildren poll node.path then none
          else if ¬ parentHasDirSubscriptions poll node.parent then
            some (gamPollGenericPruneTree (gamTreeRemove poll node.path) node.parent)
          else some poll
        else some poll
      else
        match removeChildren poll node with
        | (poll, false) => some poll
        | (poll, true) =>
          let poll := gamPollGenericUnregisterNode poll node.path
          let poll := if gamTreeHasChildren poll node.path then poll else gamTreeRemove poll node.path
          some (gamPollGenericPruneTree poll node.parent)

/-! ## The scan callback -/

/-- A node that the scan callback comes to. -/
def scanNode (poll : Poll) (path : Bytes) : Poll :=
  match gamTreeGetAtPath poll path with
  | none => poll
  | some node =>
    if node.isDir then
      gamPollGenericScanDirectoryInternal gamPollBasicPollFile (poll.nodes.length + 1) path poll
    else
      match gamPollBasicPollFile poll node with
      | (poll, event) => gamNodeEmitEvent poll path event

/-- The walk over `all_resources`, for as many rounds. -/
def scanAll : Nat → Nat → Poll → Poll
  | 0, _, poll => poll
  | rounds + 1, idx, poll =>
    match poll.all[idx]? with
    | none => poll
    | some path => scanAll rounds (idx + 1) (scanNode poll path)

/-- A missing node after its scan: it goes back to the others if it is there again. -/
def scanMissingNode (poll : Poll) (path : Bytes) : Poll :=
  let poll := scanNode poll path
  match gamTreeGetAtPath poll path with
  | none => poll
  | some node =>
    if node.pflags.missing then poll
    else gamPollGenericAdd (gamPollGenericRemoveMissing poll path) path

/-- The walk over `missing_resources`, for as many rounds. -/
def scanMissing : Nat → Nat → Poll → Poll
  | 0, _, poll => poll
  | rounds + 1, idx, poll =>
    match poll.missing[idx]? with
    | none => poll
    | some path => scanMissing rounds (idx + 1) (scanMissingNode poll path)

/-- `gam_poll_basic_scan_callback`.  The lists may change below the walks, so the number of
rounds is given. -/
def gamPollBasicScanCallback (poll : Poll) (now rounds : Nat) : Poll :=
  scanMissing rounds 0 (scanAll rounds 0 { poll with currentTime := now })

end Gamin.Polling
