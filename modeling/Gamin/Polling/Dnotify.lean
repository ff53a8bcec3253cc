import Gamin.Polling.Basic
import Gamin.Polling.Watches

/-! # Polling beside dnotify

`gam_poll_dnotify.c` polls nodes and keeps their subscriptions.  The handlers that it triggers switch the
kernel monitoring of a directory on and off.
-/

namespace Gamin.Polling

open Gamin Gamin.Server Gamin.Inotify

/-! ## Polling a node -/

/-- `gam_exclude_check` and `gam_fs_get_mon_type` leave the path to the kernel. -/
def kernelMonitored (poll : Poll) (path : Bytes) : Bool :=
  ¬ poll.view.excluded path ∧ poll.view.monType path = .kernel

/-- `gam_poll_generic_trigger_handler`; without dnotify there is no handler. -/
def triggerHandler (handler : Bool) (poll : Poll) (mode : PollHandlerMode) (node : GamNode) : Poll :=
  if handler then gamPollGenericTriggerHandler poll mode node else poll

/-- `gam_poll_dnotify_delist_node`: one request for each subscription. -/
def gamPollDnotifyDelistNode (handler : Bool) (poll : Poll) (node : GamNode) : Poll :=
  if kernelMonitored poll node.path then
    node.subs.foldl (fun poll _ => triggerHandler handler poll .deactivate node) poll
  else poll

/-- `gam_poll_dnotify_relist_node`. -/
def gamPollDnotifyRelistNode (handler : Bool) (poll : Poll) (node : GamNode) : Poll :=
  if kernelMonitored poll node.path then
    node.subs.foldl (fun poll _ => triggerHandler handler poll .activate node) poll
  else poll

/-- `gam_poll_dnotify_flowon_node` and `gam_poll_dnotify_flowoff_node`. -/
def flowControl (handler : Bool) (poll : Poll) (node : GamNode) (start : Bool) : Poll :=
  if kernelMonitored poll node.path then
    triggerHandler handler poll (if start then .flowControlStart else .flowControlStop) node
  else poll

/-- The node has left the busy state. -/
def leaveLoaded (poll : Poll) (path : Bytes) : Poll :=
  { poll with loaded := poll.loaded.filter (· ≠ path) }

/-- The first poll of a node. -/
def dnotifyPollNewFile (poll : Poll) (node : GamNode) : Poll × Option GaminEventType :=
  let answer := poll.view.stat node.path
  let poll := poll.called
  let pflags := { node.pflags with
    nokernel := node.pflags.nokernel ∨ ¬ kernelMonitored poll node.path }
  match answer with
  | .found sbuf =>
    (poll.setNode { node with
      isDir := sbuf.isDir, pflags := pflags, sbuf := sbuf, lasttime := poll.currentTime }, none)
  | _ =>
    (poll.setNode { node with
      pflags := { pflags with missing := true }, sbuf := .zero, lasttime := poll.currentTime },
      some .deleted)

/-- A node that a poll finds deleted: its flags are overwritten. -/
def dnotifyDeletedFile (handler : Bool) (poll : Poll) (node : GamNode) : Poll :=
  let node := { node with pflags := { MonFlags.none with missing := true } }
  let poll := gamPollGenericRemoveBusy (leaveLoaded (poll.setNode node) node.path) node.path
  if node.subs ≠ [] then
    gamPollGenericAddMissing (gamPollDnotifyDelistNode handler poll node) node.path
  else poll

/-- What a later poll finds: the node, the lists and the event. -/
def dnotifyStatFile (handler : Bool) (poll : Poll) (node : GamNode) :
    Poll × GamNode × Option GaminEventType :=
  match poll.view.stat node.path with
  | .found sbuf =>
    let next := { node with isDir := sbuf.isDir, sbuf := sbuf }
    if node.pflags.missing then
      (poll.called, { next with pflags := { node.pflags with missing := false } }, some .created)
    else if gamPollGenericNodeChanged node sbuf then (poll.called, next, some .changed)
    else (poll.called, next, none)
  | answer =>
    let poll := poll.called
    if answer = .noent ∧ ¬ node.pflags.missing then
      (dnotifyDeletedFile handler poll node,
        { node with pflags := { MonFlags.none with missing := true }, sbuf := .zero }, some .deleted)
    else (poll, { node with sbuf := .zero }, none)

/-- How often a node has been found to change, or, when it is busy, not to. -/
def countChecks (poll : Poll) (node : GamNode) (event : Option GaminEventType) : GamNode :=
  if poll.currentTime = node.lasttime then
    if ¬ node.pflags.busy ∧ node.sbuf.mtim.1 = poll.currentTime then
      { node with checks := node.checks + 1 }
    else node
  else if node.pflags.busy then
    { node with
      lasttime := poll.currentTime
      checks := if event = none then node.checks + 1 else node.checks }
  else { node with lasttime := poll.currentTime, checks := 0 }

/-- A node that changes too often is polled. -/
def switchToPolling (handler : Bool) (poll : Poll) (node : GamNode) : Poll × GamNode :=
  if node.checks ≥ 4 ∧ ¬ node.pflags.busy ∧ node.subs ≠ [] ∧ kernelMonitored poll node.path then
    let node := { node with pflags := { node.pflags with busy := true }, checks := 0 }
    let poll := gamPollGenericAddBusy { poll with loaded := node.path :: poll.loaded } node.path
    let poll := flowControl handler poll node true
    let poll :=
      match node.parent with
      | some parent =>
        if ¬ node.isDir ∧ subsAt poll parent ≠ [] then gamPollGenericAddBusy poll parent else poll
      | none => poll
    (poll, node)
  else (poll, node)

/-- A busy node that has not changed for some time is left to the kernel. -/
def switchToKernel (handler : Bool) (poll : Poll) (node : GamNode)
    (event : Option GaminEventType) : Poll × GamNode :=
  if event = none ∧ node.pflags.busy ∧ node.checks > 5 ∧ node.subs ≠ [] ∧
      kernelMonitored poll node.path then
    let node := { node with pflags := { node.pflags with busy := false }, checks := 0 }
    (flowControl handler (gamPollGenericRemoveBusy (leaveLoaded poll node.path) node.path) node false,
      node)
  else (poll, node)

/-- A later poll of a node. -/
def dnotifyPollKnownFile (handler : Bool) (poll : Poll) (node : GamNode) :
    Poll × Option GaminEventType :=
  match dnotifyStatFile handler poll node with
  | (poll, node, event) =>
    if node.pflags.nokernel then (poll.setNode node, event)
    else
      match switchToPolling handler poll (countChecks poll node event) with
      | (poll, node) =>
        match switchToKernel handler poll node event with
        | (poll, node) => (poll.setNode node, event)

/-- `gam_poll_dnotify_poll_file`; the handler is that of dnotify if dnotify is running. -/
def gamPollDnotifyPollFile (handler : Bool) : PollFile := fun poll node =>
  if tooSoon poll node then (poll, none)
  else if node.lasttime = 0 then dnotifyPollNewFile poll node
  else dnotifyPollKnownFile handler poll node

/-! ## Subscriptions -/

/-- `node_add_subscription` in `gam_poll_dnotify.c`, with whether it returns 0.  Only the
assertion of `gam_node_add_subscription` leaves no result. -/
def nodeAddSubscription (handler : Bool) (poll : Poll) (path : Bytes) (sub : GamSubscription) :
    Option (Poll × Bool) :=
  match gamTreeGetAtPath poll path with
  | none => some (poll, false)
  | some node =>
    if node.path.head? ≠ some slash then some (poll, false)
    else
      (gamNodeAddSubscription poll path sub).map fun poll =>
        if poll.view.excluded path ∨ poll.view.monType path = .poll then
          let poll := if node.lasttime = 0 then
              (gamPollDnotifyPollFile handler poll { node with subs := sub :: node.subs }).1
            else poll
          (gamPollGenericAddMissing poll path, true)
        else (triggerHandler handler poll .activate node, true)

/-- The node that `gam_poll_dnotify_add_subscription` registers at its end: the parent of a
node that is not a directory. -/
def addPolled (poll : Poll) (sub : GamSubscription) (path : Bytes) (nodeIsDir : Bool) : Poll :=
  if nodeIsDir then gamPollGenericAdd poll path
  else
    let parent := gPathGetDirname path
    gamPollGenericAdd (gamTreeAddAtPath poll parent sub.isDir) parent

/-- The part of `gam_poll_dnotify_add_subscription` that follows `node_add_subscription`. -/
def dnotifySubscribedNode (handler : Bool) (poll : Poll) (sub : GamSubscription)
    (node : GamNode) : Poll :=
  let poll :=
    if node.isDir then
      gamPollGenericFirstScanDir (gamPollDnotifyPollFile handler) poll sub node.path
    else
      match gamPollDnotifyPollFile handler poll node with
      | (poll, event) => sendFileState poll sub node.path node.isDir event
  let unwatched := ((gamTreeGetAtPath poll node.path).map fun node =>
    node.pflags.missing || node.pflags.nokernel).getD false
  let poll := if unwatched then gamPollGenericAddMissing poll node.path else poll
  addPolled poll sub node.path node.isDir

/-- `gam_poll_dnotify_add_subscription`, without the entry in the listener, and what it
returns. -/
def gamPollDnotifyAddSubscription (handler : Bool) (poll : Poll) (now : Nat)
    (sub : GamSubscription) : Option (Poll × Bool) :=
  let poll := gamTreeAddAtPath { poll with currentTime := now } sub.path sub.isDir
  (nodeAddSubscription handler poll sub.path sub).map fun (poll, added) =>
    match added, gamTreeGetAtPath poll sub.path with
    | true, some node => (dnotifySubscribedNode handler poll sub node, true)
    | _, _ => (poll, false)

/-- `node_remove_subscription` asks for kernel monitoring to be switched off, since the node is not in a
special mode other than being busy. -/
def asksToDeactivate (poll : Poll) (node : GamNode) : Bool :=
  ¬ (poll.view.excluded node.path ∨ poll.view.monType node.path = .poll) ∧
    (node.pflags = { MonFlags.none with busy := true } ∨ node.pflags = .none)

/-- `node_remove_subscription` in `gam_poll_dnotify.c`, which does nothing at a path that does
not start with a slash.  A node that nobody has subscribed to any more is not busy. -/
def nodeRemoveSubscription (handler : Bool) (poll : Poll) (node : GamNode) (sub : GamSubscription) :
    Option Poll :=
  if node.path.head? ≠ some slash then some poll
  else
    (gamNodeRemoveSubscription poll node sub).map fun poll =>
      let poll := if subsAt poll node.path = [] then leaveLoaded poll node.path else poll
      if asksToDeactivate poll node then triggerHandler handler poll .deactivate node else poll

/-- `gam_poll_dnotify_remove_subscription`.  It only complains about a node that has children
and is not a directory. -/
def gamPollDnotifyRemoveSubscription (handler : Bool) (poll : Poll) (sub : GamSubscription) :
    Option Poll :=
  match gamTreeGetAtPath poll sub.path with
  | none => some poll
  | some node =>
    (nodeRemoveSubscription handler poll node sub).map fun poll =>
      if ¬ node.isDir then
        if subsAt poll node.path = [] then
          let poll := gamPollGenericUnregisterNode poll node.path
          if gamTreeHasChildren poll node.path then poll
          else if ¬ parentHasDirSubscriptions poll node.parent then
            gamPollGenericPruneTree (gamTreeRemove poll node.path) node.parent
          else poll
        else poll
      else
        match removeChildren poll node with
        | (poll, false) => poll
        | (poll, true) =>
          let poll := gamPollGenericUnregisterNode poll node.path
          let poll := if gamTreeHasChildren poll node.path then poll else gamTreeRemove poll node.path
          gamPollGenericPruneTree poll node.parent

/-! ## Scans -/

/-- A node that the scan callback comes to. -/
def dnotifyScanNode (handler : Bool) (poll : Poll) (path : Bytes) : Poll :=
  match gamTreeGetAtPath poll path with
  | none => poll
  | some node =>
    if node.isDir then
      gamPollGenericScanDirectoryInternal (gamPollDnotifyPollFile handler) (poll.nodes.length + 1)
        path poll
    else
      match gamPollDnotifyPollFile handler poll node with
      | (poll, event) => gamNodeEmitEvent poll path event

/-- A node of the missing list after its scan: it is left to the kernel if it is there again and
not in a special mode. -/
def dnotifyScanMissingNode (handler : Bool) (poll : Poll) (path : Bytes) : Poll :=
  let poll := dnotifyScanNode handler poll path
  match gamTreeGetAtPath poll path with
  | none => poll
  | some node =>
    if node.pflags = .none ∧ kernelMonitored poll path then
      let poll := gamPollGenericRemoveMissing poll path
      if node.subs ≠ [] then gamPollDnotifyRelistNode handler poll node else poll
    else poll

/-- The root on the busy list. -/
def dnotifyScanBusyRoot (handler : Bool) (poll : Poll) : Poll :=
  let poll := gamPollGenericScanRoot (gamPollDnotifyPollFile handler) poll
  if ¬ poll.rootBusy ∧ kernelMonitored poll [slash] then gamPollGenericRemoveBusy poll [] else poll

/-- A node of the busy list after its scan. -/
def dnotifyScanBusyNode (handler : Bool) (poll : Poll) (path : Bytes) : Poll :=
  let poll := dnotifyScanNode handler poll path
  match gamTreeGetAtPath poll path with
  | none => poll
  | some node =>
    if node.pflags = .none ∧ kernelMonitored poll path then
      let poll := gamPollGenericRemoveBusy poll path
      if node.subs ≠ [] then flowControl handler poll node false else poll
    else poll

/-- The walk over `missing_resources`, for as many rounds. -/
def dnotifyScanMissing (handler : Bool) : Nat → Nat → Poll → Poll
  | 0, _, poll => poll
  | rounds + 1, idx, poll =>
    match poll.missing[idx]? with
    | none => poll
    | some path => dnotifyScanMissing handler rounds (idx + 1) (dnotifyScanMissingNode handler poll path)

/-- The walk over `busy_resources`, for as many rounds. -/
def dnotifyScanBusy (handler : Bool) : Nat → Nat → Poll → Poll
  | 0, _, poll => poll
  | rounds + 1, idx, poll =>
    match poll.busy[idx]? with
    | none => poll
    | some path =>
      dnotifyScanBusy handler rounds (idx + 1)
        (if path = [] then dnotifyScanBusyRoot handler poll else dnotifyScanBusyNode handler poll path)

/-- `gam_poll_dnotify_scan_callback`. -/
def gamPollDnotifyScanCallback (handler : Bool) (poll : Poll) (now rounds : Nat) : Poll :=
  dnotifyScanBusy handler rounds 0 (dnotifyScanMissing handler rounds 0 { poll with currentTime := now })

/-- `gam_poll_generic_scan_directory`, which `gam_dnotify_pipe_handler` calls for a directory
that has changed. -/
def gamPollGenericScanDirectory (pollFile : PollFile) (poll : Poll) (now : Nat) (path : Bytes) : Poll :=
  let poll := gamTreeAddAtPath { poll with currentTime := now } path true
  gamPollGenericScanDirectoryInternal pollFile (poll.nodes.length + 1) path poll

end Gamin.Polling
