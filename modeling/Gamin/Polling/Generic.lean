import Gamin.Polling.Tree

/-! # Resource lists and directory scans

`gam_poll_generic.c`.  The hook `gam_poll_file` is a parameter, since the two polling backends
install different ones.
-/

namespace Gamin.Polling

open Gamin Gamin.Server Gamin.Inotify

/-! ## Resource lists -/

/-- `gam_poll_generic_add_missing`. -/
def gamPollGenericAddMissing (poll : Poll) (path : Bytes) : Poll :=
  if path ∈ poll.missing then poll else { poll with missing := path :: poll.missing }

/-- `gam_poll_generic_remove_missing`. -/
def gamPollGenericRemoveMissing (poll : Poll) (path : Bytes) : Poll :=
  { poll with missing := poll.missing.filter (· ≠ path) }

/-- `gam_poll_generic_add_busy`. -/
def gamPollGenericAddBusy (poll : Poll) (path : Bytes) : Poll :=
  if path ∈ poll.busy then poll else { poll with busy := path :: poll.busy }

/-- `gam_poll_generic_remove_busy`. -/
def gamPollGenericRemoveBusy (poll : Poll) (path : Bytes) : Poll :=
  { poll with busy := poll.busy.filter (· ≠ path) }

/-- `gam_poll_generic_add`. -/
def gamPollGenericAdd (poll : Poll) (path : Bytes) : Poll :=
  if path ∈ poll.all then poll else { poll with all := path :: poll.all }

/-- `gam_poll_generic_unregister_node`. -/
def gamPollGenericUnregisterNode (poll : Poll) (path : Bytes) : Poll :=
  let poll := gamPollGenericRemoveBusy (gamPollGenericRemoveMissing poll path) path
  { poll with all := poll.all.erase path }

/-- `gam_poll_generic_prune_tree`, which does not prune the root. -/
def gamPollGenericPruneTree (poll : Poll) (node : Option Bytes) : Poll :=
  match node with
  | none => poll
  | some path =>
    match _lookup : gamTreeGetAtPath poll path with
    | none => poll
    | some node =>
      if ¬ gamTreeHasChildren poll path ∧ node.subs = [] then
        gamPollGenericPruneTree (gamTreeRemove (gamPollGenericUnregisterNode poll path) path)
          node.parent
      else poll
termination_by poll.nodes.length
decreasing_by
  have member := List.mem_of_find?_eq_some _lookup
  have same : node.path = path := by simpa using List.find?_some _lookup
  apply List.length_filter_lt_length_iff_exists.mpr
  exact ⟨node, member, by simp [same]⟩

/-! ## Scanning a directory -/

/-- The hook `gam_poll_file`: 0 is no event. -/
abbrev PollFile := Poll → GamNode → Poll × Option GaminEventType

/-- Not enough time has passed since the node was polled. -/
def tooSoon (poll : Poll) (node : GamNode) : Bool :=
  node.lasttime ≠ 0 ∧ poll.currentTime - node.lasttime < node.pollTime

/-- A name that `g_dir_read_name` gives in a scan. -/
def scanName (dirPath : Bytes) (poll : Poll) (name : Bytes) : Poll :=
  let path := gBuildFilename dirPath name
  if (gamTreeGetAtPath poll path).isSome then poll
  else
    let isDir := (poll.view.stat path).isDir
    let poll := poll.called
    gamTreeAdd poll { gamNodeNew poll path isDir (some dirPath) with newNode := true }

/-- A child of a scanned node, which may be a directory.  The event 0 of a child that is there goes to
nobody. -/
def scanChildOf (pollFile : PollFile) (rescan : Bytes → Poll → Poll) (scannedIsDir : Poll → Bool)
    (poll : Poll) (path : Bytes) : Poll :=
  match gamTreeGetAtPath poll path with
  | none => poll
  | some node =>
    let isDirNode := scannedIsDir poll
    match pollFile poll node with
    | (poll, fevent) =>
      match gamTreeGetAtPath poll path with
      | none => poll
      | some node =>
        if node.newNode then
          let poll := poll.setNode { node with newNode := false }
          if isDirNode ∧ node.subs ≠ [] then gamNodeEmitEvent (rescan path poll) path fevent
          else gamNodeEmitEvent poll path (some .created)
        else gamNodeEmitEvent poll path fevent

/-- A child of a scanned directory. -/
def scanChild (pollFile : PollFile) (rescan : Bytes → Poll → Poll) (dirPath : Bytes) : Poll → Bytes → Poll :=
  scanChildOf pollFile rescan fun poll => ((gamTreeGetAtPath poll dirPath).map (·.isDir)).getD false

/-- `gam_poll_generic_scan_directory_internal`.  It calls itself for a directory below that has
subscriptions, so the number of nodes bounds the depth. -/
def gamPollGenericScanDirectoryInternal (pollFile : PollFile) : Nat → Bytes → Poll → Poll
  | 0, _, poll => poll
  | depth + 1, dirPath, poll =>
    let scanFiles := fun poll =>
      (gamTreeGetChildren poll dirPath).foldl
        (scanChild pollFile (gamPollGenericScanDirectoryInternal pollFile depth) dirPath) poll
    match gamTreeGetAtPath poll dirPath with
    | none => poll
    | some dirNode =>
      if dirNode.subs = [] then scanFiles poll
      else if tooSoon poll dirNode then poll
      else
        match pollFile poll dirNode with
        | (poll, event) =>
          let poll := gamNodeEmitEvent poll dirPath event
          match poll.view.listing dirPath with
          | none => poll.called
          | some names => scanFiles (names.foldl (scanName dirPath) poll.called)

/-- `gam_poll_generic_scan_directory_internal` for the root, which nobody has subscribed to. -/
def gamPollGenericScanRoot (pollFile : PollFile) (poll : Poll) : Poll :=
  (gamTreeGetRootChildren poll).foldl
    (scanChildOf pollFile (gamPollGenericScanDirectoryInternal pollFile (poll.nodes.length + 1)) fun _ => true)
    poll

/-! ## The first scan for a subscription -/

/-- A name that `g_dir_read_name` gives in the first scan. -/
def firstScanName (sub : GamSubscription) (withExists : Bool) (dpath : Bytes) (poll : Poll)
    (name : Bytes) : Poll :=
  let path := gBuildFilename dpath name
  let poll :=
    if (gamTreeGetAtPath poll path).isSome then poll
    else
      let isDir := (poll.view.stat path).isDir
      let poll := poll.called
      let node := gamNodeNew poll path isDir (some dpath)
      let sbuf := match poll.view.stat path with
        | .found sbuf => sbuf
        | _ => node.sbuf
      gamTreeAdd poll.called { node with
        sbuf := sbuf
        isDir := sbuf.isDir
        pflags := { node.pflags with
          nokernel := poll.view.excluded path ∨ poll.view.monType path ≠ .kernel }
        lasttime := poll.currentTime }
  if withExists then gamServerEmitEvent poll name true .exists [sub] true else poll

/-- What `gam_poll_generic_first_scan_dir` does when the directory is not there. -/
def firstScanMissing (poll : Poll) (sub : GamSubscription) (dpath : Bytes) : Poll :=
  let poll := gamServerEmitEvent poll dpath true .deleted [sub] true
  match gamTreeGetAtPath poll dpath with
  | none => poll
  | some node =>
    let sbuf := match poll.view.stat dpath with
      | .found sbuf => sbuf
      | _ => node.sbuf
    let node := { node with sbuf := sbuf, lasttime := poll.currentTime }
    let poll := poll.called
    if (poll.view.stat dpath).exists then
      poll.called.setNode { node with
        pflags := { MonFlags.none with wrongType := true }, isDir := false }
    else
      gamPollGenericAddMissing
        (poll.called.setNode { node with pflags := { MonFlags.none with missing := true } }) dpath

/-- What `gam_poll_generic_first_scan_dir` does when the directory is there. -/
def firstScanPresent (pollFile : PollFile) (poll : Poll) (sub : GamSubscription)
    (withExists : Bool) (dpath : Bytes) : Poll :=
  let poll := match gamTreeGetAtPath poll dpath with
    | some node => if node.lasttime = 0 then (pollFile poll node).1 else poll
    | none => poll
  let poll := if withExists then gamServerEmitEvent poll dpath true .exists [sub] true else poll
  match poll.view.listing dpath with
  | none => poll.called
  | some names => names.foldl (firstScanName sub withExists dpath) poll.called

/-- `gam_poll_generic_first_scan_dir`. -/
def gamPollGenericFirstScanDir (pollFile : PollFile) (poll : Poll) (sub : GamSubscription)
    (dpath : Bytes) : Poll :=
  let withExists : Bool := sub.options &&& gamOptNoexists = 0
  let found := (poll.view.stat dpath).exists
  let poll := poll.called
  let poll :=
    if found then firstScanPresent pollFile poll sub withExists dpath
    else firstScanMissing poll sub dpath
  if withExists then gamServerEmitEvent poll dpath true .endexists [sub] true else poll

end Gamin.Polling
