import Gamin.Kqueue.Monitors

/-! # The kqueue backend

The hash tables and pollers, `SubMonitor` and `FileMonitor`, and the callbacks of `gam_kqueue.c`.

Of the flags of an event, `kind` says whether the monitor is known to be a directory, `MONITOR_ISDIR`, or
known not to be, `MONITOR_ISNOTDIR`.  The assertions that a table is not being walked are left out.
-/

namespace Gamin.Kqueue

open Gamin Gamin.Server Gamin.Inotify Gamin.Library

/-- `CFG_UNSUPPORTED_SMON_KQUEUE_RETRY_FREQUENCY`. -/
def cfgUnsupportedSmonKqueueRetryFrequency : Nat := 10

/-- `CFG_UNSUPPORTED_FMON_KQUEUE_RETRY_FREQUENCY`. -/
def cfgUnsupportedFmonKqueueRetryFrequency : Nat := 10

/-! ## Pollers -/

namespace Poller

/-- `gam_kqueue_hash_table_add` with `gam_kqueue_poller_post_add_cb`. -/
def add (poller : Poller) (smon : Pointer) : Poller where
  timeout := poller.timeout || ¬ poller.smons.iterating
  smons := poller.smons.add smon

/-- `gam_kqueue_hash_table_remove` with `gam_kqueue_poller_post_remove_cb`. -/
def remove (poller : Poller) (smon : Pointer) : Poller where
  timeout := poller.timeout && (poller.smons.iterating || (poller.smons.remove smon).main ≠ [])
  smons := poller.smons.remove smon

def walked (poller : Poller) : Poller := { poller with smons := poller.smons.walked }

/-- The end of `gam_kqueue_hash_table_foreach`. -/
def finish (poller : Poller) : Poller where
  timeout :=
    (poller.timeout || poller.smons.pendingAdditions ≠ []) &&
      (poller.smons.pendingRemovals = [] || poller.smons.finish.main ≠ [])
  smons := poller.smons.finish

end Poller

def Backend.setPoller (state : Backend) (kind : PollerKind) (poller : Poller) : Backend :=
  { state with pollers := Function.update state.pollers kind poller }

/-- `gam_kqueue_poller_add_sub_monitor`. -/
def gamKqueuePollerAddSubMonitor (state : Backend) (kind : PollerKind) (smon : Pointer) : Backend :=
  state.setPoller kind ((state.pollers kind).add smon)

/-- `gam_kqueue_poller_remove_sub_monitor`. -/
def gamKqueuePollerRemoveSubMonitor (state : Backend) (kind : PollerKind) (smon : Pointer) : Backend :=
  state.setPoller kind ((state.pollers kind).remove smon)

/-! ## The tables of a `SubMonitor` -/

def Backend.setSub (state : Backend) (smon : Pointer) (sub : SubMonitor) : Backend :=
  { state with subMonitors := Function.update state.subMonitors smon (some sub) }

/-- `gam_kqueue_hash_table_add` for `unsupported_fmons`. -/
def addUnsupportedFmon (state : Backend) (smon fmon : Pointer) : Backend :=
  match state.subMonitors smon with
  | none => state
  | some sub =>
    let state := state.setSub smon { sub with unsupportedFmons := sub.unsupportedFmons.add fmon }
    if sub.unsupportedFmons.iterating then state
    else gamKqueuePollerAddSubMonitor state .unsupportedFmon smon

/-- `gam_kqueue_hash_table_remove` for `unsupported_fmons`. -/
def removeUnsupportedFmon (state : Backend) (smon fmon : Pointer) : Backend :=
  match state.subMonitors smon with
  | none => state
  | some sub =>
    let table := sub.unsupportedFmons.remove fmon
    let state := state.setSub smon { sub with unsupportedFmons := table }
    if sub.unsupportedFmons.iterating ∨ table.main ≠ [] then state
    else gamKqueuePollerRemoveSubMonitor state .unsupportedFmon smon

/-- The end of `gam_kqueue_hash_table_foreach` for `unsupported_fmons`. -/
def finishUnsupportedFmons (state : Backend) (smon : Pointer) : Backend :=
  match state.subMonitors smon with
  | none => state
  | some sub =>
    let table := sub.unsupportedFmons.finish
    let state' := state.setSub smon { sub with unsupportedFmons := table }
    let state' :=
      if sub.unsupportedFmons.pendingAdditions = [] then state'
      else gamKqueuePollerAddSubMonitor state' .unsupportedFmon smon
    if sub.unsupportedFmons.pendingRemovals = [] ∨ table.main ≠ [] then state'
    else gamKqueuePollerRemoveSubMonitor state' .unsupportedFmon smon

/-- `gam_kqueue_file_monitor_free`. -/
def gamKqueueFileMonitorFree (state : Backend) (fmon : Pointer) : Backend :=
  let state := gamKqueueMonitorFree state fmon
  { state with fileMonitors := Function.update state.fileMonitors fmon none }

/-- The destruction of entries of `fmons`. -/
def freeEntries (state : Backend) (entries : List (Bytes × Pointer)) : Backend :=
  entries.foldl (fun state entry => gamKqueueFileMonitorFree state entry.2) state

def SubMonitor.setFiles (sub : SubMonitor) (main : List (Bytes × Pointer)) : SubMonitor :=
  { sub with fmons := { sub.fmons with main := main } }

/-- `gam_kqueue_hash_table_add` for `fmons`: a monitor that is there under the name is replaced and
freed. -/
def addFmon (state : Backend) (smon : Pointer) (entry : Bytes × Pointer) : Backend :=
  match state.subMonitors smon with
  | none => state
  | some sub =>
    if sub.fmons.iterating then
      state.setSub smon
        { sub with fmons := { sub.fmons with pendingAdditions := entry :: sub.fmons.pendingAdditions } }
    else
      freeEntries
        (state.setSub smon (sub.setFiles (entry :: sub.fmons.main.filter (·.1 ≠ entry.1))))
        (sub.fmons.main.filter (·.1 = entry.1))

/-- `gam_kqueue_hash_table_remove` for `fmons`: what goes by the name of the monitor is freed. -/
def removeFmon (state : Backend) (smon : Pointer) (entry : Bytes × Pointer) : Backend :=
  match state.subMonitors smon with
  | none => state
  | some sub =>
    if sub.fmons.iterating then
      state.setSub smon
        { sub with fmons := { sub.fmons with pendingRemovals := entry :: sub.fmons.pendingRemovals } }
    else
      freeEntries (state.setSub smon (sub.setFiles (sub.fmons.main.filter (·.1 ≠ entry.1))))
        (sub.fmons.main.filter (·.1 = entry.1))

/-- The end of `gam_kqueue_hash_table_foreach` for `fmons`. -/
def finishFmons (state : Backend) (smon : Pointer) : Backend :=
  match state.subMonitors smon with
  | none => state
  | some sub =>
    let state := state.setSub smon { sub with fmons := { DeferredSet.new with main := sub.fmons.main } }
    let state := sub.fmons.pendingAdditions.foldl (addFmon · smon) state
    sub.fmons.pendingRemovals.foldl (removeFmon · smon) state

/-! ## Events -/

/-- `gam_server_emit_event`, which is forced. -/
def emitEvent (state : Backend) (pathname : Bytes) (isdir : Bool) (event : GaminEventType)
    (subs : List GamSubscription) : Backend :=
  { state with
    sent := state.sent ++ subs.flatMap fun sub => gamServerEmitOneEvent pathname isdir event sub true }

/-- `gam_kqueue_isdir`. -/
def gamKqueueIsdir (state : Backend) (pathname : Bytes) : Option Bool → Backend × Bool
  | some isdir => (state, isdir)
  | none => (state.called, ((state.answer.lstat pathname).map Stat.isDir).getD false)

/-! ## File monitors -/

/-- `gam_kqueue_file_monitor_set_unsupported`. -/
def gamKqueueFileMonitorSetUnsupported (state : Backend) (fmon : Pointer) : Backend :=
  let state := gamKqueueMonitorSetUnsupported state fmon
  match state.fileMonitors fmon with
  | none => state
  | some file => addUnsupportedFmon state file.smon fmon

/-- The memory of a new file monitor. -/
def fileMonitorMade (state : Backend) (smon : Pointer) (filename : Bytes) : Backend :=
  let directory := ((state.monitor smon).map (·.pathname)).getD []
  let file := { smon := smon, filename := filename }
  { (monitorNew state (gBuildFilename directory filename)).1 with
    fileMonitors := Function.update state.fileMonitors state.nextPointer (some file) }

/-- A new file monitor enters the table of its directory. -/
def fileMonitorEnter (state : Backend) (smon : Pointer) (filename : Bytes) : Backend :=
  addFmon (fileMonitorMade state smon filename) smon (filename, state.nextPointer)

/-- `gam_kqueue_file_monitor_new`, with what it makes of the flags. -/
def gamKqueueFileMonitorNew (state : Backend) (smon : Pointer) (filename : Bytes) :
    Backend × Pointer × Option Bool :=
  let fmon := state.nextPointer
  match gamKqueueMonitorEnableKqueue (fileMonitorEnter state smon filename) fmon with
  | (state, true) => (state, fmon, none)
  | (state, false) =>
    let state := gamKqueueFileMonitorSetUnsupported state fmon
    (state, fmon, (state.monitor fmon).map (·.sb.isDir))

/-- The first half of `gam_kqueue_file_monitor_emit_event`, which is all of it for an event that is
neither a deletion nor a move.  The result says whether the file was found to be there. -/
def fileMonitorSend (state : Backend) (fmon : Pointer) (event : GaminEventType) (kind : Option Bool) :
    Backend × Option Bool :=
  match state.monitor fmon, state.fileMonitors fmon with
  | some mon, some file =>
    let subs := ((state.subMonitors file.smon).map (·.subs)).getD []
    match kind with
    | some isdir => (emitEvent state mon.pathname isdir event subs, none)
    | none =>
      let sb := state.answer.lstat mon.pathname
      (emitEvent state.called mon.pathname ((sb.map Stat.isDir).getD false) event subs, some sb.isSome)
  | _, _ => (state, none)

/-- What `gam_kqueue_file_monitor_emit_event` does after a deletion or a move. -/
def fileMonitorGone (state : Backend) (fmon : Pointer) (file : FileMonitor) (mon : Monitor)
    (possiblyRecreated : Bool) (statted : Option Bool) : Backend :=
  let state := if mon.fd = none then removeUnsupportedFmon state file.smon fmon else state
  if possiblyRecreated then
    match (match statted with
      | some succeeded => (state, succeeded)
      | none => (state.called, (state.answer.lstat mon.pathname).isSome)) with
    | (state, true) =>
      match gamKqueueFileMonitorNew state file.smon file.filename with
      | (state, newFmon, kind) => (fileMonitorSend state newFmon .created kind).1
    | (state, false) => removeFmon state file.smon (file.filename, fmon)
  else removeFmon state file.smon (file.filename, fmon)

/-- `gam_kqueue_file_monitor_emit_event`. -/
def gamKqueueFileMonitorEmitEvent (state : Backend) (fmon : Pointer) (event : GaminEventType)
    (kind : Option Bool) (possiblyRecreated : Bool) : Backend :=
  match state.monitor fmon, state.fileMonitors fmon with
  | some mon, some file =>
    match fileMonitorSend state fmon event kind with
    | (state, statted) =>
      if event = .deleted ∨ event = .moved then
        fileMonitorGone state fmon file mon possiblyRecreated statted
      else state
  | _, _ => state

/-! ## Sub monitors -/

/-- `gam_kqueue_sub_monitor_clear_fmons`. -/
def gamKqueueSubMonitorClearFmons (state : Backend) (smon : Pointer) (sub : SubMonitor) : Backend :=
  let state :=
    if sub.unsupportedFmons.main ≠ [] then gamKqueuePollerRemoveSubMonitor state .unsupportedFmon smon
    else state
  freeEntries state sub.fmons.main

/-- `gam_kqueue_sub_monitor_set_missing`. -/
def gamKqueueSubMonitorSetMissing (state : Backend) (smon : Pointer) : Backend :=
  let state := closeMonitor state smon
  let state :=
    match state.subMonitors smon with
    | none => state
    | some sub =>
      if sub.fmons.main ≠ [] then
        (gamKqueueSubMonitorClearFmons state smon sub).setSub smon
          { sub with fmons := .new, unsupportedFmons := .new }
      else state
  gamKqueuePollerAddSubMonitor
    (gamKqueuePollerRemoveSubMonitor state .unsupportedSmon smon) .missingSmon smon

/-- `gam_kqueue_sub_monitor_set_unsupported`. -/
def gamKqueueSubMonitorSetUnsupported (state : Backend) (smon : Pointer) : Backend :=
  gamKqueuePollerAddSubMonitor (gamKqueueMonitorSetUnsupported state smon) .unsupportedSmon smon

/-- A new monitor for a name of a directory, and the event about it. -/
def newFile (smon : Pointer) (event : GaminEventType) (state : Backend) (filename : Bytes) : Backend :=
  match gamKqueueFileMonitorNew state smon filename with
  | (state, fmon, kind) => (fileMonitorSend state fmon event kind).1

/-- A name that `gam_kqueue_sub_monitor_handle_directory_change` reads. -/
def changedName (smon : Pointer) (state : Backend) (filename : Bytes) : Backend :=
  match state.subMonitors smon with
  | none => state
  | some sub =>
    if filename ∈ sub.fmons.main.map Prod.fst then state else newFile smon .created state filename

/-- `gam_kqueue_sub_monitor_handle_directory_change_removal_cb`. -/
def changeRemoval (names : List Bytes) (state : Backend) (entry : Bytes × Pointer) : Backend :=
  if entry.1 ∈ names then state
  else gamKqueueFileMonitorEmitEvent state entry.2 .deleted (some false) false

/-- `gam_kqueue_sub_monitor_handle_directory_change`. -/
def gamKqueueSubMonitorHandleDirectoryChange (state : Backend) (smon : Pointer) (pathname : Bytes)
    (isdir : Bool) : Backend :=
  let names : List Bytes :=
    if isdir then ((state.answer.listing pathname).map (·.names)).getD [] else []
  let state := if isdir then names.foldl (changedName smon) state.called else state
  match state.subMonitors smon with
  | none => state
  | some sub =>
    let walk := shuffle state.answer.order sub.fmons.main
    let state := state.called.setSub smon { sub with fmons := sub.fmons.walked }
    finishFmons (walk.foldl (changeRemoval names) state) smon

/-- `gam_kqueue_sub_monitor_emit_event`. -/
def gamKqueueSubMonitorEmitEvent (state : Backend) (smon : Pointer) (event : GaminEventType)
    (kind : Option Bool) : Backend :=
  match state.monitor smon, state.subMonitors smon with
  | some mon, some sub =>
    match gamKqueueIsdir state mon.pathname kind with
    | (state, isdir) =>
      if event = .changed ∧ sub.isdir then
        gamKqueueSubMonitorHandleDirectoryChange state smon mon.pathname isdir
      else
        let state :=
          if event = .deleted ∨ event = .moved then gamKqueueSubMonitorSetMissing state smon else state
        emitEvent state mon.pathname isdir event sub.subs
  | _, _ => state

/-- The names in a directory that has come into being, or that is subscribed to. -/
def listNames (state : Backend) (smon : Pointer) (pathname : Bytes) (event : GaminEventType) : Backend :=
  match state.answer.listing pathname with
  | some listing => listing.names.foldl (newFile smon event) state.called
  | none => state.called

/-- The events that `gam_kqueue_sub_monitor_enable_notification` sends about a path that exists. -/
def announceExisting (state : Backend) (smon : Pointer) (mon : Monitor) (sub : SubMonitor)
    (wasMissing isdir : Bool) : Backend :=
  let event : GaminEventType := if wasMissing then .created else .exists
  let state := gamKqueueSubMonitorEmitEvent state smon event (some isdir)
  let state := if sub.isdir ∧ isdir then listNames state smon mon.pathname event else state
  if wasMissing then state else gamKqueueSubMonitorEmitEvent state smon .endexists (some isdir)

/-- How `gam_kqueue_sub_monitor_enable_notification` ends. -/
def enableOrPoll (state : Backend) (smon : Pointer) : Backend :=
  match gamKqueueMonitorEnableKqueue state smon with
  | (state, true) => state
  | (state, false) => gamKqueueSubMonitorSetUnsupported state smon

/-- `gam_kqueue_sub_monitor_enable_notification`; a directory that was missing is given with what it
has been found to be. -/
def gamKqueueSubMonitorEnableNotification (state : Backend) (smon : Pointer)
    (wasMissing : Option Bool) : Backend :=
  match state.monitor smon, state.subMonitors smon with
  | some mon, some sub =>
    match wasMissing with
    | some isdir => enableOrPoll (announceExisting state smon mon sub true isdir) smon
    | none =>
      match state.answer.lstat mon.pathname with
      | some sb => enableOrPoll (announceExisting state.called smon mon sub false sb.isDir) smon
      | none =>
        gamKqueueSubMonitorEmitEvent
          (gamKqueueSubMonitorEmitEvent state.called smon .deleted (some false)) smon .endexists
          (some false)
  | _, _ => state

/-- `gam_kqueue_sub_monitor_free`. -/
def gamKqueueSubMonitorFree (state : Backend) (smon : Pointer) : Backend :=
  match state.subMonitors smon with
  | none => state
  | some sub =>
    let state := gamKqueuePollerRemoveSubMonitor state .missingSmon smon
    let state := gamKqueuePollerRemoveSubMonitor state .unsupportedSmon smon
    let state := gamKqueueMonitorFree (gamKqueueSubMonitorClearFmons state smon sub) smon
    { state with subMonitors := Function.update state.subMonitors smon none }

/-! ## Callbacks of the kernel -/

/-- The flags of a kevent: `EV_ERROR`, and of `fflags` the sets `VN_NOTE_CHANGED` and
`VN_NOTE_DELETED` and `NOTE_RENAME`. -/
structure Kevent where
  error : Bool
  changed : Bool
  deleted : Bool
  renamed : Bool
  deriving DecidableEq, Repr

/-- `gam_kqueue_sub_monitor_handle_kevent`. -/
def gamKqueueSubMonitorHandleKevent (state : Backend) (smon : Pointer) (event : Kevent) : Backend :=
  if event.error then gamKqueueSubMonitorSetUnsupported state smon
  else
    let state :=
      if event.changed then gamKqueueSubMonitorEmitEvent state smon .changed none else state
    if event.deleted then gamKqueueSubMonitorEmitEvent state smon .deleted (some false)
    else if event.renamed then gamKqueueSubMonitorEmitEvent state smon .moved (some false)
    else state

/-- `gam_kqueue_file_monitor_handle_kevent`. -/
def gamKqueueFileMonitorHandleKevent (state : Backend) (fmon : Pointer) (event : Kevent) : Backend :=
  if event.error then gamKqueueFileMonitorSetUnsupported state fmon
  else
    let state :=
      if event.changed then gamKqueueFileMonitorEmitEvent state fmon .changed none false else state
    if event.deleted then gamKqueueFileMonitorEmitEvent state fmon .deleted (some false) true
    else if event.renamed then gamKqueueFileMonitorEmitEvent state fmon .moved (some false) true
    else state

/-- `gam_kqueue_kevent_cb` for an event about a descriptor; it has been registered with the monitor
that is to handle it.  The event of a descriptor that has been left open does nothing when its monitor is
gone; in the program the callback is called with a monitor that has been freed. -/
def gamKqueueKeventCb (state : Backend) (fd : Nat) (event : Kevent) : Backend :=
  match state.descriptors.lookup fd with
  | none => state
  | some mon =>
    if (state.subMonitors mon).isSome then gamKqueueSubMonitorHandleKevent state mon event
    else gamKqueueFileMonitorHandleKevent state mon event

/-! ## Callbacks of the pollers -/

/-- `gam_kqueue_missing_smon_poll`. -/
def gamKqueueMissingSmonPoll (state : Backend) (smon : Pointer) : Backend :=
  match state.monitor smon with
  | none => state
  | some mon =>
    match state.answer.lstat mon.pathname with
    | none => state.called
    | some sb =>
      gamKqueueSubMonitorEnableNotification
        (gamKqueuePollerRemoveSubMonitor state.called .missingSmon smon) smon (some sb.isDir)

/-- What the two callbacks for unsupported monitors make of a new `lstat`. -/
def polledEvent (before after : MiniStat) : Option GaminEventType :=
  if ¬ after.present ∧ before.present then some .deleted
  else if gamKqueueDiffers after before then some .changed
  else none

/-- How `gam_kqueue_unsupported_smon_poll` begins: it counts the polls and tries to enable the monitor now
and then.  One that has been enabled is taken from the missing poller. -/
def subMonitorRetry (state : Backend) (smon : Pointer) (mon : Monitor) : Backend :=
  if mon.pollCount + 1 = cfgUnsupportedSmonKqueueRetryFrequency then
    match gamKqueueMonitorEnableKqueue (state.setMonitor smon { mon with pollCount := 0 }) smon with
    | (state, true) => gamKqueuePollerRemoveSubMonitor state .missingSmon smon
    | (state, false) => state
  else state.setMonitor smon { mon with pollCount := mon.pollCount + 1 }

/-- `gam_kqueue_unsupported_smon_poll`. -/
def gamKqueueUnsupportedSmonPoll (state : Backend) (smon : Pointer) : Backend :=
  match state.monitor smon with
  | none => state
  | some mon =>
    match gamKqueueMiniLstat (subMonitorRetry state smon mon) mon.pathname with
    | (state, sb) =>
      match polledEvent mon.sb sb, state.monitor smon with
      | some event, some mon =>
        gamKqueueSubMonitorEmitEvent (state.setMonitor smon { mon with sb := sb }) smon event
          (some sb.isDir)
      | _, _ => state

/-- How `gam_kqueue_unsupported_fmon_poll_foreach_cb` begins. -/
def fileMonitorRetry (state : Backend) (fmon : Pointer) (mon : Monitor) (file : FileMonitor) : Backend :=
  if mon.pollCount + 1 = cfgUnsupportedFmonKqueueRetryFrequency then
    match gamKqueueMonitorEnableKqueue (state.setMonitor fmon { mon with pollCount := 0 }) fmon with
    | (state, true) => removeUnsupportedFmon state file.smon fmon
    | (state, false) => state
  else state.setMonitor fmon { mon with pollCount := mon.pollCount + 1 }

/-- `gam_kqueue_unsupported_fmon_poll_foreach_cb`. -/
def gamKqueueUnsupportedFmonPollForeachCb (state : Backend) (fmon : Pointer) : Backend :=
  match state.monitor fmon, state.fileMonitors fmon with
  | some mon, some file =>
    match gamKqueueMiniLstat (fileMonitorRetry state fmon mon file) mon.pathname with
    | (state, sb) =>
      match polledEvent mon.sb sb, state.monitor fmon with
      | some event, some mon =>
        gamKqueueFileMonitorEmitEvent (state.setMonitor fmon { mon with sb := sb }) fmon event
          (some sb.isDir) false
      | _, _ => state
  | _, _ => state

/-- `gam_kqueue_unsupported_fmon_poll`. -/
def gamKqueueUnsupportedFmonPoll (state : Backend) (smon : Pointer) : Backend :=
  match state.subMonitors smon with
  | none => state
  | some sub =>
    let walk := shuffle state.answer.order sub.unsupportedFmons.main
    let state := state.called.setSub smon { sub with unsupportedFmons := sub.unsupportedFmons.walked }
    finishUnsupportedFmons (walk.foldl gamKqueueUnsupportedFmonPollForeachCb state) smon

/-- The `func` of a poller. -/
def pollerFunc : PollerKind → Backend → Pointer → Backend
  | .missingSmon => gamKqueueMissingSmonPoll
  | .unsupportedSmon => gamKqueueUnsupportedSmonPoll
  | .unsupportedFmon => gamKqueueUnsupportedFmonPoll

/-- The state in which a tick of a poller begins to walk, and the monitors it comes to. -/
def pollerWalk (state : Backend) (kind : PollerKind) : Backend × List Pointer :=
  (state.called.setPoller kind (state.pollers kind).walked,
    shuffle state.answer.order (state.pollers kind).smons.main)

/-- `gam_kqueue_poller_timeout_cb`. -/
def gamKqueuePollerTimeoutCb (state : Backend) (kind : PollerKind) : Backend :=
  match pollerWalk state kind with
  | (state, walk) =>
    let state := walk.foldl (pollerFunc kind) state
    state.setPoller kind (state.pollers kind).finish

/-! ## Subscriptions -/

/-- The hash table for the path of a subscription. -/
def Backend.hash (state : Backend) (isdir : Bool) : Bytes → Option Pointer :=
  if isdir then state.dirHash else state.fileHash

def Backend.setHash (state : Backend) (isdir : Bool) (path : Bytes) (smon : Option Pointer) : Backend :=
  if isdir then { state with dirHash := Function.update state.dirHash path smon }
  else { state with fileHash := Function.update state.fileHash path smon }

/-- `gam_kqueue_sub_monitor_new` with its first subscription. -/
def gamKqueueSubMonitorNew (state : Backend) (sub : GamSubscription) : Backend × Pointer :=
  match monitorNew state sub.path with
  | (state, smon) =>
    (state.setSub smon
      { subs := [sub], fmons := .new, unsupportedFmons := .new, isdir := sub.isDir }, smon)

/-- `gam_kqueue_add_subscription`, without the entry in the listener. -/
def gamKqueueAddSubscription (state : Backend) (sub : GamSubscription) : Backend :=
  match state.hash sub.isDir sub.path with
  | some smon =>
    match state.subMonitors smon with
    | some monitor => state.setSub smon { monitor with subs := monitor.subs ++ [sub] }
    | none => state
  | none =>
    match gamKqueueSubMonitorNew state sub with
    | (state, smon) =>
      gamKqueueSubMonitorEnableNotification (state.setHash sub.isDir sub.path (some smon)) smon none

/-- `gam_kqueue_remove_subscription`, with whether it succeeded. -/
def gamKqueueRemoveSubscription (state : Backend) (sub : GamSubscription) : Backend × Bool :=
  match state.hash sub.isDir sub.path with
  | none => (state, false)
  | some smon =>
    match state.subMonitors smon with
    | none => (state, true)
    | some monitor =>
      let subs := monitor.subs.filter (·.address ≠ sub.address)
      let state := state.setSub smon { monitor with subs := subs }
      if subs ≠ [] then (state, true)
      else (gamKqueueSubMonitorFree (state.setHash sub.isDir sub.path none) smon, true)

/-- `gam_kqueue_remove_all_for`, for the subscriptions of a listener. -/
def gamKqueueRemoveAllFor (state : Backend) (subs : List GamSubscription) : Backend × Bool :=
  subs.foldl (fun (state, success) sub =>
    match gamKqueueRemoveSubscription state sub with
    | (state, removed) => (state, success && removed)) (state, true)

/-! ## Runs -/

/-- What the backend is called for. -/
inductive Input where
  | addSubscription (sub : GamSubscription)
  | removeSubscription (sub : GamSubscription)
  | removeAllFor (subs : List GamSubscription)
  | kevent (fd : Nat) (event : Kevent)
  | poll (kind : PollerKind)
  deriving DecidableEq, Repr

/-- One call; a poller is called while it has a timeout. -/
def step (state : Backend) : Input → Backend
  | .addSubscription sub => gamKqueueAddSubscription state sub
  | .removeSubscription sub => (gamKqueueRemoveSubscription state sub).1
  | .removeAllFor subs => (gamKqueueRemoveAllFor state subs).1
  | .kevent fd event => gamKqueueKeventCb state fd event
  | .poll kind =>
    if (state.pollers kind).timeout then gamKqueuePollerTimeoutCb state kind else state

end Gamin.Kqueue
