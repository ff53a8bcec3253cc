import Gamin.Inotify.Paths

/-! # The inotify backend as a transition system

Adding and cancelling subscriptions (`inotify-helper.c`, `gam_inotify.c`), the scan of the
missing list (`inotify-missing.c`), and the inputs that drive them.  The answers of the
file system are part of each input; they may differ from one system call to the next.
-/

namespace Gamin.Inotify

open Gamin Gamin.Server

/-- What the file system shows to `g_file_test` and `g_dir_open`.  A listing gives the name
of each entry and whether it is a directory. -/
structure FsView where
  present : Bytes → Bool
  listing : Bytes → Option (List (Bytes × Bool))

/-! ## Events about the initial state -/

/-- `gam_inotify_send_initial_events`. -/
def gamInotifySendInitialEvents (view : FsView) (pathname : Bytes) (sub : GamSubscription)
    (isDir wasMissing : Bool) : List Emission :=
  let gevent : GaminEventType :=
    if wasMissing then .created else if view.present pathname then .exists else .deleted
  let entries := if isDir then (view.listing pathname).getD [] else []
  gamServerEmitOneEvent pathname isDir gevent sub true ++
    (entries.flatMap fun entry =>
      gamServerEmitOneEvent (pathname ++ slash :: entry.1) entry.2 gevent sub true) ++
    if wasMissing then [] else gamServerEmitOneEvent pathname isDir .endexists sub true

/-- `gam_inotify_found_callback`. -/
def gamInotifyFoundCallback (view : FsView) (sub : GamSubscription) : List Emission :=
  gamInotifySendInitialEvents view sub.path sub sub.isDir true

/-- The test of `ih_found_callback`, which a directory passes in any case. -/
def foundTest (view : FsView) (sub : IhSub) : Bool :=
  match sub.filename with
  | some filename => view.present (sub.dirname ++ slash :: filename)
  | none => true

/-- `ih_found_callback`. -/
def ihFoundCallback (view : FsView) (sub : IhSub) : List Emission :=
  if foundTest view sub then gamInotifyFoundCallback view sub.usersubdata else []

/-! ## Operations -/

/-- `ih_sub_add`, which does not go on with a subscription that is already there. -/
def ihSubAdd (state : Backend) (sub : IhSub) (watch : Bytes → WatchAnswer) : Option Backend :=
  if sub ∈ state.subList then none
  else
    match ipStartWatching state sub watch with
    | none => none
    | some (state, started) =>
      let state := if started then state else imAdd state sub
      some { state with subList := sub :: state.subList }

/-- `ih_sub_cancel`.  A subscription is on the list as long as it is not cancelled. -/
def ihSubCancel (state : Backend) (sub : IhSub) : Backend :=
  if sub ∈ state.subList then
    let state := imRm state sub
    let state := ipStopWatching state sub
    { state with subList := state.subList.erase sub }
  else state

/-- `gam_inotify_add_subscription`. -/
def gamInotifyAddSubscription (state : Backend) (address : Pointer) (sub : GamSubscription)
    (watch : Bytes → WatchAnswer) (view : FsView) : Option Backend :=
  (ihSubAdd state (ihSubNew address sub.path sub.isDir sub) watch).map fun state =>
    { state with
      sent := state.sent ++
        (gamInotifySendInitialEvents view sub.path sub sub.isDir false).map (Report.mk .initial) }

/-- What `im_scan_missing` reports of a subscription that can be watched again. -/
def reportFound (view : FsView) (sub : IhSub) (state : Backend) : Backend :=
  let cause := Cause.found (view.present sub.usersubdata.path)
  { state with sent := state.sent ++ (ihFoundCallback view sub).map (Report.mk cause) }

@[simp] theorem reportFound_toWatchTables (view : FsView) (sub : IhSub) (state : Backend) :
    (reportFound view sub state).toWatchTables = state.toWatchTables := rfl

/-- The loop of `im_scan_missing`: the state, and who is still missing. -/
def scanLoop (answers : IhSub → Bytes → WatchAnswer) (view : IhSub → FsView) :
    Backend → List IhSub → Option (Backend × List IhSub)
  | state, [] => some (state, [])
  | state, sub :: subs =>
    match ipStartWatching state sub (answers sub) with
    | none => none
    | some (state, false) =>
      (scanLoop answers view state subs).map fun (final, missing) => (final, sub :: missing)
    | some (state, true) => scanLoop answers view (reportFound (view sub) sub state) subs

/-- `im_scan_missing`, which turns the timer off when nothing is missing any more. -/
def imScanMissing (state : Backend) (answers : IhSub → Bytes → WatchAnswer)
    (view : IhSub → FsView) : Option Backend :=
  (scanLoop answers view state state.missingSubList).map fun (state, missing) =>
    { state with
      missingSubList := missing
      scanMissingRunning := if missing = [] then false else state.scanMissingRunning }

/-! ## Inputs -/

inductive Input where
  | addSubscription (address : Pointer) (sub : GamSubscription) (watch : Bytes → WatchAnswer)
      (view : FsView)
  | cancel (sub : IhSub)
  | event (event : IkEvent) (answers : IhSub → Bytes → WatchAnswer)
  | scanMissing (answers : IhSub → Bytes → WatchAnswer) (view : IhSub → FsView)
  | inodeDeleted (inode : Nat)

/-- One step of the backend.  There is no state after an operation that does not return. -/
def step (state : Backend) : Input → Option Backend
  | .addSubscription address sub watch view =>
    gamInotifyAddSubscription state address sub watch view
  | .cancel sub => some (ihSubCancel state sub)
  | .event event answers =>
    (ipEventCallback state event answers).map fun state =>
      if event.endsWatch then { state with kernel := state.kernel.deleteSelfDone event.wd }
      else state
  | .scanMissing answers view => imScanMissing state answers view
  | .inodeDeleted inode => some { state with kernel := state.kernel.deleteInode inode }

/-! ## Small file systems -/

/-- A directory subscription as a client asks for it. -/
def directorySubscription (address : Pointer) (path : Bytes) (reqno : Nat) : GamSubscription :=
  gamSubscriptionNew address path requestedEvents reqno true 0

/-- The answers of a file system that has only these directories. -/
def watchIn (directories : List (Bytes × Nat)) (path : Bytes) : WatchAnswer :=
  match directories.lookup path with
  | some inode => .watched inode
  | none => .noent

def emptyView : FsView := { present := fun _ => false, listing := fun _ => none }

end Gamin.Inotify
