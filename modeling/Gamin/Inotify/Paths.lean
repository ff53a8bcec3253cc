import Gamin.Inotify.Kernel
import Mathlib.Logic.Function.Basic

/-! # Watched directories

The tables of `inotify-path.c` and the functions that keep them: which directory object a
subscription is attached to, which objects share a watch descriptor, and what the dispatch
of a kernel event forwards and moves.

A subscription whose directory is missing is attached to an object for the nearest
ancestor that exists.
-/

namespace Gamin.Inotify

open Gamin Gamin.Server

/-! ## State -/

/-- `ip_watched_dir_t`. -/
structure IpWatchedDir where
  path : Bytes
  wd : Nat
  subs : List IhSub
  deriving DecidableEq, Repr

/-- What led to an event: the initial state of a new subscription, a kernel event on a
directory, or a subscription found by a scan, with whether its path was there. -/
inductive Cause where
  | initial
  | forwarded (directory name : Bytes)
  | found (present : Bool)
  deriving DecidableEq, Repr

structure Report where
  cause : Cause
  emission : Emission
  deriving DecidableEq, Repr

/-- The directory objects by their address, the next free address, and the hash tables. -/
structure WatchTables where
  dirs : Pointer → Option IpWatchedDir
  nextDir : Pointer
  pathDirHash : Bytes → Option Pointer
  subDirHash : IhSub → Option Pointer
  wdDirHash : Nat → List Pointer

/-- The inotify backend: the tables, the kernel, the missing list and whether the timer that
scans it is on, the list of all subscriptions, and what has been emitted. -/
structure Backend extends WatchTables where
  kernel : Kernel
  missingSubList : List IhSub
  scanMissingRunning : Bool
  subList : List IhSub
  sent : List Report

def Backend.new : Backend where
  kernel := .new
  dirs := fun _ => none
  nextDir := 0
  pathDirHash := fun _ => none
  subDirHash := fun _ => none
  wdDirHash := fun _ => []
  missingSubList := []
  scanMissingRunning := false
  subList := []
  sent := []

/-! ## Tables -/

def ikIgnore (state : Backend) (wd : Nat) : Backend :=
  { state with kernel := state.kernel.rmWatch wd }

def ipMapPathDir (state : Backend) (path : Bytes) (address : Pointer) : Backend :=
  { state with pathDirHash := Function.update state.pathDirHash path (some address) }

def ipUnmapPathDir (state : Backend) (path : Bytes) : Backend :=
  { state with pathDirHash := Function.update state.pathDirHash path none }

def ipMapWdDir (state : Backend) (wd : Nat) (address : Pointer) : Backend :=
  { state with wdDirHash := Function.update state.wdDirHash wd (address :: state.wdDirHash wd) }

def ipUnmapWdDir (state : Backend) (wd : Nat) (address : Pointer) : Backend :=
  { state with
    wdDirHash := Function.update state.wdDirHash wd ((state.wdDirHash wd).erase address) }

def ipUnmapWd (state : Backend) (wd : Nat) : Backend :=
  { state with wdDirHash := Function.update state.wdDirHash wd [] }

def ipMapSubDir (state : Backend) (sub : IhSub) (address : Pointer) : Backend :=
  { state with
    subDirHash := Function.update state.subDirHash sub (some address)
    dirs := Function.update state.dirs address
      ((state.dirs address).map fun dir => { dir with subs := sub :: dir.subs }) }

def ipUnmapSubDir (state : Backend) (sub : IhSub) (address : Pointer) : Backend :=
  { state with
    subDirHash := Function.update state.subDirHash sub none
    dirs := Function.update state.dirs address
      ((state.dirs address).map fun dir => { dir with subs := dir.subs.erase sub }) }

/-- `ip_unmap_all_subs`. -/
def ipUnmapAllSubs (state : Backend) (address : Pointer) (dir : IpWatchedDir) : Backend :=
  { state with
    subDirHash := fun sub => if sub ∈ dir.subs then none else state.subDirHash sub
    dirs := Function.update state.dirs address (some { dir with subs := [] }) }

/-- `ip_watched_dir_new`, which returns the next address. -/
def ipWatchedDirNew (state : Backend) (path : Bytes) (wd : Nat) : Backend :=
  { state with
    dirs := Function.update state.dirs state.nextDir (some { path := path, wd := wd, subs := [] })
    nextDir := state.nextDir + 1 }

def ipWatchedDirFree (state : Backend) (address : Pointer) : Backend :=
  { state with dirs := Function.update state.dirs address none }

/-! ## Starting and stopping -/

theorem parentPath_shorter {path parent : Bytes} (cut : parentPath path = some parent)
    (different : parent ≠ path) : parent.length < path.length := by
  unfold parentPath at cut
  split at cut
  case isFalse => contradiction
  case isTrue separator =>
    cases cut
    have nonempty : path ≠ [] := List.ne_nil_of_mem separator
    have positive : 0 < path.length := List.length_pos_iff.mpr nonempty
    split at different
    case isTrue => contradiction
    case isFalse cutNonempty =>
      rw [if_neg cutNonempty, List.length_dropLast]
      have shorter := (List.rdropWhile_prefix (fun byte => decide (byte ≠ slash)) path).length_le
      omega

/-- The loop of `ip_watch_parent`: the nearest ancestor that can be watched and its inode.
There may be none; and where the path cannot be cut any more and is still missing, the
loop tries it again and again. -/
def ipWatchParent (watch : Bytes → WatchAnswer) (path : Bytes) : Option (Option (Bytes × Nat)) :=
  match _cut : parentPath path with
  | none => some none
  | some parent =>
    match watch parent with
    | .watched inode => some (some (parent, inode))
    | .failed => some none
    | .noent => if _same : parent = path then none else ipWatchParent watch parent
termination_by path.length
decreasing_by exact parentPath_shorter _cut _same

/-- The part of `ip_start_watching` for a directory that is not yet in the table. -/
def ipWatchNewDir (state : Backend) (sub : IhSub) (path : Bytes) (inode : Nat) : Backend :=
  match state.kernel.addWatch inode with
  | (kernel, wd) =>
    let address := state.nextDir
    let state := ipWatchedDirNew { state with kernel := kernel } path wd
    let state := ipMapWdDir state wd address
    let state := ipMapPathDir state path address
    ipMapSubDir state sub address

/-- `ip_start_watching`.  There is no result when it does not return. -/
def ipStartWatching (state : Backend) (sub : IhSub) (watch : Bytes → WatchAnswer) :
    Option (Backend × Bool) :=
  match state.pathDirHash sub.dirname with
  | some address => some (ipMapSubDir state sub address, true)
  | none =>
    match watch sub.dirname with
    | .watched inode => some (ipWatchNewDir state sub sub.dirname inode, true)
    | .failed => some (state, false)
    | .noent =>
      match ipWatchParent watch sub.dirname with
      | none => none
      | some none => some (state, false)
      | some (some (parent, inode)) => some (ipWatchNewDir state sub parent inode, true)

/-- `ip_stop_watching` for the last subscription of a directory. -/
def ipReleaseDir (state : Backend) (address : Pointer) (dir : IpWatchedDir) : Backend :=
  let state := ikIgnore state dir.wd
  let state := ipUnmapWdDir state dir.wd address
  let state := ipUnmapPathDir state dir.path
  ipWatchedDirFree state address

/-- `ip_stop_watching`. -/
def ipStopWatching (state : Backend) (sub : IhSub) : Backend :=
  match state.subDirHash sub with
  | none => state
  | some address =>
    match state.dirs address with
    | none => state
    | some dir =>
      let state := ipUnmapSubDir state sub address
      if dir.subs.erase sub = [] then ipReleaseDir state address dir else state

/-! ## The missing list -/

/-- `im_add`, which turns the timer on again. -/
def imAdd (state : Backend) (sub : IhSub) : Backend :=
  if sub ∈ state.missingSubList then state
  else { state with missingSubList := sub :: state.missingSubList, scanMissingRunning := true }

/-- `im_rm`. -/
def imRm (state : Backend) (sub : IhSub) : Backend :=
  { state with missingSubList := state.missingSubList.erase sub }

/-- `ip_wd_delete`. -/
def ipWdDelete (state : Backend) (address : Pointer) : Backend :=
  match state.dirs address with
  | none => state
  | some dir =>
    let state := dir.subs.foldl imAdd state
    let state := ipUnmapAllSubs state address dir
    let state := ipUnmapPathDir state dir.path
    ipWatchedDirFree state address

/-! ## Dispatch -/

/-- `gam_inotify_event_callback`. -/
def gamInotifyEventCallback (fullpath : Bytes) (mask : Nat) (sub : GamSubscription) :
    List Emission :=
  gamServerEmitOneEvent fullpath sub.isDir (ihMaskToEventType mask) sub true

/-- `ih_event_callback`. -/
def ihEventCallback (event : IkReport) (sub : IhSub) : List Emission :=
  gamInotifyEventCallback (sub.dirname ++ slash :: event.name) event.mask sub.usersubdata

/-- The test on the file name in both loops of `ip_event_dispatch`. -/
def nameMatches (event : IkReport) (sub : IhSub) : Bool :=
  match sub.filename with
  | some filename => event.name = filename
  | none => true

/-- The path of an event on a directory. -/
def eventPath (dir : IpWatchedDir) (event : IkReport) : Bytes :=
  gBuildFilename dir.path event.name

/-- The event may have made an ancestor of the subscribed directory available. -/
def resubscribes (dir : IpWatchedDir) (event : IkReport) (sub : IhSub) : Bool :=
  nameMatches event sub ∧ (eventPath dir event).isPrefixOf sub.dirname

/-- What the first loop of `ip_event_dispatch` forwards to one subscription.  The event that
makes its own directory available is forwarded with the directory it came from. -/
def dispatchToSub (dir : IpWatchedDir) (event : IkReport) (sub : IhSub) : List Emission :=
  if ¬ nameMatches event sub then []
  else if (eventPath dir event).isPrefixOf sub.dirname then
    if sub.dirname = eventPath dir event then
      ihEventCallback event { sub with dirname := dir.path }
    else []
  else ihEventCallback event sub

/-- The second loop of `ip_event_dispatch`, for the other half of a move. -/
def dispatchPairToSub (pair : IkReport) (sub : IhSub) : List Emission :=
  if nameMatches pair sub then ihEventCallback pair sub else []

def dirsOf (state : Backend) (addresses : List Pointer) : List IpWatchedDir :=
  addresses.filterMap state.dirs

/-- All that the two loops forward. -/
def forwardedReports (state : Backend) (dirList pairDirList : List Pointer) (event : IkEvent) :
    List Report :=
  ((dirsOf state dirList).flatMap fun dir => dir.subs.flatMap fun sub =>
      (dispatchToSub dir event.toIkReport sub).map (Report.mk (.forwarded dir.path event.name))) ++
    match event.pair with
    | none => []
    | some pair =>
      (dirsOf state pairDirList).flatMap fun dir => dir.subs.flatMap fun sub =>
        (dispatchPairToSub pair sub).map (Report.mk (.forwarded dir.path pair.name))

/-- The resubscription list, which is built by prepending. -/
def resubscriptionList (state : Backend) (dirList : List Pointer) (event : IkReport) :
    List IhSub :=
  ((dirsOf state dirList).flatMap fun dir => dir.subs.filter (resubscribes dir event)).reverse

/-- The last loop of `ip_event_dispatch`, which does not look at the result. -/
def resubscribe (answers : IhSub → Bytes → WatchAnswer) : Backend → List IhSub → Option Backend
  | state, [] => some state
  | state, sub :: subs =>
    match ipStartWatching (ipStopWatching state sub) sub (answers sub) with
    | none => none
    | some (state, _) => resubscribe answers state subs

/-- The first two loops of `ip_event_dispatch`. -/
def forwardAll (state : Backend) (dirList pairDirList : List Pointer) (event : IkEvent) :
    Backend :=
  { state with sent := state.sent ++ forwardedReports state dirList pairDirList event }

/-- `ip_event_dispatch`. -/
def ipEventDispatch (state : Backend) (dirList pairDirList : List Pointer) (event : IkEvent)
    (answers : IhSub → Bytes → WatchAnswer) : Option Backend :=
  resubscribe answers (forwardAll state dirList pairDirList event)
    (resubscriptionList state dirList event.toIkReport)

/-- The directory objects that the second loop goes through. -/
def pairDirs (state : Backend) (event : IkEvent) : List Pointer :=
  (event.pair.map fun pair => state.wdDirHash pair.wd).getD []

/-- `ip_event_callback`. -/
def ipEventCallback (state : Backend) (event : IkEvent) (answers : IhSub → Bytes → WatchAnswer) :
    Option Backend :=
  if event.has inIgnored then some state
  else
    let dispatched :=
      if event.has ipInotifyMask then
        ipEventDispatch state (state.wdDirHash event.wd) (pairDirs state event) event answers
      else some state
    dispatched.map fun state =>
      if event.has inDeleteSelf ∨ event.has inMoveSelf then
        ipUnmapWd ((state.wdDirHash event.wd).foldl ipWdDelete state) event.wd
      else state

end Gamin.Inotify
