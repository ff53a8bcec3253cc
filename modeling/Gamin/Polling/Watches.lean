import Gamin.Polling.Generic
import Mathlib.Logic.Function.Basic

/-! # The watches of dnotify

`gam_dnotify.c` keeps a reference count and a count of busy nodes for each directory that it watches.
`gam_poll_generic_trigger_handler` sends it the requests: those for a file go to the directory above.
-/

namespace Gamin.Polling

open Gamin Gamin.Server Gamin.Inotify

/-! ## The table -/

/-- `pollHandlerMode`. -/
inductive PollHandlerMode where
  | activate
  | deactivate
  | flowControlStart
  | flowControlStop
  deriving DecidableEq, Repr

def Poll.setWatch (poll : Poll) (path : Bytes) (data : Option DNotifyData) : Poll :=
  { poll with pathHash := Function.update poll.pathHash path data }

/-- `GAMIN_ACTIVATE`. -/
def activateWatch (poll : Poll) (path : Bytes) : Poll :=
  match poll.pathHash path with
  | some data => poll.setWatch path (some { data with refcount := data.refcount + 1 })
  | none =>
    if poll.view.opens path then
      poll.called.setWatch path (some { fd := true, refcount := 1, busy := 0 })
    else poll.called

/-- `GAMIN_DEACTIVATE`. -/
def deactivateWatch (poll : Poll) (path : Bytes) : Poll :=
  match poll.pathHash path with
  | none => poll
  | some data =>
    if data.refcount = 1 then
      { poll.setWatch path none with
        released := { path := path, suspended := 0 < data.busy, nodes := poll.nodes } :: poll.released }
    else poll.setWatch path (some { data with refcount := data.refcount - 1 })

/-- `GAMIN_FLOWCONTROLSTART`. -/
def suspendWatch (poll : Poll) (path : Bytes) : Poll :=
  match poll.pathHash path with
  | none => poll
  | some data => poll.setWatch path (some { data with fd := false, busy := data.busy + 1 })

/-- `GAMIN_FLOWCONTROLSTOP`. -/
def resumeWatch (poll : Poll) (path : Bytes) : Poll :=
  match poll.pathHash path with
  | none => poll
  | some data =>
    if data.busy = 0 then poll
    else if data.busy = 1 then
      poll.called.setWatch path (some { data with fd := data.fd || poll.view.opens path, busy := 0 })
    else poll.setWatch path (some { data with busy := data.busy - 1 })

/-- `gam_dnotify_directory_handler_internal`. -/
def gamDnotifyDirectoryHandlerInternal (poll : Poll) (path : Bytes) : PollHandlerMode → Poll
  | .activate => activateWatch poll path
  | .deactivate => deactivateWatch poll path
  | .flowControlStart => suspendWatch poll path
  | .flowControlStop => resumeWatch poll path

/-- System calls have been made: the views still to come are the later ones. -/
def Advanced (before after : Poll) : Prop := ∃ calls, ∀ call, after.views call = before.views (call + calls)

theorem Advanced.refl (poll : Poll) : Advanced poll poll := ⟨0, fun _ => rfl⟩

theorem advanced_called (poll : Poll) : Advanced poll poll.called := ⟨1, fun _ => rfl⟩

theorem Advanced.trans {before poll after : Poll} (first : Advanced before poll)
    (second : Advanced poll after) : Advanced before after := by
  obtain ⟨early, firstViews⟩ := first
  obtain ⟨late, secondViews⟩ := second
  refine ⟨late + early, fun call => ?_⟩
  rw [secondViews, firstViews, Nat.add_assoc]

/-- Nothing but the table of dnotify, its history and the views still to come has changed. -/
structure WatchesOnly (before after : Poll) : Prop where
  nodes : after.nodes = before.nodes
  missing : after.missing = before.missing
  busy : after.busy = before.busy
  all : after.all = before.all
  currentTime : after.currentTime = before.currentTime
  sent : after.sent = before.sent
  rootBusy : after.rootBusy = before.rootBusy
  loaded : after.loaded = before.loaded
  views : Advanced before after

theorem WatchesOnly.refl (poll : Poll) : WatchesOnly poll poll :=
  ⟨rfl, rfl, rfl, rfl, rfl, rfl, rfl, rfl, .refl poll⟩

theorem watchesOnly_called (poll : Poll) : WatchesOnly poll poll.called :=
  ⟨rfl, rfl, rfl, rfl, rfl, rfl, rfl, rfl, advanced_called poll⟩

theorem watchesOnly_setWatch (poll : Poll) (path : Bytes) (data : Option DNotifyData) :
    WatchesOnly poll (poll.setWatch path data) :=
  ⟨rfl, rfl, rfl, rfl, rfl, rfl, rfl, rfl, .refl poll⟩

theorem WatchesOnly.trans {before poll after : Poll} (first : WatchesOnly before poll)
    (second : WatchesOnly poll after) : WatchesOnly before after where
  nodes := second.nodes.trans first.nodes
  missing := second.missing.trans first.missing
  busy := second.busy.trans first.busy
  all := second.all.trans first.all
  currentTime := second.currentTime.trans first.currentTime
  sent := second.sent.trans first.sent
  rootBusy := second.rootBusy.trans first.rootBusy
  loaded := second.loaded.trans first.loaded
  views := first.views.trans second.views

theorem watchesOnly_handler (poll : Poll) (path : Bytes) (mode : PollHandlerMode) :
    WatchesOnly poll (gamDnotifyDirectoryHandlerInternal poll path mode) := by
  have called (data : Option DNotifyData) : WatchesOnly poll (poll.called.setWatch path data) :=
    (watchesOnly_called poll).trans (watchesOnly_setWatch _ path data)
  cases mode with
  | activate =>
    simp only [gamDnotifyDirectoryHandlerInternal, activateWatch]
    split
    · exact watchesOnly_setWatch poll path _
    · split
      · exact called _
      · exact watchesOnly_called poll
  | deactivate =>
    simp only [gamDnotifyDirectoryHandlerInternal, deactivateWatch]
    split
    · exact .refl poll
    · split
      · exact ⟨rfl, rfl, rfl, rfl, rfl, rfl, rfl, rfl, .refl poll⟩
      · exact watchesOnly_setWatch poll path _
  | flowControlStart =>
    simp only [gamDnotifyDirectoryHandlerInternal, suspendWatch]
    split
    · exact .refl poll
    · exact watchesOnly_setWatch poll path _
  | flowControlStop =>
    simp only [gamDnotifyDirectoryHandlerInternal, resumeWatch]
    split
    · exact .refl poll
    · split
      · exact .refl poll
      · split
        · exact called _
        · exact watchesOnly_setWatch poll path _

/-! ## Requests -/

/-- The path of a parent. -/
def parentDir (parent : Option Bytes) : Bytes := parent.getD [slash]

/-- The directory whose watch is for the node. -/
def GamNode.watched (node : GamNode) : Bytes := if node.isDir then node.path else parentDir node.parent

/-- A request about flow control for a directory, which comes on the busy list or is taken off it under
its name there. -/
def switchFlow (poll : Poll) (path listed : Bytes) (start : Bool) : Poll :=
  if start then
    gamPollGenericAddBusy (gamDnotifyDirectoryHandlerInternal poll path .flowControlStart) listed
  else gamPollGenericRemoveBusy (gamDnotifyDirectoryHandlerInternal poll path .flowControlStop) listed

/-- What `gam_poll_generic_trigger_file_handler` does about flow control for a node that is not a
directory: nothing if its parent is marked already. -/
def triggerParent (poll : Poll) (parent : Option Bytes) (start : Bool) : Poll :=
  match parent with
  | none =>
    if poll.rootBusy = start then poll
    else { switchFlow poll [slash] [] start with rootBusy := start }
  | some path =>
    match gamTreeGetAtPath poll path with
    | none => poll
    | some node =>
      if node.pflags.busy = start then poll
      else
        (switchFlow poll node.path node.path start).setNode
          { node with pflags := { node.pflags with busy := start } }

/-- `gam_poll_generic_trigger_handler`, if the kernel backend is dnotify.  The file handler of dnotify,
which is for a directory that is not known to be one, is never reached. -/
def gamPollGenericTriggerHandler (poll : Poll) (mode : PollHandlerMode) (node : GamNode) : Poll :=
  if node.monType ≠ .kernel then poll
  else if node.isDir then gamDnotifyDirectoryHandlerInternal poll node.path mode
  else
    match mode with
    | .flowControlStart => triggerParent poll node.parent true
    | .flowControlStop => triggerParent poll node.parent false
    | mode => gamDnotifyDirectoryHandlerInternal poll (parentDir node.parent) mode

/-- A request about the watch itself leaves everything else alone. -/
theorem watchesOnly_trigger (poll : Poll) {mode : PollHandlerMode} (node : GamNode)
    (about : mode = .activate ∨ mode = .deactivate) :
    WatchesOnly poll (gamPollGenericTriggerHandler poll mode node) := by
  unfold gamPollGenericTriggerHandler
  split
  · exact .refl poll
  · split
    · exact watchesOnly_handler poll _ mode
    · cases about with
      | inl activates => exact activates ▸ watchesOnly_handler poll _ .activate
      | inr deactivates => exact deactivates ▸ watchesOnly_handler poll _ .deactivate

end Gamin.Polling
