import Gamin.Library.Runs
import Gamin.Server.Removal

/-! # The server with all its clients

The listeners share the backends and the mount table.  A step serves a request, or lets a backend
do something on its own account, or looks at the mount table.  The log of what happens to the
subscriptions is kept beside.
-/

namespace Gamin.Server

open Gamin Gamin.Library

/-! ## The server -/

/-- What happens to a subscription: it is handed to the adding hook and to the removing hook for
its path, and it is freed. -/
inductive Transfer where
  | registered (sub : GamSubscription) (hook : GamFsMonType)
  | removed (sub : GamSubscription) (hook : GamFsMonType)
  | freed (address : Pointer)
  deriving DecidableEq, Repr

/-- The listeners of all clients and what they share.  `created` is the address of the next
subscription; `malloc` gives an address out again after `free`, which can only be noticed if somebody
still holds it.  `log` is not there in the source. -/
structure GamServer where
  listeners : Nat → Option (List GamSubscription)
  inotify : Inotify.Backend
  poll : Polling.Poll
  kqueue : List SubMonitor
  mounts : Mounts
  created : Pointer
  log : List Transfer

def gamServerNew (views : Nat → Polling.FsView) (mounts : Mounts) : GamServer where
  listeners := fun _ => none
  inotify := .new
  poll := .new views
  kqueue := []
  mounts := mounts
  created := 0
  log := []

/-- What a request of a client with these subscriptions works on. -/
def GamServer.registries (server : GamServer) (subs : List GamSubscription) : Registries where
  subs := subs
  inotify := server.inotify
  poll := server.poll
  kqueue := server.kqueue
  mounts := server.mounts

/-- What it leaves, for the client too. -/
def GamServer.serve (server : GamServer) (client : Nat) (registries : Registries) : GamServer :=
  { server with
    listeners := Function.update server.listeners client (some registries.subs)
    inotify := registries.inotify
    poll := registries.poll
    kqueue := registries.kqueue
    mounts := registries.mounts }

section

variable (hooks : Hooks) (excluded : Bytes → Bool)

/-- A monitor request.  A subscription that no hook takes is forgotten. -/
def GamServer.monitor (server : GamServer) (client : Nat) (path : Bytes) (reqno : Nat) (isDir : Bool)
    (options : Nat) (around : Surroundings) : Option GamServer :=
  match server.listeners client with
  | none => some server
  | some subs =>
    let sub := gamSubscriptionNew server.created path requestedEvents reqno isDir options
    (gamAddSubscription hooks excluded around (server.registries subs) sub).map fun (registries, _) =>
      { server.serve client registries with
        created := server.created + 1
        log := server.log ++
          if sub ∈ registries.subs then [.registered sub (hookFor hooks excluded server.mounts path)]
          else [] }

/-- `gam_listener_free_subscription` for a subscription that is taken off the list of its
client. -/
def GamServer.free (server : GamServer) (client : Nat) (others : List GamSubscription)
    (sub : GamSubscription) : Option GamServer :=
  (gamListenerFreeSubscription hooks excluded (server.registries others) sub).map
    fun (registries, freed) =>
      { server.serve client registries with
        log := server.log ++
          .removed sub (hookFor hooks excluded server.mounts sub.path) :: freed.map .freed }

/-- `gam_listener_free`, with the subscriptions that are left. -/
def GamServer.close (client : Nat) : List GamSubscription → GamServer → Option GamServer
  | [], server => some { server with listeners := Function.update server.listeners client none }
  | sub :: subs, server => (server.free hooks excluded client subs sub).bind (GamServer.close client subs)

/-- A cancel request; the connection is closed if it is refused.  `gam_send_ack` asserts that the
path is not empty. -/
def GamServer.cancel (server : GamServer) (client : Nat) (reqno : Nat) : Option GamServer :=
  match server.listeners client with
  | none => some server
  | some subs =>
    match gamListenerGetSubscriptionByReqno subs reqno with
    | none => GamServer.close hooks excluded client subs server
    | some sub =>
      (server.free hooks excluded client (gamListenerRemoveSubscription subs sub) sub).bind fun server =>
        if sub.path = [] then none else some server

/-- What the server does on its own account: its backends hear of changes or look for them, and the
mount table is looked at for another reason. -/
inductive Background where
  | inotifyEvent (event : Inotify.IkEvent) (answers : Inotify.IhSub → Bytes → Inotify.WatchAnswer)
  | inotifyScan (answers : Inotify.IhSub → Bytes → Inotify.WatchAnswer)
      (view : Inotify.IhSub → Inotify.FsView)
  | pollScan (now rounds : Nat)
  | dnotifyScan (now rounds : Nat)
  | dnotifyChange (now : Nat) (path : Bytes)
  | mountTable

def GamServer.background (server : GamServer) : Background → Option GamServer
  | .inotifyEvent event answers =>
    (Inotify.step server.inotify (.event event answers)).map fun inotify =>
      { server with inotify := inotify }
  | .inotifyScan answers view =>
    (Inotify.step server.inotify (.scanMissing answers view)).map fun inotify =>
      { server with inotify := inotify }
  | .pollScan now rounds =>
    some { server with poll := Polling.gamPollBasicScanCallback server.poll now rounds }
  | .dnotifyScan now rounds =>
    some { server with
      poll := Polling.gamPollDnotifyScanCallback (hooks.kernel = some .dnotify) server.poll now rounds }
  | .dnotifyChange now path =>
    some { server with
      poll := Polling.gamPollGenericScanDirectory
        (Polling.gamPollDnotifyPollFile (hooks.kernel = some .dnotify)) server.poll now path }
  | .mountTable => some { server with mounts := server.mounts.init }

inductive ServerInput where
  | connect (client : Nat)
  | monitor (client : Nat) (path : Bytes) (reqno : Nat) (isDir : Bool) (options : Nat)
      (around : Surroundings)
  | cancel (client : Nat) (reqno : Nat)
  | close (client : Nat)
  | background (event : Background)

/-- A client that has not been there comes with an empty list. -/
def GamServer.connect (server : GamServer) (client : Nat) : GamServer :=
  match server.listeners client with
  | none => { server with listeners := Function.update server.listeners client (some []) }
  | some _ => server

/-- `gam_connection_close` for the listener of a client. -/
def GamServer.hangup (server : GamServer) (client : Nat) : Option GamServer :=
  match server.listeners client with
  | none => some server
  | some subs => GamServer.close hooks excluded client subs server

/-- One step of the server.  There is no state after a step that does not return. -/
def serverStep (server : GamServer) : ServerInput → Option GamServer
  | .connect client => some (server.connect client)
  | .monitor client path reqno isDir options around =>
    server.monitor hooks excluded client path reqno isDir options around
  | .cancel client reqno => server.cancel hooks excluded client reqno
  | .close client => server.hangup hooks excluded client
  | .background event => server.background hooks event

end

end Gamin.Server
