import Gamin.Inotify.Backend
import Gamin.Polling.Registration
import Gamin.Server.Listener

/-! # The choice of a backend

`gam_init_subscriptions` tries the backends that are compiled in; each installs hooks for the
paths that are left to the kernel and for those that are polled.  `gam_add_subscription` calls
one of the two hooks, whichever backend it belongs to.

The backend for the Hurd is left out: it still assigns to variables that are gone since there
are hooks, and does not build.
-/

namespace Gamin.Server

open Gamin

/-! ## Initialisation -/

/-- What `configure` has enabled. -/
structure Build where
  inotify : Bool
  dnotify : Bool
  kqueue : Bool
  linux : Bool
  deriving DecidableEq, Repr

/-- `GFS_MT_DEFAULT`. -/
def Build.defaultType (build : Build) : GamFsMonType :=
  if ¬ build.dnotify ∧ ¬ build.inotify ∧ ¬ build.kqueue then .poll else .kernel

/-- What the server is started with, and what the initialisations find: whether `inotify_init`,
`pipe`, and `kqueue` with its limits succeed. -/
structure Startup where
  pollOnly : Bool
  gamTestDnotify : Bool
  inotifyInit : Bool
  pipe : Bool
  kqueue : Bool
  deriving DecidableEq, Repr

/-- The backends that install kernel hooks. -/
inductive GamKernelHandler where
  | inotify2
  | dnotify
  | kqueue
  deriving DecidableEq, Repr

/-- The backends that install poll hooks. -/
inductive GamPollHandler where
  | basic
  | dnotify
  deriving DecidableEq, Repr

/-- The hooks of `gam_server.c`, and the backends whose initialisation has returned `TRUE`. -/
structure Hooks where
  kernel : Option GamKernelHandler
  poll : Option GamPollHandler
  inotifyRunning : Bool
  dnotifyRunning : Bool
  kqueueRunning : Bool
  pollBasicRunning : Bool
  deriving DecidableEq, Repr

def Hooks.none : Hooks where
  kernel := .none
  poll := .none
  inotifyRunning := false
  dnotifyRunning := false
  kqueueRunning := false
  pollBasicRunning := false

/-- `gam_poll_basic_init`. -/
def gamPollBasicInit (hooks : Hooks) : Hooks :=
  { hooks with poll := some .basic, pollBasicRunning := true }

/-- `gam_inotify_init`, which installs its hooks before it tries. -/
def gamInotifyInit (startup : Startup) (hooks : Hooks) : Hooks × Bool :=
  let hooks := { gamPollBasicInit hooks with kernel := some .inotify2 }
  ({ hooks with inotifyRunning := startup.inotifyInit }, startup.inotifyInit)

/-- `gam_dnotify_init` after `gam_poll_dnotify_init`. -/
def gamDnotifyInit (startup : Startup) (hooks : Hooks) : Hooks × Bool :=
  let hooks := { hooks with poll := some .dnotify }
  if ¬ startup.pipe then (hooks, false)
  else ({ hooks with kernel := some .dnotify, dnotifyRunning := true }, true)

/-- `gam_kqueue_init`. -/
def gamKqueueInit (startup : Startup) (hooks : Hooks) : Hooks × Bool :=
  if ¬ startup.kqueue then (hooks, false)
  else ({ hooks with kernel := some .kqueue, kqueueRunning := true }, true)

/-- A backend is tried if it is compiled in and none has been found yet. -/
def tryBackend (compiled : Bool) (init : Hooks → Hooks × Bool) (tried : Hooks × Bool) :
    Hooks × Bool :=
  if compiled ∧ ¬ tried.2 then init tried.1 else tried

/-- `gam_init_subscriptions`. -/
def gamInitSubscriptions (build : Build) (startup : Startup) : Hooks × Bool :=
  let tried : Hooks × Bool :=
    if startup.pollOnly then (.none, false)
    else
      let tried := tryBackend (build.inotify && !startup.gamTestDnotify) (gamInotifyInit startup)
        (.none, false)
      let tried := tryBackend build.dnotify (gamDnotifyInit startup) tried
      tryBackend build.kqueue (gamKqueueInit startup) tried
  if tried.2 then tried else (gamPollBasicInit tried.1, true)

/-! ## Excluded paths -/

section

variable (gPatternMatch : Bytes → Bytes → Bool)

/-- `static_excludes`: the contents of `/media`, `/mnt`, `/dev` and `/proc`. -/
def staticExcludes (build : Build) : List Bytes :=
  if build.linux then
    [[47, 109, 101, 100, 105, 97, 47, 42], [47, 109, 110, 116, 47, 42], [47, 100, 101, 118, 47, 42],
      [47, 112, 114, 111, 99, 47, 42]]
  else []

/-- `gam_exclude_init` behind the patterns of the configuration file. -/
def gamExcludeInit (build : Build) (configured : List (Bytes × Bool)) : List (Bytes × Bool) :=
  configured ++ (staticExcludes build).map (·, true)

/-- `gam_exclude_check`: the first pattern that matches counts. -/
def gamExcludeCheck (excludes : List (Bytes × Bool)) (filename : Bytes) : Bool :=
  ((excludes.find? fun exclude => gPatternMatch exclude.1 filename).map (·.2)).getD false

end

/-! ## The registries of the backends -/

/-- `SubMonitor` of `gam_kqueue.c` with its subscriptions, which is in `dir_hash` or in
`file_hash`. -/
structure SubMonitor where
  isdir : Bool
  pathname : Bytes
  subs : List GamSubscription
  deriving DecidableEq, Repr

/-- The list of the listener whose request is served, the backends and the mount table. -/
structure Registries where
  subs : List GamSubscription
  inotify : Inotify.Backend
  poll : Polling.Poll
  kqueue : List SubMonitor
  mounts : Mounts

/-- What happens around one request: the answers and views of the file system, the address of
a new `ih_sub_t` and the time. -/
structure Surroundings where
  watch : Bytes → Inotify.WatchAnswer
  view : Inotify.FsView
  address : Pointer
  now : Nat

def Registries.addToListener (registries : Registries) (sub : GamSubscription) :
    Option Registries :=
  (gamListenerAddSubscription registries.subs sub).map fun subs => { registries with subs := subs }

/-- `gam_inotify_add_subscription`.  The assertion of `ik_watch` fails without an inotify
instance. -/
def addByInotify (hooks : Hooks) (around : Surroundings) (registries : Registries)
    (sub : GamSubscription) : Option (Registries × Bool) :=
  (registries.addToListener sub).bind fun registries =>
    if ¬ hooks.inotifyRunning then none
    else
      (Inotify.gamInotifyAddSubscription registries.inotify around.address sub around.watch
        around.view).map fun inotify => ({ registries with inotify := inotify }, true)

/-- `gam_poll_basic_add_subscription`. -/
def addByPollBasic (around : Surroundings) (registries : Registries) (sub : GamSubscription) :
    Option (Registries × Bool) :=
  (registries.addToListener sub).bind fun registries =>
    (Polling.gamPollBasicAddSubscription registries.poll around.now sub).map fun poll =>
      ({ registries with poll := poll }, true)

/-- `gam_poll_dnotify_add_subscription`. -/
def addByPollDnotify (hooks : Hooks) (around : Surroundings) (registries : Registries)
    (sub : GamSubscription) : Option (Registries × Bool) :=
  (registries.addToListener sub).bind fun registries =>
    (Polling.gamPollDnotifyAddSubscription (hooks.kernel = some .dnotify) registries.poll around.now
      sub).map fun (poll, added) => ({ registries with poll := poll }, added)

/-- The table of `gam_kqueue_add_subscription`. -/
def gamKqueueAddSubscription (monitors : List SubMonitor) (sub : GamSubscription) :
    List SubMonitor :=
  if monitors.any fun smon => smon.isdir = sub.isDir ∧ smon.pathname = sub.path then
    monitors.map fun smon =>
      if smon.isdir = sub.isDir ∧ smon.pathname = sub.path then
        { smon with subs := smon.subs ++ [sub] }
      else smon
  else { isdir := sub.isDir, pathname := sub.path, subs := [sub] } :: monitors

/-- `gam_kqueue_add_subscription`; opening files and sending the initial events leaves the
tables as they are. -/
def addByKqueue (registries : Registries) (sub : GamSubscription) : Option (Registries × Bool) :=
  (registries.addToListener sub).map fun registries =>
    ({ registries with kqueue := gamKqueueAddSubscription registries.kqueue sub }, true)

/-- `gam_poll_add_subscription`. -/
def gamPollAddSubscription (hooks : Hooks) (around : Surroundings) (registries : Registries)
    (sub : GamSubscription) : Option (Registries × Bool) :=
  match hooks.poll with
  | none => some (registries, false)
  | some .basic => addByPollBasic around registries sub
  | some .dnotify => addByPollDnotify hooks around registries sub

/-- `gam_kernel_add_subscription`; the hook of dnotify hands the subscription on. -/
def gamKernelAddSubscription (hooks : Hooks) (around : Surroundings) (registries : Registries)
    (sub : GamSubscription) : Option (Registries × Bool) :=
  match hooks.kernel with
  | none => some (registries, false)
  | some .inotify2 => addByInotify hooks around registries sub
  | some .dnotify => gamPollAddSubscription hooks around registries sub
  | some .kqueue => addByKqueue registries sub

/-- `gam_add_subscription`, with whether the path is excluded: the registries and the value
returned, if it does return. -/
def gamAddSubscription (hooks : Hooks) (excluded : Bytes → Bool) (around : Surroundings)
    (registries : Registries) (sub : GamSubscription) : Option (Registries × Bool) :=
  if excluded sub.path then
    if hooks.inotifyRunning then gamPollAddSubscription hooks around registries sub
    else gamKernelAddSubscription hooks around registries sub
  else
    match gamFsGetMonType registries.mounts sub.path with
    | (mounts, .kernel) =>
      gamKernelAddSubscription hooks around { registries with mounts := mounts } sub
    | (mounts, .poll) =>
      gamPollAddSubscription hooks around { registries with mounts := mounts } sub
    | (mounts, .none) => some ({ registries with mounts := mounts }, false)

end Gamin.Server
