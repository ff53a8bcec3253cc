import Gamin.Inotify.Registry
import Gamin.Polling.Removal
import Gamin.Server.Backends

/-! # Removing a subscription

`gam_remove_subscription` chooses a hook once more, from the exclude list and the mount table as
they are now.  A hook of the polling backends frees the subscription, a hook of the kernel backends
does not; `gam_connection_request` and `gam_listener_free_subscription` ask the mount table again to
find out whether they have to.  What is freed is returned as a list of addresses.
-/

namespace Gamin.Server

open Gamin

/-! ## The hooks -/

/-- `gam_inotify_remove_subscription`.  What happens to its lock is looked at in
`Gamin.Inotify.Locks`; here it is one that lets the server go on. -/
def removeByInotify (registries : Registries) (sub : GamSubscription) : Registries :=
  { registries with
    inotify := Inotify.ihSubForeachFree registries.inotify fun isub => isub.usersubdata = sub }

/-- `gam_poll_basic_remove_subscription`, which frees the subscription. -/
def removeByPollBasic (registries : Registries) (sub : GamSubscription) :
    Option (Registries × List Pointer) :=
  (Polling.gamPollBasicRemoveSubscription registries.poll sub).map fun poll =>
    ({ registries with poll := poll }, [sub.address])

/-- `gam_poll_dnotify_remove_subscription`, which frees the subscription. -/
def removeByPollDnotify (hooks : Hooks) (registries : Registries) (sub : GamSubscription) :
    Option (Registries × List Pointer) :=
  (Polling.gamPollDnotifyRemoveSubscription (hooks.kernel = some .dnotify) registries.poll sub).map fun poll =>
    ({ registries with poll := poll }, [sub.address])

/-- The table of `gam_kqueue_remove_subscription`. -/
def gamKqueueRemoveSubscription (monitors : List SubMonitor) (sub : GamSubscription) : List SubMonitor :=
  monitors.filterMap fun smon =>
    if smon.isdir = sub.isDir ∧ smon.pathname = sub.path then
      let subs := smon.subs.filter (· ≠ sub)
      if subs = [] then none else some { smon with subs := subs }
    else some smon

/-- `gam_kqueue_remove_subscription`, which marks the subscription as cancelled and does not free
it. -/
def removeByKqueue (registries : Registries) (sub : GamSubscription) : Registries :=
  { registries with kqueue := gamKqueueRemoveSubscription registries.kqueue sub }

/-- `gam_poll_remove_subscription`. -/
def gamPollRemoveSubscription (hooks : Hooks) (registries : Registries) (sub : GamSubscription) :
    Option (Registries × List Pointer) :=
  match hooks.poll with
  | none => some (registries, [])
  | some .basic => removeByPollBasic registries sub
  | some .dnotify => removeByPollDnotify hooks registries sub

/-- `gam_kernel_remove_subscription`; the hook of dnotify hands the subscription on. -/
def gamKernelRemoveSubscription (hooks : Hooks) (registries : Registries) (sub : GamSubscription) :
    Option (Registries × List Pointer) :=
  match hooks.kernel with
  | none => some (registries, [])
  | some .inotify2 => some (removeByInotify registries sub, [])
  | some .dnotify => gamPollRemoveSubscription hooks registries sub
  | some .kqueue => some (removeByKqueue registries sub, [])

/-- `gam_remove_subscription`: the registries and what has been freed, if it does return. -/
def Hooks.gamRemoveSubscription (hooks : Hooks) (excluded : Bytes → Bool) (registries : Registries)
    (sub : GamSubscription) : Option (Registries × List Pointer) :=
  if excluded sub.path then
    if hooks.inotifyRunning then gamPollRemoveSubscription hooks registries sub
    else gamKernelRemoveSubscription hooks registries sub
  else
    match gamFsGetMonType registries.mounts sub.path with
    | (mounts, .kernel) => gamKernelRemoveSubscription hooks { registries with mounts := mounts } sub
    | (mounts, .poll) => gamPollRemoveSubscription hooks { registries with mounts := mounts } sub
    | (mounts, .none) => some ({ registries with mounts := mounts }, [])

/-- The caller of `gam_remove_subscription` frees what it takes for a subscription of inotify. -/
def freedByCaller (hooks : Hooks) (excluded : Bytes → Bool) (registries : Registries)
    (sub : GamSubscription) : Registries × List Pointer :=
  if hooks.inotifyRunning ∧ ¬ excluded sub.path then
    match gamFsGetMonType registries.mounts sub.path with
    | (mounts, type) =>
      ({ registries with mounts := mounts }, if type ≠ .poll then [sub.address] else [])
  else (registries, [])

/-- `gam_listener_free_subscription`, and the same lines of a `CANCEL` in
`gam_connection_request`. -/
def gamListenerFreeSubscription (hooks : Hooks) (excluded : Bytes → Bool) (registries : Registries)
    (sub : GamSubscription) : Option (Registries × List Pointer) :=
  (hooks.gamRemoveSubscription excluded registries sub).map fun (registries, freed) =>
    match freedByCaller hooks excluded registries sub with
    | (registries, more) => (registries, freed ++ more)

/-! ## The registries -/

/-- Where the backends keep subscriptions: `usersubdata` on `sub_list`, the nodes of the tree, the
monitors of kqueue. -/
inductive Registry where
  | inotify
  | poll
  | kqueue
  deriving DecidableEq, Repr

/-- The hook that is called for a path; the mount table says it for a path that is not
excluded. -/
def hookFor (hooks : Hooks) (excluded : Bytes → Bool) (mounts : Mounts) (path : Bytes) : GamFsMonType :=
  if excluded path then if hooks.inotifyRunning then .poll else .kernel
  else (gamFsGetMonType mounts path).2

/-- The registry that a hook writes to. -/
def Hooks.registry (hooks : Hooks) : GamFsMonType → Option Registry
  | .kernel =>
    match hooks.kernel with
    | .none => .none
    | some .inotify2 => some .inotify
    | some .dnotify => hooks.poll.map fun _ => .poll
    | some .kqueue => some .kqueue
  | .poll => hooks.poll.map fun _ => .poll
  | .none => .none

/-- A registry refers to the subscription. -/
def Registries.Refers (registries : Registries) (sub : GamSubscription) : Registry → Prop
  | .inotify => ∃ isub ∈ registries.inotify.subList, isub.usersubdata = sub
  | .poll => ∃ node ∈ registries.poll.nodes, sub ∈ node.subs
  | .kqueue => ∃ smon ∈ registries.kqueue, sub ∈ smon.subs

/-- Subscriptions are where their path says; dnotify has none at a relative path. -/
structure Registries.Placed (hooks : Hooks) (registries : Registries) : Prop where
  poll : ∀ sub, Polling.Placed registries.poll sub
  absolute : hooks.poll = some .dnotify → ∀ sub, registries.Refers sub .poll →
    sub.path.head? = some Inotify.slash
  kqueue : ∀ smon ∈ registries.kqueue, ∀ sub ∈ smon.subs, smon.isdir = sub.isDir ∧ smon.pathname = sub.path

theorem not_refers_poll {registries : Registries} {sub : GamSubscription} :
    ¬ registries.Refers sub .poll ↔ Polling.Unsubscribed registries.poll sub := by
  simp [Registries.Refers, Polling.Unsubscribed]

end Gamin.Server
