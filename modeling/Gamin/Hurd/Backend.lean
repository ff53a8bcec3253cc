import Gamin.Inotify.DirTree
import Gamin.Server.Subscription
import Mathlib.Data.List.AList

/-! # Monitors of the Hurd backend

`gam_hurd_mach_notify.c`.  There is a monitor for each path that is watched and for each directory above it; a monitor
points to its parent, has its children under their file names, and is found under its path.  Subscriptions wait in two
lists until an idle callback takes them on.

A function that fails an assertion does not return.
-/

namespace Gamin.Hurd

open Gamin Gamin.Server Gamin.Inotify

/-! ## State -/

/-- `struct monitor`; there is no descriptor while the path does not exist. -/
structure Monitor where
  path : Bytes
  fd : Option Nat
  subs : List Pointer
  children : AList fun _ : Bytes => Pointer
  parent : Option Pointer
  deriving DecidableEq

/-- The static variables, the monitors and the subscriptions in memory, the idle sources, and what has been emitted.
A pointer stands for one monitor for good. -/
structure HurdBackend where
  pathHash : Bytes → Option Pointer
  monitors : Pointer → Option Monitor
  next : Pointer
  subscriptions : Pointer → GamSubscription
  newSubs : List Pointer
  removedSubs : List Pointer
  haveConsumeIdler : Bool
  idleSources : Nat
  emitted : List Emission

/-- The values of `errno` that are told apart. -/
inductive Errno where
  | none
  | enoent
  | eperm
  | eacces
  | eisdir
  | enotdir
  | other
  deriving DecidableEq, Repr

/-- How `open` and the two requests for notifications answer, and what `errno` is left at if `open` succeeds. -/
structure WatchAnswer where
  opened : Except Errno Nat
  fileNotice : Errno
  dirNotice : Errno
  errno : Errno

/-- How the system answers while the pending subscriptions are taken on. -/
structure SystemAnswers where
  port : Bytes → Bool
  watch : Bytes → WatchAnswer
  opendir : Bytes → Except Errno (List Bytes)

def HurdBackend.setMonitor (backend : HurdBackend) (m : Pointer) (monitor : Monitor) : HurdBackend :=
  { backend with monitors := Function.update backend.monitors m (some monitor) }

/-! ## Watching -/

/-- `monitor_watch`: the descriptor, and the error that is returned. -/
def monitorWatch (answer : WatchAnswer) : Option Nat × Errno :=
  match answer.opened with
  | .error errno => (none, errno)
  | .ok fd =>
    let err := if answer.fileNotice = .eisdir then .none else answer.fileNotice
    if err = .none then (some fd, if answer.dirNotice = .enotdir then .none else answer.dirNotice) else (some fd, err)

/-- `errno` after `monitor_watch`. -/
def WatchAnswer.errnoAfter (answer : WatchAnswer) : Errno :=
  match answer.opened with
  | .error errno => errno
  | .ok _ => answer.errno

/-- The errors for which `monitor_create` gives up. -/
def watchFails (answer : WatchAnswer) : Bool :=
  let err := (monitorWatch answer).2
  err ≠ .none ∧ err ≠ .enoent ∧ err ≠ .eperm ∧ answer.errnoAfter ≠ .eacces

/-! ## Creating -/

/-- The path without the separators at its end, but for the first. -/
def stripSlashes (path : Bytes) : Bytes :=
  let front := path.rdropWhile (· = slash)
  if front = [] then [slash] else front

/-- What stands before the last name. -/
def containingDir (path : Bytes) : Bytes := stripSlashes (path.rdropWhile (· ≠ slash))

/-- What stands behind the last separator. -/
def fileName (path : Bytes) : Bytes := path.rtakeWhile (· ≠ slash)

/-- The new monitor of `monitor_create` with its entries in the two hash tables. -/
def HurdBackend.insertMonitor (backend : HurdBackend) (path : Bytes) (fd : Option Nat) (parent : Option Pointer) :
    HurdBackend :=
  let listed := match parent with
    | none => backend.monitors
    | some parent => match backend.monitors parent with
      | none => backend.monitors
      | some above =>
        Function.update backend.monitors parent
          (some { above with children := above.children.insert (fileName path) backend.next })
  { backend with
    monitors := Function.update listed backend.next
      (some { path := path, fd := fd, subs := [], children := ∅, parent := parent })
    pathHash := Function.update backend.pathHash path (some backend.next)
    next := backend.next + 1 }

theorem stripSlashes_length_le {path : Bytes} (nonempty : path ≠ []) : (stripSlashes path).length ≤ path.length := by
  have shorter := (List.rdropWhile_prefix (· = slash) path).length_le
  have positive := List.length_pos_of_ne_nil nonempty
  unfold stripSlashes
  dsimp only
  split
  · exact positive
  · exact shorter

/-- The directory that contains a path is shorter, unless the path is the root. -/
theorem containingDir_length_lt {path : Bytes} (absolute : path.head? = some slash)
    (below : stripSlashes path ≠ [slash]) : (containingDir (stripSlashes path)).length < path.length := by
  have front : path.rdropWhile (· = slash) ≠ [] := fun empty => below (if_pos empty)
  have stripped : stripSlashes path = path.rdropWhile (· = slash) := if_neg front
  rw [stripped]
  have isPrefix := List.rdropWhile_prefix (· = slash) path
  have last := List.rdropWhile_last_not (· = slash) path front
  revert front isPrefix last
  generalize path.rdropWhile (· = slash) = name
  intro front isPrefix last
  have begins : slash ∈ name := by
    obtain ⟨first, rest, rfl⟩ := List.exists_cons_of_ne_nil front
    obtain ⟨more, rfl⟩ := isPrefix
    rw [List.cons_append, List.head?_cons] at absolute
    rw [Option.some.inj absolute]
    exact List.mem_cons_self
  have above : name.rdropWhile (· ≠ slash) ≠ [] := by
    rw [ne_eq, List.rdropWhile_eq_nil_iff]
    exact fun none => absurd rfl (of_decide_eq_true (none slash begins))
  have shorter : (name.rdropWhile (· ≠ slash)).length < name.length := by
    have within := List.rdropWhile_prefix (· ≠ slash) name
    refine Nat.lt_of_le_of_ne within.length_le fun same => ?_
    have whole := within.eq_of_length same
    rw [List.rdropWhile_eq_self_iff] at whole
    exact whole front (decide_eq_true (of_decide_eq_false (Bool.eq_false_iff.mpr last)))
  calc (containingDir name).length
      ≤ (name.rdropWhile (· ≠ slash)).length := stripSlashes_length_le above
    _ < name.length := shorter
    _ ≤ path.length := isPrefix.length_le

/-- `monitor_create`. -/
def monitorCreate (answers : SystemAnswers) (backend : HurdBackend) (path : Bytes) : HurdBackend × Option Pointer :=
  match backend.pathHash path with
  | some m => (backend, some m)
  | none =>
    if _ : path.head? = some slash then
      if answers.port path then
        let stripped := stripSlashes path
        let answer := answers.watch stripped
        if watchFails answer then (backend, none)
        else if _ : stripped ≠ [slash] then
          match monitorCreate answers backend (containingDir stripped) with
          | (backend, none) => (backend, none)
          | (backend, some parent) =>
            (backend.insertMonitor stripped (monitorWatch answer).1 (some parent), some backend.next)
        else (backend.insertMonitor stripped (monitorWatch answer).1 none, some backend.next)
      else (backend, none)
    else (backend, none)
termination_by path.length
decreasing_by exact containingDir_length_lt ‹_› ‹_›

/-! ## Dropping -/

/-- `monitor_consider`, with one more than the monitors above as the measure of its recursion: it kills the monitor,
after those above it, if nothing is left of it. -/
def monitorConsider : Nat → HurdBackend → Pointer → Option HurdBackend
  | 0, _, _ => none
  | depth + 1, backend, m =>
    (backend.monitors m).bind fun monitor =>
      if monitor.subs ≠ [] ∨ monitor.children ≠ ∅ then some backend
      else
        let above := match monitor.parent with
          | none => if monitor.path = [slash] then some backend else none
          | some parent => (backend.monitors parent).bind fun containing =>
            if containing.children.lookup (fileName monitor.path) = none then none
            else
              monitorConsider depth (backend.setMonitor parent
                { containing with children := containing.children.erase (fileName monitor.path) }) parent
        above.bind fun backend =>
          if backend.pathHash monitor.path = none then none
          else
            some { backend with
              pathHash := Function.update backend.pathHash monitor.path none
              monitors := Function.update backend.monitors m none }

/-! ## Events -/

/-- `monitor_emit`. -/
def monitorEmit (backend : HurdBackend) (monitor : Monitor) (item : Bytes) (event : GaminEventType) : HurdBackend :=
  if event = .unknown then backend
  else
    { backend with
      emitted := backend.emitted ++ (monitor.subs.map backend.subscriptions).flatMap fun sub =>
        gamServerEmitOneEvent item false event sub false }

inductive DirChanged where
  | null
  | new
  | unlink
  | renumber
  | other
  deriving DecidableEq, Repr

inductive FileChanged where
  | null
  | write
  | extend
  | truncate
  | metadata
  | other
  deriving DecidableEq, Repr

/-- `"."` and `".."`. -/
def isDots (name : Bytes) : Bool := name = [46] ∨ name = [46, 46]

/-- `monitor_watch` on a monitor. -/
def HurdBackend.watchAgain (backend : HurdBackend) (m : Pointer) (monitor : Monitor) (answer : WatchAnswer) :
    Option (HurdBackend × Errno) :=
  if monitor.fd = none then
    some (backend.setMonitor m { monitor with fd := (monitorWatch answer).1 }, (monitorWatch answer).2)
  else none

/-- `dir_changed` for a monitor that the port belongs to, or for a port that belongs to none. -/
def dirChanged (backend : HurdBackend) (port : Pointer) (change : DirChanged) (name : Bytes) (answer : WatchAnswer) :
    Option HurdBackend :=
  match backend.monitors port with
  | none => some backend
  | some m =>
    let child := (m.children.lookup name).bind fun child => (backend.monitors child).map fun monitor => (child, monitor)
    match change with
    | .new =>
      let backend := monitorEmit backend m name .created
      match child with
      | none => some backend
      | some (child, monitor) =>
        (backend.watchAgain child monitor answer).map fun (backend, err) =>
          if err = .none then monitorEmit backend monitor monitor.path .created else backend
    | .unlink =>
      if isDots name then some backend
      else
        let backend := monitorEmit backend m name .deleted
        match child with
        | none => some backend
        | some (child, monitor) =>
          some (monitorEmit (backend.setMonitor child { monitor with fd := none }) monitor monitor.path .deleted)
    | .renumber => some (monitorEmit backend m name .changed)
    | .null | .other => some backend

/-- `file_changed`. -/
def fileChanged (backend : HurdBackend) (port : Pointer) (change : FileChanged) : HurdBackend :=
  match backend.monitors port with
  | none => backend
  | some m =>
    match change with
    | .write | .extend | .truncate | .metadata => monitorEmit backend m m.path .changed
    | .null | .other => backend

/-! ## Subscriptions -/

/-- The events about what is there when a subscription is added; the entries are those of an open directory. -/
def emitInitial (backend : HurdBackend) (monitor : Monitor) (entries : List Bytes) : HurdBackend :=
  let backend := monitorEmit backend monitor monitor.path (if monitor.fd = none then .deleted else .exists)
  let backend := entries.foldl
    (fun backend entry => if isDots entry then backend else monitorEmit backend monitor entry .exists) backend
  monitorEmit backend monitor monitor.path .endexists

/-- The errors of `opendir` with which a subscription is taken on nevertheless. -/
def opendirGoesOn (errno : Errno) : Bool := errno = .enotdir ∨ errno = .enoent ∨ errno = .eperm ∨ errno = .eacces

/-- `gam_hurd_notify_add_rm_handler` where it adds. -/
def addHandler (answers : SystemAnswers) (backend : HurdBackend) (sub : Pointer) : HurdBackend :=
  let path := (backend.subscriptions sub).path
  let dir := if (backend.subscriptions sub).isDir then answers.opendir path else .ok []
  let entries := match dir with
    | .ok entries => some entries
    | .error errno => if opendirGoesOn errno then some [] else none
  match entries with
  | none => backend
  | some entries =>
    match monitorCreate answers backend path with
    | (backend, none) => backend
    | (backend, some m) =>
      match backend.monitors m with
      | none => backend
      | some monitor =>
        let monitor := { monitor with subs := sub :: monitor.subs }
        emitInitial (backend.setMonitor m monitor) monitor entries

/-- `gam_hurd_notify_add_rm_handler` where it removes. -/
def removeHandler (backend : HurdBackend) (sub : Pointer) : Option HurdBackend :=
  let path := (backend.subscriptions sub).path
  match backend.pathHash path with
  | none => some backend
  | some m =>
    (backend.monitors m).bind fun monitor =>
      if sub ∈ monitor.subs then
        monitorConsider (path.length + 1)
          (backend.setMonitor m { monitor with subs := monitor.subs.filter (· ≠ sub) }) m
      else some backend

/-- `gam_hurd_notify_consume_subscriptions_real`. -/
def consumeSubscriptionsReal (answers : SystemAnswers) (backend : HurdBackend) : Option HurdBackend :=
  let added := backend.newSubs.foldl (addHandler answers) { backend with newSubs := [] }
  (added.removedSubs.foldlM removeHandler { added with removedSubs := [] }).map fun backend =>
    { backend with haveConsumeIdler := false, idleSources := backend.idleSources - 1 }

/-- `gam_hurd_notify_consume_subscriptions`. -/
def consumeSubscriptions (backend : HurdBackend) : HurdBackend :=
  if backend.haveConsumeIdler then backend
  else { backend with haveConsumeIdler := true, idleSources := backend.idleSources + 1 }

/-- `gam_hurd_notify_add_subscription`. -/
def gamHurdNotifyAddSubscription (backend : HurdBackend) (sub : Pointer) : HurdBackend :=
  consumeSubscriptions { backend with newSubs := sub :: backend.newSubs }

/-- `gam_hurd_notify_remove_subscription`. -/
def gamHurdNotifyRemoveSubscription (backend : HurdBackend) (sub : Pointer) : HurdBackend :=
  if sub ∈ backend.newSubs then { backend with newSubs := backend.newSubs.filter (· ≠ sub) }
  else
    consumeSubscriptions { backend with
      subscriptions := Function.update backend.subscriptions sub { backend.subscriptions sub with cancelled := true }
      removedSubs := sub :: backend.removedSubs }

/-- `gam_hurd_notify_remove_all_for`, for the subscriptions of a listener. -/
def gamHurdNotifyRemoveAllFor (backend : HurdBackend) (subs : List Pointer) : HurdBackend :=
  subs.foldl gamHurdNotifyRemoveSubscription backend

/-! ## Runs -/

/-- What reaches the backend: requests of the server, the idle callback, and notifications. -/
inductive HurdStep where
  | add (sub : Pointer)
  | remove (sub : Pointer)
  | removeAll (subs : List Pointer)
  | idle (answers : SystemAnswers)
  | dirChanged (port : Pointer) (change : DirChanged) (name : Bytes) (answer : WatchAnswer)
  | fileChanged (port : Pointer) (change : FileChanged)

def HurdBackend.step (backend : HurdBackend) : HurdStep → Option HurdBackend
  | .add sub => some (gamHurdNotifyAddSubscription backend sub)
  | .remove sub => some (gamHurdNotifyRemoveSubscription backend sub)
  | .removeAll subs => some (gamHurdNotifyRemoveAllFor backend subs)
  | .idle answers => if backend.idleSources = 0 then some backend else consumeSubscriptionsReal answers backend
  | .dirChanged port change name answer => Gamin.Hurd.dirChanged backend port change name answer
  | .fileChanged port change => some (Gamin.Hurd.fileChanged backend port change)

/-- What `gam_hurd_notify_init` leaves, with the subscriptions that the server will make. -/
def HurdBackend.new (subscriptions : Pointer → GamSubscription) : HurdBackend where
  pathHash := fun _ => none
  monitors := fun _ => none
  next := 0
  subscriptions := subscriptions
  newSubs := []
  removedSubs := []
  haveConsumeIdler := false
  idleSources := 0
  emitted := []

end Gamin.Hurd
