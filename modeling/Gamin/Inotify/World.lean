import Gamin.Inotify.Settling

/-! # The backend on a tree of directories

The tree is changed in batches: the events of a batch are dispatched when all of its changes
have been made.  What is to hold of the subscriptions, and under which condition.
-/

namespace Gamin.Inotify

open Gamin Gamin.Server Gamin.Library

/-! ## The system -/

/-- A change of the tree.  Which of the two events about a removal comes first depends on
the kernel. -/
inductive Change where
  | mkdir (parent : Path) (name : Bytes)
  | rmdir (parent : Path) (name : Bytes) (selfFirst : Bool)
  deriving DecidableEq, Repr

def Change.path : Change → Path
  | .mkdir parent name | .rmdir parent name _ => parent ++ [name]

/-- What the file system does not refuse. -/
def DirTree.Allows (tree : DirTree) : Change → Prop
  | .mkdir parent name =>
    name ≠ [] ∧ slash ∉ name ∧ tree.Has parent ∧ ¬ tree.Has (parent ++ [name])
  | .rmdir parent name _ =>
    tree.Has (parent ++ [name]) ∧
      ∀ entry ∈ tree.directories, entry.1.dropLast ≠ parent ++ [name]

instance (tree : DirTree) : (change : Change) → Decidable (tree.Allows change)
  | .mkdir .. => inferInstanceAs (Decidable (_ ∧ _ ∧ _ ∧ _))
  | .rmdir .. => inferInstanceAs (Decidable (_ ∧ _))

/-- An event, and the directory that was watched when it was queued. -/
structure KernelNotice where
  place : Path
  event : IkEvent
  deriving DecidableEq, Repr

/-- The tree and the backend, the next address that `malloc` returns, how often each subscriber
is to be told that its directory or file is there again, and the directories that have been
removed since the missing list was scanned last. -/
structure World where
  tree : DirTree
  backend : Backend
  nextAddress : Pointer
  due : IhSub → Nat
  lost : List Path

def World.new : World where
  tree := .root
  backend := .new
  nextAddress := 0
  due := fun _ => 0
  lost := []

/-- The event about a name in a directory, if the directory is watched. -/
def World.noticeOn (world : World) (path : Path) (mask : Nat) (name : Bytes) : List KernelNotice :=
  match (world.tree.inodeOf path).bind fun inode => world.backend.kernel.watches.lookup inode with
  | some wd => [{ place := path, event := { wd := wd, mask := mask, name := name, pair := none } }]
  | none => []

def World.notices (world : World) : Change → List KernelNotice
  | .mkdir parent name => world.noticeOn parent (inCreate ||| inIsdir) name
  | .rmdir parent name selfFirst =>
    let ofSelf := world.noticeOn (parent ++ [name]) inDeleteSelf []
    let ofParent := world.noticeOn parent (inDelete ||| inIsdir) name
    if selfFirst then ofSelf ++ ofParent else ofParent ++ ofSelf

/-- A subscription of the directory is to be told of the creation. -/
def World.created (world : World) (path : Path) : World :=
  { world with
    tree := world.tree.add path
    due := fun sub => world.due sub + if sub.isDir = true ∧ sub.dirname = render path then 1 else 0 }

def World.removed (world : World) (path : Path) (inode : Nat) : World :=
  { world with
    tree := world.tree.remove path
    backend := { world.backend with kernel := world.backend.kernel.deleteInode inode }
    lost := path :: world.lost }

def World.made (world : World) : Change → World
  | .mkdir parent name => world.created (parent ++ [name])
  | .rmdir parent name _ =>
    match world.tree.inodeOf (parent ++ [name]) with
    | some inode => world.removed (parent ++ [name]) inode
    | none => world

/-- What a batch comes to: the tree, the changes that were not refused, and the events. -/
def World.changeAll (world : World) : List Change → World × List Change × List KernelNotice
  | [] => (world, [], [])
  | change :: changes =>
    if world.tree.Allows change then
      match (world.made change).changeAll changes with
      | (after, made, notices) => (after, change :: made, world.notices change ++ notices)
    else world.changeAll changes

/-- The events of a batch are dispatched when all of its changes have been made. -/
def dispatchAll (tree : DirTree) : Backend → List KernelNotice → Option Backend
  | state, [] => some state
  | state, notice :: notices =>
    match step state (.event notice.event fun _ => tree.watch) with
    | none => none
    | some state => dispatchAll tree state notices

inductive WorldInput where
  | addSubscription (path : Bytes) (isDir : Bool) (reqno options : Nat) (view : FsView)
  | cancel (sub : IhSub)
  | changes (batch : List Change)
  | scanMissing (view : IhSub → FsView)

/-- The subscription that `gam_connection_request` makes of a request. -/
def World.subscription (world : World) (path : Bytes) (isDir : Bool) (reqno options : Nat) :
    GamSubscription :=
  gamSubscriptionNew world.nextAddress path requestedEvents reqno isDir options

/-- The subscription of a file that a scan is to find. -/
def World.finds (world : World) (view : IhSub → FsView) (sub : IhSub) : Prop :=
  sub.isDir = false ∧ sub ∈ world.backend.missingSubList ∧ (view sub).present sub.pathname = true

instance (world : World) (view : IhSub → FsView) (sub : IhSub) : Decidable (world.finds view sub) :=
  inferInstanceAs (Decidable (_ ∧ _ ∧ _))

def World.step (world : World) : WorldInput → Option World
  | .addSubscription path isDir reqno options view =>
    let sub := world.subscription path isDir reqno options
    let address := world.nextAddress + 1
    (Inotify.step world.backend (.addSubscription address sub world.tree.watch view)).map
      fun state =>
        { world with
          backend := state
          nextAddress := world.nextAddress + 2
          due := Function.update world.due (ihSubNew address path isDir sub) 0 }
  | .cancel sub =>
    (Inotify.step world.backend (.cancel sub)).map fun state => { world with backend := state }
  | .changes batch =>
    match world.changeAll batch with
    | (world, _, notices) =>
      (dispatchAll world.tree world.backend notices).map fun state =>
        { world with backend := state }
  | .scanMissing view =>
    (Inotify.step world.backend (.scanMissing (fun _ => world.tree.watch) view)).map fun state =>
      { world with
        backend := state
        due := fun sub => world.due sub + if world.finds view sub then 1 else 0
        lost := [] }

/-! ## The property -/

/-- The report comes from a scan of the missing list. -/
def Cause.ofScan : Cause → Bool
  | .found _ => true
  | .initial | .forwarded .. => false

/-- How often the subscriber has been told that its directory was created, or by a scan that
its file is there. -/
def createdReports (sent : List Report) (sub : IhSub) : Nat :=
  sent.countP fun report => decide (report.emission.sub = sub.usersubdata ∧
    report.emission.path = sub.pathname ∧ report.emission.event = .created ∧
    (sub.isDir = false → report.cause.ofScan = true))

/-- Every subscription is attached to its own directory whenever that exists; only that of a
file may have to wait for the next scan when something on the way to it has been removed.  And
every subscriber has been told whenever it was to be told, and not more often. -/
structure Complete (world : World) : Prop where
  attached : ∀ sub ∈ world.backend.subList,
    (sub.isDir = true ∨ ∀ gone ∈ world.lost, ¬ gone <+: components sub.dirname) →
    world.tree.Has (components sub.dirname) →
    ∃ address dir, world.backend.subDirHash sub = some address ∧
      world.backend.dirs address = some dir ∧ dir.path = sub.dirname ∧
      world.backend.kernel.Registered dir.wd
  reported : ∀ sub ∈ world.backend.subList, createdReports world.backend.sent sub = world.due sub

/-! ## What may change -/

/-- The condition on the dispatch of the events of a batch. -/
def QueueGuard (tree : DirTree) : Backend → List KernelNotice → Prop
  | _, [] => True
  | state, notice :: notices =>
    EventGuard tree state notice.event ∧
      ∀ after ∈ step state (.event notice.event fun _ => tree.watch), QueueGuard tree after notices

instance decidableQueueGuard (tree : DirTree) :
    (state : Backend) → (notices : List KernelNotice) → Decidable (QueueGuard tree state notices)
  | _, [] => .isTrue trivial
  | state, notice :: notices =>
    have := fun after => decidableQueueGuard tree after notices
    inferInstanceAs (Decidable (_ ∧ ∀ after ∈ step state (.event notice.event fun _ => tree.watch),
      QueueGuard tree after notices))

/-- The change is one of the directory, of a directory on the way to it, or of one beside it
whose name is the beginning of its name. -/
def Change.Touches (change : Change) (path : Path) : Prop :=
  change.path <+: path ∨
    change.path.dropLast = path.dropLast ∧ render change.path <+: render path

instance (change : Change) (path : Path) : Decidable (change.Touches path) :=
  inferInstanceAs (Decidable (_ ∨ _ ∧ _))

def Change.Creates (change : Change) (path : Path) : Prop :=
  match change with
  | .mkdir parent name => parent ++ [name] = path
  | .rmdir .. => False

instance (path : Path) : (change : Change) → Decidable (change.Creates path)
  | .mkdir .. => inferInstanceAs (Decidable (_ = _))
  | .rmdir .. => .isFalse id

/-- Nothing in a batch touches a directory before it creates it. -/
def CreatedFirst (path : Path) (made : List Change) : Prop :=
  made.Pairwise fun earlier later => earlier.Touches path → ¬ later.Creates path

instance (path : Path) (made : List Change) : Decidable (CreatedFirst path made) :=
  inferInstanceAs (Decidable (made.Pairwise _))

/-- An event of the batch passes the tests of the dispatch loop for the subscription. -/
def Moves (dir : IpWatchedDir) (sub : IhSub) (notices : List KernelNotice) : Prop :=
  ∃ notice ∈ notices, notice.event.wd = dir.wd ∧ resubscribes dir notice.event.toIkReport sub = true

instance (dir : IpWatchedDir) (sub : IhSub) (notices : List KernelNotice) :
    Decidable (Moves dir sub notices) :=
  inferInstanceAs (Decidable (∃ notice ∈ notices, _))

/-- An event of the batch ends the watch of the object. -/
def Ends (dir : IpWatchedDir) (notices : List KernelNotice) : Prop :=
  ∃ notice ∈ notices, EndsWatchOf notice.event dir

instance (event : IkEvent) (dir : IpWatchedDir) : Decidable (EndsWatchOf event dir) :=
  inferInstanceAs (Decidable (_ ∧ _))

instance (dir : IpWatchedDir) (notices : List KernelNotice) : Decidable (Ends dir notices) :=
  inferInstanceAs (Decidable (∃ notice ∈ notices, _))

/-- A batch and a subscription of a directory: the top directory on the way to it is there
afterwards, and the batch does not touch the directory before it creates it. -/
def DirectoryGuard (after : World) (made : List Change) (sub : IhSub) : Prop :=
  after.tree.Has ((components sub.dirname).take 1) ∧ CreatedFirst (components sub.dirname) made

/-- A batch and a subscription of a file: a directory that it waits for does not come back, unless
what it waits in is removed or an event moves it; and it is not moved without a top directory. -/
def FileGuard (before after : World) (notices : List KernelNotice) (sub : IhSub) : Prop :=
  ∀ address ∈ before.backend.subDirHash sub, ∀ dir ∈ before.backend.dirs address,
    (dir.path ≠ sub.dirname → after.tree.Has (components sub.dirname) →
      Moves dir sub notices ∨ Ends dir notices) ∧
    (Moves dir sub notices → after.tree.Has ((components sub.dirname).take 1))

instance (after : World) (made : List Change) (sub : IhSub) :
    Decidable (DirectoryGuard after made sub) :=
  inferInstanceAs (Decidable (_ ∧ _))

instance (before after : World) (notices : List KernelNotice) (sub : IhSub) :
    Decidable (FileGuard before after notices sub) :=
  inferInstanceAs (Decidable (∀ address ∈ before.backend.subDirHash sub,
    ∀ dir ∈ before.backend.dirs address, (_ → _ → _) ∧ (_ → _)))

def WorldGuard (world : World) : WorldInput → Prop
  | .addSubscription path isDir _ _ _ =>
    render (components path) = path ∧ ValidPath (components path) ∧
      (isDir = false → components path ≠ []) ∧
      world.tree.Has ((if isDir then components path else (components path).dropLast).take 1)
  | .cancel sub => StopsAlone world.backend sub
  | .changes batch =>
    (∀ sub ∈ world.backend.subList,
      (sub.isDir = true → DirectoryGuard (world.changeAll batch).1 (world.changeAll batch).2.1 sub) ∧
      (sub.isDir = false → FileGuard world (world.changeAll batch).1 (world.changeAll batch).2.2 sub)) ∧
    QueueGuard (world.changeAll batch).1.tree (world.changeAll batch).1.backend
      (world.changeAll batch).2.2
  | .scanMissing _ =>
    ∀ sub ∈ world.backend.missingSubList, world.tree.Has ((components sub.dirname).take 1)

instance (world : World) : (input : WorldInput) → Decidable (WorldGuard world input)
  | .addSubscription .. => inferInstanceAs (Decidable (_ ∧ _ ∧ (_ → _) ∧ _))
  | .cancel sub => inferInstanceAs (Decidable (StopsAlone world.backend sub))
  | .changes _ =>
    inferInstanceAs (Decidable ((∀ sub ∈ world.backend.subList, (_ → _) ∧ (_ → _)) ∧ _))
  | .scanMissing _ => inferInstanceAs (Decidable (∀ sub ∈ world.backend.missingSubList, _))

end Gamin.Inotify
