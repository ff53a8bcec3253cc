import Gamin.Inotify.Names
import Gamin.Server.MountTable

/-! # The node tree of the polling backends

`GamNode` and `GamTree` (`gam_node.c`, `gam_tree.c`), and with them the static variables of
`gam_poll_generic.c`.  A node is known by its path, which is its key in `node_hash`.  The root
of the tree is not in the hash, is never subscribed to, and stands as the parent `none`.

The answers of the file system are a sequence: each system call takes the next view.
-/

namespace Gamin.Polling

open Gamin Gamin.Server Gamin.Inotify

/-! ## What the file system shows -/

/-- The fields of `struct stat` that polling reads; `st_mtim` and `st_ctim` with their
nanoseconds. -/
structure StatBuf where
  isDir : Bool
  mtim : Nat × Nat
  size : Nat
  ctim : Nat × Nat
  deriving DecidableEq, Repr

/-- A buffer after `memset`. -/
def StatBuf.zero : StatBuf := { isDir := false, mtim := (0, 0), size := 0, ctim := (0, 0) }

/-- The outcome of `stat`; `noent` is a failure with `ENOENT`. -/
inductive StatAnswer where
  | found (sbuf : StatBuf)
  | noent
  | failed
  deriving DecidableEq, Repr

def StatAnswer.exists : StatAnswer → Bool
  | .found _ => true
  | _ => false

def StatAnswer.isDir : StatAnswer → Bool
  | .found sbuf => sbuf.isDir
  | _ => false

/-- What one system call can see: files, directory listings, and the answers of the exclude
list and of the mount table for a path.  What is there can be opened unless the view says otherwise. -/
structure FsView where
  stat : Bytes → StatAnswer
  listing : Bytes → Option (List Bytes)
  excluded : Bytes → Bool
  monType : Bytes → GamFsMonType
  pollTimeout : Bytes → Nat
  opens : Bytes → Bool := fun path => (stat path).exists

/-! ## Nodes -/

/-- The `pflags` of a node. -/
structure MonFlags where
  missing : Bool
  nokernel : Bool
  busy : Bool
  wrongType : Bool
  deriving DecidableEq, Repr

def MonFlags.none : MonFlags :=
  { missing := false, nokernel := false, busy := false, wrongType := false }

/-- `GamNode`; `newNode` is `FLAG_NEW_NODE`, the only flag, and `parent` comes from the tree. -/
structure GamNode where
  path : Bytes
  parent : Option Bytes
  subs : List GamSubscription
  isDir : Bool
  newNode : Bool
  pollTime : Nat
  monType : GamFsMonType
  checks : Nat
  pflags : MonFlags
  lasttime : Nat
  sbuf : StatBuf
  deriving DecidableEq, Repr

/-- `DNotifyData`, what dnotify has for a directory: whether `fd` is a descriptor, and the counters. -/
structure DNotifyData where
  fd : Bool
  refcount : Nat
  busy : Nat
  deriving DecidableEq, Repr

/-- A watch that dnotify has given up, whether it was suspended, and the nodes as they were then. -/
structure Release where
  path : Bytes
  suspended : Bool
  nodes : List GamNode
  deriving DecidableEq, Repr

/-- The polling backend: the tree in the order of its insertions, the resource lists, the
clock, the file system views still to come and the events sent.  The root is on the list of busy nodes
as the empty path; `rootBusy` is its flag.  Of `gam_dnotify.c` there is `path_hash`, and two histories:
the watches that were released, and the nodes that load control has switched to polling and not back. -/
structure Poll where
  nodes : List GamNode
  missing : List Bytes
  busy : List Bytes
  all : List Bytes
  currentTime : Nat
  views : Nat → FsView
  sent : List Emission
  rootBusy : Bool
  pathHash : Bytes → Option DNotifyData
  released : List Release
  loaded : List Bytes

/-- The backend after `gam_poll_generic_init`. -/
def Poll.new (views : Nat → FsView) : Poll where
  nodes := []
  missing := []
  busy := []
  all := []
  currentTime := 0
  views := views
  sent := []
  rootBusy := false
  pathHash := fun _ => none
  released := []
  loaded := []

/-- What the next system call sees. -/
def Poll.view (poll : Poll) : FsView := poll.views 0

/-- The state after a system call. -/
def Poll.called (poll : Poll) : Poll := { poll with views := fun call => poll.views (call + 1) }

/-- `gam_node_new`. -/
def gamNodeNew (poll : Poll) (path : Bytes) (isDir : Bool) (parent : Option Bytes) : GamNode where
  path := path
  parent := parent
  subs := []
  isDir := isDir
  newNode := false
  pollTime := poll.view.pollTimeout path
  monType := poll.view.monType path
  checks := 0
  pflags := .none
  lasttime := 0
  sbuf := .zero

/-- `gam_node_has_dir_subscriptions`. -/
def gamNodeHasDirSubscriptions (node : GamNode) : Bool :=
  node.isDir && node.subs.any (·.isDir)

/-! ## The tree -/

/-- `gam_tree_get_at_path`. -/
def gamTreeGetAtPath (poll : Poll) (path : Bytes) : Option GamNode :=
  poll.nodes.find? (·.path = path)

/-- Writing to the node at a path. -/
def Poll.setNode (poll : Poll) (node : GamNode) : Poll :=
  { poll with nodes := poll.nodes.map fun other => if other.path = node.path then node else other }

/-- `gam_tree_add`, which refuses a path that is there. -/
def gamTreeAdd (poll : Poll) (child : GamNode) : Poll :=
  if (gamTreeGetAtPath poll child.path).isSome then poll
  else { poll with nodes := poll.nodes ++ [child] }

/-- `gam_tree_remove`.  Its callers have made sure of what it asserts: that nobody has subscribed to the
node, and that it has no children. -/
def gamTreeRemove (poll : Poll) (path : Bytes) : Poll :=
  { poll with nodes := poll.nodes.filter (·.path ≠ path) }

/-- `gam_tree_get_children`: the last child first. -/
def gamTreeGetChildren (poll : Poll) (path : Bytes) : List Bytes :=
  ((poll.nodes.filter (·.parent = some path)).map (·.path)).reverse

/-- `gam_tree_get_children` of the root. -/
def gamTreeGetRootChildren (poll : Poll) : List Bytes :=
  ((poll.nodes.filter (·.parent = none)).map (·.path)).reverse

/-- `gam_tree_has_children`. -/
def gamTreeHasChildren (poll : Poll) (path : Bytes) : Bool :=
  poll.nodes.any (·.parent = some path)

/-- `gam_node_get_subscriptions` of the node at a path. -/
def subsAt (poll : Poll) (path : Bytes) : List GamSubscription :=
  ((gamTreeGetAtPath poll path).map (·.subs)).getD []

/-- `gam_node_has_dir_subscriptions` of a parent. -/
def parentHasDirSubscriptions (poll : Poll) (parent : Option Bytes) : Bool :=
  ((parent.bind (gamTreeGetAtPath poll)).map gamNodeHasDirSubscriptions).getD false

/-- The parts of a path before each slash but a leading one. -/
def pathParents (path : Bytes) : List Bytes :=
  ((List.range path.length).filter fun i => 1 ≤ i ∧ path[i]? = some slash).map (path.take ·)

/-- The loop of `gam_tree_add_at_path` over the parents of the path. -/
def addParents (poll : Poll) (parent : Option Bytes) : List Bytes → Poll × Option Bytes
  | [] => (poll, parent)
  | path :: paths =>
    addParents (gamTreeAdd poll (gamNodeNew poll path true parent)) (some path) paths

/-- `gam_tree_add_at_path`; an empty path makes no node. -/
def gamTreeAddAtPath (poll : Poll) (path : Bytes) (isDir : Bool) : Poll :=
  if path = [] then poll
  else if (gamTreeGetAtPath poll path).isSome then poll
  else
    let found := (poll.view.stat path).exists
    let poll := poll.called
    let isDir := if found then (poll.view.stat path).isDir else isDir
    let poll := if found then poll.called else poll
    match addParents poll none (pathParents path) with
    | (poll, parent) => gamTreeAdd poll (gamNodeNew poll path isDir parent)

/-! ## Events -/

/-- `gam_server_emit_event`. -/
def gamServerEmitEvent (poll : Poll) (path : Bytes) (isDirNode : Bool) (event : GaminEventType)
    (subs : List GamSubscription) (force : Bool) : Poll :=
  { poll with
    sent := poll.sent ++ subs.flatMap fun sub => gamServerEmitOneEvent path isDirNode event sub force }

/-- The receivers of `gam_node_emit_event`: the subscriptions of the node and of its parent. -/
def emitReceivers (poll : Poll) (node : GamNode) : List GamSubscription :=
  ((node.parent.map (subsAt poll)).getD []).foldl
    (fun subs sub => if sub ∈ subs then subs else sub :: subs) node.subs

/-- `gam_node_emit_event`; no subscription wants the event 0. -/
def gamNodeEmitEvent (poll : Poll) (path : Bytes) (event : Option GaminEventType) : Poll :=
  match event, gamTreeGetAtPath poll path with
  | some event, some node =>
    gamServerEmitEvent poll node.path node.isDir event (emitReceivers poll node) false
  | _, _ => poll

end Gamin.Polling
