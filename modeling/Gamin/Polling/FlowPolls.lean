import Gamin.Polling.ListedNodes

/-! # Flow control in a poll

A poll of a node goes through three parts: it asks the file system, it may switch the node to polling, and it may
leave it to the kernel again.  Each part keeps the balance if nobody else in the directory is busy when it lifts the
suspension, and if the marks and the references that it goes by are still those of the busy nodes.
-/

namespace Gamin.Polling

open Gamin Gamin.Server Gamin.Inotify Gamin.Library

/-! ## What is asked of a poll -/

/-- While another node of the directory is busy, a node does not give up the last reference to the watch; a busy node
that is the only one does. -/
def leavesFairly (poll : Poll) (path dir : Bytes) (ends : Bool) : Bool :=
  if busyBeside poll path dir then !ends else path ∉ poll.loaded || ends

/-- A busy node does not become a directory, or stop being one. -/
def kindStays (poll : Poll) (node : GamNode) (isDir : Bool) : Bool := node.path ∉ poll.loaded || isDir = node.isDir

/-- A node is deleted, and gives its watch up. -/
def delistEnds (handler : Bool) (poll : Poll) (node : GamNode) : Bool :=
  kernelMonitored poll node.path && givesUp handler poll node node.subs.length

/-- A file right below the path is busy. -/
def busyBelow (poll : Poll) (path : Bytes) : Bool :=
  poll.loaded.any fun other => (gamTreeGetAtPath poll other).any fun node => ¬ node.isDir ∧ node.parent = some path

/-- The parent of a file has been found missing, and its other flags are gone. -/
def parentMissing (poll : Poll) : Option Bytes → Bool
  | none => false
  | some path => markedAt (·.missing) poll path

def flowStatSafe (handler : Bool) (poll : Poll) (node : GamNode) : Bool :=
  match poll.view.stat node.path with
  | .found sbuf => kindStays poll node sbuf.isDir && (!node.pflags.missing || !busyBelow poll node.path)
  | answer =>
    if answer = .noent ∧ ¬ node.pflags.missing then
      leavesFairly poll.called node.path node.watched (delistEnds handler poll.called node)
    else true

/-- A node that is switched to polling is watched by dnotify.  If it is not the first busy one of its directory, it is
a file and the mark of its parent says so; if it is, the directory has a watch, and no mark is left from before. -/
def flowStartSafe (handler : Bool) (poll : Poll) (node : GamNode) : Bool :=
  if node.checks ≥ 4 ∧ ¬ node.pflags.busy ∧ node.subs ≠ [] ∧ kernelMonitored poll node.path then
    triggers handler node &&
      if busyIn poll node.watched then !node.isDir && parentDiffers poll node.parent false
      else (node.isDir || parentDiffers poll node.parent true) && (poll.pathHash node.watched).isSome
  else true

/-- No other node of the directory is busy when one is left to the kernel, and no file below it. -/
def flowStopSafe (poll : Poll) (node : GamNode) (event : Option GaminEventType) : Bool :=
  if event = none ∧ node.pflags.busy ∧ node.checks > 5 ∧ node.subs ≠ [] ∧ kernelMonitored poll node.path then
    !busyBeside poll node.path node.watched && !busyBelow poll node.path &&
      (node.path ∉ poll.loaded || node.isDir || !parentMissing poll node.parent)
  else true

def flowKnownSafe (handler : Bool) (poll : Poll) (node : GamNode) : Bool :=
  flowStatSafe handler poll node &&
    match dnotifyStatFile handler poll node with
    | (poll, node, event) =>
      node.pflags.nokernel ||
        let node := countChecks poll node event
        flowStartSafe handler (poll.setNode node) node &&
          match switchToPolling handler poll node with
          | (poll, node) => flowStopSafe (poll.setNode node) node event

/-- Along `gam_poll_dnotify_poll_file`. -/
def flowPollSafe (handler : Bool) (poll : Poll) (node : GamNode) : Bool :=
  if tooSoon poll node then true
  else if node.lasttime = 0 then
    match poll.view.stat node.path with
    | .found sbuf => kindStays poll node sbuf.isDir
    | _ => true
  else flowKnownSafe handler poll node

section

variable {handler : Bool} {poll after : Poll} {node next : GamNode} {path dir : Bytes}

/-! ## The places of the nodes -/

/-- What is asked of a busy node by a request about its directory. -/
def GamNode.kind (node : GamNode) : Bool × GamFsMonType × Option Bytes := (node.isDir, node.monType, node.parent)

def kindAt (poll : Poll) (path : Bytes) : Option (Bool × GamFsMonType × Option Bytes) :=
  (gamTreeGetAtPath poll path).map GamNode.kind

theorem kindAt_congr (nodes : after.nodes = poll.nodes) : kindAt after = kindAt poll := by
  funext path
  rw [kindAt, gamTreeGetAtPath, nodes, ← gamTreeGetAtPath, kindAt]

theorem watchedAt_of_kindAt (kinds : kindAt after path = kindAt poll path) :
    watchedAt after path = watchedAt poll path := by
  have place (poll : Poll) : watchedAt poll path =
      (kindAt poll path).map fun kind => if kind.1 then path else parentDir kind.2.2 := by
    rw [watchedAt, kindAt, Option.map_map]
    cases found : gamTreeGetAtPath poll path with
    | none => rfl
    | some node =>
      obtain rfl := gamTreeGetAtPath_path found
      rfl
  rw [place, place, kinds]

theorem watchedAt_of_found (found : gamTreeGetAtPath poll node.path = some node) :
    watchedAt poll node.path = some node.watched := by
  rw [watchedAt, found, Option.map_some]

theorem kindAt_setNode (poll : Poll) (next : GamNode) (path : Bytes) :
    kindAt (poll.setNode next) path =
      (kindAt poll path).map fun kind => if path = next.path then next.kind else kind := by
  rw [kindAt, gamTreeGetAtPath_setNode, kindAt]
  cases found : gamTreeGetAtPath poll path with
  | none => rfl
  | some node =>
    obtain rfl := gamTreeGetAtPath_path found
    simp only [Option.map_some]
    split <;> rfl

theorem gamTreeGetAtPath_setNode_self (known : (gamTreeGetAtPath poll next.path).isSome) :
    gamTreeGetAtPath (poll.setNode next) next.path = some next := by
  obtain ⟨node, found⟩ := Option.isSome_iff_exists.mp known
  rw [gamTreeGetAtPath_setNode, found, Option.map_some, if_pos (gamTreeGetAtPath_path found)]

theorem watchedAt_setNode_other (poll : Poll) (different : path ≠ next.path) :
    watchedAt (poll.setNode next) path = watchedAt poll path := by
  rw [watchedAt, gamTreeGetAtPath_setNode_other poll different, watchedAt]

/-- A node is written back to its place. -/
theorem kindAt_written (found : gamTreeGetAtPath poll node.path = some node) (path : next.path = node.path)
    (kind : next.kind = node.kind) : kindAt (poll.setNode next) = kindAt poll := by
  funext other
  rw [kindAt_setNode, kindAt]
  by_cases here : other = next.path
  · rw [here, path, found, Option.map_some, Option.map_some, if_pos rfl, kind]
  · simp only [if_neg here, Option.map_id']

theorem kindAt_setNode_congr (kinds : kindAt after = kindAt poll) (path : next.path = node.path)
    (kind : next.kind = node.kind) : kindAt (after.setNode next) = kindAt (poll.setNode node) := by
  funext other
  rw [kindAt_setNode, kindAt_setNode, kinds, path, kind]

theorem triggerParent_places (poll : Poll) (parent : Option Bytes) (start : Bool) :
    kindAt (triggerParent poll parent start) = kindAt poll ∧
      (triggerParent poll parent start).loaded = poll.loaded := by
  unfold triggerParent
  cases parent with
  | none =>
    dsimp only
    split
    · exact ⟨rfl, rfl⟩
    · obtain ⟨nodes, loaded⟩ := switchFlow_places poll [slash] [] start
      exact ⟨kindAt_congr nodes, loaded⟩
  | some path =>
    dsimp only
    cases found : gamTreeGetAtPath poll path with
    | none => exact ⟨rfl, rfl⟩
    | some node =>
      dsimp only
      split
      · exact ⟨rfl, rfl⟩
      · -- only the mark of the parent is written
        obtain rfl := gamTreeGetAtPath_path found
        obtain ⟨nodes, loaded⟩ := switchFlow_places poll node.path node.path start
        have here : gamTreeGetAtPath (switchFlow poll node.path node.path start) node.path = some node := by
          rw [gamTreeGetAtPath, nodes]
          exact found
        refine ⟨Eq.trans ?_ (kindAt_congr nodes), loaded⟩
        exact kindAt_written here rfl rfl

theorem flowControl_places (handler : Bool) (poll : Poll) (node : GamNode) (start : Bool) :
    kindAt (flowControl handler poll node start) = kindAt poll ∧
      (flowControl handler poll node start).loaded = poll.loaded := by
  have outcome := flowControl_cases handler poll node start
  generalize flowControl handler poll node start = after at outcome ⊢
  cases outcome with
  | nothing => exact ⟨rfl, rfl⟩
  | directory =>
    have only := watchesOnly_handler poll node.path (if start then .flowControlStart else .flowControlStop)
    exact ⟨kindAt_congr only.nodes, only.loaded⟩
  | parent => exact triggerParent_places poll node.parent start

/-- Only the resource lists and the histories have changed. -/
structure SameWatches (before after : Poll) : Prop where
  nodes : after.nodes = before.nodes
  pathHash : after.pathHash = before.pathHash
  rootBusy : after.rootBusy = before.rootBusy
  views : after.views = before.views

theorem SameWatches.refl (poll : Poll) : SameWatches poll poll := ⟨rfl, rfl, rfl, rfl⟩

theorem SameWatches.addBusy (same : SameWatches poll after) (path : Bytes) :
    SameWatches poll (gamPollGenericAddBusy after path) := by
  obtain ⟨busy, written⟩ := gamPollGenericAddBusy_writes after path
  rw [written]
  exact ⟨same.nodes, same.pathHash, same.rootBusy, same.views⟩

theorem SameWatches.kernelMonitored (same : SameWatches poll after) (path : Bytes) :
    kernelMonitored after path = kernelMonitored poll path := by
  rw [Polling.kernelMonitored, Poll.view, same.views, ← Poll.view, ← Polling.kernelMonitored]

theorem SameWatches.flowTriggers (same : SameWatches poll after) (handler : Bool) (node : GamNode) (start : Bool) :
    flowTriggers handler after node start = flowTriggers handler poll node start := by
  rw [Polling.flowTriggers, same.kernelMonitored, parentDiffers_congr same.nodes same.rootBusy, ← Polling.flowTriggers]

theorem SameWatches.flowEnds (same : SameWatches poll after) (handler : Bool) (node : GamNode) :
    flowEnds handler after node = flowEnds handler poll node := by
  rw [Polling.flowEnds, same.flowTriggers, same.pathHash, ← Polling.flowEnds]

/-! ## Who comes and who leaves -/

/-- A node is written back. -/
theorem FlowBalanced.written (balanced : FlowBalanced poll) (found : gamTreeGetAtPath poll node.path = some node)
    (rewrites : Rewrites node next) (kind : kindStays poll node next.isDir = true) :
    FlowBalanced (poll.setNode next) := by
  refine balanced.congr (fun _ => Iff.rfl) fun other member => ?_
  by_cases here : other = next.path
  · have busy : node.path ∈ poll.loaded := by rwa [← rewrites.path, ← here]
    have same : next.isDir = node.isDir := by simpa [kindStays, busy] using kind
    have known : (gamTreeGetAtPath poll next.path).isSome := by rw [rewrites.path, found, Option.isSome_some]
    rw [here, watchedAt_of_found (gamTreeGetAtPath_setNode_self known), rewrites.path, watchedAt_of_found found,
      GamNode.watched, same, rewrites.path, rewrites.parent, ← GamNode.watched]
  · exact watchedAt_setNode_other poll here

theorem FlowBalanced.places (balanced : FlowBalanced poll) (kinds : kindAt after = kindAt poll)
    (loaded : after.loaded = poll.loaded) (suspends : ∀ dir, suspended after dir = suspended poll dir) :
    FlowBalanced after := by
  rw [FlowBalanced, loaded]
  refine Balanced.congr balanced (fun dir => ?_) fun path _ => watchedAt_of_kindAt (congrFun kinds path)
  rw [suspends]

/-- The node at a path comes to its directory. -/
theorem FlowBalanced.enter (balanced : FlowBalanced poll) (kinds : kindAt after = kindAt poll)
    (loaded : after.loaded = path :: poll.loaded) (at_place : watchedAt poll path = some dir)
    (burns : suspended after dir = true)
    (elsewhere : ∀ there, there ≠ dir → suspended after there = suspended poll there) : FlowBalanced after := by
  have places : watchedAt after = watchedAt poll := funext fun path => watchedAt_of_kindAt (congrFun kinds path)
  rw [FlowBalanced, loaded, places]
  refine Balanced.enter balanced at_place (fun there different => ?_) burns
  rw [elsewhere there different]

section

variable {ends : Bool}
  (burns : ∀ there, suspended after there = (suspended poll there && !(decide (there = dir) && ends)))

include burns

theorem suspended_elsewhere (there : Bytes) (different : there ≠ dir) :
    suspended after there = true ↔ suspended poll there = true := by
  rw [burns, decide_eq_false different, Bool.false_and, Bool.not_false, Bool.and_true]

theorem suspended_here : suspended after dir = true ↔ suspended poll dir = true ∧ ¬ ends = true := by
  rw [burns, decide_eq_true rfl, Bool.true_and, Bool.and_eq_true, Bool.not_eq_true', Bool.not_eq_true]

/-- The node at a path leaves its directory. -/
theorem FlowBalanced.leave (balanced : FlowBalanced poll) (kinds : kindAt after = kindAt poll)
    (loaded : after.loaded = poll.loaded.filter (· ≠ path)) (at_place : watchedAt poll path = some dir)
    (fair : leavesFairly poll path dir ends = true) : FlowBalanced after := by
  have places : watchedAt after = watchedAt poll := funext fun path => watchedAt_of_kindAt (congrFun kinds path)
  rw [FlowBalanced, loaded, places]
  refine Balanced.leave balanced at_place (suspended_elsewhere burns) (suspended_here burns) ?_ ?_
  · intro others
    rw [leavesFairly, if_pos (busyBeside_iff.mpr others)] at fair
    simpa using fair
  · intro member nobody
    rw [leavesFairly, if_neg (fun others => nobody (busyBeside_iff.mp others))] at fair
    simpa [member] using fair

/-- Nobody leaves the directory. -/
theorem FlowBalanced.touch (balanced : FlowBalanced poll) (kinds : kindAt after = kindAt poll)
    (loaded : after.loaded = poll.loaded) (fair : (busyIn poll dir && ends) = false) : FlowBalanced after := by
  have places : watchedAt after = watchedAt poll := funext fun path => watchedAt_of_kindAt (congrFun kinds path)
  rw [FlowBalanced, loaded, places]
  refine Balanced.touch balanced (suspended_elsewhere burns) (suspended_here burns) fun busy => ?_
  rw [busyIn_iff.mpr busy, Bool.true_and] at fair
  simp [fair]

end

/-! ## The marks of the parents -/

/-- A node is marked, or missing: then its other flags are gone. -/
def MonFlags.held (flags : MonFlags) : Bool := flags.busy || flags.missing

theorem held_rising : Rising MonFlags.held := by
  rintro flags more ⟨missing, -, busy, -⟩ held
  simp only [MonFlags.held, Bool.or_eq_true] at held ⊢
  exact held.imp busy missing

/-- The parent of a busy file is marked, unless it is missing. -/
def parentHeld (poll : Poll) : Option Bytes → Bool
  | none => poll.rootBusy
  | some path => markedAt MonFlags.held poll path

theorem parentHeld_rises (rise : MarksRise poll after) (root : poll.rootBusy = true → after.rootBusy = true)
    {parent : Option Bytes} (held : parentHeld poll parent = true) : parentHeld after parent = true := by
  cases parent with
  | none => exact root held
  | some path => exact held_rising.markedAt rise held

theorem parentHeld_congr (nodes : after.nodes = poll.nodes) (rootBusy : after.rootBusy = poll.rootBusy)
    (parent : Option Bytes) : parentHeld after parent = parentHeld poll parent := by
  cases parent with
  | none => exact rootBusy
  | some path => rw [parentHeld, markedAt, gamTreeGetAtPath, nodes, ← gamTreeGetAtPath, ← markedAt, parentHeld]

theorem parentHeld_setNode_other (poll : Poll) {parent : Option Bytes} (elsewhere : parent ≠ some node.path) :
    parentHeld (poll.setNode node) parent = parentHeld poll parent := by
  cases parent with
  | none => rfl
  | some path =>
    have apart : path ≠ node.path := fun own => elsewhere (congrArg some own)
    rw [parentHeld, markedAt, gamTreeGetAtPath_setNode_other poll apart, ← markedAt, parentHeld]

theorem parentHeld_of_differs {parent : Option Bytes} (marked : parentDiffers poll parent false = true) :
    parentHeld poll parent = true := by
  cases parent with
  | none => exact eq_true_of_ne_false (of_decide_eq_true marked)
  | some path =>
    rw [parentDiffers, Option.any_eq_true] at marked
    obtain ⟨node, found, busy⟩ := marked
    refine markedAt_iff.mpr ⟨node, found, ?_⟩
    simp [MonFlags.held, eq_true_of_ne_false (of_decide_eq_true busy)]

theorem parentDiffers_of_held {parent : Option Bytes} (held : parentHeld poll parent = true)
    (there : parentMissing poll parent = false) : parentDiffers poll parent false = true := by
  cases parent with
  | none => exact decide_eq_true (ne_false_of_eq_true held)
  | some path =>
    obtain ⟨node, found, flags⟩ := markedAt_iff.mp held
    rw [parentMissing, markedAt_found found] at there
    simp only [MonFlags.held, there, Bool.or_false] at flags
    simp [parentDiffers, found, flags]

theorem parentDiffers_setNode {parent : Option Bytes} (elsewhere : parent ≠ some next.path) (start : Bool) :
    parentDiffers (poll.setNode next) parent start = parentDiffers poll parent start := by
  cases parent with
  | none => rfl
  | some path =>
    have different : path ≠ next.path := fun same => elsewhere (congrArg some same)
    rw [parentDiffers, gamTreeGetAtPath_setNode_other poll different, ← parentDiffers]

theorem busyBelow_iff : busyBelow poll path = true ↔
    ∃ other ∈ poll.loaded, ∃ node, gamTreeGetAtPath poll other = some node ∧ node.isDir = false ∧
      node.parent = some path := by
  simp [busyBelow, Option.any_eq_true]

/-- The watch of a file is that of its parent. -/
theorem watchedAt_of_file (found : gamTreeGetAtPath poll path = some node) (file : node.isDir = false) :
    watchedAt poll path = some (parentDir node.parent) := by
  obtain rfl := gamTreeGetAtPath_path found
  rw [watchedAt_of_found found, GamNode.watched, file, if_neg Bool.false_ne_true]

/-- What makes the requests of busy nodes get to their directories. -/
structure Attended (handler : Bool) (poll : Poll) : Prop where
  once : SuspendedOnce poll
  proper : ∀ path node, gamTreeGetAtPath poll path = some node → node.parent ≠ some path
  watching : ∀ path ∈ poll.loaded, ∀ node, gamTreeGetAtPath poll path = some node →
    triggers handler node = true ∧ (node.isDir = false → parentHeld poll node.parent = true)

/-- The nodes stay what they are. -/
theorem Attended.of_kinds (attended : Attended handler poll) (once : SuspendedOnce after)
    (kinds : kindAt after = kindAt poll)
    (held : ∀ path ∈ after.loaded, ∀ node, gamTreeGetAtPath poll path = some node →
      triggers handler node = true ∧ (node.isDir = false → parentHeld after node.parent = true)) :
    Attended handler after := by
  have source {path : Bytes} {next : GamNode} (found : gamTreeGetAtPath after path = some next) :
      ∃ node, gamTreeGetAtPath poll path = some node ∧ node.kind = next.kind := by
    have same := congrFun kinds path
    rw [kindAt, found, Option.map_some, kindAt] at same
    exact Option.map_eq_some_iff.mp same.symm
  refine ⟨once, fun path next found => ?_, fun path busy next found => ?_⟩
  · obtain ⟨node, before, same⟩ := source found
    obtain ⟨-, same⟩ := Prod.mk.inj same
    obtain ⟨-, parent⟩ := Prod.mk.inj same
    exact parent ▸ attended.proper path node before
  · obtain ⟨node, before, same⟩ := source found
    obtain ⟨isDir, same⟩ := Prod.mk.inj same
    obtain ⟨monType, parent⟩ := Prod.mk.inj same
    have asks := held path busy node before
    rw [triggers, monType, ← triggers, isDir, parent] at asks
    exact asks

/-- No mark is taken away. -/
theorem Attended.rises (attended : Attended handler poll) (once : SuspendedOnce after)
    (kinds : kindAt after = kindAt poll) (loaded : after.loaded ⊆ poll.loaded) (rise : MarksRise poll after)
    (root : poll.rootBusy = true → after.rootBusy = true) : Attended handler after := by
  refine attended.of_kinds once kinds fun path busy node found => ?_
  obtain ⟨gets, held⟩ := attended.watching path (loaded busy) node found
  exact ⟨gets, fun file => parentHeld_rises rise root (held file)⟩

/-- One node is written, and keeps its mark if a file below it is busy. -/
theorem Attended.written (attended : Attended handler poll) (found : gamTreeGetAtPath poll node.path = some node)
    (lookup : ∀ path, gamTreeGetAtPath after path = gamTreeGetAtPath (poll.setNode next) path)
    (rootBusy : after.rootBusy = poll.rootBusy) (loaded : after.loaded ⊆ poll.loaded) (once : SuspendedOnce after)
    (path : next.path = node.path) (parent : next.parent = node.parent) (monType : next.monType = node.monType)
    (isDir : node.path ∈ after.loaded → next.isDir = node.isDir)
    (flags : node.pflags.held = true → next.pflags.held = true ∨ busyBelow poll node.path = false) :
    Attended handler after := by
  have here : gamTreeGetAtPath after node.path = some next := by
    rw [lookup, ← path, gamTreeGetAtPath_setNode_self (by rw [path, found, Option.isSome_some])]
  have there {other : Bytes} (different : other ≠ node.path) :
      gamTreeGetAtPath after other = gamTreeGetAtPath poll other := by
    rw [lookup, gamTreeGetAtPath_setNode_other poll (path ▸ different)]
  have held {other : Bytes} (busy : other ∈ poll.loaded) {old : GamNode}
      (before : gamTreeGetAtPath poll other = some old)
      (file : old.isDir = false) (held : parentHeld poll old.parent = true) : parentHeld after old.parent = true := by
    cases above : old.parent with
    | none => rwa [above, parentHeld, ← rootBusy, ← parentHeld] at held
    | some dir =>
      rw [above] at held
      -- the mark of a parent can only have gone from the node that is written
      by_cases own : dir = node.path
      · subst own
        rw [parentHeld, markedAt_found found] at held
        rw [parentHeld, markedAt_found here]
        refine (flags held).resolve_right fun nobody => ?_
        rw [busyBelow_iff.mpr ⟨other, busy, old, before, file, above⟩] at nobody
        contradiction
      · rwa [parentHeld, markedAt, there own]
  refine ⟨once, fun other last isLast => ?_, fun other busy last isLast => ?_⟩
  · by_cases own : other = node.path
    · subst own
      cases here.symm.trans isLast
      exact parent ▸ attended.proper node.path node found
    · exact attended.proper other last (there own ▸ isLast)
  -- a busy node keeps its kind, so it is still watched
  · by_cases own : other = node.path
    · subst own
      cases here.symm.trans isLast
      obtain ⟨gets, wasHeld⟩ := attended.watching node.path (loaded busy) node found
      refine ⟨by rw [triggers, monType, ← triggers, gets], fun file => ?_⟩
      rw [isDir busy] at file
      exact parent ▸ held (loaded busy) found file (wasHeld file)
    · rw [there own] at isLast
      obtain ⟨gets, wasHeld⟩ := attended.watching other (loaded busy) last isLast
      exact ⟨gets, fun file => held (loaded busy) isLast file (wasHeld file)⟩

/-- The balance, and what keeps it. -/
structure FlowSteady (handler : Bool) (poll : Poll) : Prop where
  balanced : FlowBalanced poll
  attended : Attended handler poll

/-! ## The parts of a poll -/

theorem kindStays_same {isDir : Bool} (kind : isDir = node.isDir) : kindStays poll node isDir = true := by
  simp [kindStays, kind]

theorem kindStays_busy {isDir : Bool} (kind : kindStays poll node isDir = true) (busy : node.path ∈ poll.loaded) :
    isDir = node.isDir := by
  simpa [kindStays, busy] using kind

theorem gamPollGenericAddBusy_loaded (poll : Poll) (path : Bytes) :
    (gamPollGenericAddBusy poll path).loaded = poll.loaded := by
  obtain ⟨busy, written⟩ := gamPollGenericAddBusy_writes poll path
  rw [written]

theorem suspended_delisted (handler : Bool) (poll : Poll) (node : GamNode) (dir : Bytes) :
    suspended (gamPollDnotifyDelistNode handler poll node) dir =
      (suspended poll dir && !(decide (dir = node.watched) && delistEnds handler poll node)) := by
  unfold gamPollDnotifyDelistNode delistEnds
  split
  case isTrue monitored => rw [monitored, Bool.true_and, suspended_deactivated]
  case isFalse unmonitored =>
    rw [eq_false_of_ne_true unmonitored, Bool.false_and, Bool.and_false, Bool.not_false, Bool.and_true]

theorem delistEnds_bare (handler : Bool) (poll : Poll) (bare : node.subs = []) :
    delistEnds handler poll node = false := by
  have held : releases poll node.watched 0 = false := by
    rw [releases, Option.any_eq_false]
    intro data entry
    rw [decide_eq_false_iff_not]
    omega
  rw [delistEnds, givesUp, bare, List.length_nil, held, Bool.and_false, Bool.and_false]

/-- The node, found deleted. -/
def GamNode.gone (node : GamNode) : GamNode := { node with pflags := { MonFlags.none with missing := true } }

/-- A node that has been deleted is not busy any more, and gives its watch up. -/
theorem dnotifyDeletedFile_leaves (handler : Bool) (poll : Poll) (node : GamNode) :
    (dnotifyDeletedFile handler poll node).nodes = (poll.setNode node.gone).nodes ∧
      (dnotifyDeletedFile handler poll node).loaded = poll.loaded.filter (· ≠ node.path) ∧
      (dnotifyDeletedFile handler poll node).rootBusy = poll.rootBusy ∧
      (SuspendedOnce poll → SuspendedOnce (dnotifyDeletedFile handler poll node)) ∧
      ∀ dir, suspended (dnotifyDeletedFile handler poll node) dir =
        (suspended poll dir && !(decide (dir = node.watched) && delistEnds handler poll node)) := by
  have unlisted : dnotifyDeletedFile handler poll node =
      (let unlisted := gamPollGenericRemoveBusy (leaveLoaded (poll.setNode node.gone) node.path) node.path
      if node.subs ≠ [] then
        gamPollGenericAddMissing (gamPollDnotifyDelistNode handler unlisted node.gone) node.path
      else unlisted) := rfl
  rw [unlisted]
  extract_lets left
  split
  case isTrue =>
    -- its subscriptions give their references up, and only the watches change
    have only := watchesOnly_delist handler left node.gone
    obtain ⟨missing, written⟩ :=
      gamPollGenericAddMissing_writes (gamPollDnotifyDelistNode handler left node.gone) node.path
    rw [written]
    refine ⟨only.nodes, only.loaded, only.rootBusy, fun once => ?_, suspended_delisted handler left node.gone⟩
    have before : SuspendedOnce left := once
    have after : SuspendedOnce (gamPollDnotifyDelistNode handler left node.gone) := by
      unfold gamPollDnotifyDelistNode
      split
      · exact before.deactivated handler node.gone node.gone.subs
      · exact before
    exact after
  case isFalse bare =>
    refine ⟨rfl, rfl, rfl, id, fun dir => ?_⟩
    rw [delistEnds_bare handler poll (not_not.mp bare), Bool.and_false, Bool.not_false, Bool.and_true]
    rfl

theorem FlowBalanced.deletedFile (balanced : FlowBalanced poll) (found : gamTreeGetAtPath poll node.path = some node)
    (fair : leavesFairly poll node.path node.watched (delistEnds handler poll node) = true) :
    FlowBalanced (dnotifyDeletedFile handler poll node) ∧
      gamTreeGetAtPath (dnotifyDeletedFile handler poll node) node.gone.path = some node.gone := by
  obtain ⟨nodes, loaded, _, _, burns⟩ := dnotifyDeletedFile_leaves handler poll node
  have kinds : kindAt (dnotifyDeletedFile handler poll node) = kindAt poll :=
    (kindAt_congr nodes).trans (kindAt_written found rfl rfl)
  refine ⟨balanced.leave burns kinds loaded (watchedAt_of_found found) fair, ?_⟩
  have known : (gamTreeGetAtPath poll node.gone.path).isSome := Option.isSome_of_eq_some found
  rw [gamTreeGetAtPath, nodes, ← gamTreeGetAtPath, gamTreeGetAtPath_setNode_self known]

/-- The node is written back where it was, and its mark with it. -/
theorem FlowSteady.written (steady : FlowSteady handler poll) (found : gamTreeGetAtPath poll node.path = some node)
    (rewrites : Rewrites node next) (monType : next.monType = node.monType)
    (kind : kindStays poll node next.isDir = true)
    (flags : node.pflags.held = true → next.pflags.held = true ∨ busyBelow poll node.path = false) :
    FlowSteady handler (poll.setNode next) where
  balanced := steady.balanced.written found rewrites kind
  attended := steady.attended.written found (fun _ => rfl) rfl (List.Subset.refl _) steady.attended.once rewrites.path
    rewrites.parent monType (kindStays_busy kind) flags

/-- The file system is asked. -/
theorem FlowSteady.statFile (steady : FlowSteady handler poll) (found : gamTreeGetAtPath poll node.path = some node)
    (safe : flowStatSafe handler poll node = true) :
    FlowSteady handler ((dnotifyStatFile handler poll node).1.setNode (dnotifyStatFile handler poll node).2.1) := by
  have called : FlowSteady handler poll.called :=
    ⟨steady.balanced, steady.attended.rises steady.attended.once rfl (List.Subset.refl _) (.of_nodes rfl) id⟩
  have statted := dnotifyStatFile_cases handler poll node
  generalize dnotifyStatFile handler poll node = outcome at statted ⊢
  unfold flowStatSafe at safe
  cases statted with
  | gone there answer =>
    simp only [answer, there, Bool.false_eq_true, not_false_eq_true, and_self, if_true] at safe
    obtain ⟨nodes, loaded, rootBusy, once, _⟩ := dnotifyDeletedFile_leaves handler poll.called node
    obtain ⟨left, marked⟩ := called.balanced.deletedFile found safe
    refine ⟨left.written marked ⟨rfl, rfl, rfl⟩ (kindStays_same rfl), ?_⟩
    refine @Attended.written _ _ _ _ { node.gone with sbuf := .zero } called.attended found (fun path => ?_) rootBusy ?_
      (once called.attended.once) rfl rfl rfl (fun _ => rfl) fun _ => .inl rfl
    · rw [gamTreeGetAtPath_setNode, gamTreeGetAtPath, nodes, ← gamTreeGetAtPath, gamTreeGetAtPath_setNode,
        gamTreeGetAtPath_setNode, Option.map_map]
      congr 1
      funext other
      simp only [Function.comp_apply]
      split
      case isTrue => exact if_pos rfl
      case isFalse elsewhere => exact if_neg elsewhere
    · exact (congrArg (· ⊆ poll.loaded) loaded).mpr (List.filter_subset_self _)
  -- a node that comes back loses its flags, and nobody below it may be waiting for them
  | back sbuf missing answer =>
    simp only [answer, missing, Bool.not_true, Bool.false_or, Bool.and_eq_true, Bool.not_eq_true'] at safe
    exact called.written found ⟨rfl, rfl, rfl⟩ rfl safe.1 fun _ => .inr safe.2
  | stays sbuf event there quiet =>
    refine called.written found ⟨rfl, rfl, rfl⟩ rfl ?_ .inl
    unfold statIsDir
    cases answer : poll.view.stat node.path with
    | found stat =>
      simp only [answer, Bool.and_eq_true] at safe
      exact safe.1
    | noent | failed => exact kindStays_same rfl

/-- The node with its mark for load control. -/
def GamNode.marked (node : GamNode) (busy : Bool) : GamNode :=
  { node with pflags := { node.pflags with busy := busy }, checks := 0 }

/-- A busy file brings its parent onto the list of busy nodes. -/
def listParent (poll : Poll) (node : GamNode) : Poll :=
  match node.parent with
  | some parent =>
    if ¬ node.isDir ∧ subsAt poll parent ≠ [] then gamPollGenericAddBusy poll parent else poll
  | none => poll

theorem switchToPolling_eq (handler : Bool) (poll : Poll) (node : GamNode) :
    switchToPolling handler poll node =
      if node.checks ≥ 4 ∧ ¬ node.pflags.busy ∧ node.subs ≠ [] ∧ kernelMonitored poll node.path then
        (listParent
          (flowControl handler (gamPollGenericAddBusy { poll with loaded := node.path :: poll.loaded } node.path)
            (node.marked true) true) node,
          node.marked true)
      else (poll, node) := rfl

theorem switchToKernel_eq (handler : Bool) (poll : Poll) (node : GamNode) (event : Option GaminEventType) :
    switchToKernel handler poll node event =
      if event = none ∧ node.pflags.busy ∧ node.checks > 5 ∧ node.subs ≠ [] ∧ kernelMonitored poll node.path then
        (flowControl handler (gamPollGenericRemoveBusy (leaveLoaded poll node.path) node.path)
            (node.marked false) false,
          node.marked false)
      else (poll, node) := rfl

theorem listParent_same (poll : Poll) (node : GamNode) :
    SameWatches poll (listParent poll node) ∧ (listParent poll node).loaded = poll.loaded := by
  unfold listParent
  cases node.parent with
  | none => exact ⟨.refl poll, rfl⟩
  | some parent =>
    dsimp only
    split
    · exact ⟨(SameWatches.refl poll).addBusy parent, gamPollGenericAddBusy_loaded poll parent⟩
    · exact ⟨.refl poll, rfl⟩

theorem flowTriggers_iff (start : Bool) : flowTriggers handler poll node start = true ↔
    kernelMonitored poll node.path = true ∧ triggers handler node = true ∧
      (node.isDir = false → parentDiffers poll node.parent start = true) := by
  rw [flowTriggers, Bool.and_eq_true, Bool.and_eq_true, Bool.or_eq_true, and_assoc]
  cases node.isDir with
  | true => simp
  | false => simp

/-- A request of a file marks its parent. -/
theorem parentHeld_started (gets : flowTriggers handler poll node true = true) (file : node.isDir = false) :
    parentHeld (flowControl handler poll node true) node.parent = true := by
  obtain ⟨monitored, watched, differs⟩ := (flowTriggers_iff true).mp gets
  obtain ⟨handles, kernel⟩ := of_decide_eq_true watched
  have asks : flowControl handler poll node true = triggerParent poll node.parent true := by
    simp [flowControl, triggerHandler, gamPollGenericTriggerHandler, monitored, handles, kernel, file]
  rw [asks]
  have unmarked := differs file
  unfold triggerParent
  cases above : node.parent with
  | none =>
    rw [above] at unmarked
    dsimp only
    rw [if_neg (of_decide_eq_true unmarked)]
    rfl
  | some path =>
    rw [above, parentDiffers, Option.any_eq_true] at unmarked
    obtain ⟨parent, found, idle⟩ := unmarked
    obtain rfl := gamTreeGetAtPath_path found
    dsimp only
    rw [found]
    dsimp only
    rw [if_neg (of_decide_eq_true idle)]
    have there : (gamTreeGetAtPath (switchFlow poll parent.path parent.path true) parent.path).isSome := by
      rw [gamTreeGetAtPath, (switchFlow_places poll parent.path parent.path true).1, ← gamTreeGetAtPath, found]
      rfl
    exact markedAt_written there (fun _ => rfl) fun elsewhere => absurd rfl elsewhere

theorem MarksRise.setNode (rise : MarksRise poll after) (path : next.path = node.path)
    (more : node.pflags.Within next.pflags) : MarksRise (poll.setNode node) (after.setNode next) := by
  intro other old there
  rw [gamTreeGetAtPath_setNode] at there
  obtain ⟨before, found, same⟩ := Option.map_eq_some_iff.mp there
  obtain ⟨last, foundLast, within⟩ := rise other before found
  rw [gamTreeGetAtPath_setNode, foundLast, Option.map_some, path]
  refine ⟨_, rfl, ?_⟩
  rw [gamTreeGetAtPath_path found] at same
  rw [gamTreeGetAtPath_path foundLast]
  by_cases here : other = node.path
  · rw [if_pos here] at same ⊢
    exact same ▸ more
  · rw [if_neg here] at same ⊢
    exact same ▸ within

section

variable (steady : FlowSteady handler (poll.setNode node)) (known : (gamTreeGetAtPath poll node.path).isSome)

include steady known

/-- The mark that a request goes by is not that of the node itself. -/
theorem FlowSteady.flowTriggers (start : Bool) :
    flowTriggers handler (poll.setNode node) node start = flowTriggers handler poll node start := by
  have proper := steady.attended.proper node.path node (gamTreeGetAtPath_setNode_self known)
  rw [Polling.flowTriggers, parentDiffers_setNode proper, Polling.flowTriggers]
  rfl

/-- If nobody is busy in the directory of a node that is switched to polling, it is told so. -/
theorem FlowSteady.starts
    (checks : node.checks ≥ 4 ∧ ¬ node.pflags.busy ∧ node.subs ≠ [] ∧ kernelMonitored poll node.path)
    (safe : flowStartSafe handler (poll.setNode node) node = true) :
    triggers handler node = true ∧
      ((suspended poll node.watched = true ∧ Polling.flowTriggers handler poll node true = false ∧
          (node.isDir = false → parentHeld (poll.setNode node) node.parent = true)) ∨
        suspended poll node.watched = false ∧ Polling.flowTriggers handler poll node true = true ∧
          (poll.pathHash node.watched).isSome) := by
  have switches : node.checks ≥ 4 ∧ ¬ node.pflags.busy ∧ node.subs ≠ [] ∧
      kernelMonitored (poll.setNode node) node.path :=
    checks
  rw [flowStartSafe, if_pos switches, Bool.and_eq_true] at safe
  refine ⟨safe.1, ?_⟩
  -- a directory is suspended just if somebody is busy in it
  have suspends : suspended poll node.watched = busyIn (poll.setNode node) node.watched := by
    rw [Bool.eq_iff_iff, busyIn_iff]
    exact steady.balanced node.watched
  have asks := safe.2
  split at asks
  case isTrue busy =>
    simp only [Bool.and_eq_true, Bool.not_eq_true'] at asks
    refine .inl ⟨suspends.trans busy, ?_, fun _ => parentHeld_of_differs asks.2⟩
    rw [← steady.flowTriggers known, Bool.eq_false_iff, ne_eq, flowTriggers_iff]
    rintro ⟨-, -, unmarked⟩
    have both := unmarked asks.1
    have marked := asks.2
    cases above : node.parent with
    | none =>
      rw [above] at both marked
      exact absurd ((not_not.mp fun idle => of_decide_eq_true marked (eq_false_of_ne_true idle)))
        (of_decide_eq_true both)
    | some path =>
      simp only [above, parentDiffers, Option.any_eq_true, decide_eq_true_eq] at both marked
      obtain ⟨parent, found, idle⟩ := both
      obtain ⟨other, same, busyParent⟩ := marked
      cases found.symm.trans same
      exact idle (eq_true_of_ne_false busyParent)
  case isFalse idle =>
    rw [Bool.and_eq_true, Bool.or_eq_true] at asks
    refine .inr ⟨suspends.trans (eq_false_of_ne_true idle), ?_, asks.2⟩
    rw [← steady.flowTriggers known, flowTriggers_iff]
    exact ⟨checks.2.2.2, safe.1, fun file => asks.1.resolve_left fun isDir => Bool.noConfusion (file.symm.trans isDir)⟩

/-- The node may be switched to polling. -/
theorem FlowSteady.switchToPolling (safe : flowStartSafe handler (poll.setNode node) node = true) :
    FlowSteady handler ((Polling.switchToPolling handler poll node).1.setNode
      (Polling.switchToPolling handler poll node).2) := by
  obtain ⟨more, place, within⟩ := (switchToPolling_more handler poll node).1
  rw [switchToPolling_eq] at more place within ⊢
  split
  case isFalse => exact steady
  case isTrue switches =>
    rw [if_pos switches] at more place within
    obtain ⟨gets, outcome⟩ := steady.starts known switches safe
    have counted : SameWatches poll { poll with loaded := node.path :: poll.loaded } := ⟨rfl, rfl, rfl, rfl⟩
    have entered := counted.addBusy node.path
    have enters := gamPollGenericAddBusy_loaded { poll with loaded := node.path :: poll.loaded } node.path
    generalize gamPollGenericAddBusy { poll with loaded := node.path :: poll.loaded } node.path = busied
      at entered enters more within ⊢
    have same : Polling.flowTriggers handler busied (node.marked true) true =
        Polling.flowTriggers handler poll node true :=
      entered.flowTriggers handler (node.marked true) true
    have before : SuspendedOnce busied := SuspendedOnce.congr steady.attended.once entered.pathHash
    -- a request that is passed on finds the watch open, so no counter gets above 1
    have once : SuspendedOnce (flowControl handler busied (node.marked true) true) := by
      refine before.started fun asks => ?_
      rw [same] at asks
      rw [suspended_congr entered.pathHash]
      refine (outcome.resolve_left fun busy => ?_).1
      exact Bool.noConfusion (asks.symm.trans busy.2.1)
    have marked : Polling.flowTriggers handler poll node true = true → node.isDir = false →
        parentHeld (flowControl handler busied (node.marked true) true) node.parent = true :=
      fun asks file => parentHeld_started (same.trans asks) file
    obtain ⟨controlled, stays⟩ := flowControl_places handler busied (node.marked true) true
    have starts := suspended_started handler busied (node.marked true)
    generalize flowControl handler busied (node.marked true) true = started
      at controlled stays starts once marked more ⊢
    obtain ⟨listed, listedLoaded⟩ := listParent_same started node
    -- no other watch than that of the node's directory is closed
    have burns (dir : Bytes) : suspended (listParent started node) dir =
        (suspended poll dir ||
          (decide (dir = node.watched) && Polling.flowTriggers handler poll node true &&
            (poll.pathHash dir).isSome)) := by
      rw [suspended_congr listed.pathHash, starts, same, suspended_congr entered.pathHash, entered.pathHash]
      rfl
    have kinds : kindAt ((listParent started node).setNode (node.marked true)) = kindAt (poll.setNode node) := by
      refine kindAt_setNode_congr (Eq.trans ?_ (kindAt_congr entered.nodes)) rfl rfl
      exact (kindAt_congr listed.nodes).trans controlled
    have loaded : ((listParent started node).setNode (node.marked true)).loaded = node.path :: poll.loaded :=
      listedLoaded.trans (stays.trans enters)
    refine ⟨steady.balanced.enter kinds loaded (watchedAt_of_found (gamTreeGetAtPath_setNode_self known)) ?_ ?_, ?_⟩
    · have here := burns node.watched
      rw [decide_eq_true rfl, Bool.true_and] at here
      refine here.trans ?_
      rcases outcome with ⟨suspends, _⟩ | ⟨_, asks, entry⟩
      · rw [suspends, Bool.true_or]
      · rw [asks, entry, Bool.and_self, Bool.or_true]
    · intro there different
      have elsewhere := burns there
      rw [decide_eq_false different, Bool.false_and, Bool.false_and, Bool.or_false] at elsewhere
      exact elsewhere
    · have rise := more.marks.setNode (place : (node.marked true).path = node.path) within
      refine steady.attended.of_kinds (once.congr listed.pathHash) kinds fun other busy old found => ?_
      -- the node itself is the one that has come in
      cases List.mem_cons.mp (loaded ▸ busy) with
      | inr earlier =>
        obtain ⟨asks, held⟩ := steady.attended.watching other earlier old found
        exact ⟨asks, fun file => parentHeld_rises rise more.rootBusy (held file)⟩
      | inl own =>
        rw [own, gamTreeGetAtPath_setNode_self known] at found
        cases found
        refine ⟨gets, fun file => ?_⟩
        rcases outcome with ⟨_, _, held⟩ | ⟨_, asks, _⟩
        · exact parentHeld_rises rise more.rootBusy (held file)
        · have told := marked asks file
          rw [← parentHeld_congr listed.nodes listed.rootBusy] at told
          cases above : node.parent with
          | none =>
            rw [above] at told
            exact told
          | some dir =>
            rw [above] at told
            have there : (gamTreeGetAtPath (listParent started node) (node.marked true).path).isSome := by
              obtain ⟨_, isThere, _⟩ := more.marks node.path _ (Option.some_get known).symm
              exact Option.isSome_of_eq_some isThere
            exact markedAt_written there (fun _ => rfl) fun _ => told

end

/-- The end of flow control takes a mark only off the parent of a file that asks for it. -/
theorem parentHeld_stopped {parent : Option Bytes} (held : parentHeld poll parent = true)
    (spared : flowTriggers handler poll node false = true → node.isDir = false → parent ≠ node.parent) :
    parentHeld (flowControl handler poll node false) parent = true := by
  cases gets : flowTriggers handler poll node false with
  | false =>
    have kept : OnlyMore poll (flowControl handler poll node false) := by
      cases flowControl_stop_cases handler poll node with
      | inl more => exact more
      | inr stopped =>
        obtain ⟨⟨file, watched, differs⟩, -⟩ := stopped
        -- then the node is not left to the kernel at all
        have unmonitored : ¬ kernelMonitored poll node.path = true := fun monitored =>
          Bool.noConfusion (gets.symm.trans ((flowTriggers_iff false).mpr ⟨monitored, watched, fun _ => differs⟩))
        rw [flowControl, if_neg unmonitored]
        exact .refl poll
    exact parentHeld_rises kept.marks kept.rootBusy held
  | true =>
    cases flowControl_stop_cases handler poll node with
    | inl more => exact parentHeld_rises more.marks more.rootBusy held
    | inr stopped =>
      obtain ⟨⟨file, _⟩, left⟩ := stopped
      have different := spared gets file
      cases parent with
      | none => exact (left.rootBusy (Ne.symm different)).trans held
      | some dir =>
        obtain ⟨old, found, flags⟩ := markedAt_iff.mp held
        obtain ⟨new, foundNew, outcome⟩ := left.marks dir old found
        refine markedAt_iff.mpr ⟨new, foundNew, ?_⟩
        cases outcome with
        | inl same => rwa [same]
        | inr isParent => exact absurd isParent.1.symm different

section

variable (steady : FlowSteady handler (poll.setNode node)) (known : (gamTreeGetAtPath poll node.path).isSome)

include steady known

/-- A busy node that is the only one in its directory is the one that the directory waits for. -/
theorem FlowSteady.ends (monitored : kernelMonitored poll node.path = true) (busy : node.path ∈ poll.loaded)
    (there : node.isDir = true ∨ parentMissing (poll.setNode node) node.parent = false) :
    flowEnds handler poll node = true := by
  have found := gamTreeGetAtPath_setNode_self known
  obtain ⟨watched, held⟩ := steady.attended.watching node.path busy node found
  have gets : Polling.flowTriggers handler poll node false = true := by
    rw [← steady.flowTriggers known, flowTriggers_iff]
    refine ⟨monitored, watched, fun file => parentDiffers_of_held (held file) ?_⟩
    exact there.resolve_left fun isDir => Bool.noConfusion (file.symm.trans isDir)
  have waits : suspended (poll.setNode node) node.watched = true :=
    (steady.balanced node.watched).mpr ⟨node.path, busy, watchedAt_of_found found⟩
  have once : SuspendedOnce poll := steady.attended.once
  exact once.ends gets waits

/-- A busy node may be left to the kernel. -/
theorem FlowSteady.switchToKernel {event : Option GaminEventType}
    (safe : flowStopSafe (poll.setNode node) node event = true) :
    FlowSteady handler ((Polling.switchToKernel handler poll node event).1.setNode
      (Polling.switchToKernel handler poll node event).2) := by
  rw [switchToKernel_eq]
  split
  case isFalse => exact steady
  case isTrue switches =>
    have calm : event = none ∧ node.pflags.busy ∧ node.checks > 5 ∧ node.subs ≠ [] ∧
        kernelMonitored (poll.setNode node) node.path := switches
    simp only [flowStopSafe, if_pos calm, Bool.and_eq_true, Bool.not_eq_true', Bool.or_eq_true, decide_eq_true_eq,
      or_assoc] at safe
    obtain ⟨⟨alone, below⟩, there⟩ := safe
    have found := gamTreeGetAtPath_setNode_self known
    have left : SameWatches poll (gamPollGenericRemoveBusy (leaveLoaded poll node.path) node.path) :=
      ⟨rfl, rfl, rfl, rfl⟩
    have leaves : (gamPollGenericRemoveBusy (leaveLoaded poll node.path) node.path).loaded =
      poll.loaded.filter (· ≠ node.path) := rfl
    have before : SuspendedOnce (gamPollGenericRemoveBusy (leaveLoaded poll node.path) node.path) :=
      steady.attended.once
    generalize gamPollGenericRemoveBusy (leaveLoaded poll node.path) node.path = unbusied at left leaves before ⊢
    obtain ⟨controlled, stays⟩ := flowControl_places handler unbusied (node.marked false) false
    have same : flowEnds handler unbusied (node.marked false) = flowEnds handler poll node :=
      left.flowEnds handler (node.marked false)
    have stops := suspended_stopped handler unbusied (node.marked false)
    simp only [same, suspended_congr left.pathHash] at stops
    have burns (dir : Bytes) :
        suspended ((flowControl handler unbusied (node.marked false) false).setNode (node.marked false)) dir =
          (suspended (poll.setNode node) dir && !(decide (dir = node.watched) && flowEnds handler poll node)) :=
      stops dir
    have kinds : kindAt ((flowControl handler unbusied (node.marked false) false).setNode (node.marked false)) =
        kindAt (poll.setNode node) :=
      kindAt_setNode_congr (controlled.trans (kindAt_congr left.nodes)) rfl rfl
    have loaded := stays.trans leaves
    -- nobody else is busy in the directory, so the request has to be the one that opens the watch
    have fair : leavesFairly (poll.setNode node) node.path node.watched (flowEnds handler poll node) = true := by
      rw [leavesFairly, if_neg (Bool.eq_false_iff.mp alone), Bool.or_eq_true, decide_eq_true_eq]
      by_cases busy : node.path ∈ poll.loaded
      · exact .inr (steady.ends known switches.2.2.2.2 busy (there.resolve_left fun idle => idle busy))
      · exact .inl busy
    refine ⟨steady.balanced.leave burns kinds loaded (watchedAt_of_found found) fair, ?_⟩
    refine steady.attended.of_kinds (before.stopped handler _) kinds fun other busy old isOld => ?_
    obtain ⟨earlier, different⟩ := List.mem_filter.mp (loaded ▸ busy)
    obtain ⟨gets, wasHeld⟩ := steady.attended.watching other earlier old isOld
    refine ⟨gets, fun file => ?_⟩
    have held := wasHeld file
    -- a busy file loses its parent's mark neither to a node above it nor to one beside it
    have elsewhere : old.parent ≠ some node.path := fun isBelow =>
      Bool.eq_false_iff.mp below (busyBelow_iff.mpr ⟨other, earlier, old, isOld, file, isBelow⟩)
    have spared : Polling.flowTriggers handler unbusied (node.marked false) false = true →
        (node.marked false).isDir = false → old.parent ≠ (node.marked false).parent := by
      intro _ nodeFile sibling
      refine Bool.eq_false_iff.mp alone (busyBeside_iff.mpr ⟨other, earlier, of_decide_eq_true different, ?_⟩)
      rw [watchedAt_of_file isOld file, sibling]
      have isFile : node.isDir = false := nodeFile
      rw [GamNode.watched, isFile, if_neg Bool.false_ne_true]
      rfl
    rw [parentHeld_setNode_other poll elsewhere] at held
    have heldBefore : parentHeld unbusied old.parent = true :=
      (parentHeld_congr left.nodes left.rootBusy old.parent).trans held
    have written : old.parent ≠ some (node.marked false).path := elsewhere
    exact (parentHeld_setNode_other _ written).trans (parentHeld_stopped heldBefore spared)

end

/-! ## A poll -/

theorem countChecks_kind (poll : Poll) (node : GamNode) (event : Option GaminEventType) :
    (countChecks poll node event).kind = node.kind ∧ (countChecks poll node event).pflags = node.pflags := by
  simp only [countChecks]
  split
  · split <;> exact ⟨rfl, rfl⟩
  · split <;> exact ⟨rfl, rfl⟩

theorem FlowSteady.pollFile (steady : FlowSteady handler poll) (found : gamTreeGetAtPath poll node.path = some node)
    (safe : flowPollSafe handler poll node = true) :
    FlowSteady handler (gamPollDnotifyPollFile handler poll node).1 := by
  have called : FlowSteady handler poll.called :=
    ⟨steady.balanced, steady.attended.rises steady.attended.once rfl (List.Subset.refl _) (.of_nodes rfl) id⟩
  unfold flowPollSafe at safe
  simp only [gamPollDnotifyPollFile]
  split
  case isTrue => exact steady
  case isFalse late =>
    rw [if_neg late] at safe
    split
    case isTrue new =>
      rw [if_pos new] at safe
      simp only [dnotifyPollNewFile]
      cases answer : poll.view.stat node.path with
      | found sbuf =>
        simp only [answer] at safe
        exact called.written found ⟨rfl, rfl, rfl⟩ rfl safe .inl
      | noent | failed =>
        refine called.written found ⟨rfl, rfl, rfl⟩ rfl (kindStays_same rfl) fun _ => .inl ?_
        exact Bool.or_true _
    case isFalse old =>
      rw [if_neg old, flowKnownSafe, Bool.and_eq_true] at safe
      obtain ⟨asks, switches⟩ := safe
      -- a known node: its `stat` is looked at, the checks are counted, then it is switched
      have statted := steady.statFile found asks
      obtain ⟨same, rewrites⟩ := sameSubs_frame.statFile handler found
      simp only [dnotifyPollKnownFile]
      generalize dnotifyStatFile handler poll node = outcome at statted same rewrites switches ⊢
      obtain ⟨next, nextNode, event⟩ := outcome
      dsimp only at statted same rewrites switches ⊢
      split
      case isTrue => exact statted
      case isFalse kernel =>
        rw [eq_false_of_ne_true kernel, Bool.false_or, Bool.and_eq_true] at switches
        obtain ⟨starts, stops⟩ := switches
        have counted := countChecks_rewrites next nextNode event
        obtain ⟨kind, flags⟩ := countChecks_kind next nextNode event
        have known : (gamTreeGetAtPath next (countChecks next nextNode event).path).isSome := by
          rw [counted.path, rewrites.path]
          exact same.isSome (Option.isSome_of_eq_some found)
        have steadyCounted : FlowSteady handler (next.setNode (countChecks next nextNode event)) := by
          have kinds : kindAt (next.setNode (countChecks next nextNode event)) = kindAt (next.setNode nextNode) :=
            kindAt_setNode_congr rfl counted.path kind
          refine ⟨statted.balanced.places kinds rfl fun _ => rfl, ?_⟩
          have rise : MarksRise (next.setNode nextNode) (next.setNode (countChecks next nextNode event)) :=
            (MarksRise.refl next).setNode counted.path (flags ▸ .refl _)
          exact statted.attended.rises statted.attended.once kinds (List.Subset.refl _) rise id
        have polling := steadyCounted.switchToPolling known starts
        obtain ⟨samePolling, marked⟩ :=
          sameSubs_frame.switchToPolling (SameSubs.refl next) handler known
        generalize Polling.switchToPolling handler next (countChecks next nextNode event) = outcome
          at polling samePolling marked stops ⊢
        obtain ⟨polled, polledNode⟩ := outcome
        have stillKnown : (gamTreeGetAtPath polled polledNode.path).isSome := by
          rw [marked.path]
          exact samePolling.isSome known
        exact polling.switchToKernel stillKnown stops

/-! ## Who is busy after a poll -/

theorem dnotifyStatFile_loaded (handler : Bool) (poll : Poll) (node : GamNode) :
    (dnotifyStatFile handler poll node).1.loaded ⊆ poll.loaded := by
  simp only [dnotifyStatFile]
  split
  · split
    · exact List.Subset.refl _
    · split <;> exact List.Subset.refl _
  · split
    · rw [(dnotifyDeletedFile_leaves handler poll.called node).2.1]
      exact List.filter_subset_self _
    · exact List.Subset.refl _

theorem switchToPolling_loaded (handler : Bool) (poll : Poll) (node : GamNode) :
    ∀ path ∈ (switchToPolling handler poll node).1.loaded,
      path ∈ poll.loaded ∨ path = node.path ∧ node.subs ≠ [] := by
  rw [switchToPolling_eq]
  intro path member
  split at member
  case isTrue switches =>
    rw [(listParent_same _ node).2, (flowControl_places handler _ _ true).2, gamPollGenericAddBusy_loaded] at member
    cases List.mem_cons.mp member with
    | inl here => exact .inr ⟨here, switches.2.2.1⟩
    | inr earlier => exact .inl earlier
  case isFalse => exact .inl member

theorem switchToKernel_loaded (handler : Bool) (poll : Poll) (node : GamNode) (event : Option GaminEventType) :
    (switchToKernel handler poll node event).1.loaded ⊆ poll.loaded := by
  rw [switchToKernel_eq]
  split
  · rw [(flowControl_places handler _ _ false).2]
    exact List.filter_subset_self _
  · exact List.Subset.refl _

/-- Only the node that is polled can have become busy, and only if somebody has subscribed to it. -/
theorem gamPollDnotifyPollFile_loaded (handler : Bool) (found : gamTreeGetAtPath poll node.path = some node) :
    ∀ path ∈ (gamPollDnotifyPollFile handler poll node).1.loaded,
      path ∈ poll.loaded ∨ path = node.path ∧ node.subs ≠ [] := by
  intro path member
  simp only [gamPollDnotifyPollFile] at member
  split at member
  · exact .inl member
  · split at member
    · simp only [dnotifyPollNewFile] at member
      split at member <;> exact .inl member
    · simp only [dnotifyPollKnownFile] at member
      have statted := dnotifyStatFile_loaded handler poll node
      have rewrites := (sameSubs_frame.statFile handler found).2
      generalize dnotifyStatFile handler poll node = outcome at statted rewrites member
      obtain ⟨next, nextNode, event⟩ := outcome
      dsimp only at statted rewrites member
      split at member
      · exact .inl (statted member)
      · have counted := rewrites.trans (countChecks_rewrites next nextNode event)
        have earlier := switchToKernel_loaded handler _ _ event member
        cases switchToPolling_loaded handler next (countChecks next nextNode event) path earlier with
        | inl before => exact .inl (statted before)
        | inr busy => exact .inr ⟨busy.1.trans counted.path, counted.subs ▸ busy.2⟩

end

end Gamin.Polling
