import Gamin.Polling.Dnotify

/-! # Nodes that are written back

Polling rewrites attributes of nodes: their flags, counters and cached `stat` data.  Their paths, parents
and subscriptions it leaves alone.  A relation between states that allows for such writes holds between
the states before and after a poll, whatever the poll finds, in both polling backends.
-/

namespace Gamin.Polling

open Gamin Gamin.Server Gamin.Inotify

/-! ## Looking nodes up -/

theorem gamTreeGetAtPath_path {poll : Poll} {path : Bytes} {node : GamNode}
    (found : gamTreeGetAtPath poll path = some node) : node.path = path := by
  simpa using List.find?_some found

theorem gamTreeGetAtPath_mem {poll : Poll} {path : Bytes} {node : GamNode}
    (found : gamTreeGetAtPath poll path = some node) : node ∈ poll.nodes :=
  List.mem_of_find?_eq_some found

theorem hasChildren_false {poll : Poll} {path : Bytes} :
    gamTreeHasChildren poll path = false ↔ ∀ node ∈ poll.nodes, node.parent ≠ some path := by
  simp [gamTreeHasChildren]

theorem gamTreeGetAtPath_setNode (poll : Poll) (node : GamNode) (path : Bytes) :
    gamTreeGetAtPath (poll.setNode node) path =
      (gamTreeGetAtPath poll path).map fun other => if other.path = node.path then node else other := by
  simp only [gamTreeGetAtPath, Poll.setNode, List.find?_map]
  congr 2
  funext other
  simp only [Function.comp_apply]
  split
  case isTrue same => rw [same]
  case isFalse => rfl

theorem gamTreeGetAtPath_setNode_other (poll : Poll) {node : GamNode} {path : Bytes} (different : path ≠ node.path) :
    gamTreeGetAtPath (poll.setNode node) path = gamTreeGetAtPath poll path := by
  rw [gamTreeGetAtPath_setNode]
  cases other : gamTreeGetAtPath poll path with
  | none => rfl
  | some there =>
    have elsewhere : there.path ≠ node.path := by
      rw [gamTreeGetAtPath_path other]
      exact different
    rw [Option.map_some, if_neg elsewhere]

theorem subsAt_setNode_self {poll : Poll} {node : GamNode} (known : (gamTreeGetAtPath poll node.path).isSome) :
    subsAt (poll.setNode node) node.path = node.subs := by
  obtain ⟨old, found⟩ := Option.isSome_iff_exists.mp known
  rw [subsAt, gamTreeGetAtPath_setNode, found, Option.map_some, if_pos (gamTreeGetAtPath_path found), Option.map_some,
    Option.getD_some]

theorem subsAt_setNode_other (poll : Poll) {node : GamNode} {path : Bytes} (different : path ≠ node.path) :
    subsAt (poll.setNode node) path = subsAt poll path := by
  rw [subsAt, gamTreeGetAtPath_setNode_other poll different, subsAt]

/-! ## The resource lists -/

theorem gamPollGenericAddMissing_writes (poll : Poll) (path : Bytes) :
    ∃ missing, gamPollGenericAddMissing poll path = { poll with missing := missing } := by
  unfold gamPollGenericAddMissing
  split
  · exact ⟨_, rfl⟩
  · exact ⟨_, rfl⟩

theorem gamPollGenericAddBusy_writes (poll : Poll) (path : Bytes) :
    ∃ busy, gamPollGenericAddBusy poll path = { poll with busy := busy } := by
  unfold gamPollGenericAddBusy
  split
  · exact ⟨_, rfl⟩
  · exact ⟨_, rfl⟩

theorem gamTreeGetAtPath_addMissing (poll : Poll) (listed path : Bytes) :
    gamTreeGetAtPath (gamPollGenericAddMissing poll listed) path = gamTreeGetAtPath poll path := by
  obtain ⟨missing, written⟩ := gamPollGenericAddMissing_writes poll listed
  rw [written]
  rfl

/-! ## Frames -/

/-- A node is written back to its place, with the subscriptions it had. -/
structure Rewrites (node next : GamNode) : Prop where
  path : next.path = node.path
  parent : next.parent = node.parent
  subs : next.subs = node.subs

theorem Rewrites.refl (node : GamNode) : Rewrites node node := ⟨rfl, rfl, rfl⟩

theorem Rewrites.trans {node next last : GamNode} (first : Rewrites node next) (second : Rewrites next last) :
    Rewrites node last :=
  ⟨second.path.trans first.path, second.parent.trans first.parent, second.subs.trans first.subs⟩

/-- What a poll does besides writing a node back: to the watches, to the lists of missing and of busy nodes,
and to what load control remembers. -/
inductive Write (poll : Poll) : Poll → Prop where
  | watches {after : Poll} (only : WatchesOnly poll after) : Write poll after
  | missed {path : Bytes} (known : (gamTreeGetAtPath poll path).isSome) (new : path ∉ poll.missing) :
    Write poll { poll with missing := path :: poll.missing }
  | found (path : Bytes) : Write poll (gamPollGenericRemoveMissing poll path)
  | busied {path : Bytes} (known : path = [] ∨ (gamTreeGetAtPath poll path).isSome) (new : path ∉ poll.busy) :
    Write poll { poll with busy := path :: poll.busy }
  | settled (path : Bytes) : Write poll (gamPollGenericRemoveBusy poll path)
  | loaded (paths : List Bytes) : Write poll { poll with loaded := paths }
  | rootBusy (busy : Bool) : Write poll { poll with rootBusy := busy }

theorem Write.nodes {poll after : Poll} (write : Write poll after) : after.nodes = poll.nodes := by
  cases write with
  | watches only => exact only.nodes
  | missed | found | busied | settled | loaded | rootBusy => rfl

theorem Write.sent {poll after : Poll} (write : Write poll after) : after.sent = poll.sent := by
  cases write with
  | watches only => exact only.sent
  | missed | found | busied | settled | loaded | rootBusy => rfl

theorem Write.all {poll after : Poll} (write : Write poll after) : after.all = poll.all := by
  cases write with
  | watches only => exact only.all
  | missed | found | busied | settled | loaded | rootBusy => rfl

theorem Write.advanced {poll after : Poll} (write : Write poll after) : Advanced poll after := by
  cases write with
  | watches only => exact only.views
  | missed | found | busied | settled | loaded | rootBusy => exact .refl _

/-- A relation between an earlier and a later state that lets a poll write what it writes. -/
structure PollFrame (Same : Poll → Poll → Prop) : Prop where
  refl : ∀ poll, Same poll poll
  trans : ∀ {before poll after}, Same before poll → Same poll after → Same before after
  known : ∀ {before poll path}, Same before poll → (gamTreeGetAtPath before path).isSome →
    (gamTreeGetAtPath poll path).isSome
  write : ∀ {poll after}, Write poll after → Same poll after
  setNode : ∀ {before poll node next}, Same before poll → gamTreeGetAtPath before node.path = some node →
    Rewrites node next → Same before (poll.setNode next)

/-- Such a relation that depends on the nodes alone. -/
structure NodeFrame (Same : Poll → Poll → Prop) : Prop extends PollFrame Same where
  of_nodes : ∀ {before poll after}, Same before poll → after.nodes = poll.nodes → Same before after

/-! ## Requests -/

theorem watchesOnly_triggerHandler (handler : Bool) (poll : Poll) {mode : PollHandlerMode} (node : GamNode)
    (about : mode = .activate ∨ mode = .deactivate) :
    WatchesOnly poll (triggerHandler handler poll mode node) := by
  unfold triggerHandler
  split
  · exact watchesOnly_trigger poll node about
  · exact .refl poll

/-- A request for each subscription. -/
theorem watchesOnly_requests (handler : Bool) (poll : Poll) {mode : PollHandlerMode} (node : GamNode)
    (subs : List GamSubscription) (about : mode = .activate ∨ mode = .deactivate) :
    WatchesOnly poll (subs.foldl (fun poll _ => triggerHandler handler poll mode node) poll) := by
  induction subs generalizing poll with
  | nil => exact .refl poll
  | cons sub subs inductionHypothesis =>
    exact (watchesOnly_triggerHandler handler poll node about).trans (inductionHypothesis _)

theorem watchesOnly_delist (handler : Bool) (poll : Poll) (node : GamNode) :
    WatchesOnly poll (gamPollDnotifyDelistNode handler poll node) := by
  unfold gamPollDnotifyDelistNode
  split
  · exact watchesOnly_requests handler poll node _ (.inr rfl)
  · exact .refl poll

theorem watchesOnly_relist (handler : Bool) (poll : Poll) (node : GamNode) :
    WatchesOnly poll (gamPollDnotifyRelistNode handler poll node) := by
  unfold gamPollDnotifyRelistNode
  split
  · exact watchesOnly_requests handler poll node _ (.inl rfl)
  · exact .refl poll

/-- What flow control can come to: a request for the watch of the node, or for its parent. -/
inductive FlowControlled (poll : Poll) (node : GamNode) (start : Bool) : Poll → Prop where
  | nothing : FlowControlled poll node start poll
  | directory : FlowControlled poll node start (gamDnotifyDirectoryHandlerInternal poll node.path
      (if start then .flowControlStart else .flowControlStop))
  | parent : FlowControlled poll node start (triggerParent poll node.parent start)

theorem flowControl_cases (handler : Bool) (poll : Poll) (node : GamNode) (start : Bool) :
    FlowControlled poll node start (flowControl handler poll node start) := by
  unfold flowControl triggerHandler gamPollGenericTriggerHandler
  split
  · split
    · split
      · exact .nothing
      · split
        · exact .directory
        · -- a file asks for its parent
          cases start with
          | true => exact .parent
          | false => exact .parent
    · exact .nothing
  · exact .nothing

/-! ## Polling a node -/

section

variable {Same : Poll → Poll → Prop} {before poll after : Poll}

/-! ### The lists -/

theorem PollFrame.written (frame : PollFrame Same) (same : Same before poll) (write : Write poll after) :
    Same before after :=
  frame.trans same (frame.write write)

theorem PollFrame.called (frame : PollFrame Same) (poll : Poll) : Same poll poll.called :=
  frame.write (.watches (watchesOnly_called poll))

theorem PollFrame.addMissing (frame : PollFrame Same) (same : Same before poll) {path : Bytes}
    (known : (gamTreeGetAtPath before path).isSome) :
    Same before (Polling.gamPollGenericAddMissing poll path) := by
  unfold Polling.gamPollGenericAddMissing
  split
  · exact same
  case isFalse new => exact frame.written same (.missed (frame.known same known) new)

theorem PollFrame.addBusy (frame : PollFrame Same) (same : Same before poll) {path : Bytes}
    (known : path = [] ∨ (gamTreeGetAtPath before path).isSome) :
    Same before (Polling.gamPollGenericAddBusy poll path) := by
  unfold Polling.gamPollGenericAddBusy
  split
  · exact same
  case isFalse new => exact frame.written same (.busied (known.imp_right (frame.known same)) new)

theorem NodeFrame.addMissing (frame : NodeFrame Same) (same : Same before poll) (path : Bytes) :
    Same before (Polling.gamPollGenericAddMissing poll path) := by
  unfold Polling.gamPollGenericAddMissing
  split
  · exact same
  · exact frame.of_nodes same rfl

theorem NodeFrame.add (frame : NodeFrame Same) (same : Same before poll) (path : Bytes) :
    Same before (Polling.gamPollGenericAdd poll path) := by
  unfold Polling.gamPollGenericAdd
  split
  · exact same
  · exact frame.of_nodes same rfl

/-! ### Flow control -/

theorem PollFrame.switchFlow (frame : PollFrame Same) (same : Same before poll) (path : Bytes) {listed : Bytes}
    (known : listed = [] ∨ (gamTreeGetAtPath before listed).isSome) (start : Bool) :
    Same before (Polling.switchFlow poll path listed start) := by
  unfold Polling.switchFlow
  split
  · exact frame.addBusy (frame.written same (.watches (watchesOnly_handler poll path _))) known
  · exact frame.written (frame.written same (.watches (watchesOnly_handler poll path _))) (.settled listed)

/-- The parent is marked for flow control. -/
theorem PollFrame.triggerParent (frame : PollFrame Same) (same : Same before poll) (parent : Option Bytes)
    (start : Bool) : Same before (Polling.triggerParent poll parent start) := by
  unfold Polling.triggerParent
  cases parent with
  | none =>
    dsimp only
    split
    · exact same
    · exact frame.written (frame.switchFlow same [slash] (.inl rfl) start) (.rootBusy start)
  | some path =>
    dsimp only
    cases found : gamTreeGetAtPath poll path with
    | none => exact same
    | some node =>
      dsimp only
      split
      · exact same
      · have here : gamTreeGetAtPath poll node.path = some node := by rwa [gamTreeGetAtPath_path found]
        have switched := frame.switchFlow (frame.refl poll) node.path
          (.inr (Option.isSome_of_eq_some here)) start
        exact frame.trans same (frame.setNode switched here ⟨rfl, rfl, rfl⟩)

theorem PollFrame.flowControl (frame : PollFrame Same) (same : Same before poll) (handler : Bool) (node : GamNode)
    (start : Bool) : Same before (Polling.flowControl handler poll node start) := by
  have outcome := flowControl_cases handler poll node start
  generalize Polling.flowControl handler poll node start = after at outcome ⊢
  cases outcome with
  | nothing => exact same
  | directory => exact frame.written same (.watches (watchesOnly_handler poll _ _))
  | parent => exact frame.triggerParent same node.parent start

/-! ### The hooks -/

theorem PollFrame.deletedFile (frame : PollFrame Same) (handler : Bool) {node : GamNode}
    (found : gamTreeGetAtPath poll node.path = some node) :
    Same poll (dnotifyDeletedFile handler poll node) := by
  have marked := frame.setNode (frame.refl poll) found
    (show Rewrites node { node with pflags := { MonFlags.none with missing := true } } from ⟨rfl, rfl, rfl⟩)
  unfold dnotifyDeletedFile
  extract_lets flags deleted unlisted
  have left : Same poll unlisted := frame.written (frame.written marked (.loaded _)) (.settled node.path)
  split
  · have delisted := frame.written left (.watches (watchesOnly_delist handler unlisted deleted))
    exact frame.addMissing delisted (Option.isSome_of_eq_some found)
  · exact left

theorem PollFrame.statFile (frame : PollFrame Same) (handler : Bool) {node : GamNode}
    (found : gamTreeGetAtPath poll node.path = some node) :
    Same poll (dnotifyStatFile handler poll node).1 ∧ Rewrites node (dnotifyStatFile handler poll node).2.1 := by
  have called := frame.called poll
  simp only [dnotifyStatFile]
  split
  · split
    · exact ⟨called, rfl, rfl, rfl⟩
    · split <;> exact ⟨called, rfl, rfl, rfl⟩
  · split
    · exact ⟨frame.trans called (frame.deletedFile handler found), rfl, rfl, rfl⟩
    · exact ⟨called, rfl, rfl, rfl⟩

theorem countChecks_rewrites (poll : Poll) (node : GamNode) (event : Option GaminEventType) :
    Rewrites node (countChecks poll node event) := by
  simp only [countChecks]
  split
  · split <;> exact ⟨rfl, rfl, rfl⟩
  · split <;> exact ⟨rfl, rfl, rfl⟩

theorem subsAt_known {poll : Poll} {path : Bytes} (subscribed : subsAt poll path ≠ []) :
    (gamTreeGetAtPath poll path).isSome := by
  cases found : gamTreeGetAtPath poll path with
  | none => simp [subsAt, found] at subscribed
  | some node => rfl

theorem PollFrame.switchToPolling (frame : PollFrame Same) (same : Same before poll) (handler : Bool)
    {node : GamNode} (known : (gamTreeGetAtPath before node.path).isSome) :
    Same before (Polling.switchToPolling handler poll node).1 ∧
      Rewrites node (Polling.switchToPolling handler poll node).2 := by
  simp only [Polling.switchToPolling]
  split
  · have entered : Same before { poll with loaded := node.path :: poll.loaded } := frame.written same (.loaded _)
    have switched (busy : GamNode) := frame.flowControl (frame.addBusy entered (.inr known)) handler busy true
    refine ⟨?_, rfl, rfl, rfl⟩
    -- a busy file brings its directory onto the list
    split
    case h_1 =>
      split
      case isTrue subscribed =>
        exact frame.trans (switched _) (frame.addBusy (frame.refl _) (.inr (subsAt_known subscribed.2)))
      case isFalse => exact switched _
    case h_2 => exact switched _
  · exact ⟨same, .refl node⟩

theorem PollFrame.switchToKernel (frame : PollFrame Same) (same : Same before poll) (handler : Bool)
    (node : GamNode) (event : Option GaminEventType) :
    Same before (Polling.switchToKernel handler poll node event).1 ∧
      Rewrites node (Polling.switchToKernel handler poll node event).2 := by
  simp only [Polling.switchToKernel]
  split
  · have left := frame.written (frame.written same (.loaded (poll.loaded.filter (· ≠ node.path)))) (.settled node.path)
    exact ⟨frame.flowControl left handler _ false, rfl, rfl, rfl⟩
  · exact ⟨same, .refl node⟩

theorem PollFrame.dnotifyPollFile (frame : PollFrame Same) (handler : Bool) {node : GamNode}
    (found : gamTreeGetAtPath poll node.path = some node) :
    Same poll (gamPollDnotifyPollFile handler poll node).1 := by
  have called := frame.called poll
  simp only [gamPollDnotifyPollFile]
  split
  · exact frame.refl poll
  · split
    · simp only [dnotifyPollNewFile]
      split <;> exact frame.setNode called found ⟨rfl, rfl, rfl⟩
    · simp only [dnotifyPollKnownFile]
      obtain ⟨same, statted⟩ := frame.statFile handler found
      generalize dnotifyStatFile handler poll node = outcome at same statted ⊢
      obtain ⟨next, nextNode, event⟩ := outcome
      have counted := statted.trans (countChecks_rewrites next nextNode event)
      have known : (gamTreeGetAtPath poll (countChecks next nextNode event).path).isSome := by
        rw [counted.path, found]
        rfl
      obtain ⟨polling, toPolling⟩ := frame.switchToPolling same handler known
      obtain ⟨kernel, toKernel⟩ := frame.switchToKernel polling handler
        (Polling.switchToPolling handler next (countChecks next nextNode event)).2 event
      dsimp only
      split
      · exact frame.setNode same found statted
      · exact frame.setNode kernel found ((counted.trans toPolling).trans toKernel)

theorem PollFrame.basicPollFile (frame : PollFrame Same) {node : GamNode}
    (found : gamTreeGetAtPath poll node.path = some node) : Same poll (gamPollBasicPollFile poll node).1 := by
  have called := frame.called poll
  simp only [gamPollBasicPollFile]
  split
  · exact frame.refl poll
  · split
    · simp only [pollNewFile]
      split <;> exact frame.setNode called found ⟨rfl, rfl, rfl⟩
    · simp only [pollKnownFile]
      split
      · split
        · refine frame.written (frame.setNode called found ?_) (.found node.path)
          exact ⟨rfl, rfl, rfl⟩
        · split <;> exact frame.setNode called found ⟨rfl, rfl, rfl⟩
      · split
        · refine frame.addMissing (frame.written (frame.setNode called found ?_) (.settled node.path))
            (Option.isSome_of_eq_some found)
          exact ⟨rfl, rfl, rfl⟩
        · exact frame.setNode called found ⟨rfl, rfl, rfl⟩

theorem firstScanMissing_elsewhere (sub : GamSubscription) {dpath path : Bytes} (different : path ≠ dpath) :
    gamTreeGetAtPath (firstScanMissing poll sub dpath) path = gamTreeGetAtPath poll path := by
  unfold firstScanMissing
  extract_lets told
  have same : gamTreeGetAtPath told path = gamTreeGetAtPath poll path := rfl
  split
  · exact same
  case h_2 node found =>
    have elsewhere : path ≠ node.path := by
      rw [gamTreeGetAtPath_path found]
      exact different
    simp only
    split
    · exact gamTreeGetAtPath_setNode_other told.called.called elsewhere
    · rw [gamTreeGetAtPath_addMissing]
      exact gamTreeGetAtPath_setNode_other told.called.called elsewhere

theorem NodeFrame.firstScanMissing (frame : NodeFrame Same) (poll : Poll) (sub : GamSubscription) (dpath : Bytes) :
    Same poll (Polling.firstScanMissing poll sub dpath) := by
  simp only [Polling.firstScanMissing]
  split
  · exact frame.of_nodes (frame.refl poll) rfl
  case h_2 node found =>
    have here : gamTreeGetAtPath poll node.path = some node := by
      rw [gamTreeGetAtPath_path found]
      exact found
    have called : Same poll (gamServerEmitEvent poll dpath true .deleted [sub] true).called.called :=
      frame.of_nodes (frame.refl poll) rfl
    split
    · exact frame.setNode called here ⟨rfl, rfl, rfl⟩
    · apply frame.addMissing
      exact frame.setNode called here ⟨rfl, rfl, rfl⟩

end

end Gamin.Polling
