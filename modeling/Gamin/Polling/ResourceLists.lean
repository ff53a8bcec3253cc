import Gamin.Library.Runs
import Gamin.Polling.BasicRules
import Gamin.Polling.Staying
import Mathlib.Data.List.Nodup

/-! # The resource lists of the basic polling backend

`all_resources`, `missing_resources` and `busy_resources` hold nodes.  A node that leaves the tree
is taken off the lists first, so that a list never leads to a node that has been freed, or to a
later one with the same path.
-/

namespace Gamin.Polling

open Gamin Gamin.Server Gamin.Inotify Gamin.Library

/-! ## Runs -/

/-- The backend, the subscriptions that it has been given and that have not been cancelled, and
`scan_callback_running`. -/
structure BasicState where
  poll : Poll
  subs : List GamSubscription
  scheduled : Bool

def BasicState.new (views : Nat → FsView) : BasicState :=
  { poll := .new views, subs := [], scheduled := false }

/-- What the backend is called for.  The time is that of `gam_poll_generic_update_time`. -/
inductive BasicInput where
  | subscribe (now : Nat) (sub : GamSubscription)
  | cancel (sub : GamSubscription)
  | tick (now rounds : Nat)

/-- `did_something` at the end of `gam_poll_basic_scan_callback`: one of the walks has begun. -/
def didSomething (poll : Poll) (now rounds : Nat) : Bool :=
  poll.all ≠ [] ∨ (scanAll rounds 0 { poll with currentTime := now }).missing ≠ []

/-- One call of the backend.  A subscription is a new object when it comes, and only one that is
there is cancelled; the callback is not called unless it is scheduled.  There is no state after an
assertion that fails. -/
def BasicState.step (state : BasicState) : BasicInput → Option BasicState
  | .subscribe now sub =>
    if sub ∈ state.subs then some state
    else
      (gamPollBasicAddSubscription state.poll now sub).map fun poll =>
        { poll := poll, subs := sub :: state.subs, scheduled := true }
  | .cancel sub =>
    if sub ∈ state.subs then
      (gamPollBasicRemoveSubscription state.poll sub).map fun poll =>
        { state with poll := poll, subs := state.subs.filter (· ≠ sub) }
    else some state
  | .tick now rounds =>
    if state.scheduled then
      some { state with
        poll := gamPollBasicScanCallback state.poll now rounds
        scheduled := didSomething state.poll now rounds }
    else some state

/-- What every operation keeps is kept by a call. -/
theorem BasicRule.step {property : Poll → Prop} (rule : BasicRule .free property) (subs : SubsRule property)
    {state after : BasicState} {input : BasicInput} (stepped : state.step input = some after)
    (holds : property state.poll) : property after.poll := by
  cases input with
  | subscribe now sub =>
    simp only [BasicState.step] at stepped
    split at stepped
    case isTrue =>
      cases stepped
      exact holds
    case isFalse =>
      obtain ⟨poll, added, rfl⟩ := Option.map_eq_some_iff.mp stepped
      exact rule.addSubscription subs added holds
  | cancel sub =>
    simp only [BasicState.step] at stepped
    split at stepped
    case isTrue =>
      obtain ⟨poll, removed, rfl⟩ := Option.map_eq_some_iff.mp stepped
      exact rule.removeSubscription subs removed holds
    case isFalse =>
      cases stepped
      exact holds
  | tick now rounds =>
    simp only [BasicState.step] at stepped
    split at stepped
    case isTrue =>
      cases stepped
      exact rule.scanCallback (scanCallbackSafe_free _ now rounds) holds
    case isFalse =>
      cases stepped
      exact holds

/-! ## Polling a node -/

/-- What a poll writes: the node, and perhaps the list of missing nodes. -/
inductive PollWrite (poll : Poll) (node next : GamNode) : Poll → Prop where
  | nothing : PollWrite poll node next poll
  | written : PollWrite poll node next (poll.called.setNode next)
  | appeared : PollWrite poll node next
      (gamPollGenericRemoveMissing (poll.called.setNode next) node.path)
  | vanished : PollWrite poll node next
      (gamPollGenericAddMissing (gamPollGenericRemoveBusy (poll.called.setNode next) node.path) node.path)

/-- The node keeps its place, and is a directory if `stat` has shown one. -/
structure PolledAs (poll : Poll) (node next : GamNode) : Prop where
  path : next.path = node.path
  parent : next.parent = node.parent
  subs : next.subs = node.subs
  newNode : next.newNode = node.newNode
  isDir : next.isDir = node.isDir ∨ ∃ sbuf, poll.view.stat node.path = .found sbuf ∧ next.isDir = sbuf.isDir

theorem gamPollBasicPollFile_writes (poll : Poll) (node : GamNode) :
    ∃ next, PollWrite poll node next (gamPollBasicPollFile poll node).1 ∧ PolledAs poll node next := by
  have same : PolledAs poll node node := ⟨rfl, rfl, rfl, rfl, .inl rfl⟩
  simp only [gamPollBasicPollFile]
  split
  · exact ⟨node, .nothing, same⟩
  · split
    · simp only [pollNewFile]
      cases answer : poll.view.stat node.path with
      | found sbuf => exact ⟨_, .written, rfl, rfl, rfl, rfl, .inr ⟨sbuf, answer, rfl⟩⟩
      | noent => exact ⟨_, .written, rfl, rfl, rfl, rfl, .inl rfl⟩
      | failed => exact ⟨_, .written, rfl, rfl, rfl, rfl, .inl rfl⟩
    · simp only [pollKnownFile]
      cases answer : poll.view.stat node.path with
      | found sbuf =>
        simp only
        split
        · exact ⟨_, .appeared, rfl, rfl, rfl, rfl, .inr ⟨sbuf, answer, rfl⟩⟩
        · split <;> exact ⟨_, .written, rfl, rfl, rfl, rfl, .inr ⟨sbuf, answer, rfl⟩⟩
      | noent =>
        simp only
        split
        · exact ⟨_, .vanished, rfl, rfl, rfl, rfl, .inl rfl⟩
        · exact ⟨_, .written, rfl, rfl, rfl, rfl, .inl rfl⟩
      | failed =>
        simp only
        split
        · exact ⟨_, .vanished, rfl, rfl, rfl, rfl, .inl rfl⟩
        · exact ⟨_, .written, rfl, rfl, rfl, rfl, .inl rfl⟩

/-! ## Lists of nodes -/

def Poll.paths (poll : Poll) : List Bytes := poll.nodes.map (·.path)

theorem gamTreeGetAtPath_isSome {poll : Poll} {path : Bytes} :
    (gamTreeGetAtPath poll path).isSome ↔ path ∈ poll.paths := by
  simp [gamTreeGetAtPath, Poll.paths]

/-- A node is the one that is found at its path. -/
theorem gamTreeGetAtPath_of_mem {poll : Poll} (distinct : poll.paths.Nodup) {node : GamNode}
    (member : node ∈ poll.nodes) : gamTreeGetAtPath poll node.path = some node := by
  obtain ⟨other, found⟩ := Option.isSome_iff_exists.mp
    (gamTreeGetAtPath_isSome.mpr (List.mem_map_of_mem member))
  have same := List.inj_on_of_nodup_map distinct (gamTreeGetAtPath_mem found) member
    (gamTreeGetAtPath_path found)
  rw [found, same]

@[simp] theorem Poll.setNode_paths (poll : Poll) (node : GamNode) :
    (poll.setNode node).paths = poll.paths := by
  simp only [Poll.paths, Poll.setNode, List.map_map]
  refine List.map_congr_left fun other _ => ?_
  simp only [Function.comp_apply]
  split
  case isTrue same => exact same.symm
  case isFalse => rfl

/-- Every entry of a list is a node of the tree, and is there once. -/
def ListsNodes (paths list : List Bytes) : Prop := list.Nodup ∧ ∀ path ∈ list, path ∈ paths

theorem ListsNodes.cons {paths list : List Bytes} (lists : ListsNodes paths list) {path : Bytes}
    (there : path ∈ paths) (new : path ∉ list) : ListsNodes paths (path :: list) :=
  ⟨List.nodup_cons.mpr ⟨new, lists.1⟩, List.forall_mem_cons.mpr ⟨there, lists.2⟩⟩

theorem ListsNodes.sublist {paths list shorter : List Bytes} (lists : ListsNodes paths list)
    (part : shorter.Sublist list) : ListsNodes paths shorter :=
  ⟨lists.1.sublist part, fun path member => lists.2 path (part.subset member)⟩

/-- The paths of the nodes differ, all lists are lists of nodes, and every node with a subscription
is polled, but perhaps the one that is just being subscribed to. -/
structure InOrder (exempt : Option Bytes) (poll : Poll) : Prop where
  distinct : poll.paths.Nodup
  all : ListsNodes poll.paths poll.all
  missing : ListsNodes poll.paths poll.missing
  busy : ListsNodes poll.paths poll.busy
  polled : ∀ node ∈ poll.nodes, node.subs ≠ [] → node.path ∈ poll.all ∨ exempt = some node.path

section

variable {exempt : Option Bytes} {poll : Poll}

theorem inOrder_new (views : Nat → FsView) : InOrder exempt (.new views) :=
  ⟨.nil, ⟨.nil, fun _ member => (nomatch member)⟩, ⟨.nil, fun _ member => (nomatch member)⟩,
    ⟨.nil, fun _ member => (nomatch member)⟩, fun _ member => (nomatch member)⟩

theorem InOrder.elsewhere (order : InOrder exempt poll) {after : Poll} (nodes : after.nodes = poll.nodes)
    (missing : after.missing = poll.missing) (busy : after.busy = poll.busy) (all : after.all = poll.all) :
    InOrder exempt after := by
  have paths : after.paths = poll.paths := by rw [Poll.paths, nodes, Poll.paths]
  refine ⟨?_, ?_, ?_, ?_, ?_⟩
  · rw [paths]
    exact order.distinct
  · rw [paths, all]
    exact order.all
  · rw [paths, missing]
    exact order.missing
  · rw [paths, busy]
    exact order.busy
  · rw [nodes, all]
    exact order.polled

/-- A node is written with subscribers only where there were some, or where it is exempt. -/
theorem InOrder.setNode (order : InOrder exempt poll) {node : GamNode}
    (polled : node.subs ≠ [] → node.path ∈ poll.all ∨ exempt = some node.path) :
    InOrder exempt (poll.setNode node) := by
  have paths := poll.setNode_paths node
  refine ⟨?_, ?_, ?_, ?_, ?_⟩
  · rw [paths]
    exact order.distinct
  · rw [paths]
    exact order.all
  · rw [paths]
    exact order.missing
  · rw [paths]
    exact order.busy
  · intro other written subscribed
    obtain ⟨earlier, member, rfl⟩ := List.mem_map.mp written
    split
    case isTrue same =>
      rw [if_pos same] at subscribed
      exact polled subscribed
    case isFalse different =>
      rw [if_neg different] at subscribed
      exact order.polled earlier member subscribed

/-- A node is written back with the subscriptions it had. -/
theorem InOrder.rewritten (order : InOrder exempt poll) {old node : GamNode}
    (found : gamTreeGetAtPath poll old.path = some old) (path : node.path = old.path)
    (subs : node.subs = old.subs) : InOrder exempt (poll.setNode node) :=
  order.setNode fun subscribed => by
    rw [path]
    exact order.polled old (gamTreeGetAtPath_mem found) (subs ▸ subscribed)

theorem InOrder.gamPollGenericAddMissing (order : InOrder exempt poll) {path : Bytes}
    (there : path ∈ poll.paths) : InOrder exempt (gamPollGenericAddMissing poll path) := by
  unfold Polling.gamPollGenericAddMissing
  split
  · exact order
  case isFalse new => exact { order with missing := order.missing.cons there new }

theorem InOrder.gamPollGenericAdd (order : InOrder exempt poll) {path : Bytes}
    (there : path ∈ poll.paths) : InOrder exempt (gamPollGenericAdd poll path) := by
  unfold Polling.gamPollGenericAdd
  split
  · exact order
  case isFalse new =>
    exact { order with
      all := order.all.cons there new
      polled := fun node member subscribed =>
        (order.polled node member subscribed).imp_left (List.mem_cons_of_mem _) }

theorem InOrder.gamPollGenericRemoveMissing (order : InOrder exempt poll) (path : Bytes) :
    InOrder exempt (gamPollGenericRemoveMissing poll path) :=
  { order with missing := order.missing.sublist List.filter_sublist }

theorem InOrder.gamPollGenericRemoveBusy (order : InOrder exempt poll) (path : Bytes) :
    InOrder exempt (gamPollGenericRemoveBusy poll path) :=
  { order with busy := order.busy.sublist List.filter_sublist }

theorem InOrder.gamTreeAdd (order : InOrder exempt poll) {child : GamNode}
    (absent : gamTreeGetAtPath poll child.path = none) (bare : child.subs = []) :
    InOrder exempt (gamTreeAdd poll child) := by
  have new : child.path ∉ poll.paths := by
    rw [← gamTreeGetAtPath_isSome, absent]
    exact Bool.false_ne_true
  have paths : ({ poll with nodes := poll.nodes ++ [child] } : Poll).paths = poll.paths ++ [child.path] :=
    List.map_append
  have more {list : List Bytes} (lists : ListsNodes poll.paths list) :
      ListsNodes (poll.paths ++ [child.path]) list :=
    ⟨lists.1, fun path member => List.mem_append_left _ (lists.2 path member)⟩
  rw [Polling.gamTreeAdd, absent, Option.isSome_none, if_neg Bool.false_ne_true]
  refine ⟨?_, ?_, ?_, ?_, ?_⟩
  · rw [paths]
    exact List.Nodup.append order.distinct (List.nodup_singleton _) (by simpa using new)
  · rw [paths]
    exact more order.all
  · rw [paths]
    exact more order.missing
  · rw [paths]
    exact more order.busy
  · intro node member subscribed
    cases List.mem_append.mp member with
    | inl old => exact order.polled node old subscribed
    | inr added =>
      rw [List.mem_singleton.mp added] at subscribed
      exact absurd bare subscribed

/-- Only a node without subscriptions is taken off the lists. -/
theorem InOrder.unregistered (order : InOrder exempt poll) {path : Bytes} (bare : subsAt poll path = []) :
    InOrder exempt (gamPollGenericUnregisterNode poll path) := by
  refine { order with
    all := order.all.sublist List.erase_sublist
    missing := order.missing.sublist List.filter_sublist
    busy := order.busy.sublist List.filter_sublist
    polled := fun node member subscribed => ?_ }
  refine (order.polled node member subscribed).imp_left fun listed => ?_
  refine (List.mem_erase_of_ne ?_).mpr listed
  rintro rfl
  rw [subsAt, gamTreeGetAtPath_of_mem order.distinct member] at bare
  exact subscribed bare

/-- A node that is taken out of the tree is on no list any more. -/
theorem InOrder.removed (order : InOrder exempt poll) {path : Bytes} (bare : subsAt poll path = []) :
    InOrder exempt (gamTreeRemove (gamPollGenericUnregisterNode poll path) path) := by
  have unlisted := order.unregistered bare
  have paths : (gamTreeRemove (gamPollGenericUnregisterNode poll path) path).paths =
      poll.paths.filter (· ≠ path) := by
    simp only [Poll.paths, gamTreeRemove, List.filter_map]
    rfl
  have fewer {list : List Bytes} (lists : ListsNodes poll.paths list) (gone : path ∉ list) :
      ListsNodes (poll.paths.filter (· ≠ path)) list := by
    refine ⟨lists.1, fun other member => List.mem_filter.mpr ⟨lists.2 other member, ?_⟩⟩
    have different : other ≠ path := fun same => gone (same ▸ member)
    simpa using different
  refine ⟨?_, ?_, ?_, ?_, fun node member subscribed => ?_⟩
  · rw [paths]
    exact order.distinct.filter _
  · rw [paths]
    exact fewer unlisted.all (order.all.1.not_mem_erase)
  · rw [paths]
    exact fewer unlisted.missing (by simp [gamPollGenericUnregisterNode,
      Polling.gamPollGenericRemoveMissing, Polling.gamPollGenericRemoveBusy, gamTreeRemove])
  · rw [paths]
    exact fewer unlisted.busy (by simp [gamPollGenericUnregisterNode,
      Polling.gamPollGenericRemoveMissing, Polling.gamPollGenericRemoveBusy, gamTreeRemove])
  · exact unlisted.polled node (List.mem_of_mem_filter member) subscribed

theorem inOrder_firstScanMissing (order : InOrder exempt poll) (sub : GamSubscription) (dpath : Bytes) :
    InOrder exempt (firstScanMissing poll sub dpath) := by
  have sent : InOrder exempt (gamServerEmitEvent poll dpath true .deleted [sub] true).called.called :=
    order.elsewhere rfl rfl rfl rfl
  unfold firstScanMissing
  extract_lets poll'
  split
  · exact order.elsewhere rfl rfl rfl rfl
  case h_2 node found =>
    have path := gamTreeGetAtPath_path found
    have foundBefore : gamTreeGetAtPath
        (gamServerEmitEvent poll dpath true .deleted [sub] true).called.called node.path = some node := by
      rw [path]
      exact found
    simp only
    split
    · exact sent.rewritten foundBefore rfl rfl
    · apply InOrder.gamPollGenericAddMissing
      · exact sent.rewritten foundBefore rfl rfl
      · rw [Poll.setNode_paths]
        exact gamTreeGetAtPath_isSome.mp (Option.isSome_of_eq_some found)

theorem plainRule_inOrder (exempt : Option Bytes) : PlainRule gamPollBasicPollFile .free (InOrder exempt) where
  hook := gamPollBasicPollFile_keeps
  elsewhere _ _ _ order := order.elsewhere rfl rfl rfl rfl
  polled := by
    intro poll node found _ order
    obtain ⟨next, write, as⟩ := gamPollBasicPollFile_writes poll node
    generalize (gamPollBasicPollFile poll node).1 = after at write ⊢
    have called : InOrder exempt poll.called := order.elsewhere rfl rfl rfl rfl
    have written := called.rewritten found as.path as.subs
    have there : node.path ∈ (poll.called.setNode next).paths := by
      rw [Poll.setNode_paths]
      exact gamTreeGetAtPath_isSome.mp (Option.isSome_of_eq_some found)
    cases write with
    | nothing => exact order
    | written => exact written
    | appeared => exact written.gamPollGenericRemoveMissing node.path
    | vanished => exact (written.gamPollGenericRemoveBusy node.path).gamPollGenericAddMissing there
  added absent bare _ _ order := order.gamTreeAdd absent bare
  cleared found order := order.rewritten found rfl rfl
  missed _ order := inOrder_firstScanMissing order _ _

theorem basicRule_inOrder (exempt : Option Bytes) : BasicRule .free (InOrder exempt) where
  toFirstRule := (plainRule_inOrder exempt).firstRule
  missing there order := order.gamPollGenericAddMissing (gamTreeGetAtPath_isSome.mp there)
  listed there order := order.gamPollGenericAdd (gamTreeGetAtPath_isSome.mp there)
  found order := order.gamPollGenericRemoveMissing _
  unregistered bare order := order.unregistered bare
  removed bare _ order := order.removed bare

end

/-! ## Operations -/

theorem InOrder.weaken {poll : Poll} (order : InOrder none poll) (exempt : Option Bytes) :
    InOrder exempt poll :=
  { order with
    polled := fun node member subscribed =>
      .inl ((order.polled node member subscribed).resolve_right (by simp)) }

theorem subscribedNode_all (poll : Poll) (sub : GamSubscription) (node : GamNode) :
    node.path ∈ (subscribedNode poll sub node).all := by
  unfold subscribedNode
  extract_lets polled unwatched listed
  unfold gamPollGenericAdd
  split
  case isTrue already => exact already
  case isFalse => exact List.mem_cons_self

theorem InOrder.gamPollBasicAddSubscription {poll after : Poll} (order : InOrder none poll) {now : Nat}
    {sub : GamSubscription} (added : Polling.gamPollBasicAddSubscription poll now sub = some after) :
    InOrder none after := by
  obtain ⟨tree, inTree, subscribed⟩ := Option.bind_eq_some_iff.mp added
  obtain ⟨node, found, rfl⟩ := Option.map_eq_some_iff.mp subscribed
  have path := gamTreeGetAtPath_path found
  have clock : InOrder none { poll with currentTime := now } := order.elsewhere rfl rfl rfl rfl
  have known := (basicRule_inOrder none).gamTreeAddAtPath sub.isDir (addAtPathSafe_free _ sub.path) clock
  -- until it is on the list, the node is the only one that may have subscriptions without being polled
  have written : InOrder (some node.path) tree := by
    unfold gamNodeAddSubscription at inTree
    split at inTree
    case h_1 => contradiction
    case h_2 old foundOld =>
      split at inTree
      case isTrue => contradiction
      case isFalse =>
        cases inTree
        refine (known.weaken _).setNode fun _ => .inr ?_
        rw [path, gamTreeGetAtPath_path foundOld]
  rw [← path] at found
  have final := (basicRule_inOrder (some node.path)).subscribedNode found path
    (subscribedNodeSafe_free tree sub node) written
  refine { final with polled := fun other member subscribed => .inl ?_ }
  cases final.polled other member subscribed with
  | inl listed => exact listed
  | inr exempt =>
    rw [← Option.some.inj exempt]
    exact subscribedNode_all tree sub node

theorem InOrder.gamPollBasicRemoveSubscription {poll after : Poll} (order : InOrder none poll)
    {sub : GamSubscription} (removed : Polling.gamPollBasicRemoveSubscription poll sub = some after) :
    InOrder none after := by
  refine (basicRule_inOrder none).toRemovalRule.removeSubscription removed (fun _ => order)
    fun node next found lost => ?_
  unfold gamNodeRemoveSubscription at lost
  split at lost
  case isTrue =>
    cases lost
    refine order.setNode fun subscribed => order.polled node (gamTreeGetAtPath_mem found) ?_
    intro bare
    rw [bare] at subscribed
    exact subscribed rfl
  case isFalse => contradiction

/-- Removing puts nothing on a list. -/
theorem gamPollBasicRemoveSubscription_shortens {poll after : Poll} {sub : GamSubscription}
    (removed : gamPollBasicRemoveSubscription poll sub = some after) :
    after.all.Sublist poll.all ∧ after.missing.Sublist poll.missing := by
  have rule : RemovalRule fun next => next.all.Sublist poll.all ∧ next.missing.Sublist poll.missing :=
    { unregistered := fun _ shorter =>
        ⟨List.erase_sublist.trans shorter.1, List.filter_sublist.trans shorter.2⟩
      removed := fun _ _ shorter =>
        ⟨List.erase_sublist.trans shorter.1, List.filter_sublist.trans shorter.2⟩ }
  refine rule.removeSubscription removed (fun _ => ⟨.refl _, .refl _⟩) fun node next _ lost => ?_
  unfold gamNodeRemoveSubscription at lost
  split at lost
  case isTrue =>
    cases lost
    exact ⟨.refl _, .refl _⟩
  case isFalse => contradiction

/-- A subscription that has been added is at the node of its path. -/
theorem gamPollBasicAddSubscription_seats {poll after : Poll} {now : Nat} {sub : GamSubscription}
    (added : gamPollBasicAddSubscription poll now sub = some after) : SubscribedAt after sub.path sub := by
  obtain ⟨tree, inTree, subscribed⟩ := Option.bind_eq_some_iff.mp added
  obtain ⟨node, found, rfl⟩ := Option.map_eq_some_iff.mp subscribed
  have written : SubscribedAt tree sub.path sub := by
    cases before : gamTreeGetAtPath (gamTreeAddAtPath { poll with currentTime := now } sub.path sub.isDir)
        sub.path with
    | none => simp [gamNodeAddSubscription, before] at inTree
    | some old => exact ⟨_, gamNodeAddSubscription_at before inTree, List.mem_cons_self⟩
  rw [← gamTreeGetAtPath_path found] at found
  exact written.kept (subscribedNode_keeps sub found)

/-! ## Every state of a run -/

/-- The subscriptions are where they belong. -/
structure Seated (state : BasicState) : Prop where
  order : InOrder none state.poll
  present : ∀ sub ∈ state.subs, SubscribedAt state.poll sub.path sub
  known : ∀ node ∈ state.poll.nodes, ∀ sub ∈ node.subs, sub ∈ state.subs ∧ node.path = sub.path
  running : state.poll.all ≠ [] ∨ state.poll.missing ≠ [] → state.scheduled = true

/-- Every element of a list is a node of the tree and is listed once; every node with a
subscription is polled; every subscription is at the node of its path and at no other, and no node
has one that is not there any more; and the callback is scheduled if there is anything to poll. -/
structure ListsConsistent (state : BasicState) : Prop where
  inTree : ∀ path, path ∈ state.poll.all ∨ path ∈ state.poll.missing ∨ path ∈ state.poll.busy →
    ∃ node, gamTreeGetAtPath state.poll path = some node
  once : state.poll.all.Nodup ∧ state.poll.missing.Nodup ∧ state.poll.busy.Nodup
  polled : ∀ node ∈ state.poll.nodes, node.subs ≠ [] → node.path ∈ state.poll.all
  seated : ∀ sub ∈ state.subs, ∃! node, node ∈ state.poll.nodes ∧ sub ∈ node.subs
  ownPath : ∀ node ∈ state.poll.nodes, ∀ sub ∈ node.subs, node.path = sub.path
  alive : ∀ node ∈ state.poll.nodes, ∀ sub ∈ node.subs, sub ∈ state.subs
  scheduled : state.poll.all ≠ [] ∨ state.poll.missing ≠ [] → state.scheduled = true

theorem seated_new (views : Nat → FsView) : Seated (.new views) :=
  ⟨inOrder_new views, fun _ member => (nomatch member), fun _ member => (nomatch member),
    fun listed => listed.elim (absurd rfl) (absurd rfl)⟩

theorem Seated.consistent {state : BasicState} (seated : Seated state) : ListsConsistent state where
  inTree path listed := by
    have member : path ∈ state.poll.paths := by
      rcases listed with all | missing | busy
      · exact seated.order.all.2 path all
      · exact seated.order.missing.2 path missing
      · exact seated.order.busy.2 path busy
    exact Option.isSome_iff_exists.mp (gamTreeGetAtPath_isSome.mpr member)
  once := ⟨seated.order.all.1, seated.order.missing.1, seated.order.busy.1⟩
  polled node member subscribed :=
    (seated.order.polled node member subscribed).resolve_right (by simp)
  seated sub member := by
    obtain ⟨node, found, subscribed⟩ := seated.present sub member
    refine ⟨node, ⟨gamTreeGetAtPath_mem found, subscribed⟩, fun other ⟨memberOther, subscribedOther⟩ => ?_⟩
    have samePath := (seated.known other memberOther sub subscribedOther).2
    have foundOther := gamTreeGetAtPath_of_mem seated.order.distinct memberOther
    rw [samePath, found] at foundOther
    exact (Option.some.inj foundOther).symm
  ownPath node member sub subscribed := (seated.known node member sub subscribed).2
  alive node member sub subscribed := (seated.known node member sub subscribed).1
  scheduled := seated.running

/-- What is at a node after a scan has been there before. -/
theorem Seated.scanned {state : BasicState} (seated : Seated state) {after : Poll}
    (same : SameSubs state.poll after) :
    (∀ sub ∈ state.subs, SubscribedAt after sub.path sub) ∧
      ∀ node ∈ after.nodes, ∀ sub ∈ node.subs, sub ∈ state.subs ∧ node.path = sub.path := by
  refine ⟨fun sub member => (seated.present sub member).kept same, fun node member sub subscribed => ?_⟩
  obtain ⟨old, memberOld, samePath, subscribedOld⟩ := same.source node member sub subscribed
  rw [← samePath]
  exact seated.known old memberOld sub subscribedOld

theorem Seated.subscribe {state : BasicState} (seated : Seated state) {now : Nat}
    {sub : GamSubscription} (new : sub ∉ state.subs) {after : Poll}
    (added : Polling.gamPollBasicAddSubscription state.poll now sub = some after) :
    Seated { poll := after, subs := sub :: state.subs, scheduled := true } := by
  refine ⟨seated.order.gamPollBasicAddSubscription added, ?_, ?_, fun _ => rfl⟩
  · intro other member
    cases List.mem_cons.mp member with
    | inl here =>
      rw [here]
      exact gamPollBasicAddSubscription_seats added
    | inr old =>
      have different : other ≠ sub := fun equal => new (equal ▸ old)
      exact gamPollBasicAddSubscription_stay added other.path other different (seated.present other old)
  · intro node member other subscribed
    cases gamPollBasicAddSubscription_with added node member other subscribed with
    | inl before =>
      obtain ⟨old, memberOld, samePath, subscribedOld⟩ := before
      obtain ⟨known, path⟩ := seated.known old memberOld other subscribedOld
      exact ⟨List.mem_cons_of_mem _ known, samePath ▸ path⟩
    | inr here =>
      obtain ⟨rfl, path⟩ := here
      exact ⟨List.mem_cons_self, path⟩

theorem Seated.cancel {state : BasicState} (seated : Seated state) {sub : GamSubscription} {after : Poll}
    (removed : Polling.gamPollBasicRemoveSubscription state.poll sub = some after) :
    Seated { state with poll := after, subs := state.subs.filter (· ≠ sub) } := by
  have placed : Placed state.poll sub :=
    fun node member subscribed => (seated.known node member sub subscribed).2
  obtain ⟨source, gone⟩ := gamPollBasicRemoveSubscription_removes placed removed
  refine ⟨seated.order.gamPollBasicRemoveSubscription removed, ?_, ?_, ?_⟩
  · intro other member
    obtain ⟨old, different⟩ := List.mem_filter.mp member
    exact gamPollBasicRemoveSubscription_stay removed other.path other (by simpa using different)
      (seated.present other old)
  · intro node member other subscribed
    obtain ⟨old, memberOld, samePath, subscribedOld⟩ := source node member other subscribed
    obtain ⟨known, path⟩ := seated.known old memberOld other subscribedOld
    have different : other ≠ sub := by
      rintro rfl
      exact gone node member subscribed
    exact ⟨List.mem_filter.mpr ⟨known, by simpa using different⟩, samePath ▸ path⟩
  · intro listed
    obtain ⟨all, missing⟩ := gamPollBasicRemoveSubscription_shortens removed
    refine seated.running (listed.imp (mt fun empty => ?_) (mt fun empty => ?_))
    · rw [empty] at all
      exact List.sublist_nil.mp all
    · rw [empty] at missing
      exact List.sublist_nil.mp missing

/-- If neither walk has begun, there was nothing on either list. -/
theorem gamPollBasicScanCallback_idle {poll : Poll} {now rounds : Nat}
    (idle : didSomething poll now rounds = false) :
    (gamPollBasicScanCallback poll now rounds).all = [] ∧
      (gamPollBasicScanCallback poll now rounds).missing = [] := by
  simp only [didSomething, decide_eq_false_iff_not, not_or, not_not] at idle
  obtain ⟨all, missing⟩ := idle
  have first : scanAll rounds 0 { poll with currentTime := now } = { poll with currentTime := now } := by
    cases rounds with
    | zero => rfl
    | succ rounds => simp only [scanAll, all, List.getElem?_nil]
  have second : scanMissing rounds 0 (scanAll rounds 0 { poll with currentTime := now }) =
      scanAll rounds 0 { poll with currentTime := now } := by
    cases rounds with
    | zero => rfl
    | succ rounds => simp only [scanMissing, missing, List.getElem?_nil]
  rw [gamPollBasicScanCallback, second]
  exact ⟨by rw [first, all], missing⟩

theorem Seated.tick {state : BasicState} (seated : Seated state) (now rounds : Nat) :
    Seated { state with
      poll := gamPollBasicScanCallback state.poll now rounds
      scheduled := didSomething state.poll now rounds } := by
  obtain ⟨present, known⟩ := seated.scanned (gamPollBasicScanCallback_same state.poll now rounds)
  refine ⟨(basicRule_inOrder none).scanCallback (scanCallbackSafe_free _ now rounds) seated.order,
    present, known, fun listed => ?_⟩
  by_contra stopped
  obtain ⟨all, missing⟩ := gamPollBasicScanCallback_idle (eq_false_of_ne_true stopped)
  exact listed.elim (absurd all) (absurd missing)

theorem Seated.step {state after : BasicState} {input : BasicInput} (seated : Seated state)
    (stepped : state.step input = some after) : Seated after := by
  cases input with
  | subscribe now sub =>
    simp only [BasicState.step] at stepped
    split at stepped
    case isTrue =>
      cases stepped
      exact seated
    case isFalse new =>
      obtain ⟨poll, added, rfl⟩ := Option.map_eq_some_iff.mp stepped
      exact seated.subscribe new added
  | cancel sub =>
    simp only [BasicState.step] at stepped
    split at stepped
    case isTrue =>
      obtain ⟨poll, removed, rfl⟩ := Option.map_eq_some_iff.mp stepped
      exact seated.cancel removed
    case isFalse =>
      cases stepped
      exact seated
  | tick now rounds =>
    simp only [BasicState.step] at stepped
    split at stepped
    case isTrue =>
      cases stepped
      exact seated.tick now rounds
    case isFalse =>
      cases stepped
      exact seated

/-- Whatever the file system shows and whatever is asked of the backend, the lists are consistent
after every operation. -/
theorem lists_consistent (views : Nat → FsView) (inputs : List BasicInput) :
    Throughout (partialStep BasicState.step) (IfAny ListsConsistent) (some (.new views)) inputs := by
  have seated : Throughout (partialStep BasicState.step) (IfAny Seated) (some (.new views)) inputs :=
    .of_partial_kept (fun _ _ _ seated => seated.step) (seated_new views) inputs
  exact seated.imp (IfAny.imp fun _ => Seated.consistent)

end Gamin.Polling
