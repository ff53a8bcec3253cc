import Gamin.Polling.FlowPolls

/-! # What flow control keeps

Every write of a scan keeps a directory suspended for as long as load control polls it or a file in it, if what is
asked of the requests holds.
-/

namespace Gamin.Polling

open Gamin Gamin.Server Gamin.Inotify Gamin.Library

/-- What is asked along the scans.  A busy directory is not missing when somebody subscribes to it, nor is one that
has a busy file another thing then; and a node on the list of busy ones that has no flag stops nothing in a directory
where a node is busy. -/
def flowGuard (handler : Bool) : DnotifyGuard where
  polls := flowPollSafe handler
  adds _ _ := true
  misses poll dpath := dpath ∉ poll.loaded && (!(poll.called.view.stat dpath).exists || !busyBelow poll dpath)
  relists _ _ := true
  settles poll node := !(busyIn poll node.watched && flowTriggers handler poll node false)

/-- Besides the balance and what keeps it: somebody has subscribed to every busy node. -/
structure FlowKept (handler : Bool) (poll : Poll) : Prop extends FlowSteady handler poll where
  subscribed : ∀ path ∈ poll.loaded, subsAt poll path ≠ []

section

variable {handler : Bool} {poll after : Poll} {node next : GamNode} {path dir : Bytes}

/-- Neither the busy nodes nor the marks have changed, nor the counters of dnotify. -/
theorem FlowKept.congr (kept : FlowKept handler poll) (kinds : kindAt after = kindAt poll)
    (same : SameSubs poll after) (loaded : after.loaded = poll.loaded) (rise : MarksRise poll after)
    (root : poll.rootBusy = true → after.rootBusy = true) (once : SuspendedOnce after)
    (suspends : ∀ dir, suspended after dir = suspended poll dir) : FlowKept handler after where
  balanced := kept.balanced.places kinds loaded suspends
  attended := kept.attended.rises once kinds (loaded ▸ List.Subset.refl _) rise root
  subscribed path member := same.subscribed (kept.subscribed path (loaded ▸ member))

theorem FlowKept.known (kept : FlowKept handler poll) (member : path ∈ poll.loaded) :
    (gamTreeGetAtPath poll path).isSome :=
  subsAt_known (kept.subscribed path member)

theorem FlowKept.of_watches (kept : FlowKept handler poll) (only : WatchesOnly poll after) (once : SuspendedOnce after)
    (suspends : ∀ dir, suspended after dir = suspended poll dir) : FlowKept handler after :=
  kept.congr (kindAt_congr only.nodes) ((SameSubs.refl poll).watches only) only.loaded (.of_nodes only.nodes)
    (fun marked => only.rootBusy.trans marked) once suspends

/-- Only what nobody looks at has changed. -/
theorem FlowKept.same (kept : FlowKept handler poll) (nodes : after.nodes = poll.nodes)
    (loaded : after.loaded = poll.loaded) (rootBusy : after.rootBusy = poll.rootBusy)
    (pathHash : after.pathHash = poll.pathHash) : FlowKept handler after :=
  kept.congr (kindAt_congr nodes) ((SameSubs.refl poll).of_nodes nodes) loaded (.of_nodes nodes)
    (fun marked => rootBusy.trans marked) (kept.attended.once.congr pathHash) fun _ => suspended_congr pathHash

/-- A new node is not busy, and below one that is there. -/
theorem FlowKept.gamTreeAdd (kept : FlowKept handler poll) {child : GamNode}
    (absent : gamTreeGetAtPath poll child.path = none) (bare : child.subs = [])
    (parent : ∀ parent, child.parent = some parent → (gamTreeGetAtPath poll parent).isSome) :
    FlowKept handler (gamTreeAdd poll child) := by
  have added : Polling.gamTreeAdd poll child = { poll with nodes := poll.nodes ++ [child] } := by
    rw [Polling.gamTreeAdd, absent]
    rfl
  have same := (SameSubs.refl poll).gamTreeAdd bare
  have rise := marksRise_gamTreeAdd poll child
  have there {path : Bytes} (member : path ∈ poll.loaded) :
      gamTreeGetAtPath (Polling.gamTreeAdd poll child) path = gamTreeGetAtPath poll path := by
    refine gamTreeAdd_other poll ?_
    rintro rfl
    have known := kept.known member
    rw [absent] at known
    contradiction
  rw [added] at same rise there ⊢
  refine ⟨⟨?_, kept.attended.once, fun path last found => ?_, fun path busy last found => ?_⟩, fun path member =>
    same.subscribed (kept.subscribed path member)⟩
  · refine Balanced.congr kept.balanced (fun _ => Iff.rfl) fun path member => ?_
    rw [watchedAt, there member, ← watchedAt]
  · rw [gamTreeGetAtPath, List.find?_append, ← gamTreeGetAtPath] at found
    cases known : gamTreeGetAtPath poll path with
    | some old =>
      rw [known, Option.some_or, Option.some.injEq] at found
      exact found ▸ kept.attended.proper path old known
    -- the parent of the new node is in the tree, so it is not the node itself
    | none =>
      rw [known, Option.none_or, List.find?_singleton] at found
      split at found
      case isFalse => contradiction
      case isTrue own =>
        cases found
        intro isParent
        have isThere := parent path isParent
        rw [known] at isThere
        contradiction
  · rw [there busy] at found
    obtain ⟨gets, held⟩ := kept.attended.watching path busy last found
    exact ⟨gets, fun file => parentHeld_rises rise id (held file)⟩

/-- The first scan of a missing directory overwrites its flags: it is missing now, or another thing. -/
theorem firstScanMissing_cases (poll : Poll) (sub : GamSubscription) (dpath : Bytes) :
    (firstScanMissing poll sub dpath).nodes = poll.nodes ∨
      ∃ node next, gamTreeGetAtPath poll dpath = some node ∧
        (firstScanMissing poll sub dpath).nodes = (poll.setNode next).nodes ∧ next.path = node.path ∧
        next.parent = node.parent ∧ next.monType = node.monType ∧
        (next.pflags.missing = true ∨ (poll.called.view.stat dpath).exists = true) := by
  unfold firstScanMissing
  extract_lets told
  split
  · exact .inl rfl
  case h_2 node found =>
    right
    dsimp only
    split
    case isTrue there => exact ⟨node, _, found, rfl, rfl, rfl, rfl, .inr there⟩
    case isFalse =>
      have listed (poll : Poll) : (gamPollGenericAddMissing poll dpath).nodes = poll.nodes := by
        obtain ⟨missing, written⟩ := gamPollGenericAddMissing_writes poll dpath
        rw [written]
      exact ⟨node, _, found, listed _, rfl, rfl, rfl, .inl rfl⟩

theorem firstScanMissing_loaded (poll : Poll) (sub : GamSubscription) (dpath : Bytes) :
    (firstScanMissing poll sub dpath).loaded = poll.loaded ∧
      (firstScanMissing poll sub dpath).pathHash = poll.pathHash ∧
      (firstScanMissing poll sub dpath).rootBusy = poll.rootBusy := by
  unfold firstScanMissing
  extract_lets told
  have same : told.loaded = poll.loaded ∧ told.pathHash = poll.pathHash ∧ told.rootBusy = poll.rootBusy :=
    ⟨rfl, rfl, rfl⟩
  split
  · exact same
  · simp only
    split
    · exact same
    · have listed (poll : Poll) : (gamPollGenericAddMissing poll dpath).loaded = poll.loaded ∧
          (gamPollGenericAddMissing poll dpath).pathHash = poll.pathHash ∧
          (gamPollGenericAddMissing poll dpath).rootBusy = poll.rootBusy := by
        obtain ⟨missing, written⟩ := gamPollGenericAddMissing_writes poll dpath
        rw [written]
        exact ⟨rfl, rfl, rfl⟩
      exact ⟨(listed _).1.trans same.1, (listed _).2.1.trans same.2.1, (listed _).2.2.trans same.2.2⟩

theorem FlowKept.firstScanMissing (kept : FlowKept handler poll) (sub : GamSubscription)
    (safe : (flowGuard handler).misses poll path = true) : FlowKept handler (firstScanMissing poll sub path) := by
  obtain ⟨idle, nobody⟩ := Bool.and_eq_true_iff.mp safe
  obtain ⟨loaded, pathHash, rootBusy⟩ := firstScanMissing_loaded poll sub path
  have same := sameSubs_frame.firstScanMissing poll sub path
  have once := kept.attended.once.congr pathHash
  refine ⟨⟨?_, ?_⟩, fun other member => same.subscribed (kept.subscribed other (loaded ▸ member))⟩
  · rw [FlowBalanced, loaded]
    refine Balanced.congr kept.balanced (fun dir => ?_) fun other member => ?_
    · rw [suspended_congr pathHash]
    · have different : other ≠ path := by
        rintro rfl
        exact of_decide_eq_true idle member
      rw [watchedAt, firstScanMissing_elsewhere sub different, ← watchedAt]
  · rcases firstScanMissing_cases poll sub path with nodes | ⟨node, next, found, nodes, own, parent, monType, flags⟩
    · exact kept.attended.rises once (kindAt_congr nodes) (loaded ▸ List.Subset.refl _) (.of_nodes nodes)
        fun marked => rootBusy.trans marked
    · obtain rfl := gamTreeGetAtPath_path found
      refine kept.attended.written found (fun other => ?_) rootBusy (loaded ▸ List.Subset.refl _) once own parent
        monType (fun busy => ?_) fun _ => ?_
      · rw [gamTreeGetAtPath, nodes, ← gamTreeGetAtPath]
      · exact absurd (loaded ▸ busy) (of_decide_eq_true idle)
      · rcases flags with missing | there
        · exact .inl (by rw [MonFlags.held, missing, Bool.or_true])
        · rw [there, Bool.not_true, Bool.false_or, Bool.not_eq_true'] at nobody
          exact .inr nobody

theorem FlowKept.pollFile (kept : FlowKept handler poll) (found : gamTreeGetAtPath poll node.path = some node)
    (safe : flowPollSafe handler poll node = true) : FlowKept handler (gamPollDnotifyPollFile handler poll node).1 where
  toFlowSteady := kept.toFlowSteady.pollFile found safe
  subscribed path member := by
    have same := gamPollDnotifyPollFile_keeps handler poll node found
    cases gamPollDnotifyPollFile_loaded handler found path member with
    | inl before => exact same.subscribed (kept.subscribed path before)
    | inr busy =>
      refine same.subscribed ?_
      rw [busy.1, subsAt, found]
      exact busy.2

theorem plainRule_flow (handler : Bool) :
    PlainRule (gamPollDnotifyPollFile handler) (flowGuard handler).toWriteGuard (FlowKept handler) where
  hook := gamPollDnotifyPollFile_keeps handler
  elsewhere _ _ _ kept := kept.same rfl rfl rfl rfl
  polled found safe kept := kept.pollFile found safe
  added absent bare parent _ kept := kept.gamTreeAdd absent bare parent
  cleared {poll _} found kept :=
    kept.congr (kindAt_written found rfl rfl) ((SameSubs.refl poll).setNode found rfl rfl) rfl
      (marksRise_setNode found rfl (.refl _)) id kept.attended.once fun _ => rfl
  missed safe kept := kept.firstScanMissing _ safe

/-- Activations suspend nothing.  By induction on the subscriptions. -/
theorem relisted_suspends (handler : Bool) (poll : Poll) (node : GamNode) :
    (∀ dir, suspended (gamPollDnotifyRelistNode handler poll node) dir = suspended poll dir) ∧
      (SuspendedOnce poll → SuspendedOnce (gamPollDnotifyRelistNode handler poll node)) := by
  have each (subs : List GamSubscription) (poll : Poll) :
      (∀ dir, suspended (subs.foldl (fun poll _ => triggerHandler handler poll .activate node) poll) dir =
          suspended poll dir) ∧
        (SuspendedOnce poll →
          SuspendedOnce (subs.foldl (fun poll _ => triggerHandler handler poll .activate node) poll)) := by
    induction subs generalizing poll with
    | nil => exact ⟨fun _ => rfl, id⟩
    | cons sub subs inductionHypothesis =>
      obtain ⟨suspends, once⟩ := inductionHypothesis (triggerHandler handler poll .activate node)
      exact ⟨fun dir => (suspends dir).trans (suspended_activated handler poll node dir),
        fun before => once (before.activated handler node)⟩
  unfold gamPollDnotifyRelistNode
  split
  · exact each node.subs poll
  · exact ⟨fun _ => rfl, id⟩

/-- A node that nobody has subscribed to, and that has no children, goes. -/
theorem FlowKept.removed (kept : FlowKept handler poll) (bare : subsAt poll path = [])
    (childless : gamTreeHasChildren poll path = false) :
    FlowKept handler (gamTreeRemove (gamPollGenericUnregisterNode poll path) path) := by
  have prunes := gamTreeRemove_prunes bare
  have there {other : Bytes} (member : other ∈ poll.loaded) :
      gamTreeGetAtPath (gamTreeRemove (gamPollGenericUnregisterNode poll path) path) other =
        gamTreeGetAtPath poll other :=
    (prunes other).resolve_right fun gone => kept.subscribed other member gone.2
  refine ⟨⟨?_, kept.attended.once, fun other last found => ?_, fun other busy last found => ?_⟩, fun other member => ?_⟩
  · refine Balanced.congr kept.balanced (fun _ => Iff.rfl) fun other member => ?_
    rw [watchedAt, there member, ← watchedAt]
  · rcases prunes other with same | gone
    · exact kept.attended.proper other last (same ▸ found)
    · rw [gone.1] at found
      contradiction
  · rw [there busy] at found
    obtain ⟨gets, held⟩ := kept.attended.watching other busy last found
    refine ⟨gets, fun file => ?_⟩
    have before := held file
    cases above : last.parent with
    | none =>
      rw [above] at before
      exact before
    | some dir =>
      rw [above] at before
      obtain ⟨parent, foundParent, flags⟩ := markedAt_iff.mp before
      refine markedAt_iff.mpr ⟨parent, ?_, flags⟩
      -- the parent of a node is not without children
      have different : dir ≠ path := by
        rintro rfl
        exact hasChildren_false.mp childless last (gamTreeGetAtPath_mem found) above
      rw [gamTreeGetAtPath_remove different, foundParent]
  · rw [subsAt, there member, ← subsAt]
    exact kept.subscribed other member

/-- A busy node that is not marked any more asks for its watch once more. -/
theorem FlowKept.settled (kept : FlowKept handler poll)
    (fair : (busyIn poll node.watched && flowTriggers handler poll node false) = false) :
    FlowKept handler (flowControl handler (gamPollGenericRemoveBusy poll node.path) node false) := by
  have unlisted : SameWatches poll (gamPollGenericRemoveBusy poll node.path) := ⟨rfl, rfl, rfl, rfl⟩
  have left : FlowKept handler (gamPollGenericRemoveBusy poll node.path) := kept.same rfl rfl rfl rfl
  have idle : (busyIn (gamPollGenericRemoveBusy poll node.path) node.watched &&
      flowTriggers handler (gamPollGenericRemoveBusy poll node.path) node false) = false := by
    rw [unlisted.flowTriggers]
    exact fair
  generalize gamPollGenericRemoveBusy poll node.path = poll at left idle ⊢
  obtain ⟨kinds, loaded⟩ := flowControl_places handler poll node false
  refine ⟨⟨left.balanced.touch (suspended_stopped handler poll node) kinds loaded ?_, ?_⟩, fun path member => ?_⟩
  · rw [flowEnds, ← Bool.and_assoc, idle, Bool.false_and]
  · refine left.attended.of_kinds (left.attended.once.stopped handler node) kinds fun path busy old found => ?_
    rw [loaded] at busy
    obtain ⟨gets, held⟩ := left.attended.watching path busy old found
    refine ⟨gets, fun file => parentHeld_stopped (held file) fun asks nodeFile sibling => ?_⟩
    have inside : busyIn poll node.watched = true := by
      refine busyIn_iff.mpr ⟨path, busy, ?_⟩
      rw [watchedAt_of_file found file, sibling, GamNode.watched, nodeFile, if_neg Bool.false_ne_true]
    rw [inside, asks] at idle
    contradiction
  · have same : SameSubs poll (flowControl handler poll node false) :=
      (SameSubs.refl poll).flowControl handler node false
    rw [loaded] at member
    exact same.subscribed (left.subscribed path member)

theorem dnotifyRule_flow (handler : Bool) : DnotifyRule handler (flowGuard handler) (FlowKept handler) where
  toFirstRule := (plainRule_flow handler).firstRule
  unregistered _ kept := kept.same rfl rfl rfl rfl
  removed bare childless kept := kept.removed bare childless
  listed {poll path} kept := by
    unfold gamPollGenericAdd
    split
    · exact kept
    · exact kept.same rfl rfl rfl rfl
  unbusied kept := kept.same rfl rfl rfl rfl
  relisted {poll node} _ _ kept := by
    have found : FlowKept handler (gamPollGenericRemoveMissing poll node.path) := kept.same rfl rfl rfl rfl
    obtain ⟨suspends, once⟩ := relisted_suspends handler (gamPollGenericRemoveMissing poll node.path) node
    dsimp only
    split
    · exact found.of_watches (watchesOnly_relist handler _ node) (once found.attended.once) suspends
    · exact found
  settled _ _ fair kept := kept.settled ((Bool.not_eq_true' _).mp fair)

end

end Gamin.Polling
