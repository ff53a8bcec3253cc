import Gamin.Polling.FlowRules

/-! # Flow control in every run

The backend is called for one thing after the other.  As long as nobody else in a directory is busy when a node there
is left to the kernel, and the last busy node that is deleted or cancelled holds the last references, each directory is
suspended just while it, or a file in it, is busy.
-/

namespace Gamin.Polling

open Gamin Gamin.Server Gamin.Inotify Gamin.Library

/-! ## What is asked of a call -/

/-- A node that the kernel may not watch is polled when it gets a subscription. -/
def flowEntrySafe (handler : Bool) (poll : Poll) (sub : GamSubscription) : Bool :=
  match gamNodeAddSubscription poll sub.path sub with
  | none => true
  | some poll =>
    (gamTreeGetAtPath poll sub.path).all fun node =>
      if (poll.view.excluded sub.path ∨ poll.view.monType sub.path = .poll) ∧ node.lasttime = 0 then
        flowPollSafe handler poll node
      else true

/-- Along `gam_poll_dnotify_add_subscription`. -/
def flowSubscribeSafe (handler : Bool) (poll : Poll) (now : Nat) (sub : GamSubscription) : Bool :=
  let poll := gamTreeAddAtPath { poll with currentTime := now } sub.path sub.isDir
  flowEntrySafe handler poll sub &&
    match nodeAddSubscription handler poll sub.path sub with
    | some (poll, true) =>
      (gamTreeGetAtPath poll sub.path).all fun node =>
        dnotifyFirstPollSafe (flowGuard handler).toWriteGuard handler poll sub node
    | _ => true

/-- A node loses a subscription, and its directory a reference. -/
def cancelEnds (handler : Bool) (poll : Poll) (node : GamNode) : Bool :=
  asksToDeactivate poll node && givesUp handler poll node 1

/-- For `gam_poll_dnotify_remove_subscription`.  With its last subscription a busy node leaves its directory. -/
def flowCancelSafe (handler : Bool) (poll : Poll) (sub : GamSubscription) : Bool :=
  (gamTreeGetAtPath poll sub.path).all fun node =>
    if node.path.head? ≠ some slash then true
    else if node.subs.filter (· ≠ sub) = [] then
      leavesFairly poll node.path node.watched (cancelEnds handler poll node)
    else !(busyIn poll node.watched && cancelEnds handler poll node)

/-- The condition on one step. -/
def FlowGuard (handler : Bool) (state : DnotifyState) : DnotifyInput → Prop
  | .subscribe now sub => sub ∉ state.subs → flowSubscribeSafe handler state.poll now sub = true
  | .cancel sub => sub ∈ state.subs → flowCancelSafe handler state.poll sub = true
  | .tick now rounds => dnotifyScanCallbackSafe (flowGuard handler) handler state.poll now rounds = true
  | .changed now path => dnotifyScanDirectorySafe (flowGuard handler) handler state.poll now path = true

section

variable {handler : Bool} {poll after : Poll} {node next : GamNode} {sub : GamSubscription}

/-! ## Subscribing -/

/-- A node that somebody has subscribed to is written back to its place. -/
theorem FlowKept.written (kept : FlowKept handler poll) (found : gamTreeGetAtPath poll node.path = some node)
    (path : next.path = node.path) (kind : next.kind = node.kind) (flags : next.pflags = node.pflags)
    (subscribed : next.subs ≠ []) : FlowKept handler (poll.setNode next) where
  balanced := kept.balanced.places (kindAt_written found path kind) rfl fun _ => rfl
  attended := kept.attended.rises kept.attended.once (kindAt_written found path kind) (List.Subset.refl _)
    (marksRise_setNode found path (flags ▸ .refl _)) id
  subscribed other member := by
    by_cases here : other = next.path
    · rw [here, subsAt_setNode_self (by rw [path, found, Option.isSome_some])]
      exact subscribed
    · rw [subsAt_setNode_other poll here]
      exact kept.subscribed other member

theorem FlowKept.addMissing (kept : FlowKept handler poll) (path : Bytes) :
    FlowKept handler (gamPollGenericAddMissing poll path) := by
  obtain ⟨missing, written⟩ := gamPollGenericAddMissing_writes poll path
  rw [written]
  exact kept.same rfl rfl rfl rfl

theorem FlowKept.nodeAddSubscription (kept : FlowKept handler poll) {added : Bool}
    (safe : flowEntrySafe handler poll sub = true)
    (done : nodeAddSubscription handler poll sub.path sub = some (after, added)) : FlowKept handler after := by
  unfold Polling.nodeAddSubscription at done
  unfold flowEntrySafe at safe
  cases found : gamTreeGetAtPath poll sub.path with
  | none =>
    simp only [found, Option.some.injEq, Prod.mk.injEq] at done
    exact done.1 ▸ kept
  | some node =>
    simp only [found] at done
    split at done
    case isTrue =>
      cases done
      exact kept
    case isFalse =>
      obtain ⟨next, listed, outcome⟩ := Option.map_eq_some_iff.mp done
      by_cases new : sub ∈ node.subs
      · simp [Polling.gamNodeAddSubscription, found, new] at listed
      · obtain ⟨written, here⟩ := gamNodeAddSubscription_eq found new
        rw [written, Option.some.injEq] at listed
        subst listed
        have own := gamTreeGetAtPath_path found
        rw [written] at safe
        simp only [here, Option.all_some] at safe
        rw [← own] at found here outcome safe
        have subscribed : FlowKept handler (poll.setNode { node with subs := sub :: node.subs }) :=
          kept.written found rfl rfl rfl (List.cons_ne_nil _ _)
        split at outcome
        case isTrue excluded =>
          -- what is excluded from the kernel is polled
          cases outcome
          refine FlowKept.addMissing ?_ _
          split
          case isTrue new =>
            rw [if_pos ⟨excluded, new⟩] at safe
            exact subscribed.pollFile here safe
          case isFalse => exact subscribed
        case isFalse =>
          cases outcome
          exact subscribed.of_watches (watchesOnly_triggerHandler handler _ node (.inl rfl))
            (subscribed.attended.once.activated handler node) (suspended_activated handler _ node)

theorem FlowKept.subscribe (kept : FlowKept handler poll) {now : Nat} {added : Bool}
    (safe : flowSubscribeSafe handler poll now sub = true)
    (done : gamPollDnotifyAddSubscription handler poll now sub = some (after, added)) : FlowKept handler after := by
  have rule := dnotifyRule_flow handler
  have adds := addAtPathSafe_of_adds (fun _ _ => rfl : ∀ poll parent, (flowGuard handler).adds poll parent = true)
  obtain ⟨entrySafe, firstSafe⟩ := Bool.and_eq_true_iff.mp safe
  obtain ⟨⟨next, listed⟩, entered, outcome⟩ := Option.map_eq_some_iff.mp done
  have tree := rule.gamTreeAddAtPath sub.isDir (adds _ sub.path) (rule.clock now kept)
  have keptNext := tree.nodeAddSubscription entrySafe entered
  simp only [entered] at firstSafe
  dsimp only at outcome
  split at outcome
  case h_1 node found =>
    cases outcome
    simp only [found, Option.all_some] at firstSafe
    have own := gamTreeGetAtPath_path found
    rw [← own] at found
    exact rule.subscribedNode adds (fun _ kept => kept.addMissing _) found own firstSafe keptNext
  case h_2 =>
    cases outcome
    exact keptNext

/-! ## Cancelling -/

/-- The request that follows the loss of a subscription. -/
def releaseWatch (handler : Bool) (poll : Poll) (node : GamNode) : Poll :=
  if asksToDeactivate poll node then triggerHandler handler poll .deactivate node else poll

theorem watchesOnly_releaseWatch (handler : Bool) (poll : Poll) (node : GamNode) :
    WatchesOnly poll (releaseWatch handler poll node) := by
  unfold releaseWatch
  split
  · exact watchesOnly_triggerHandler handler poll node (.inr rfl)
  · exact .refl poll

theorem suspended_releaseWatch (handler : Bool) (poll : Poll) (node : GamNode) (dir : Bytes) :
    suspended (releaseWatch handler poll node) dir =
      (suspended poll dir && !(decide (dir = node.watched) && cancelEnds handler poll node)) := by
  unfold releaseWatch cancelEnds
  split
  case isTrue asks =>
    rw [asks, Bool.true_and]
    exact suspended_deactivated handler poll node [()] dir
  case isFalse keeps =>
    rw [eq_false_of_ne_true keeps, Bool.false_and, Bool.and_false, Bool.not_false, Bool.and_true]

theorem SuspendedOnce.releaseWatch (once : SuspendedOnce poll) (handler : Bool) (node : GamNode) :
    SuspendedOnce (releaseWatch handler poll node) := by
  unfold Polling.releaseWatch
  split
  · exact once.deactivated handler node [()]
  · exact once

/-- The last subscription of a node goes. -/
theorem FlowKept.leaves (kept : FlowKept handler poll) (found : gamTreeGetAtPath poll node.path = some node)
    (path : next.path = node.path) (kind : next.kind = node.kind) (flags : next.pflags = node.pflags)
    (fair : leavesFairly poll node.path node.watched (cancelEnds handler poll node) = true) :
    FlowKept handler (releaseWatch handler (leaveLoaded (poll.setNode next) node.path) node) := by
  have only := watchesOnly_releaseWatch handler (leaveLoaded (poll.setNode next) node.path) node
  have kinds := (kindAt_congr only.nodes).trans (kindAt_written found path kind)
  refine ⟨⟨?_, ?_⟩, fun other member => ?_⟩
  · have burns (dir : Bytes) : suspended (releaseWatch handler (leaveLoaded (poll.setNode next) node.path) node) dir =
        (suspended poll dir && !(decide (dir = node.watched) && cancelEnds handler poll node)) :=
      suspended_releaseWatch handler (leaveLoaded (poll.setNode next) node.path) node dir
    exact kept.balanced.leave burns kinds only.loaded (watchedAt_of_found found) fair
  · have before : SuspendedOnce (leaveLoaded (poll.setNode next) node.path) := kept.attended.once
    have rise : MarksRise poll (releaseWatch handler (leaveLoaded (poll.setNode next) node.path) node) :=
      (marksRise_setNode found path (flags ▸ .refl _)).trans (.of_nodes only.nodes)
    refine kept.attended.rises (before.releaseWatch handler node) kinds ?_ rise fun marked => only.rootBusy.trans marked
    rw [only.loaded]
    exact List.filter_subset_self _
  · rw [only.loaded] at member
    obtain ⟨busy, different⟩ := List.mem_filter.mp member
    have elsewhere : other ≠ next.path := by
      rw [path]
      exact of_decide_eq_true different
    rw [subsAt, gamTreeGetAtPath, only.nodes, ← gamTreeGetAtPath, ← subsAt]
    exact (subsAt_setNode_other poll elsewhere).symm ▸ kept.subscribed other busy

/-- Another subscription of a node goes. -/
theorem FlowKept.loses (kept : FlowKept handler poll) (found : gamTreeGetAtPath poll node.path = some node)
    (path : next.path = node.path) (kind : next.kind = node.kind) (flags : next.pflags = node.pflags)
    (subscribed : next.subs ≠ []) (fair : (busyIn poll node.watched && cancelEnds handler poll node) = false) :
    FlowKept handler (releaseWatch handler (poll.setNode next) node) := by
  have written := kept.written found path kind flags subscribed
  have only := watchesOnly_releaseWatch handler (poll.setNode next) node
  have kinds := (kindAt_congr only.nodes).trans (kindAt_written found path kind)
  refine ⟨⟨?_, ?_⟩, fun other member => ?_⟩
  · have burns (dir : Bytes) : suspended (releaseWatch handler (poll.setNode next) node) dir =
        (suspended poll dir && !(decide (dir = node.watched) && cancelEnds handler poll node)) :=
      suspended_releaseWatch handler (poll.setNode next) node dir
    exact kept.balanced.touch burns kinds only.loaded fair
  · exact written.attended.rises (written.attended.once.releaseWatch handler node) (kindAt_congr only.nodes)
      (only.loaded ▸ List.Subset.refl _) (.of_nodes only.nodes) fun marked => only.rootBusy.trans marked
  · rw [subsAt, gamTreeGetAtPath, only.nodes, ← gamTreeGetAtPath, ← subsAt]
    exact written.subscribed other (only.loaded ▸ member)

/-- A node loses a subscription, and its directory may lose its watch. -/
theorem FlowKept.nodeRemoveSubscription (kept : FlowKept handler poll)
    (found : gamTreeGetAtPath poll sub.path = some node) (safe : flowCancelSafe handler poll sub = true)
    (lost : nodeRemoveSubscription handler poll node sub = some after) : FlowKept handler after := by
  unfold Polling.nodeRemoveSubscription at lost
  rw [flowCancelSafe, found, Option.all_some] at safe
  rw [← gamTreeGetAtPath_path found] at found
  split at lost
  case isTrue =>
    cases lost
    exact kept
  case isFalse absolute =>
    rw [if_neg absolute] at safe
    obtain ⟨written, removed, rfl⟩ := Option.map_eq_some_iff.mp lost
    unfold gamNodeRemoveSubscription at removed
    split at removed
    case isFalse => contradiction
    case isTrue =>
      cases removed
      have rest : subsAt (poll.setNode { node with subs := node.subs.filter (· ≠ sub) }) node.path =
          node.subs.filter (· ≠ sub) := subsAt_setNode_self (Option.isSome_of_eq_some found)
      by_cases last : node.subs.filter (· ≠ sub) = []
      · rw [if_pos last] at safe
        simp only [rest, if_pos last]
        exact kept.leaves found rfl rfl rfl safe
      · rw [if_neg last] at safe
        simp only [rest, if_neg last]
        exact kept.loses found rfl rfl rfl last ((Bool.not_eq_true' _).mp safe)

theorem FlowKept.cancel (kept : FlowKept handler poll) (safe : flowCancelSafe handler poll sub = true)
    (removed : gamPollDnotifyRemoveSubscription handler poll sub = some after) : FlowKept handler after :=
  (dnotifyRule_flow handler).toRemovalRule.dnotifyRemoveSubscription removed (fun _ => kept)
    fun _ _ found lost => kept.nodeRemoveSubscription found safe lost

/-! ## Every run -/

theorem FlowKept.step {state after : DnotifyState} (kept : FlowKept handler state.poll) {input : DnotifyInput}
    (guard : FlowGuard handler state input) (stepped : state.step handler input = some after) :
    FlowKept handler after.poll := by
  cases input with
  | subscribe now sub =>
    simp only [DnotifyState.step] at stepped
    split at stepped
    case isTrue =>
      cases stepped
      exact kept
    case isFalse new =>
      obtain ⟨⟨poll, added⟩, subscribed, rfl⟩ := Option.map_eq_some_iff.mp stepped
      exact kept.subscribe (guard new) subscribed
  | cancel sub =>
    simp only [DnotifyState.step] at stepped
    split at stepped
    case isTrue there =>
      obtain ⟨poll, removed, rfl⟩ := Option.map_eq_some_iff.mp stepped
      exact kept.cancel (guard there) removed
    case isFalse =>
      cases stepped
      exact kept
  | tick now rounds =>
    cases stepped
    exact (dnotifyRule_flow handler).scanCallback guard kept
  | changed now path =>
    cases stepped
    exact (dnotifyRule_flow handler).scanChanged guard kept

theorem flowKept_new (handler : Bool) (views : Nat → FsView) : FlowKept handler (.new views) where
  balanced _ := iff_of_false (by simp [suspended, Poll.new]) (by simp [Poll.new])
  attended := ⟨fun _ _ entry => by simp [Poll.new] at entry,
    fun _ _ found => by simp [gamTreeGetAtPath, Poll.new] at found,
    fun _ member => absurd member List.not_mem_nil⟩
  subscribed _ member := absurd member List.not_mem_nil

end

/-- In every run. -/
theorem flow_balanced_throughout (handler : Bool) (views : Nat → FsView) {inputs : List DnotifyInput}
    (guarded : Guarded (partialStep (DnotifyState.step handler)) (GuardIfAny (FlowGuard handler)) (some (.new views))
      inputs) :
    Throughout (partialStep (DnotifyState.step handler)) (IfAny fun state => FlowBalanced state.poll)
      (some (.new views)) inputs := by
  have kept : Throughout (partialStep (DnotifyState.step handler)) (IfAny fun state => FlowKept handler state.poll)
      (some (.new views)) inputs :=
    Throughout.of_partial (fun _ _ _ kept guard stepped => kept.step guard stepped) (flowKept_new handler views) guarded
  exact kept.imp (IfAny.imp fun _ kept => kept.balanced)

/-! ## Two floods -/

/-- `/d` is a directory with the files `f` and `g`, which was last written to at the times given. -/
def floodedView (first second : Nat) : FsView where
  stat path :=
    if path = [47, 100] then .found { StatBuf.zero with isDir := true }
    else if path = [47, 100, 47, 102] then .found { StatBuf.zero with mtim := (first, 0) }
    else if path = [47, 100, 47, 103] then .found { StatBuf.zero with mtim := (second, 0) }
    else .noent
  listing path := if path = [47, 100] then some [[102], [103]] else none
  excluded _ := false
  monType _ := .kernel
  pollTimeout _ := 0

instance (handler : Bool) (state : DnotifyState) : (input : DnotifyInput) → Decidable (FlowGuard handler state input)
  | .subscribe _ _ => inferInstanceAs (Decidable (_ → _))
  | .cancel _ => inferInstanceAs (Decidable (_ → _))
  | .tick _ _ => inferInstanceAs (Decidable (_ = _))
  | .changed _ _ => inferInstanceAs (Decidable (_ = _))

/-- A subscription to a file in `/d`. -/
def floodSubscription (address : Pointer) (name : UInt8) : GamSubscription :=
  gamSubscriptionNew address [47, 100, 47, name] requestedEvents 1 false 0

/-- The file `f` is flooded until the directory is suspended, and it is quiet for the next six ticks. -/
def oneFlood : List DnotifyInput :=
  .subscribe 5 (floodSubscription 1 102) :: List.replicate 4 (.changed 5 [47, 100]) ++
    [.tick 6 5, .tick 7 5, .tick 8 5, .tick 9 5, .tick 10 5, .tick 11 5]

theorem oneFlood_balanced :
    Throughout (partialStep (DnotifyState.step true)) (IfAny fun state => FlowBalanced state.poll)
      (some (.new fun _ => floodedView 5 0)) oneFlood :=
  flow_balanced_throughout true (fun _ => floodedView 5 0) (by decide +kernel)

/-- After the first fifteen calls, which are before the ticks, `f` is written to once a second. -/
def onlyFirst (call : Nat) : FsView := floodedView (if call < 15 then 5 else 6 + (call - 15) / 4) 5

/-- Both files are flooded until they are busy. -/
def twoFloods : List DnotifyInput :=
  .subscribe 5 (floodSubscription 1 102) :: .subscribe 5 (floodSubscription 2 103) ::
    List.replicate 4 (.changed 5 [47, 100]) ++ [.tick 6 5, .tick 7 5, .tick 8 5, .tick 9 5, .tick 10 5, .tick 11 5]

/-- The directory is monitored again while `f` is busy. -/
theorem two_floods_resumed :
    (run (partialStep (DnotifyState.step true)) (some (.new onlyFirst)) twoFloods).map
        (fun state => (suspended state.poll [47, 100], state.poll.loaded.map (watchedAt state.poll))) =
          some (false, [some [47, 100]]) ∧
      ¬ Throughout (partialStep (DnotifyState.step true)) (IfAny fun state => FlowBalanced state.poll)
        (some (.new onlyFirst)) twoFloods := by
  have final : (run (partialStep (DnotifyState.step true)) (some (.new onlyFirst)) twoFloods).map
      (fun state => (suspended state.poll [47, 100], state.poll.loaded.map (watchedAt state.poll))) =
        some (false, [some [47, 100]]) := by
    decide +kernel
  refine ⟨final, fun holds => ?_⟩
  obtain ⟨state, reached, outcome⟩ := Option.map_eq_some_iff.mp final
  have last := holds.last
  rw [reached] at last
  have balanced : FlowBalanced state.poll := last
  obtain ⟨resumed, busy⟩ := Prod.mk.inj outcome
  have there : some [47, 100] ∈ state.poll.loaded.map (watchedAt state.poll) := by
    rw [busy]
    exact List.mem_singleton_self _
  obtain ⟨path, member, place⟩ := List.mem_map.mp there
  have suspends : suspended state.poll [47, 100] = true := (balanced [47, 100]).mpr ⟨path, member, place⟩
  rw [resumed] at suspends
  exact absurd suspends Bool.false_ne_true

end Gamin.Polling
