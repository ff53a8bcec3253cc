import Gamin.Polling.Places

/-! # Runs of polling beside dnotify

The backend is called for subscriptions, by its timer, and for directories that dnotify has seen to change.
No two nodes come to have one path, and no node has one subscription twice.
-/

namespace Gamin.Polling

open Gamin Gamin.Server Gamin.Inotify Gamin.Library

/-! ## Runs -/

/-- The backend, and the subscriptions that it has taken and that have not been cancelled. -/
structure DnotifyState where
  poll : Poll
  subs : List GamSubscription

def DnotifyState.new (views : Nat → FsView) : DnotifyState :=
  { poll := .new views, subs := [] }

/-- What the backend is called for; the timer of `gam_poll_dnotify_init` always runs. -/
inductive DnotifyInput where
  | subscribe (now : Nat) (sub : GamSubscription)
  | cancel (sub : GamSubscription)
  | tick (now rounds : Nat)
  | changed (now : Nat) (path : Bytes)

/-- One call of the backend.  A subscription is a new object when it comes, and only one that is there is
cancelled.  There is no state after an assertion that fails. -/
def DnotifyState.step (handler : Bool) (state : DnotifyState) : DnotifyInput → Option DnotifyState
  | .subscribe now sub =>
    if sub ∈ state.subs then some state
    else
      (gamPollDnotifyAddSubscription handler state.poll now sub).map fun (poll, added) =>
        { poll := poll, subs := if added then sub :: state.subs else state.subs }
  | .cancel sub =>
    if sub ∈ state.subs then
      (gamPollDnotifyRemoveSubscription handler state.poll sub).map fun poll =>
        { poll := poll, subs := state.subs.filter (· ≠ sub) }
    else some state
  | .tick now rounds => some { state with poll := gamPollDnotifyScanCallback handler state.poll now rounds }
  | .changed now path =>
    some { state with poll := gamPollGenericScanDirectory (gamPollDnotifyPollFile handler) state.poll now path }

/-! ## Operations -/

section

variable {handler : Bool} {property : Poll → Prop} {poll after : Poll} {sub : GamSubscription}

/-- A node gets a subscription, and is polled if the kernel may not watch it. -/
theorem SubsRule.nodeAddSubscription (rule : SubsRule property) (kept : PollKept property) {added : Bool}
    (done : Polling.nodeAddSubscription handler poll sub.path sub = some (after, added)) (holds : property poll) :
    property after := by
  unfold Polling.nodeAddSubscription at done
  cases found : gamTreeGetAtPath poll sub.path with
  | none =>
    simp only [found, Option.some.injEq, Prod.mk.injEq] at done
    exact done.1 ▸ holds
  | some node =>
    simp only [found] at done
    split at done
    case isTrue =>
      cases done
      exact holds
    case isFalse =>
      obtain ⟨next, listed, outcome⟩ := Option.map_eq_some_iff.mp done
      have holdsNext := rule.gamNodeAddSubscription listed holds
      by_cases new : sub ∈ node.subs
      · simp [Polling.gamNodeAddSubscription, found, new] at listed
      · obtain ⟨written, here⟩ := gamNodeAddSubscription_eq found new
        rw [written, Option.some.injEq] at listed
        rw [listed] at here
        have own := gamTreeGetAtPath_path here
        split at outcome
        case isTrue =>
          -- what is excluded from the kernel is polled
          cases outcome
          split
          · rw [← own] at here ⊢
            refine kept.addMissing ?_ (kept.polled (gamPollDnotifyPollFile_writing handler) here holdsNext)
            exact sameSubs_frame.known (gamPollDnotifyPollFile_keeps handler _ _ here) (Option.isSome_of_eq_some here)
          · exact kept.addMissing (Option.isSome_of_eq_some here) holdsNext
        case isFalse =>
          cases outcome
          exact kept.write (.watches (watchesOnly_triggerHandler handler next node (.inl rfl))) holdsNext

theorem SubsRule.nodeRemoveSubscription (rule : SubsRule property) (kept : PollKept property) {node : GamNode}
    {path : Bytes} (found : gamTreeGetAtPath poll path = some node)
    (lost : Polling.nodeRemoveSubscription handler poll node sub = some after) (holds : property poll) :
    property after := by
  unfold Polling.nodeRemoveSubscription at lost
  split at lost
  case isTrue =>
    cases lost
    exact holds
  case isFalse =>
    obtain ⟨next, written, rfl⟩ := Option.map_eq_some_iff.mp lost
    have holdsNext := rule.gamNodeRemoveSubscription found written holds
    have left : property (if subsAt next node.path = [] then leaveLoaded next node.path else next) := by
      split
      · exact kept.write (.loaded _) holdsNext
      · exact holdsNext
    generalize (if subsAt next node.path = [] then leaveLoaded next node.path else next) = settled at left ⊢
    dsimp only
    split
    · exact kept.write (.watches (watchesOnly_triggerHandler handler settled node (.inr rfl))) left
    · exact left

theorem DnotifyRule.subscribedNode {guard : DnotifyGuard} (rule : DnotifyRule handler guard property)
    (adds : ∀ poll path, addAtPathSafe guard.toWriteGuard poll path = true)
    (misses : ∀ {poll path}, (gamTreeGetAtPath poll path).isSome → property poll →
      property (gamPollGenericAddMissing poll path))
    {node : GamNode} (found : gamTreeGetAtPath poll node.path = some node) (own : node.path = sub.path)
    (safe : dnotifyFirstPollSafe guard.toWriteGuard handler poll sub node = true) (holds : property poll) :
    property (dnotifySubscribedNode handler poll sub node) := by
  have polled := rule.dnotifyFirstPoll found own safe holds
  have subscribed : dnotifySubscribedNode handler poll sub node =
      (let poll := dnotifyFirstPoll handler poll sub node
      let unwatched := ((gamTreeGetAtPath poll node.path).map fun node =>
        node.pflags.missing || node.pflags.nokernel).getD false
      Polling.addPolled (if unwatched then gamPollGenericAddMissing poll node.path else poll) sub node.path
        node.isDir) := rfl
  rw [subscribed]
  generalize dnotifyFirstPoll handler poll sub node = first at polled ⊢
  refine rule.addPolled adds _ _ _ ?_
  split
  case isTrue unwatched =>
    refine misses ?_ polled
    cases there : gamTreeGetAtPath first node.path with
    | none => simp [there] at unwatched
    | some other => rfl
  case isFalse => exact polled

/-- What every operation keeps is kept by a call. -/
theorem DnotifyRule.step (rule : DnotifyRule handler .free property) (kept : PollKept property)
    (subs : SubsRule property) {state after : DnotifyState} {input : DnotifyInput}
    (stepped : state.step handler input = some after) (holds : property state.poll) : property after.poll := by
  cases input with
  | subscribe now sub =>
    simp only [DnotifyState.step] at stepped
    split at stepped
    case isTrue =>
      cases stepped
      exact holds
    case isFalse =>
      obtain ⟨⟨poll, added⟩, subscribed, rfl⟩ := Option.map_eq_some_iff.mp stepped
      obtain ⟨⟨next, listed⟩, done, outcome⟩ := Option.map_eq_some_iff.mp subscribed
      -- the path comes into the tree, the subscription to its node, and then the node is polled
      have tree := rule.gamTreeAddAtPath sub.isDir (addAtPathSafe_free _ sub.path) (rule.clock now holds)
      have holdsNext := subs.nodeAddSubscription kept done tree
      dsimp only at outcome
      split at outcome
      case h_1 node found =>
        cases outcome
        have own := gamTreeGetAtPath_path found
        rw [← own] at found
        exact rule.subscribedNode addAtPathSafe_free kept.addMissing found own
          (dnotifyFirstPollSafe_free handler next sub node) holdsNext
      case h_2 =>
        cases outcome
        exact holdsNext
  | cancel sub =>
    simp only [DnotifyState.step] at stepped
    split at stepped
    case isTrue =>
      obtain ⟨poll, removed, rfl⟩ := Option.map_eq_some_iff.mp stepped
      exact rule.toRemovalRule.dnotifyRemoveSubscription removed (fun _ => holds) fun node next found lost =>
        subs.nodeRemoveSubscription kept found lost holds
    case isFalse =>
      cases stepped
      exact holds
  | tick now rounds =>
    cases stepped
    exact rule.scanCallback (DnotifyGuard.free_easy.scanCallback handler _ now rounds) holds
  | changed now path =>
    cases stepped
    exact rule.scanChanged (dnotifyScanDirectorySafe_free handler _ now path) holds

end

/-! ## Paths do not repeat -/

theorem pollKept_distinct : PollKept fun poll => poll.paths.Nodup where
  write write distinct := by
    rw [Poll.paths, write.nodes]
    exact distinct
  setNode _ _ distinct := by rwa [Poll.setNode_paths]

theorem subsRule_distinct : SubsRule fun poll => poll.paths.Nodup where
  subscribed _ _ _ distinct := by rwa [Poll.setNode_paths]
  cancelled _ distinct := by rwa [Poll.setNode_paths]

theorem distinct_removed {poll : Poll} (distinct : poll.paths.Nodup) (path : Bytes) :
    (gamTreeRemove (gamPollGenericUnregisterNode poll path) path).paths.Nodup :=
  distinct.sublist (List.filter_sublist.map _)

theorem dnotifyRule_distinct (handler : Bool) : DnotifyRule handler .free fun poll => poll.paths.Nodup where
  toFirstRule :=
    (distinctRule (gamPollDnotifyPollFile_keeps handler) (gamPollDnotifyPollFile_places handler)).firstRule
  unregistered _ distinct := distinct
  removed _ _ distinct := distinct_removed distinct _
  listed {poll path} distinct := by
    rw [(samePlaces_frame.add (.refl poll) path).paths]
    exact distinct
  unbusied distinct := distinct
  relisted _ _ distinct := pollKept_distinct.relisted handler _ distinct
  settled _ _ _ distinct :=
    pollKept_distinct.flowControl handler _ false (pollKept_distinct.write (.settled _) distinct)

/-- No call puts a second node at a path. -/
theorem distinct_throughout (handler : Bool) (views : Nat → FsView) (inputs : List DnotifyInput) :
    Throughout (partialStep (DnotifyState.step handler)) (IfAny fun state => state.poll.paths.Nodup)
      (some (.new views)) inputs :=
  .of_partial_kept (fun _ _ _ distinct stepped =>
    (dnotifyRule_distinct handler).step pollKept_distinct subsRule_distinct stepped distinct)
    (show (Poll.new views).paths.Nodup from List.nodup_nil) inputs

/-! ## A subscription is at its node once -/

/-- The assertion of `gam_node_add_subscription` holds of every list in the tree. -/
def SubsOnce (poll : Poll) : Prop :=
  ∀ path, (subsAt poll path).Nodup

theorem SubsOnce.node {poll : Poll} (once : SubsOnce poll) {node : GamNode}
    (found : gamTreeGetAtPath poll node.path = some node) : node.subs.Nodup := by
  have here := once node.path
  rwa [subsAt, found, Option.map_some, Option.getD_some] at here

/-- A path has the same subscriptions, also where a node has come or gone that has none. -/
theorem SameSubs.subsAt {before after : Poll} (same : SameSubs before after) (path : Bytes) :
    subsAt after path = subsAt before path := by
  cases found : gamTreeGetAtPath before path with
  | some node =>
    obtain ⟨next, foundNext, subs⟩ := same.keeps path node found
    simp only [Polling.subsAt, found, foundNext, Option.map_some, Option.getD_some, subs]
  | none =>
    cases foundNext : gamTreeGetAtPath after path with
    | none => simp only [Polling.subsAt, found, foundNext]
    | some next =>
      have bare : next.subs = [] := by
        refine List.eq_nil_iff_forall_not_mem.mpr fun sub subscribed => ?_
        obtain ⟨old, member, samePath, _⟩ := same.source next (gamTreeGetAtPath_mem foundNext) sub subscribed
        have known : (gamTreeGetAtPath before path).isSome := by
          rw [gamTreeGetAtPath_isSome, ← gamTreeGetAtPath_path foundNext, ← samePath]
          exact List.mem_map_of_mem member
        rw [found] at known
        contradiction
      simp only [Polling.subsAt, found, foundNext, Option.map_some, Option.map_none, Option.getD_some,
        Option.getD_none, bare]

theorem SameSubs.once {before after : Poll} (same : SameSubs before after) (once : SubsOnce before) :
    SubsOnce after := by
  intro path
  rw [same.subsAt]
  exact once path

theorem SubsOnce.setNode {poll : Poll} (once : SubsOnce poll) {node : GamNode}
    (known : (gamTreeGetAtPath poll node.path).isSome) (own : node.subs.Nodup) : SubsOnce (poll.setNode node) := by
  intro path
  by_cases here : path = node.path
  · rw [here, subsAt_setNode_self known]
    exact own
  · rw [subsAt_setNode_other poll here]
    exact once path

theorem pollKept_once : PollKept SubsOnce where
  write {poll _} write once := ((SameSubs.refl poll).of_nodes write.nodes).once once
  setNode {_ node} place subs once := by
    obtain ⟨old, found, _⟩ := Option.map_eq_some_iff.mp place
    refine once.setNode (Option.isSome_of_eq_some found) ?_
    rw [← subs]
    exact once node.path

theorem subsRule_once : SubsRule SubsOnce where
  subscribed found _ new once :=
    once.setNode (Option.isSome_of_eq_some found) (List.nodup_cons.mpr ⟨new, once.node found⟩)
  cancelled found once := once.setNode (Option.isSome_of_eq_some found) ((once.node found).filter _)

theorem plainRule_once {pollFile : PollFile} (hook : WritingHook pollFile) : PlainRule pollFile .free SubsOnce where
  hook := hook.keeps
  elsewhere {poll} _ _ _ once := ((SameSubs.refl poll).of_nodes rfl).once once
  polled found _ once := pollKept_once.polled hook found once
  added {poll _} _ bare _ _ once := ((SameSubs.refl poll).gamTreeAdd bare).once once
  cleared found once := pollKept_once.setFound found ⟨rfl, rfl, rfl⟩ once
  missed {poll sub dpath} _ once := (sameSubs_frame.firstScanMissing poll sub dpath).once once

/-- Nodes only go when they have no subscriptions. -/
theorem once_removed {poll : Poll} (once : SubsOnce poll) {path : Bytes} (bare : subsAt poll path = []) :
    SubsOnce (gamTreeRemove (gamPollGenericUnregisterNode poll path) path) := by
  intro other
  rcases gamTreeRemove_prunes bare other with same | ⟨gone, _⟩
  · rw [subsAt, same]
    exact once other
  · rw [subsAt, gone]
    exact List.nodup_nil

theorem basicRule_once : BasicRule .free SubsOnce where
  toFirstRule := (plainRule_once gamPollBasicPollFile_writing).firstRule
  missing known once := pollKept_once.addMissing known once
  listed {poll path} _ once := (sameSubs_frame.add (.refl poll) path).once once
  found once := pollKept_once.write (.found _) once
  unregistered {poll _} _ once := ((SameSubs.refl poll).of_nodes rfl).once once
  removed bare _ once := once_removed once bare

theorem dnotifyRule_once (handler : Bool) : DnotifyRule handler .free SubsOnce where
  toFirstRule := (plainRule_once (gamPollDnotifyPollFile_writing handler)).firstRule
  unregistered {poll _} _ once := ((SameSubs.refl poll).of_nodes rfl).once once
  removed bare _ once := once_removed once bare
  listed {poll path} once := (sameSubs_frame.add (.refl poll) path).once once
  unbusied {poll _} once := ((SameSubs.refl poll).of_nodes rfl).once once
  relisted _ _ once := pollKept_once.relisted handler _ once
  settled _ _ _ once := pollKept_once.flowControl handler _ false (pollKept_once.write (.settled _) once)

theorem subsOnce_new (views : Nat → FsView) : SubsOnce (.new views) :=
  fun _ => List.nodup_nil

/-- No node has one subscription twice, in every run of both backends. -/
theorem subsOnce_throughout (views : Nat → FsView) :
    (∀ inputs, Throughout (partialStep BasicState.step) (IfAny fun state => SubsOnce state.poll)
      (some (.new views)) inputs) ∧
    ∀ handler inputs, Throughout (partialStep (DnotifyState.step handler)) (IfAny fun state => SubsOnce state.poll)
      (some (.new views)) inputs := by
  constructor
  · intro inputs
    exact .of_partial_kept (fun _ _ _ once stepped => basicRule_once.step subsRule_once stepped once)
      (show SubsOnce (BasicState.new views).poll from subsOnce_new views) inputs
  · intro handler inputs
    exact .of_partial_kept (fun _ _ _ once stepped =>
        (dnotifyRule_once handler).step pollKept_once subsRule_once stepped once)
      (show SubsOnce (DnotifyState.new views).poll from subsOnce_new views) inputs

end Gamin.Polling
