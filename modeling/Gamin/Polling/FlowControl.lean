import Gamin.Library.Occupancy
import Gamin.Polling.DnotifyRuns

/-! # Flow control

A directory is suspended while its counter of busy nodes in `gam_dnotify.c` is above zero.  The nodes that load control
has switched to polling are the guests of their directories: it should be suspended just as long as there is one.
-/

namespace Gamin.Polling

open Gamin Gamin.Server Gamin.Inotify Gamin.Library

/-- Kernel monitoring of the directory is suspended. -/
def suspended (poll : Poll) (dir : Bytes) : Bool := (poll.pathHash dir).any fun data => 0 < data.busy

/-- The directory whose watch is for the node at a path. -/
def watchedAt (poll : Poll) (path : Bytes) : Option Bytes := (gamTreeGetAtPath poll path).map GamNode.watched

/-- Every directory is suspended just if it, or a file in it, has been switched to polling by load control and has not
been switched back. -/
def FlowBalanced (poll : Poll) : Prop :=
  Balanced (fun dir => suspended poll dir = true) poll.loaded (watchedAt poll)

/-- Load control has switched a node of the directory to polling. -/
def busyIn (poll : Poll) (dir : Bytes) : Bool := poll.loaded.any fun path => watchedAt poll path = some dir

/-- So it has, besides the node at the path. -/
def busyBeside (poll : Poll) (path dir : Bytes) : Bool :=
  poll.loaded.any fun other => other ≠ path ∧ watchedAt poll other = some dir

theorem busyIn_iff {poll : Poll} {dir : Bytes} :
    busyIn poll dir = true ↔ ∃ path ∈ poll.loaded, watchedAt poll path = some dir := by
  simp [busyIn]

theorem busyBeside_iff {poll : Poll} {path dir : Bytes} :
    busyBeside poll path dir = true ↔ ∃ other ∈ poll.loaded, other ≠ path ∧ watchedAt poll other = some dir := by
  simp [busyBeside]

section

variable {poll after : Poll} {path dir : Bytes}

theorem suspended_congr (same : after.pathHash = poll.pathHash) : suspended after dir = suspended poll dir := by
  rw [suspended, same, suspended]

/-! ## Requests -/

theorem pathHash_setWatch (poll : Poll) (path : Bytes) (data : Option DNotifyData) (dir : Bytes) :
    (poll.setWatch path data).pathHash dir = if dir = path then data else poll.pathHash dir := by
  by_cases here : dir = path
  · subst here
    simp [Poll.setWatch]
  · simp [Poll.setWatch, here]

/-- What is left of an entry after so many deactivations. -/
def DNotifyData.lowered (times : Nat) (data : DNotifyData) : Option DNotifyData :=
  if 1 ≤ data.refcount ∧ data.refcount ≤ times then none else some { data with refcount := data.refcount - times }

theorem DNotifyData.lowered_zero (data : DNotifyData) : data.lowered 0 = some data := by
  unfold DNotifyData.lowered
  rw [if_neg (by omega)]
  rfl

theorem DNotifyData.lowered_succ (times : Nat) (data : DNotifyData) :
    (data.lowered 1).bind (DNotifyData.lowered times) = data.lowered (times + 1) := by
  unfold DNotifyData.lowered
  by_cases last : data.refcount = 1
  · rw [if_pos (by omega), Option.bind_none, if_pos (by omega)]
  · rw [if_neg (by omega), Option.bind_some]
    by_cases gone : 1 ≤ data.refcount ∧ data.refcount ≤ times + 1
    · rw [if_pos gone, if_pos (by dsimp only; omega)]
    · rw [if_neg gone, if_neg (by dsimp only; omega), Nat.sub_sub, Nat.add_comm 1]

/-- An entry that the deactivations take out was not higher than their number. -/
def releases (poll : Poll) (dir : Bytes) (times : Nat) : Bool :=
  (poll.pathHash dir).any fun data => 1 ≤ data.refcount ∧ data.refcount ≤ times

theorem suspended_lowered (entry : Option DNotifyData) (times : Nat) :
    (entry.bind (DNotifyData.lowered times)).any (fun data => 0 < data.busy) =
      (entry.any (fun data => 0 < data.busy) &&
        !entry.any fun data => 1 ≤ data.refcount ∧ data.refcount ≤ times) := by
  cases entry with
  | none => rfl
  | some data =>
    rw [Option.bind_some, DNotifyData.lowered]
    by_cases gone : 1 ≤ data.refcount ∧ data.refcount ≤ times
    · simp [gone]
    · rw [if_neg gone, Option.any_some, Option.any_some, Option.any_some, decide_eq_false gone]
      exact (Bool.and_true _).symm

theorem pathHash_deactivate (poll : Poll) (path dir : Bytes) :
    (deactivateWatch poll path).pathHash dir =
      if dir = path then (poll.pathHash path).bind (DNotifyData.lowered 1) else poll.pathHash dir := by
  unfold deactivateWatch
  cases entry : poll.pathHash path with
  | none =>
    by_cases here : dir = path
    · rw [if_pos here, here, entry, Option.bind_none]
    · rw [if_neg here]
  | some data =>
    dsimp only
    rw [Option.bind_some, DNotifyData.lowered]
    by_cases last : data.refcount = 1
    · rw [if_pos last, if_pos (show 1 ≤ data.refcount ∧ data.refcount ≤ 1 by omega)]
      exact pathHash_setWatch poll path none dir
    · rw [if_neg last, if_neg (show ¬ (1 ≤ data.refcount ∧ data.refcount ≤ 1) by omega)]
      exact pathHash_setWatch poll path _ dir

/-- A new watch is not suspended. -/
theorem suspended_activate (poll : Poll) (path dir : Bytes) :
    suspended (activateWatch poll path) dir = suspended poll dir := by
  unfold activateWatch
  cases entry : poll.pathHash path with
  | some data =>
    simp only
    rw [suspended, pathHash_setWatch, suspended]
    split
    case isTrue here => rw [here, entry]; rfl
    case isFalse => rfl
  | none =>
    simp only
    split
    · rw [suspended, pathHash_setWatch, suspended]
      split
      case isTrue here => rw [here, entry]; rfl
      case isFalse => rfl
    · rfl

theorem suspended_suspend (poll : Poll) (path dir : Bytes) :
    suspended (suspendWatch poll path) dir =
      if dir = path then (poll.pathHash path).isSome else suspended poll dir := by
  unfold suspendWatch
  cases entry : poll.pathHash path with
  | none =>
    simp only [Option.isSome_none]
    split
    case isTrue here => rw [here, suspended, entry]; rfl
    case isFalse => rfl
  | some data =>
    simp only [Option.isSome_some]
    rw [suspended, pathHash_setWatch]
    split
    case isTrue here => simp
    case isFalse => rfl

theorem suspended_resume (poll : Poll) (path dir : Bytes) :
    suspended (resumeWatch poll path) dir =
      if dir = path then (poll.pathHash path).any (fun data => 1 < data.busy) else suspended poll dir := by
  unfold resumeWatch
  cases entry : poll.pathHash path with
  | none =>
    simp only [Option.any_none]
    split
    case isTrue here => rw [here, suspended, entry]; rfl
    case isFalse => rfl
  | some data =>
    simp only [Option.any_some]
    by_cases none : data.busy = 0
    · rw [if_pos none]
      split
      case isTrue here => rw [here, suspended, entry, Option.any_some, none]; rfl
      case isFalse => rfl
    · rw [if_neg none]
      by_cases last : data.busy = 1
      · rw [if_pos last, suspended, pathHash_setWatch]
        split
        case isTrue here => simp [last]
        case isFalse => rfl
      · rw [if_neg last, suspended, pathHash_setWatch]
        split
        case isTrue here =>
          rw [Option.any_some, decide_eq_decide]
          dsimp only
          omega
        case isFalse => rfl

/-- A request about a node gets to dnotify. -/
def triggers (handler : Bool) (node : GamNode) : Bool := handler ∧ node.monType = .kernel

theorem triggerHandler_deactivate (handler : Bool) (poll : Poll) (node : GamNode) :
    triggerHandler handler poll .deactivate node =
      if triggers handler node then deactivateWatch poll node.watched else poll := by
  unfold triggerHandler gamPollGenericTriggerHandler triggers GamNode.watched
  by_cases handles : handler = true
  · by_cases kernel : node.monType = .kernel
    · by_cases isDir : node.isDir = true
      · simp [handles, kernel, isDir, gamDnotifyDirectoryHandlerInternal]
      · simp [handles, kernel, isDir, gamDnotifyDirectoryHandlerInternal]
    · simp [handles, kernel]
  · simp [handles]

theorem suspended_activated (handler : Bool) (poll : Poll) (node : GamNode) (dir : Bytes) :
    suspended (triggerHandler handler poll .activate node) dir = suspended poll dir := by
  unfold triggerHandler gamPollGenericTriggerHandler
  split
  · split
    · rfl
    · split
      · exact suspended_activate poll _ dir
      · exact suspended_activate poll _ dir
  · rfl

/-- After so many requests.  By induction on them. -/
theorem pathHash_deactivated {Request : Type*} (handler : Bool) (poll : Poll) (node : GamNode) (requests : List Request)
    (dir : Bytes) :
    (requests.foldl (fun poll _ => triggerHandler handler poll .deactivate node) poll).pathHash dir =
      if triggers handler node ∧ dir = node.watched then
        (poll.pathHash dir).bind (DNotifyData.lowered requests.length)
      else poll.pathHash dir := by
  induction requests generalizing poll with
  | nil =>
    have kept : (poll.pathHash dir).bind (DNotifyData.lowered 0) = poll.pathHash dir := by
      cases poll.pathHash dir with
      | none => rfl
      | some data => exact data.lowered_zero
    rw [List.foldl_nil, List.length_nil, kept, ite_self]
  | cons request requests inductionHypothesis =>
    rw [List.foldl_cons, inductionHypothesis, triggerHandler_deactivate]
    by_cases gets : triggers handler node = true
    · rw [if_pos gets]
      by_cases here : dir = node.watched
      · subst here
        rw [if_pos ⟨gets, rfl⟩, if_pos ⟨gets, rfl⟩, pathHash_deactivate, if_pos rfl, Option.bind_assoc,
          List.length_cons]
        exact congrArg _ (funext fun data => data.lowered_succ requests.length)
      · have there : ¬ (triggers handler node = true ∧ dir = node.watched) := fun both => here both.2
        rw [if_neg there, if_neg there, pathHash_deactivate, if_neg here]
    · rw [if_neg gets, if_neg (fun both => gets both.1), if_neg (fun both => gets both.1)]

/-- A node gives its watch up, and nothing holds it any more. -/
def givesUp (handler : Bool) (poll : Poll) (node : GamNode) (times : Nat) : Bool :=
  triggers handler node && releases poll node.watched times

theorem suspended_deactivated {Request : Type*} (handler : Bool) (poll : Poll) (node : GamNode)
    (requests : List Request) (dir : Bytes) :
    suspended (requests.foldl (fun poll _ => triggerHandler handler poll .deactivate node) poll) dir =
      (suspended poll dir && !(decide (dir = node.watched) && givesUp handler poll node requests.length)) := by
  rw [suspended, pathHash_deactivated, givesUp]
  by_cases here : dir = node.watched
  · by_cases gets : triggers handler node = true
    · rw [if_pos ⟨gets, here⟩, suspended_lowered, decide_eq_true here, gets, releases, ← here]
      rfl
    · rw [if_neg (fun both => gets both.1), eq_false_of_ne_true gets, Bool.false_and, Bool.and_false, Bool.not_false,
        Bool.and_true]
      rfl
  · rw [if_neg (fun both => here both.2), decide_eq_false here, Bool.false_and, Bool.not_false, Bool.and_true]
    rfl

/-! ## Flow control -/

/-- The mark of the parent is not as the request would have it. -/
def parentDiffers (poll : Poll) (parent : Option Bytes) (start : Bool) : Bool :=
  match parent with
  | none => poll.rootBusy ≠ start
  | some path => (gamTreeGetAtPath poll path).any fun node => node.pflags.busy ≠ start

/-- A request for flow control gets to dnotify; for a file only if the mark of the parent changes. -/
def flowTriggers (handler : Bool) (poll : Poll) (node : GamNode) (start : Bool) : Bool :=
  kernelMonitored poll node.path && triggers handler node && (node.isDir || parentDiffers poll node.parent start)

/-- A request for flow control moves no node, and busy nodes stay busy. -/
theorem switchFlow_places (poll : Poll) (path listed : Bytes) (start : Bool) :
    (switchFlow poll path listed start).nodes = poll.nodes ∧
      (switchFlow poll path listed start).loaded = poll.loaded := by
  unfold switchFlow
  split
  · have only := watchesOnly_handler poll path .flowControlStart
    obtain ⟨busy, written⟩ := gamPollGenericAddBusy_writes
      (gamDnotifyDirectoryHandlerInternal poll path .flowControlStart) listed
    rw [written]
    exact ⟨only.nodes, only.loaded⟩
  · have only := watchesOnly_handler poll path .flowControlStop
    exact ⟨only.nodes, only.loaded⟩

theorem pathHash_switchFlow (poll : Poll) (path listed : Bytes) (start : Bool) :
    (switchFlow poll path listed start).pathHash =
      (if start then suspendWatch poll path else resumeWatch poll path).pathHash := by
  cases start with
  | true =>
    obtain ⟨busy, written⟩ := gamPollGenericAddBusy_writes
      (gamDnotifyDirectoryHandlerInternal poll path .flowControlStart) listed
    rw [switchFlow, if_pos rfl, written]
    rfl
  | false => rfl

theorem pathHash_triggerParent (poll : Poll) (parent : Option Bytes) (start : Bool) :
    (triggerParent poll parent start).pathHash =
      if parentDiffers poll parent start then
        (if start then suspendWatch poll (parentDir parent) else resumeWatch poll (parentDir parent)).pathHash
      else poll.pathHash := by
  cases parent with
  | none =>
    unfold triggerParent parentDiffers
    dsimp only
    by_cases marked : poll.rootBusy = start
    · rw [if_pos marked, if_neg (by simpa using marked)]
    · rw [if_neg marked, if_pos (by simpa using marked)]
      exact pathHash_switchFlow poll [slash] [] start
  | some path =>
    cases found : gamTreeGetAtPath poll path with
    | none => simp [triggerParent, parentDiffers, found]
    | some node =>
      obtain rfl := gamTreeGetAtPath_path found
      simp only [triggerParent, parentDiffers, found, Option.any_some]
      by_cases marked : node.pflags.busy = start
      · rw [if_pos marked, if_neg (by simpa using marked)]
      · rw [if_neg marked, if_pos (by simpa using marked)]
        exact pathHash_switchFlow poll node.path node.path start

theorem pathHash_flowControl (handler : Bool) (poll : Poll) (node : GamNode) (start : Bool) :
    (flowControl handler poll node start).pathHash =
      if flowTriggers handler poll node start then
        (if start then suspendWatch poll node.watched else resumeWatch poll node.watched).pathHash
      else poll.pathHash := by
  unfold flowControl triggerHandler gamPollGenericTriggerHandler flowTriggers triggers GamNode.watched
  by_cases monitored : kernelMonitored poll node.path = true
  · by_cases handles : handler = true
    · by_cases kernel : node.monType = .kernel
      · by_cases isDir : node.isDir = true
        · cases start with
          | true => simp [monitored, handles, kernel, isDir, gamDnotifyDirectoryHandlerInternal]
          | false => simp [monitored, handles, kernel, isDir, gamDnotifyDirectoryHandlerInternal]
        · cases start with
          | true => simp [monitored, handles, kernel, isDir, pathHash_triggerParent]
          | false => simp [monitored, handles, kernel, isDir, pathHash_triggerParent]
      · simp [monitored, handles, kernel]
    · simp [monitored, handles]
  · simp [monitored]

/-- A request to start suspends a directory that has a watch. -/
theorem suspended_started (handler : Bool) (poll : Poll) (node : GamNode) (dir : Bytes) :
    suspended (flowControl handler poll node true) dir =
      (suspended poll dir ||
        (decide (dir = node.watched) && flowTriggers handler poll node true && (poll.pathHash dir).isSome)) := by
  have same := pathHash_flowControl handler poll node true
  simp only [if_true] at same
  by_cases gets : flowTriggers handler poll node true = true
  · rw [if_pos gets] at same
    rw [suspended_congr same, suspended_suspend, gets, Bool.and_true]
    split
    case isTrue here =>
      subst here
      rw [decide_eq_true rfl, Bool.true_and, suspended]
      cases poll.pathHash node.watched <;> simp
    case isFalse there => rw [decide_eq_false there, Bool.false_and, Bool.or_false]
  · rw [if_neg gets] at same
    rw [suspended_congr same, eq_false_of_ne_true gets, Bool.and_false, Bool.false_and, Bool.or_false]

/-- A request to stop is the last one that the directory waits for. -/
def flowEnds (handler : Bool) (poll : Poll) (node : GamNode) : Bool :=
  flowTriggers handler poll node false && (poll.pathHash node.watched).any fun data => data.busy = 1

theorem suspended_stopped (handler : Bool) (poll : Poll) (node : GamNode) (dir : Bytes) :
    suspended (flowControl handler poll node false) dir =
      (suspended poll dir && !(decide (dir = node.watched) && flowEnds handler poll node)) := by
  have same := pathHash_flowControl handler poll node false
  simp only [Bool.false_eq_true, if_false] at same
  rw [flowEnds]
  by_cases gets : flowTriggers handler poll node false = true
  · rw [if_pos gets] at same
    rw [suspended_congr same, suspended_resume, gets, Bool.true_and]
    split
    case isTrue here =>
      subst here
      rw [decide_eq_true rfl, Bool.true_and, suspended]
      cases poll.pathHash node.watched with
      | none => rfl
      | some data =>
        rw [Option.any_some, Option.any_some, Option.any_some, Bool.eq_iff_iff]
        simp only [decide_eq_true_eq, Bool.and_eq_true, Bool.not_eq_true', decide_eq_false_iff_not]
        omega
    case isFalse there => rw [decide_eq_false there, Bool.false_and, Bool.not_false, Bool.and_true]
  · rw [if_neg gets] at same
    rw [suspended_congr same, eq_false_of_ne_true gets, Bool.false_and, Bool.and_false, Bool.not_false, Bool.and_true]

/-! ## How often a directory is suspended -/

/-- No directory is suspended twice. -/
def SuspendedOnce (poll : Poll) : Prop := ∀ dir data, poll.pathHash dir = some data → data.busy ≤ 1

theorem SuspendedOnce.congr (once : SuspendedOnce poll) (same : after.pathHash = poll.pathHash) : SuspendedOnce after :=
  fun dir data entry => once dir data (same ▸ entry)

theorem SuspendedOnce.setWatch (once : SuspendedOnce poll) {entry : Option DNotifyData}
    (least : ∀ data, entry = some data → data.busy ≤ 1) : SuspendedOnce (poll.setWatch path entry) := by
  intro dir data found
  rw [pathHash_setWatch] at found
  split at found
  · exact least data found
  · exact once dir data found

theorem SuspendedOnce.deactivated {Request : Type*} (once : SuspendedOnce poll) (handler : Bool) (node : GamNode)
    (requests : List Request) :
    SuspendedOnce (requests.foldl (fun poll _ => triggerHandler handler poll .deactivate node) poll) := by
  intro dir data entry
  rw [pathHash_deactivated] at entry
  split at entry
  case isFalse => exact once dir data entry
  case isTrue =>
    obtain ⟨old, found, lowered⟩ := Option.bind_eq_some_iff.mp entry
    unfold DNotifyData.lowered at lowered
    split at lowered
    · contradiction
    · cases lowered
      exact once dir old found

theorem SuspendedOnce.activate (once : SuspendedOnce poll) (path : Bytes) :
    SuspendedOnce (activateWatch poll path) := by
  have called : SuspendedOnce poll.called := once
  unfold activateWatch
  cases entry : poll.pathHash path with
  | some data =>
    refine once.setWatch fun next found => ?_
    cases found
    exact once path data entry
  | none =>
    dsimp only
    split
    · refine called.setWatch fun next found => ?_
      cases found
      exact Nat.zero_le 1
    · exact called

theorem SuspendedOnce.activated (once : SuspendedOnce poll) (handler : Bool) (node : GamNode) :
    SuspendedOnce (triggerHandler handler poll .activate node) := by
  unfold triggerHandler gamPollGenericTriggerHandler
  split
  · split
    · exact once
    · split
      · exact once.activate _
      · exact once.activate _
  · exact once

/-- A request to start finds a directory that is not suspended. -/
theorem SuspendedOnce.started (once : SuspendedOnce poll) {handler : Bool} {node : GamNode}
    (idle : flowTriggers handler poll node true = true → suspended poll node.watched = false) :
    SuspendedOnce (flowControl handler poll node true) := by
  have same := pathHash_flowControl handler poll node true
  split at same
  case isFalse => exact once.congr same
  case isTrue gets =>
    refine SuspendedOnce.congr ?_ same
    rw [if_pos rfl, suspendWatch]
    cases entry : poll.pathHash node.watched with
    | none => exact once
    | some data =>
      dsimp only
      have unsuspended : data.busy = 0 := by simpa [suspended, entry] using idle gets
      refine once.setWatch fun next found => ?_
      cases found
      exact unsuspended ▸ le_rfl

theorem SuspendedOnce.stopped (once : SuspendedOnce poll) (handler : Bool) (node : GamNode) :
    SuspendedOnce (flowControl handler poll node false) := by
  have same := pathHash_flowControl handler poll node false
  split at same
  case isFalse => exact once.congr same
  case isTrue =>
    refine SuspendedOnce.congr ?_ same
    simp only [Bool.false_eq_true, if_false, resumeWatch]
    cases entry : poll.pathHash node.watched with
    | none => exact once
    | some data =>
      dsimp only
      split
      · exact once
      · have called : SuspendedOnce poll.called := once
        split
        · refine called.setWatch fun next found => ?_
          cases found
          exact Nat.zero_le 1
        · refine once.setWatch fun next found => ?_
          cases found
          exact (Nat.sub_le _ _).trans (once node.watched data entry)

/-- The one request that the directory waits for. -/
theorem SuspendedOnce.ends (once : SuspendedOnce poll) {handler : Bool} {node : GamNode}
    (gets : flowTriggers handler poll node false = true) (waits : suspended poll node.watched = true) :
    flowEnds handler poll node = true := by
  rw [flowEnds, gets, Bool.true_and]
  unfold suspended at waits
  cases entry : poll.pathHash node.watched with
  | none => simp [entry] at waits
  | some data =>
    have least := once node.watched data entry
    simp only [entry, Option.any_some, decide_eq_true_eq] at waits ⊢
    omega

end

end Gamin.Polling
