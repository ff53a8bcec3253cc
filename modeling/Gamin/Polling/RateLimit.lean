import Gamin.Library.RateLimits
import Gamin.Polling.Entries

/-! # How often a node is polled

The hooks return at once if too little time has passed since the `lasttime` of the node.  The hook of the
basic backend notes the time of every poll.  The hook beside dnotify leaves it out for a node that the
kernel may not monitor.
-/

namespace Gamin.Polling

open Gamin Gamin.Server Gamin.Inotify Gamin.Library

/-! ## Calls of the hooks -/

/-- A call of one of the hooks for a node, after the clock has been read. -/
structure PollCall where
  backend : PollBackend
  now : Nat

/-- Whether the node has its status looked up. -/
def polls (path : Bytes) (poll : Poll) (call : PollCall) : Bool :=
  match gamTreeGetAtPath poll path with
  | none => false
  | some node => ¬ tooSoon { poll with currentTime := call.now } node

def callStep (path : Bytes) (poll : Poll) (call : PollCall) : Poll :=
  match gamTreeGetAtPath poll path with
  | none => { poll with currentTime := call.now }
  | some node => (call.backend.pollFile { poll with currentTime := call.now } node).1

/-- The calls as requests to poll the node. -/
def pollTrace (path : Bytes) : Poll → List PollCall → List Request
  | _, [] => []
  | poll, call :: calls =>
    { now := call.now, taken := polls path poll call } :: pollTrace path (callStep path poll call) calls

/-- The flag of a node that the kernel may not monitor survives the poll: a node that is found deleted
loses it. -/
def staysProhibited (poll : Poll) (node : GamNode) : Bool :=
  node.pflags.nokernel ∧ ¬ (poll.view.stat node.path = .noent ∧ ¬ node.pflags.missing)

/-- The condition on the state before a call.  A node without a poll time is polled by every call.  For the
others the clock does not stand at zero, it is not behind the last poll, and if the call is to poll a node
beside dnotify again, it is not one that the kernel may not monitor. -/
def KeepsTime (path : Bytes) (poll : Poll) (call : PollCall) : Prop :=
  ∀ node, gamTreeGetAtPath poll path = some node → node.pollTime = 0 ∨
    0 < call.now ∧ node.lasttime ≤ call.now ∧
      (call.backend = .basic ∨ node.lasttime = 0 ∨ tooSoon { poll with currentTime := call.now } node = true ∨
        staysProhibited poll node = false)

instance (path : Bytes) (poll : Poll) (call : PollCall) : Decidable (KeepsTime path poll call) :=
  decidable_of_iff (∀ node ∈ gamTreeGetAtPath poll path, node.pollTime = 0 ∨
    0 < call.now ∧ node.lasttime ≤ call.now ∧
      (call.backend = .basic ∨ node.lasttime = 0 ∨ tooSoon { poll with currentTime := call.now } node = true ∨
        staysProhibited poll node = false)) Iff.rfl

/-! ## What a poll does to the time -/

/-- The node is in the tree, with this poll time, and was polled at this time. -/
def PolledAt (poll : Poll) (path : Bytes) (pollTime lasttime : Nat) : Prop :=
  ∃ node, gamTreeGetAtPath poll path = some node ∧ node.pollTime = pollTime ∧ node.lasttime = lasttime

theorem polledAt_setNode {poll : Poll} {node : GamNode} (there : (gamTreeGetAtPath poll node.path).isSome) :
    PolledAt (poll.setNode node) node.path node.pollTime node.lasttime := by
  obtain ⟨old, found⟩ := Option.isSome_iff_exists.mp there
  refine ⟨node, ?_, rfl, rfl⟩
  rw [gamTreeGetAtPath_setNode, found, Option.map_some, if_pos (gamTreeGetAtPath_path found)]

theorem SamePlaces.there {before after : Poll} (same : SamePlaces before after) {path : Bytes}
    (there : (gamTreeGetAtPath before path).isSome) : (gamTreeGetAtPath after path).isSome := by
  have place := same.parents path
  rw [parentAt, parentAt] at place
  rw [← Option.isSome_map, place, Option.isSome_map]
  exact there

theorem PolledAt.of_nodes {poll after : Poll} {path : Bytes} {pollTime lasttime : Nat}
    (polled : PolledAt poll path pollTime lasttime) (nodes : after.nodes = poll.nodes) :
    PolledAt after path pollTime lasttime := by
  obtain ⟨node, found, times⟩ := polled
  refine ⟨node, ?_, times⟩
  rw [gamTreeGetAtPath, nodes]
  exact found

/-- What a hook makes of a node. -/
structure Restamps (node next : GamNode) (lasttime : Nat) : Prop where
  path : next.path = node.path
  pollTime : next.pollTime = node.pollTime
  lasttime : next.lasttime = lasttime

theorem Restamps.written {poll : Poll} {node next : GamNode} {lasttime : Nat} (restamps : Restamps node next lasttime)
    (there : (gamTreeGetAtPath poll node.path).isSome) :
    PolledAt (poll.setNode next) node.path node.pollTime lasttime := by
  rw [← restamps.path] at there
  rw [← restamps.path, ← restamps.pollTime, ← restamps.lasttime]
  exact polledAt_setNode there

theorem gamPollBasicPollFile_polledAt {poll : Poll} {node : GamNode}
    (found : gamTreeGetAtPath poll node.path = some node) (late : tooSoon poll node = false) :
    PolledAt (gamPollBasicPollFile poll node).1 node.path node.pollTime poll.currentTime := by
  have there : (gamTreeGetAtPath poll.called node.path).isSome := Option.isSome_of_eq_some found
  -- the lists do not matter
  have found {next : GamNode} (restamps : Restamps node next poll.currentTime) :
      PolledAt (gamPollGenericRemoveMissing (poll.called.setNode next) node.path) node.path node.pollTime
        poll.currentTime :=
    (restamps.written there).of_nodes rfl
  have deleted {next : GamNode} (restamps : Restamps node next poll.currentTime) :
      PolledAt (gamPollGenericAddMissing (gamPollGenericRemoveBusy (poll.called.setNode next) node.path) node.path)
        node.path node.pollTime poll.currentTime := by
    refine (restamps.written there).of_nodes ?_
    unfold gamPollGenericAddMissing
    split <;> rfl
  simp only [gamPollBasicPollFile, late, Bool.false_eq_true, if_false]
  split
  · simp only [pollNewFile]
    split <;> exact Restamps.written ⟨rfl, rfl, rfl⟩ there
  · simp only [pollKnownFile]
    split
    · split
      · exact found ⟨rfl, rfl, rfl⟩
      · split <;> exact Restamps.written ⟨rfl, rfl, rfl⟩ there
    · split
      · exact deleted ⟨rfl, rfl, rfl⟩
      · exact Restamps.written ⟨rfl, rfl, rfl⟩ there

/-! ## Beside dnotify -/

section

variable (handler : Bool) (poll : Poll) (node : GamNode)

/-- The clock is not read during a poll. -/
theorem dnotifyStatFile_currentTime : (dnotifyStatFile handler poll node).1.currentTime = poll.currentTime := by
  simp only [dnotifyStatFile]
  split
  · split
    · rfl
    · split <;> rfl
  · split
    · simp only [dnotifyDeletedFile]
      split
      · unfold gamPollGenericAddMissing
        split <;> exact (watchesOnly_delist handler _ _).currentTime
      · rfl
    · rfl

theorem dnotifyStatFile_restamps : Restamps node (dnotifyStatFile handler poll node).2.1 node.lasttime := by
  simp only [dnotifyStatFile]
  split
  · split
    · exact ⟨rfl, rfl, rfl⟩
    · split <;> exact ⟨rfl, rfl, rfl⟩
  · split <;> exact ⟨rfl, rfl, rfl⟩

theorem dnotifyStatFile_nokernel :
    (dnotifyStatFile handler poll node).2.1.pflags.nokernel = staysProhibited poll node := by
  unfold staysProhibited
  simp only [dnotifyStatFile]
  split
  case h_1 sbuf found =>
    have known : ¬ (poll.view.stat node.path = .noent ∧ ¬ node.pflags.missing = true) := by
      rw [found]
      rintro ⟨isMissing, _⟩
      contradiction
    simp only [known, not_false_eq_true, and_true, Bool.decide_eq_true]
    split
    · rfl
    · split <;> rfl
  case h_2 =>
    split
    case isTrue deleted =>
      have overwritten : ¬ (node.pflags.nokernel = true ∧
          ¬ (poll.view.stat node.path = .noent ∧ ¬ node.pflags.missing = true)) := fun kept => kept.2 deleted
      rw [decide_eq_false overwritten]
      rfl
    case isFalse kept => simp only [kept, not_false_eq_true, and_true, Bool.decide_eq_true]

/-- Load control ends with the time of the poll. -/
theorem countChecks_restamps (event : Option GaminEventType) :
    Restamps node (countChecks poll node event) poll.currentTime := by
  simp only [countChecks]
  split
  case isTrue same => split <;> exact ⟨rfl, rfl, same.symm⟩
  case isFalse => split <;> exact ⟨rfl, rfl, rfl⟩

theorem switchToPolling_restamps : Restamps node (switchToPolling handler poll node).2 node.lasttime := by
  simp only [switchToPolling]
  split <;> exact ⟨rfl, rfl, rfl⟩

theorem switchToKernel_restamps (event : Option GaminEventType) :
    Restamps node (switchToKernel handler poll node event).2 node.lasttime := by
  simp only [switchToKernel]
  split <;> exact ⟨rfl, rfl, rfl⟩

end

/-- The time of a poll is noted but for a node that the kernel may not monitor. -/
theorem gamPollDnotifyPollFile_polledAt (handler : Bool) {poll : Poll} {node : GamNode}
    (found : gamTreeGetAtPath poll node.path = some node) (late : tooSoon poll node = false) :
    PolledAt (gamPollDnotifyPollFile handler poll node).1 node.path node.pollTime
      (if node.lasttime ≠ 0 ∧ staysProhibited poll node = true then node.lasttime else poll.currentTime) := by
  have there : (gamTreeGetAtPath poll node.path).isSome := Option.isSome_of_eq_some found
  simp only [gamPollDnotifyPollFile, late, Bool.false_eq_true, if_false]
  split
  case isTrue new =>
    rw [if_neg fun known => known.1 new]
    simp only [dnotifyPollNewFile]
    split <;> exact Restamps.written ⟨rfl, rfl, rfl⟩ there
  case isFalse known =>
    -- the clock is noted by the checks, which a node that is not for the kernel does not reach
    have monitored := dnotifyStatFile_nokernel handler poll node
    obtain ⟨same, rewrites⟩ := samePlaces_frame.statFile handler found
    have statted := dnotifyStatFile_restamps handler poll node
    have clock := dnotifyStatFile_currentTime handler poll node
    simp only [dnotifyPollKnownFile]
    generalize dnotifyStatFile handler poll node = outcome at same rewrites statted clock monitored ⊢
    obtain ⟨next, nextNode, event⟩ := outcome
    dsimp only at monitored clock ⊢
    rw [monitored]
    split
    case isTrue prohibited =>
      rw [if_pos ⟨known, prohibited⟩]
      exact statted.written (same.there there)
    case isFalse allowed =>
      rw [if_neg fun stays => allowed stays.2]
      have counted := countChecks_restamps next nextNode event
      have polling := switchToPolling_restamps handler next (countChecks next nextNode event)
      have known : (gamTreeGetAtPath poll (countChecks next nextNode event).path).isSome := by
        rwa [counted.path, statted.path]
      have toPolling := samePlaces_frame.switchToPolling same handler known
      generalize switchToPolling handler next (countChecks next nextNode event) = switched at polling toPolling ⊢
      have kernel := switchToKernel_restamps handler switched.1 switched.2 event
      have toKernel := samePlaces_frame.switchToKernel toPolling.1 handler switched.2 event
      have restamps : Restamps node (switchToKernel handler switched.1 switched.2 event).2 poll.currentTime :=
        ⟨by rw [kernel.path, polling.path, counted.path, statted.path],
          by rw [kernel.pollTime, polling.pollTime, counted.pollTime, statted.pollTime],
          by rw [kernel.lasttime, polling.lasttime, counted.lasttime, clock]⟩
      exact restamps.written (toKernel.1.there there)

/-! ## One call -/

theorem pollFile_tooSoon (backend : PollBackend) {poll : Poll} {node : GamNode} (early : tooSoon poll node = true) :
    backend.pollFile poll node = (poll, none) := by
  cases backend with
  | basic => exact if_pos early
  | dnotify handler => exact if_pos early

theorem callStep_found {path : Bytes} {poll : Poll} {node : GamNode}
    (found : gamTreeGetAtPath poll path = some node) (call : PollCall) :
    callStep path poll call = (call.backend.pollFile { poll with currentTime := call.now } node).1 := by
  simp only [callStep, found]

theorem polls_found {path : Bytes} {poll : Poll} {node : GamNode}
    (found : gamTreeGetAtPath poll path = some node) (call : PollCall) :
    polls path poll call = !tooSoon { poll with currentTime := call.now } node := by
  simp only [polls, found, decide_not, Bool.decide_eq_true]

/-- The poll time of a node does not change. -/
theorem callStep_pollTime {path : Bytes} {poll : Poll} {pollTime lasttime : Nat}
    (there : PolledAt poll path pollTime lasttime) (call : PollCall) :
    ∃ later, PolledAt (callStep path poll call) path pollTime later := by
  obtain ⟨node, found, rfl, rfl⟩ := there
  obtain rfl := gamTreeGetAtPath_path found
  have foundNow : gamTreeGetAtPath { poll with currentTime := call.now } node.path = some node := found
  rw [callStep_found found]
  cases late : tooSoon { poll with currentTime := call.now } node with
  | true =>
    rw [pollFile_tooSoon call.backend late]
    exact ⟨_, node, found, rfl, rfl⟩
  | false =>
    cases call.backend with
    | basic => exact ⟨_, gamPollBasicPollFile_polledAt foundNow late⟩
    | dnotify handler => exact ⟨_, gamPollDnotifyPollFile_polledAt handler foundNow late⟩

/-- A call that keeps the time finds the last poll in the past, polls if the poll time has gone by, and
then notes the time. -/
theorem callStep_spec {path : Bytes} {poll : Poll} {call : PollCall} {pollTime lasttime : Nat}
    (positive : 0 < pollTime) (there : PolledAt poll path pollTime lasttime) (keeps : KeepsTime path poll call) :
    lasttime ≤ call.now ∧ 0 < call.now ∧
      (polls path poll call = true ↔ lasttime = 0 ∨ lasttime + pollTime ≤ call.now) ∧
      PolledAt (callStep path poll call) path pollTime (if polls path poll call then call.now else lasttime) := by
  obtain ⟨node, found, rfl, rfl⟩ := there
  obtain rfl := gamTreeGetAtPath_path found
  obtain ⟨running, past, noted⟩ := (keeps node found).resolve_left (Nat.ne_of_gt positive)
  have foundNow : gamTreeGetAtPath { poll with currentTime := call.now } node.path = some node := found
  -- the clock does not run backwards, so the subtraction says what the sum does
  have decides : tooSoon { poll with currentTime := call.now } node = true ↔
      ¬ (node.lasttime = 0 ∨ node.lasttime + node.pollTime ≤ call.now) := by
    simp only [tooSoon, decide_eq_true_eq]
    omega
  rw [polls_found found]
  refine ⟨past, running, ?_, ?_⟩
  · rw [Bool.not_eq_true', ← Bool.not_eq_true, decides, not_not]
  · rw [callStep_found found]
    cases late : tooSoon { poll with currentTime := call.now } node with
    | true =>
      rw [pollFile_tooSoon call.backend late]
      exact ⟨node, found, rfl, rfl⟩
    | false =>
      rw [Bool.not_false, if_pos rfl]
      cases backend : call.backend with
      | basic => exact gamPollBasicPollFile_polledAt foundNow late
      | dnotify handler =>
        have polled := gamPollDnotifyPollFile_polledAt handler foundNow late
        rw [backend, late] at noted
        have allowed : node.lasttime = 0 ∨ staysProhibited poll node = false := by simpa using noted
        rwa [if_neg] at polled
        rintro ⟨known, prohibited⟩
        exact Bool.false_ne_true ((allowed.resolve_left known).symm.trans prohibited)

/-! ## All calls -/

/-- Nothing but polls writes the time of the last poll. -/
theorem timely_pollTrace {path : Bytes} {poll : Poll} {calls : List PollCall} {pollTime lasttime : Nat}
    (positive : 0 < pollTime) (there : PolledAt poll path pollTime lasttime)
    (keeps : Guarded (callStep path) (KeepsTime path) poll calls) {last : Option Nat}
    (remembers : ∀ time, last = some time → time = lasttime ∧ 0 < time) :
    Timely pollTime last (pollTrace path poll calls) := by
  induction calls generalizing poll lasttime last with
  | nil => trivial
  | cons call calls inductionHypothesis =>
    obtain ⟨past, running, decides, after⟩ := callStep_spec positive there keeps.1
    refine ⟨fun time isLast => ?_, inductionHypothesis after keeps.2 ?_⟩
    · obtain ⟨rfl, started⟩ := remembers time isLast
      refine ⟨past, decides.trans ?_⟩
      constructor
      · intro due
        exact due.resolve_left (Nat.ne_of_gt started)
      · exact .inr
    · intro time isLast
      cases polled : polls path poll call with
      | true =>
        simp only [polled, if_true, Option.some.injEq] at isLast ⊢
        exact ⟨isLast.symm, isLast ▸ running⟩
      | false =>
        simp only [polled, Bool.false_eq_true, if_false] at isLast ⊢
        exact remembers time isLast

/-- Without a poll time every call polls. -/
theorem granted_pollTrace {path : Bytes} {poll : Poll} {calls : List PollCall} {lasttime : Nat}
    (there : PolledAt poll path 0 lasttime) : ∀ request ∈ pollTrace path poll calls, request.taken = true := by
  induction calls generalizing poll lasttime with
  | nil => exact fun _ member => nomatch member
  | cons call calls inductionHypothesis =>
    obtain ⟨_, after⟩ := callStep_pollTime there call
    obtain ⟨node, found, always, _⟩ := there
    refine List.forall_mem_cons.mpr ⟨?_, inductionHypothesis after⟩
    dsimp only
    rw [polls_found found, tooSoon, always]
    simp only [Nat.not_lt_zero, and_false, decide_false, Bool.not_false]

/-- If every call keeps the time, the hooks poll a node within its rate limit. -/
theorem rateLimited_pollTrace {path : Bytes} {poll : Poll} {node : GamNode}
    (found : gamTreeGetAtPath poll path = some node) {calls : List PollCall}
    (keeps : Guarded (callStep path) (KeepsTime path) poll calls) :
    RateLimited node.pollTime (pollTrace path poll calls) := by
  have there : PolledAt poll path node.pollTime node.lasttime := ⟨node, found, rfl, rfl⟩
  cases period : node.pollTime with
  | zero =>
    rw [period] at there
    exact rateLimited_zero (granted_pollTrace there)
  | succ seconds =>
    rw [period] at there
    exact @rateLimited_of_timely _ none _
      (timely_pollTrace (Nat.succ_pos seconds) there keeps fun _ isNone => nomatch isNone)

/-! ## A file that is polled every five seconds -/

/-- A file on a file system that the kernel may not monitor. -/
def polledFile : Poll :=
  let poll := Poll.new fun _ => {
    stat := fun _ => .found { isDir := false, mtim := (1, 0), size := 1, ctim := (1, 0) }
    listing := fun _ => none
    excluded := fun _ => false
    monType := fun _ => .poll
    pollTimeout := fun _ => 5 }
  { poll with nodes := [gamNodeNew poll [47, 102] false none] }

theorem rateLimited_polledFile :
    RateLimited 5 (pollTrace [47, 102] polledFile [⟨.basic, 100⟩, ⟨.dnotify true, 103⟩, ⟨.basic, 105⟩]) := by
  have keeps : Guarded (callStep [47, 102]) (KeepsTime [47, 102]) polledFile
      [⟨.basic, 100⟩, ⟨.dnotify true, 103⟩, ⟨.basic, 105⟩] := by
    decide +kernel
  exact @rateLimited_pollTrace [47, 102] polledFile (gamNodeNew polledFile [47, 102] false none) rfl _ keeps

/-- Beside dnotify the file is polled twice in one second, once the first five seconds are over.  The basic
backend does not poll it for as long as the clock, which has been set back, is behind the last poll. -/
theorem not_rateLimited :
    ¬ RateLimited 5
        (pollTrace [47, 102] polledFile [⟨.dnotify true, 100⟩, ⟨.dnotify true, 110⟩, ⟨.dnotify true, 110⟩]) ∧
      ¬ RateLimited 5 (pollTrace [47, 102] polledFile [⟨.basic, 100⟩, ⟨.basic, 50⟩, ⟨.basic, 60⟩]) := by
  constructor
  · have trace : pollTrace [47, 102] polledFile [⟨.dnotify true, 100⟩, ⟨.dnotify true, 110⟩, ⟨.dnotify true, 110⟩] =
        [⟨100, true⟩, ⟨110, true⟩, ⟨110, true⟩] := by decide +kernel
    rw [trace]
    intro limited
    have apart := @RateLimited.apart _ _ limited 110 [] ⟨110, true⟩ ⟨[⟨100, true⟩], [], rfl⟩ (by decide) rfl
    exact absurd apart (by decide)
  · have trace : pollTrace [47, 102] polledFile [⟨.basic, 100⟩, ⟨.basic, 50⟩, ⟨.basic, 60⟩] =
        [⟨100, true⟩, ⟨50, false⟩, ⟨60, false⟩] := by decide +kernel
    rw [trace]
    intro limited
    have taken := @RateLimited.setBack _ _ limited 100 [50] ⟨60, false⟩ ⟨[], [], rfl⟩ [] 100 50 [60] rfl (by decide)
      (by decide) (by decide)
    exact absurd taken (by decide)

end Gamin.Polling
