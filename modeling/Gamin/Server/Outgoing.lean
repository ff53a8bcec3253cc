import Gamin.Library.Runs
import Gamin.Server.EventQueue
import Gamin.Server.Listener

/-! # What a connection writes

Events reach the socket of a client at once, or while inotify is running through a queue that a
timer flushes.  The answer to a cancel request always goes straight to the socket.  So the
Acknowledge of a number is the last message under that number as long as nothing is queued under
it, and no other subscription shares it, when it is cancelled.
-/

namespace Gamin.Server

open Gamin Gamin.Library

/-! ## The connection -/

/-- What the client can tell of a connection: a request for a number is served, or a packet is
written to it. -/
inductive Happening where
  | registered (reqno : Nat)
  | written (packet : GAMPacket)
  deriving DecidableEq, Repr

/-- The part of a connection and its listener that takes part in writing.  `backend` are the
subscriptions that a backend reports events for; `eqSource` says that the timer is installed. -/
structure Outgoing where
  isOpen : Bool
  subs : List GamSubscription
  backend : List GamSubscription
  created : Pointer
  eq : List GamEqEvent
  eqSource : Bool
  log : List Happening
  deriving DecidableEq, Repr

/-- A connection behind the check of the credentials. -/
def outgoingNew : Outgoing where
  isOpen := true
  subs := []
  backend := []
  created := 0
  eq := []
  eqSource := true
  log := []

def Outgoing.write (conn : Outgoing) (packets : List GAMPacket) : Outgoing :=
  { conn with log := conn.log ++ packets.map .written }

/-- `gam_queue_event`. -/
def gamQueueEvent (conn : Outgoing) (reqno : Nat) (event : GaminEventType) (path : Bytes) : Outgoing :=
  { conn with eq := gamEqQueue conn.eq reqno event path, eqSource := true }

/-- `gam_connection_eq_flush`, the callback of the timer, which goes when there was nothing to do. -/
def gamConnectionEqFlush (conn : Outgoing) : Outgoing :=
  { conn.write (gamEqFlush conn.eq) with eq := [], eqSource := conn.eq ≠ [] }

/-- `gam_connection_close`, with the subscriptions that go with the listener. -/
def gamConnectionClose (conn : Outgoing) : Outgoing :=
  { conn.write (gamEqFlush conn.eq) with
    eq := [], eqSource := false, isOpen := false, subs := [], backend := [] }

/-- The end of `gam_server_emit_one_event`. -/
def gamServerSend (inotifyRunning : Bool) (conn : Outgoing) (emission : Emission) : Outgoing :=
  if inotifyRunning then gamQueueEvent conn emission.sub.reqno emission.event emission.subpath
  else conn.write (gamSendEvent emission.sub.reqno emission.event emission.subpath).toList

/-- What happens around the connection.  A backend emits an event, the timer expires, the
client sends a request, or it closes the connection.  A monitor request is taken by a backend or
not; a cancel request reaches the backend that has the subscription or not. -/
inductive OutgoingInput where
  | emit (sub : GamSubscription) (path : Bytes) (nodeIsDir : Bool) (event : GaminEventType) (force : Bool)
  | tick
  | monitor (path : Bytes) (reqno : UInt16) (isDir : Bool) (options : Nat) (taken : Bool)
  | cancel (reqno : UInt16) (reached : Bool)
  | hangup
  deriving DecidableEq

/-- What the backends have left when one of them is told to remove a subscription. -/
def gamRemoveSubscription (backend : List GamSubscription) (sub : GamSubscription) (reached : Bool) :
    List GamSubscription :=
  if reached then backend.erase sub else backend

/-- The two requests of `gam_connection_request`.  There is no result when `gam_send_ack` asserts
that the path is not empty, and the connection is closed when the number is not found. -/
def serveMonitor (conn : Outgoing) (path : Bytes) (reqno : UInt16) (isDir : Bool) (options : Nat)
    (taken : Bool) : Outgoing :=
  let sub := gamSubscriptionNew conn.created path requestedEvents reqno.toNat isDir options
  { conn with
    created := conn.created + 1
    subs := if taken then sub :: conn.subs else conn.subs
    backend := if taken then sub :: conn.backend else conn.backend
    log := conn.log ++ [.registered reqno.toNat] }

def serveCancel (conn : Outgoing) (reqno : UInt16) (reached : Bool) : Option Outgoing :=
  match gamListenerGetSubscriptionByReqno conn.subs reqno.toNat with
  | none => some (gamConnectionClose conn)
  | some sub =>
    let conn := { conn with
      subs := gamListenerRemoveSubscription conn.subs sub
      backend := gamRemoveSubscription conn.backend sub reached }
    if sub.path = [] then none else some (conn.write (gamSendAck reqno.toNat sub.path).toList)

def outgoingStep (inotifyRunning : Bool) (conn : Outgoing) (input : OutgoingInput) : Option Outgoing :=
  if conn.isOpen then
    match input with
    | .emit sub path nodeIsDir event force =>
      if sub ∈ conn.backend then
        some ((gamServerEmitOneEvent path nodeIsDir event sub force).foldl (gamServerSend inotifyRunning) conn)
      else some conn
    | .tick => some (if conn.eqSource then gamConnectionEqFlush conn else conn)
    | .monitor path reqno isDir options taken => some (serveMonitor conn path reqno isDir options taken)
    | .cancel reqno reached => serveCancel conn reqno reached
    | .hangup => some (gamConnectionClose conn)
  else some conn

/-! ## What should hold -/

/-- Behind the Acknowledge of a number nothing is written under it until it is registered again. -/
def AcknowledgeLast (conn : Outgoing) : Prop :=
  ∀ before acknowledge middle packet after,
    conn.log = before ++ .written acknowledge :: (middle ++ .written packet :: after) →
    acknowledge.type = famAcknowledge → packet.seq = acknowledge.seq → .registered acknowledge.seq ∈ middle

/-- The condition on one step.  When a number is cancelled, nothing in the queue will be sent
under it, and no other subscription that the listener or a backend keeps has it. -/
def OutgoingGuard (conn : Outgoing) : OutgoingInput → Prop
  | .cancel reqno reached => ∀ sub, gamListenerGetSubscriptionByReqno conn.subs reqno.toNat = some sub →
    (∀ packet ∈ gamEqFlush conn.eq, packet.seq ≠ reqno.toNat) ∧
      (∀ other ∈ gamListenerRemoveSubscription conn.subs sub, other.reqno ≠ reqno.toNat) ∧
      ∀ other ∈ gamRemoveSubscription conn.backend sub reached, other.reqno ≠ reqno.toNat
  | _ => True

/-! ## The numbers that are answered -/

/-- The numbers whose Acknowledge has been written, and that have not been registered again. -/
def answerStep (answered : List Nat) : Happening → List Nat
  | .registered reqno => answered.filter (· ≠ reqno)
  | .written packet => if packet.type = famAcknowledge then packet.seq :: answered else answered

def NotAnswered (answered : List Nat) : Happening → Prop
  | .registered _ => True
  | .written packet => packet.seq ∉ answered

def Outgoing.answered (conn : Outgoing) : List Nat := run answerStep [] conn.log

theorem answered_stays {reqno : Nat} {log : List Happening} (never : .registered reqno ∉ log)
    {answered : List Nat} (member : reqno ∈ answered) : reqno ∈ run answerStep answered log := by
  induction log generalizing answered with
  | nil => exact member
  | cons first log inductionHypothesis =>
    have rest : .registered reqno ∉ log := fun later => never (List.mem_cons_of_mem _ later)
    apply inductionHypothesis rest
    cases first with
    | registered other =>
      have different : reqno ≠ other := by
        rintro rfl
        exact never List.mem_cons_self
      exact List.mem_filter.mpr ⟨member, by simpa using different⟩
    | written packet =>
      simp only [answerStep]
      split
      · exact List.mem_cons_of_mem _ member
      · exact member

/-- When every packet is written under a number that is not answered, the Acknowledges are last. -/
theorem acknowledgeLast_of_guarded {conn : Outgoing} (guarded : Guarded answerStep NotAnswered [] conn.log) :
    AcknowledgeLast conn := by
  intro before acknowledge middle packet after log isAcknowledge same
  by_contra never
  rw [log, guarded_append] at guarded
  obtain ⟨_, _, rest⟩ := guarded
  rw [guarded_append] at rest
  apply rest.2.1
  rw [same]
  apply answered_stays never
  simp [answerStep, isAcknowledge]

/-! ## The invariant -/

/-- Nothing can be written any more under a number that is answered. -/
structure Quiet (conn : Outgoing) : Prop where
  last : Guarded answerStep NotAnswered [] conn.log
  subs : ∀ sub ∈ conn.subs, sub.reqno < 65536 ∧ sub.reqno ∉ conn.answered
  backend : ∀ sub ∈ conn.backend, sub.reqno < 65536 ∧ sub.reqno ∉ conn.answered
  eq : ∀ packet ∈ gamEqFlush conn.eq, packet.seq ∉ conn.answered

theorem gamSendEvent_type {reqno : Nat} {event : GaminEventType} {path : Bytes} {packet : GAMPacket}
    (sent : gamSendEvent reqno event path = some packet) : packet.type ≠ famAcknowledge := by
  unfold gamSendEvent at sent
  split at sent
  · contradiction
  · obtain ⟨type, code, rfl⟩ := Option.map_eq_some_iff.mp sent
    have other : type ≠ famAcknowledge := by
      cases event <;> simp only [GaminEventType.famCode, Option.some.injEq, reduceCtorEq] at code
      all_goals
        rw [← code]
        decide
    exact other

theorem mem_gamEqFlush {queue : List GamEqEvent} {packet : GAMPacket} :
    packet ∈ gamEqFlush queue ↔
      ∃ queued ∈ queue, gamSendEvent queued.reqno queued.event queued.path = some packet :=
  List.mem_filterMap

/-- Events are written under numbers that are not answered. -/
theorem guarded_events {answered : List Nat} {packets : List GAMPacket}
    (events : ∀ packet ∈ packets, packet.type ≠ famAcknowledge ∧ packet.seq ∉ answered) :
    Guarded answerStep NotAnswered answered (packets.map .written) ∧
      run answerStep answered (packets.map .written) = answered := by
  induction packets with
  | nil => exact ⟨trivial, rfl⟩
  | cons packet packets inductionHypothesis =>
    obtain ⟨event, fresh⟩ := events packet List.mem_cons_self
    have same : answerStep answered (.written packet) = answered := by
      simp only [answerStep, if_neg event]
    obtain ⟨guarded, unchanged⟩ :=
      inductionHypothesis fun other member => events other (List.mem_cons_of_mem _ member)
    rw [List.map_cons, Guarded, run_cons, same]
    exact ⟨⟨fresh, guarded⟩, unchanged⟩

section

variable {conn : Outgoing}

/-- Writing events that are due changes nothing else. -/
theorem Quiet.write_events (quiet : Quiet conn) {packets : List GAMPacket}
    (events : ∀ packet ∈ packets, packet.type ≠ famAcknowledge ∧ packet.seq ∉ conn.answered) :
    Quiet (conn.write packets) ∧ (conn.write packets).answered = conn.answered := by
  obtain ⟨guarded, unchanged⟩ := guarded_events events
  have same : (conn.write packets).answered = conn.answered := by
    rw [Outgoing.answered, Outgoing.write, run_append]
    exact unchanged
  refine ⟨⟨?_, ?_, ?_, ?_⟩, same⟩
  · exact guarded_append.mpr ⟨quiet.last, guarded⟩
  · rw [same]
    exact quiet.subs
  · rw [same]
    exact quiet.backend
  · rw [same]
    exact quiet.eq

theorem Quiet.flush (quiet : Quiet conn) : Quiet (conn.write (gamEqFlush conn.eq)) := by
  apply (quiet.write_events _).1
  intro packet member
  obtain ⟨queued, _, sent⟩ := mem_gamEqFlush.mp member
  exact ⟨gamSendEvent_type sent, quiet.eq packet member⟩

theorem Quiet.close (quiet : Quiet conn) : Quiet (gamConnectionClose conn) where
  last := quiet.flush.last
  subs := fun _ member => nomatch member
  backend := fun _ member => nomatch member
  eq := fun _ member => nomatch member

theorem Quiet.tick (quiet : Quiet conn) : Quiet (gamConnectionEqFlush conn) where
  last := quiet.flush.last
  subs := quiet.flush.subs
  backend := quiet.flush.backend
  eq := fun _ member => nomatch member

/-- An event for a subscription of a backend. -/
theorem Quiet.send (quiet : Quiet conn) (inotifyRunning : Bool) {emission : Emission}
    (member : emission.sub ∈ conn.backend) : Quiet (gamServerSend inotifyRunning conn emission) := by
  obtain ⟨small, fresh⟩ := quiet.backend emission.sub member
  have unanswered {event : GaminEventType} {path : Bytes} {packet : GAMPacket}
      (sent : gamSendEvent emission.sub.reqno event path = some packet) : packet.seq ∉ conn.answered := by
    rw [gamSendEvent_seq sent, Nat.mod_eq_of_lt small]
    exact fresh
  unfold gamServerSend
  split
  · refine ⟨quiet.last, quiet.subs, quiet.backend, fun packet flushed => ?_⟩
    obtain ⟨queued, inQueue, sent⟩ := mem_gamEqFlush.mp flushed
    rcases mem_gamEqQueue.mp inQueue with old | rfl
    · exact quiet.eq packet (mem_gamEqFlush.mpr ⟨queued, old, sent⟩)
    · exact unanswered sent
  · apply (quiet.write_events _).1
    intro packet written
    have sent := Option.mem_toList.mp written
    exact ⟨gamSendEvent_type sent, unanswered sent⟩

/-- A number that is registered is not answered any more. -/
theorem Quiet.monitor (quiet : Quiet conn) (path : Bytes) (reqno : UInt16) (isDir : Bool) (options : Nat)
    (taken : Bool) : Quiet (serveMonitor conn path reqno isDir options taken) := by
  have answered : (serveMonitor conn path reqno isDir options taken).answered =
      conn.answered.filter (· ≠ reqno.toNat) := by
    rw [Outgoing.answered, serveMonitor, run_append]
    rfl
  have fewer {other : Nat} (fresh : other ∉ conn.answered) :
      other ∉ (serveMonitor conn path reqno isDir options taken).answered := by
    rw [answered]
    exact fun member => fresh (List.mem_of_mem_filter member)
  have new : reqno.toNat < 65536 ∧
      reqno.toNat ∉ (serveMonitor conn path reqno isDir options taken).answered := by
    refine ⟨reqno.toNat_lt, ?_⟩
    rw [answered, List.mem_filter]
    simp
  -- the new subscription has the number that is not answered from now on
  have extended {subs : List GamSubscription} {first : GamSubscription}
      (numbered : first.reqno = reqno.toNat)
      (all : ∀ sub ∈ subs, sub.reqno < 65536 ∧ sub.reqno ∉ conn.answered) :
      ∀ sub ∈ (if taken then first :: subs else subs), sub.reqno < 65536 ∧
        sub.reqno ∉ (serveMonitor conn path reqno isDir options taken).answered := by
    intro sub member
    have cases : sub = first ∨ sub ∈ subs := by
      cases taken with
      | true => exact List.mem_cons.mp member
      | false => exact .inr member
    rcases cases with rfl | old
    · rw [numbered]
      exact new
    · exact ⟨(all sub old).1, fewer (all sub old).2⟩
  refine ⟨guarded_append.mpr ⟨quiet.last, trivial, trivial⟩, extended rfl quiet.subs,
    extended rfl quiet.backend, fun packet flushed => fewer (quiet.eq packet flushed)⟩

/-- A number that is cancelled is answered, and under the guard nothing has it any more. -/
theorem Quiet.cancel (quiet : Quiet conn) {reqno : UInt16} {reached : Bool} {after : Outgoing}
    (guard : OutgoingGuard conn (.cancel reqno reached)) (served : serveCancel conn reqno reached = some after) :
    Quiet after := by
  unfold serveCancel at served
  split at served
  · cases served
    exact quiet.close
  · rename_i sub found
    obtain ⟨queued, listed, kept⟩ := guard sub found
    obtain ⟨member, number⟩ := getSubscriptionByReqno_mem found
    have fresh : reqno.toNat ∉ conn.answered := number ▸ (quiet.subs sub member).2
    have removed : ∀ other ∈ gamRemoveSubscription conn.backend sub reached, other ∈ conn.backend := by
      intro other left
      unfold gamRemoveSubscription at left
      split at left
      · exact List.mem_of_mem_erase left
      · exact left
    simp only at served
    split at served
    · contradiction
    · cases served
      cases acknowledge : gamSendAck reqno.toNat sub.path with
      | none =>
        -- nothing is written, and the subscription is gone
        refine ⟨?_, fun other left => ?_, fun other left => ?_, fun packet flushed => ?_⟩
        · simpa [Outgoing.write] using quiet.last
        · simpa [Outgoing.write, Outgoing.answered] using quiet.subs other (List.mem_of_mem_erase left)
        · simpa [Outgoing.write, Outgoing.answered] using quiet.backend other (removed other left)
        · simpa [Outgoing.write, Outgoing.answered] using quiet.eq packet flushed
      | some packet =>
        have seq : packet.seq = reqno.toNat := by
          rw [gamSendAck_seq acknowledge]
          exact Nat.mod_eq_of_lt reqno.toNat_lt
        have type : packet.type = famAcknowledge := by
          unfold gamSendAck at acknowledge
          split at acknowledge
          · contradiction
          · cases acknowledge
            rfl
        have answered : run answerStep [] (conn.log ++ [.written packet]) = reqno.toNat :: conn.answered := by
          rw [run_append, run_cons, run_nil, answerStep, if_pos type, seq]
          rfl
        have still {other : Nat} (different : other ≠ reqno.toNat) (old : other ∉ conn.answered) :
            other ∉ run answerStep [] (conn.log ++ [.written packet]) := by
          rw [answered, List.mem_cons]
          exact not_or.mpr ⟨different, old⟩
        refine ⟨?_, fun other left => ?_, fun other left => ?_, fun event flushed => ?_⟩
        · refine guarded_append.mpr ⟨quiet.last, ?_, trivial⟩
          rw [NotAnswered, seq]
          exact fresh
        · obtain ⟨small, old⟩ := quiet.subs other (List.mem_of_mem_erase left)
          exact ⟨small, still (listed other left) old⟩
        · obtain ⟨small, old⟩ := quiet.backend other (removed other left)
          exact ⟨small, still (kept other left) old⟩
        · exact still (queued event flushed) (quiet.eq event flushed)

end

/-! ## Every run -/

theorem outgoingStep_quiet (inotifyRunning : Bool) (conn : Outgoing) (input : OutgoingInput) (after : Outgoing)
    (quiet : Quiet conn) (guard : OutgoingGuard conn input)
    (returned : outgoingStep inotifyRunning conn input = some after) : Quiet after := by
  unfold outgoingStep at returned
  split at returned
  · cases input with
    | emit sub path nodeIsDir event force =>
      simp only at returned
      split at returned
      · rename_i member
        cases returned
        unfold gamServerEmitOneEvent
        split
        · exact quiet.send inotifyRunning member
        · exact quiet
      · cases returned
        exact quiet
    | tick =>
      cases returned
      split
      · exact quiet.tick
      · exact quiet
    | monitor path reqno isDir options taken =>
      cases returned
      exact quiet.monitor path reqno isDir options taken
    | cancel reqno reached => exact quiet.cancel guard returned
    | hangup =>
      cases returned
      exact quiet.close
  · cases returned
    exact quiet

/-- With the queue or without it: if no number is cancelled while something is queued under it or
another subscription has it, every Acknowledge is the last message under its number until the
number is registered again. -/
theorem acknowledge_is_last (inotifyRunning : Bool) (inputs : List OutgoingInput)
    (guarded : Guarded (partialStep (outgoingStep inotifyRunning)) (GuardIfAny OutgoingGuard)
      (some outgoingNew) inputs) :
    Throughout (partialStep (outgoingStep inotifyRunning)) (IfAny AcknowledgeLast) (some outgoingNew)
      inputs := by
  have start : Quiet outgoingNew :=
    ⟨trivial, fun _ member => (nomatch member), fun _ member => (nomatch member),
      fun _ member => (nomatch member)⟩
  apply (Throughout.of_partial (outgoingStep_quiet inotifyRunning) start guarded).imp
  exact IfAny.imp fun conn quiet => acknowledgeLast_of_guarded quiet.last

/-! ## An event in the queue -/

/-- The subscription of the first request. -/
def firstSubscription : GamSubscription := gamSubscriptionNew 0 [47, 98] requestedEvents 1 false 0

/-- A file is monitored, and it changes. -/
def fileChanged : List OutgoingInput :=
  [.monitor [47, 98] 1 false 0 true, .emit firstSubscription [47, 98] false .changed true]

/-- The timer expires before the request is cancelled. -/
theorem flushed_event_in_time :
    Throughout (partialStep (outgoingStep true)) (IfAny AcknowledgeLast) (some outgoingNew)
      (fileChanged ++ [.tick, .cancel 1 true, .tick]) := by
  apply acknowledge_is_last
  refine ⟨trivial, trivial, trivial, fun sub found => ?_, trivial, trivial⟩
  cases Option.some.inj (show some firstSubscription = some sub from found)
  decide +kernel

/-- The request is cancelled first, and the event is written behind the Acknowledge. -/
theorem queued_event_behind_acknowledge :
    (run (partialStep (outgoingStep true)) (some outgoingNew) (fileChanged ++ [.cancel 1 true, .tick])).map
        (·.log) = some [.registered 1, .written ⟨1, 1, famAcknowledge, [47, 98]⟩,
          .written ⟨1, 1, famChanged, [47, 98]⟩] ∧
      ¬ Throughout (partialStep (outgoingStep true)) (IfAny AcknowledgeLast) (some outgoingNew)
        (fileChanged ++ [.cancel 1 true, .tick]) := by
  have written : (run (partialStep (outgoingStep true)) (some outgoingNew)
      (fileChanged ++ [.cancel 1 true, .tick])).map (·.log) =
        some [.registered 1, .written ⟨1, 1, famAcknowledge, [47, 98]⟩,
          .written ⟨1, 1, famChanged, [47, 98]⟩] := by
    decide +kernel
  refine ⟨written, fun last => ?_⟩
  obtain ⟨conn, reached, log⟩ := Option.map_eq_some_iff.mp written
  have final := last.last
  rw [reached] at final
  have between := final [.registered 1] _ [] _ [] log rfl rfl
  exact absurd between List.not_mem_nil

end Gamin.Server
