import Gamin.Protocol
import Gamin.Server.Subscription

/-! # Sending events to a client

`gam_send_event` and `gam_send_ack` of `gam_connection.c`, and the queue of `gam_eq.c` that
delays events while the inotify backend is running.  A path is the string without the NUL
byte behind it, so the length that goes along with it is its length.
-/

namespace Gamin.Server

open Gamin

/-- The translation of `gam_send_event` between the event types; others are not sent. -/
def GaminEventType.famCode : GaminEventType → Option Nat
  | .changed => some famChanged
  | .created => some famCreated
  | .deleted => some famDeleted
  | .moved => some famMoved
  | .exists => some famExists
  | .endexists => some famEndExist
  | .unknown => none
  | .invalid => none

/-- `gam_send_event`: the packet that is written, if any. -/
def gamSendEvent (reqno : Nat) (event : GaminEventType) (path : Bytes) : Option GAMPacket :=
  if path.length ≥ maxPathLen then none
  else event.famCode.map fun type =>
    { version := gamProtoVersion, seq := reqno % 65536, type := type, path := path }

/-- `gam_send_ack`, for a path that is not empty. -/
def gamSendAck (reqno : Nat) (path : Bytes) : Option GAMPacket :=
  if path.length ≥ maxPathLen then none
  else some { version := gamProtoVersion, seq := reqno % 65536, type := famAcknowledge, path := path }

/-- `gam_eq_event_t`. -/
structure GamEqEvent where
  reqno : Nat
  event : GaminEventType
  path : Bytes
  deriving DecidableEq, Repr

/-- `gam_eq_queue`: an event equal to the last one of the queue is thrown away. -/
def gamEqQueue (queue : List GamEqEvent) (reqno : Nat) (event : GaminEventType) (path : Bytes) :
    List GamEqEvent :=
  if queue.getLast? = some ⟨reqno, event, path⟩ then queue else queue ++ [⟨reqno, event, path⟩]

/-- `gam_eq_flush`: everything that is queued is sent, and the queue is empty. -/
def gamEqFlush (queue : List GamEqEvent) : List GAMPacket :=
  queue.filterMap fun queued => gamSendEvent queued.reqno queued.event queued.path

theorem gamSendEvent_seq {reqno : Nat} {event : GaminEventType} {path : Bytes} {packet : GAMPacket}
    (sent : gamSendEvent reqno event path = some packet) : packet.seq = reqno % 65536 := by
  unfold gamSendEvent at sent
  split at sent
  · contradiction
  · obtain ⟨type, _, rfl⟩ := Option.map_eq_some_iff.mp sent
    rfl

theorem gamSendAck_seq {reqno : Nat} {path : Bytes} {packet : GAMPacket}
    (sent : gamSendAck reqno path = some packet) : packet.seq = reqno % 65536 := by
  unfold gamSendAck at sent
  split at sent
  · contradiction
  · cases sent
    rfl

theorem mem_gamEqQueue {queue : List GamEqEvent} {reqno : Nat} {event : GaminEventType} {path : Bytes}
    {queued : GamEqEvent} :
    queued ∈ gamEqQueue queue reqno event path ↔ queued ∈ queue ∨ queued = ⟨reqno, event, path⟩ := by
  unfold gamEqQueue
  split
  · rename_i duplicate
    constructor
    · exact .inl
    · rintro (member | rfl)
      · exact member
      · exact List.mem_of_getLast? duplicate
  · simp

end Gamin.Server
