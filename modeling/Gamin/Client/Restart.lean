import Gamin.Client.NextEvent
import Gamin.Client.Reconnect

/-! # The filter behind a reconnection

`gamin_data_reset` sets a flag that makes `gamin_data_conn_event` drop events until the
first Created, Moved or Changed of any request, or the first EndExist.  The requests are
registered again without Exists and EndExist, so up to that first change the filter drops
what is owed to the application as well.
-/

namespace Gamin.Client

open Gamin Gamin.Library

/-! ## One packet at a time -/

/-- A packet arrives in one read, and the application takes the event if there is one. -/
def receivePacket (conn : GAMData) (packet : GAMPacket) : Option FAMEvent × GAMData :=
  gaminDataReadEvent (gaminDataConnData
    { conn with event := store conn.event conn.evnRead.toNat packet.encode } packet.encode.length).2

/-- What happens on the new connection: the server sends a packet, about the state it found
when it registered the request or about something later, or the application cancels. -/
inductive Served where
  | packet (packet : GAMPacket) (initial : Bool)
  | cancel (reqno : Int)
  deriving DecidableEq, Repr

def serveStep (conn : GAMData) : Served → GAMData
  | .packet packet _ => (receivePacket conn packet).2
  | .cancel reqno => (gaminDataCancel conn reqno).2

/-- The request is live, or it is cancelled and waits for just this Acknowledge. -/
def Expected (conn : GAMData) (packet : GAMPacket) : Prop :=
  ∃ req, gaminDataGetReq conn packet.seq = some req ∧
    (deliveryOf req.state = .every ∨
      (deliveryOf req.state = .acknowledgeOnly ∧ packet.type = famAcknowledge))

/-- The application gets the event of the packet. -/
def Delivered (conn : GAMData) (packet : GAMPacket) : Prop :=
  ∃ req, gaminDataGetReq conn packet.seq = some req ∧
    (receivePacket conn packet).1 =
      some { reqnum := packet.seq, filename := packet.path, userdata := req.userData, code := packet.type }

/-- What is owed to the application in one step: an expected packet about anything but the
state found at the registration. -/
def OwedDelivered (conn : GAMData) : Served → Prop
  | .packet packet initial => initial = false → Expected conn packet → Delivered conn packet
  | .cancel _ => True

/-- Nothing is buffered. -/
structure NothingBuffered (conn : GAMData) : Prop where
  evnRead : conn.evnRead = 0
  evnReady : conn.evnReady = false

/-- The fields of a whole packet in the buffer. -/
theorem framed_fields {conn : GAMData} {packet : GAMPacket} {length : Nat}
    (found : eventFraming.scan (buffered conn) = .frame packet length) :
    ¬ conn.evnRead.toNat < gamPacketHeaderLen ∧ ¬ packetLen conn.event 0 > sizeofGAMPacket ∧
      ¬ packetVersion conn.event 0 ≠ gamProtoVersion ∧
      ¬ (packetPathlen conn.event 0 ≤ 0 ∨ packetPathlen conn.event 0 > maxPathLen) ∧
      ¬ packetPathlen conn.event 0 + gamPacketHeaderLen ≠ packetLen conn.event 0 ∧
      ¬ conn.evnRead.toNat < packetLen conn.event 0 ∧
      packetAt conn.event 0 = packet ∧ packetLen conn.event 0 = length := by
  rw [eventFraming_window] at found
  split at found
  · contradiction
  split at found
  · contradiction
  split at found
  · contradiction
  split at found
  · contradiction
  split at found
  · contradiction
  split at found
  · contradiction
  · simp only [Scan.frame.injEq] at found
    exact ⟨‹_›, ‹_›, ‹_›, ‹_›, ‹_›, ‹_›, found⟩

/-- A packet that fills the buffer is decided by one call of `gamin_data_conn_event`. -/
theorem gaminDataConnDataLoop_single {conn : GAMData} {packet : GAMPacket}
    (found : eventFraming.scan (buffered conn) = .frame packet conn.evnRead.toNat) :
    (gaminDataConnDataLoop conn).2 =
      if (gaminDataConnEvent conn).2.evnReady then (gaminDataConnEvent conn).2
      else { (gaminDataConnEvent conn).2 with evnRead := 0 } := by
  obtain ⟨header, long, version, path, sizes, part, _, length⟩ := framed_fields found
  obtain ⟨success, _, read, _, _⟩ := gaminDataConnEvent_frame conn
  rw [gaminDataConnDataLoop, if_neg (by omega), if_neg long, if_neg version, if_neg path, dif_neg sizes,
    dif_neg (by omega)]
  split
  rename_i result after decided
  rw [decided] at success read ⊢
  simp only at success read ⊢
  rw [if_neg (by omega)]
  split
  · rfl
  · rw [if_pos (by omega)]

/-- Reading the only event of the buffer empties it. -/
theorem gaminDataReadEvent_last {conn : GAMData} (ready : conn.evnReady = true)
    (only : conn.evnRead = packetLen conn.event 0) :
    NothingBuffered (gaminDataReadEvent conn).2 ∧
      (gaminDataReadEvent conn).2.restarted = conn.restarted := by
  simp only [gaminDataReadEvent, ready, not_true_eq_false, if_false, only, Int.sub_self]
  split
  · rw [gaminDataDelReq_frame]
    exact ⟨⟨rfl, rfl⟩, rfl⟩
  · exact ⟨⟨rfl, rfl⟩, rfl⟩

/-- The decision about a packet is the one of the registry of the search. -/
theorem receivePacket_decided {conn : GAMData} (empty : NothingBuffered conn) {packet : GAMPacket}
    (event : EventPacket packet) :
    (receivePacket conn packet).1 = (acceptPacket (searchRegistry conn) packet).2 ∧
      NothingBuffered (receivePacket conn packet).2 ∧
      (receivePacket conn packet).2.restarted =
        (acceptPacket (searchRegistry conn) packet).1.restarted := by
  -- the buffer holds just this packet
  obtain ⟨filled, same⟩ : ∃ filled : GAMData, filled = { conn with
      event := store conn.event conn.evnRead.toNat packet.encode,
      evnRead := (packet.encode.length : Int) } := ⟨_, rfl⟩
  have bytes : buffered filled = packet.encode := by
    have stored := window_store_same conn.event 0 packet.encode
    rw [same, buffered]
    simpa [empty.evnRead] using stored
  have whole : eventFraming.scan (buffered filled) = .frame packet filled.evnRead.toNat := by
    have scanned := scanPacket_encode event.wellFormed []
    rw [List.append_nil] at scanned
    rw [bytes, same]
    exact scanned
  have size : packet.encode.length ≤ sizeofGAMPacket := by
    have short := event.wellFormed.short
    rw [GAMPacket.encode_length, sizeofGAMPacket]
    omega
  have received : (gaminDataConnData { conn with event := store conn.event conn.evnRead.toNat packet.encode }
      packet.encode.length).2 = (gaminDataConnDataLoop filled).2 := by
    rw [gaminDataConnData_loop (by omega) (by simp [empty.evnRead]) (by simp [empty.evnRead]; omega), same]
    simp [empty.evnRead]
  obtain ⟨_, _, _, _, _, _, packetThere, lengthThere⟩ := framed_fields whole
  have registry : searchRegistry filled = searchRegistry conn := by
    rw [same]
    exact searchRegistry_congr rfl rfl
  have idle : filled.evnReady = false := by rw [same]; exact empty.evnReady
  -- the registry decides about it as the search in the table does
  have decides := @gaminDataConnEvent_decides filled (searchRegistry filled) rfl rfl idle
  rw [packetThere, registry, asString_eventPacket event] at decides
  obtain ⟨_, eventKept, readKept, _, _⟩ := gaminDataConnEvent_frame filled
  rw [receivePacket, received, gaminDataConnDataLoop_single whole]
  cases decision : (acceptPacket (searchRegistry conn) packet).2 with
  | none =>
    rw [decision] at decides
    obtain ⟨dropped, registryAfter⟩ := decides
    rw [if_neg (by simp [dropped])]
    have nothing : gaminDataReadEvent { (gaminDataConnEvent filled).2 with evnRead := 0 } =
        (none, { (gaminDataConnEvent filled).2 with evnRead := 0 }) := by
      simp [gaminDataReadEvent, dropped]
    rw [nothing]
    exact ⟨rfl, ⟨rfl, dropped⟩, congrArg (·.restarted) registryAfter⟩
  | some pending =>
    rw [decision] at decides
    obtain ⟨ready, samePending, registryAfter⟩ := decides
    rw [if_pos ready, gaminDataReadEvent_first ready, samePending]
    have only : (gaminDataConnEvent filled).2.evnRead = packetLen (gaminDataConnEvent filled).2.event 0 := by
      rw [readKept, eventKept, lengthThere, same]
      simp
    obtain ⟨emptied, restarted⟩ := gaminDataReadEvent_last ready only
    refine ⟨rfl, emptied, restarted.trans ?_⟩
    rw [← registryAfter]
    split <;> rfl

section Packet

variable {conn : GAMData} {packet : GAMPacket}

theorem unexpected_dropped (empty : NothingBuffered conn) (event : EventPacket packet)
    (unexpected : ¬ Expected conn packet) :
    NothingBuffered (receivePacket conn packet).2 ∧
      (receivePacket conn packet).2.restarted = conn.restarted := by
  obtain ⟨_, emptied, restarted⟩ := receivePacket_decided empty event
  refine ⟨emptied, ?_⟩
  rw [restarted, acceptPacket_drops]
  · rfl
  · intro delivery userData known
    obtain ⟨req, found, same⟩ := Option.map_eq_some_iff.mp known
    cases same
    cases state : deliveryOf req.state with
    | nothing => exact .inl rfl
    | every => exact absurd ⟨req, found, .inl state⟩ unexpected
    | acknowledgeOnly =>
      refine .inr ⟨rfl, fun acknowledge => ?_⟩
      exact unexpected ⟨req, found, .inr ⟨state, acknowledge⟩⟩

/-- The request of an expected packet, as the registry of the search knows it. -/
theorem expected_passes (expected : Expected conn packet) :
    ∃ req, gaminDataGetReq conn packet.seq = some req ∧
      (searchRegistry conn).request packet.seq = some (deliveryOf req.state, req.userData) ∧
      ¬ (deliveryOf req.state = .nothing ∨
        (deliveryOf req.state = .acknowledgeOnly ∧ packet.type ≠ famAcknowledge)) := by
  obtain ⟨req, found, passes⟩ := expected
  refine ⟨req, found, by simp only [searchRegistry, found]; rfl, ?_⟩
  cases passes with
  | inl live => simp [live]
  | inr cancelled => simp [cancelled.1, cancelled.2]

/-- The filter holds back an expected packet of another type than those that end it. -/
theorem expected_held (empty : NothingBuffered conn) (event : EventPacket packet)
    (expected : Expected conn packet) (restarted : conn.restarted = true)
    (other : ¬ endsRestart packet.type = true) (honours : packet.type ≠ famEndExist) :
    ¬ Delivered conn packet ∧ NothingBuffered (receivePacket conn packet).2 ∧
      (receivePacket conn packet).2.restarted = true := by
  obtain ⟨req, found, known, passes⟩ := expected_passes expected
  obtain ⟨result, emptied, after⟩ := receivePacket_decided empty event
  have held := acceptPacket_held known passes ⟨restarted, other⟩
  rw [held] at result after
  refine ⟨?_, emptied, by simpa [honours] using after⟩
  rintro ⟨_, _, delivered⟩
  rw [result] at delivered
  contradiction

/-- An expected packet that the filter does not hold back is delivered, and ends it. -/
theorem expected_delivered (empty : NothingBuffered conn) (event : EventPacket packet)
    (expected : Expected conn packet)
    (free : ¬ (conn.restarted = true ∧ ¬ endsRestart packet.type = true)) :
    Delivered conn packet ∧ NothingBuffered (receivePacket conn packet).2 ∧
      (receivePacket conn packet).2.restarted = false := by
  obtain ⟨req, found, known, passes⟩ := expected_passes expected
  obtain ⟨result, emptied, after⟩ := receivePacket_decided empty event
  have accepted := acceptPacket_passes known passes free
  rw [accepted] at result after
  refine ⟨⟨req, found, result⟩, emptied, after.trans ?_⟩
  split <;> rfl

end Packet

theorem gaminDataCancel_filter (conn : GAMData) (reqno : Int) (empty : NothingBuffered conn) :
    NothingBuffered (gaminDataCancel conn reqno).2 ∧
      (gaminDataCancel conn reqno).2.restarted = conn.restarted := by
  simp only [gaminDataCancel]
  repeat' split
  all_goals exact ⟨⟨empty.evnRead, empty.evnReady⟩, rfl⟩

/-! ## The events behind a reconnection -/

/-- A packet of the server as it may be on the new connection. -/
def HonoursNoExists : Served → Prop
  | .packet packet _ =>
    EventPacket packet ∧ packet.type ≠ famExists ∧ packet.type ≠ famEndExist
  | .cancel _ => True

/-- Up to the first expected Created, Moved or Changed of any request, the expected packets
are about the state found at the registration. -/
def InitialUntilChange : GAMData → List Served → Prop
  | _, [] => True
  | conn, .cancel reqno :: served => InitialUntilChange (serveStep conn (.cancel reqno)) served
  | conn, .packet packet initial :: served =>
    (Expected conn packet → endsRestart packet.type = true ∨ initial = true) ∧
      ((Expected conn packet ∧ endsRestart packet.type = true) ∨
        InitialUntilChange (serveStep conn (.packet packet initial)) served)

/-- Without the filter everything that is owed is delivered. -/
theorem owed_delivered {conn : GAMData} (empty : NothingBuffered conn) (free : conn.restarted = false)
    {served : List Served} (honours : ∀ input ∈ served, HonoursNoExists input) :
    Guarded serveStep OwedDelivered conn served := by
  induction served generalizing conn with
  | nil => trivial
  | cons input served inductionHypothesis =>
    have rest := fun other member => honours other (List.mem_cons_of_mem input member)
    cases input with
    | cancel reqno =>
      obtain ⟨emptied, restarted⟩ := gaminDataCancel_filter conn reqno empty
      exact ⟨trivial, inductionHypothesis emptied (restarted.trans free) rest⟩
    | packet packet initial =>
      obtain ⟨event, _, _⟩ := honours _ List.mem_cons_self
      have unfiltered : ¬ (conn.restarted = true ∧ ¬ endsRestart packet.type = true) := by
        rw [free]
        exact fun filtered => Bool.false_ne_true filtered.1
      by_cases expected : Expected conn packet
      · obtain ⟨delivered, emptied, restarted⟩ := expected_delivered empty event expected unfiltered
        exact ⟨fun _ _ => delivered, inductionHypothesis emptied restarted rest⟩
      · obtain ⟨emptied, restarted⟩ := unexpected_dropped empty event expected
        exact ⟨fun _ other => absurd other expected,
          inductionHypothesis emptied (restarted.trans free) rest⟩

/-- With it, exactly when nothing is owed before the first change of any request. -/
theorem filtered_delivered_iff {conn : GAMData} (empty : NothingBuffered conn)
    (filtered : conn.restarted = true) {served : List Served}
    (honours : ∀ input ∈ served, HonoursNoExists input) :
    Guarded serveStep OwedDelivered conn served ↔ InitialUntilChange conn served := by
  -- by induction on what is served; a packet that is held back leaves the filter on
  induction served generalizing conn with
  | nil => exact Iff.rfl
  | cons input served inductionHypothesis =>
    have rest := fun other member => honours other (List.mem_cons_of_mem input member)
    cases input with
    | cancel reqno =>
      obtain ⟨emptied, restarted⟩ := gaminDataCancel_filter conn reqno empty
      have behind := inductionHypothesis emptied (restarted.trans filtered) rest
      exact ⟨fun both => behind.mp both.2, fun initial => ⟨trivial, behind.mpr initial⟩⟩
    | packet packet initial =>
      obtain ⟨event, _, noEndExist⟩ := honours _ List.mem_cons_self
      simp only [Guarded, OwedDelivered, InitialUntilChange]
      by_cases expected : Expected conn packet
      · by_cases change : endsRestart packet.type = true
        · -- the filter ends here
          obtain ⟨delivered, emptied, restarted⟩ := expected_delivered empty event expected
            (fun held => held.2 change)
          apply iff_of_true
          · exact ⟨fun _ _ => delivered, owed_delivered emptied restarted rest⟩
          · exact ⟨fun _ => .inl change, .inl ⟨expected, change⟩⟩
        -- the filter holds the packet back, so it must not be owed
        · obtain ⟨lost, emptied, restarted⟩ := expected_held empty event expected filtered change noEndExist
          have behind := inductionHypothesis emptied restarted rest
          constructor
          · rintro ⟨owed, more⟩
            refine ⟨fun _ => .inr ?_, .inr (behind.mp more)⟩
            cases initial with
            | true => rfl
            | false => exact absurd (owed rfl expected) lost
          · rintro ⟨first, more⟩
            have about := (first expected).resolve_left change
            refine ⟨fun later => ?_, behind.mpr (more.resolve_left fun both => change both.2)⟩
            rw [about] at later
            contradiction
      · obtain ⟨emptied, restarted⟩ := unexpected_dropped empty event expected
        have behind := inductionHypothesis emptied (restarted.trans filtered) rest
        simp only [expected, false_and, false_or, IsEmpty.forall_iff, implies_true, true_and]
        exact behind

/-- After a successful reconnection, everything that is owed to the application is delivered
exactly when nothing is owed before the first change of any request. -/
theorem reconnection_delivers_iff (conn : GAMData) (fd : Int) (answers : ReconnectAnswers)
    (reconnected : (gaminTryReconnect conn fd answers).1 = 0) (served : List Served)
    (honours : ∀ input ∈ served, HonoursNoExists input) :
    Guarded serveStep OwedDelivered (gaminTryReconnect conn fd answers).2.1 served ↔
      InitialUntilChange (gaminTryReconnect conn fd answers).2.1 served := by
  rw [gaminTryReconnect_success reconnected]
  exact filtered_delivered_iff ⟨rfl, rfl⟩ rfl honours

/-! ## Two streams behind a reconnection -/

/-- The connection with the request on /b, reconnected. -/
def reconnectedConnection : GAMData := (gaminTryReconnect monitoringConnection 3 serverBack).2.1

def deletedPacket : GAMPacket := ⟨1, 1, famDeleted, [47, 98]⟩

def acknowledgePacket : GAMPacket := ⟨1, 1, famAcknowledge, [47, 98]⟩

/-- The file is removed after the reconnection, or the request is cancelled: the Deleted and
the Acknowledge are dropped, although the request is live or waits for it. -/
theorem owed_packets_dropped :
    ¬ Guarded serveStep OwedDelivered reconnectedConnection [.packet deletedPacket false] ∧
      ¬ Guarded serveStep OwedDelivered reconnectedConnection
        [.cancel 1, .packet acknowledgePacket false] := by
  have live : gaminDataGetReq reconnectedConnection 1 =
      some ⟨1, .reqInit, gamReqFile, some [47, 98], 9⟩ := by decide +kernel
  have cancelled : gaminDataGetReq (gaminDataCancel reconnectedConnection 1).2 1 =
      some ⟨1, .reqCancelled, gamReqFile, some [47, 98], 9⟩ := by decide +kernel
  have deletedLost : (receivePacket reconnectedConnection deletedPacket).1 = none := by decide +kernel
  have acknowledgeLost :
      (receivePacket (gaminDataCancel reconnectedConnection 1).2 acknowledgePacket).1 = none := by
    decide +kernel
  constructor
  · rintro ⟨owed, _⟩
    obtain ⟨_, _, delivered⟩ := owed rfl ⟨_, live, .inl rfl⟩
    rw [deletedLost] at delivered
    contradiction
  · rintro ⟨_, owed, _⟩
    obtain ⟨_, _, delivered⟩ := owed rfl ⟨_, cancelled, .inr ⟨rfl, rfl⟩⟩
    simp only [serveStep] at delivered
    rw [acknowledgeLost] at delivered
    contradiction

/-- Behind a Changed the same Deleted is delivered. -/
theorem changed_then_deleted_delivered :
    Guarded serveStep OwedDelivered reconnectedConnection
      [.packet ⟨1, 1, famChanged, [47, 98]⟩ false, .packet deletedPacket false] := by
  apply (reconnection_delivers_iff monitoringConnection 3 serverBack (by decide +kernel) _ ?_).mpr
  · have live : gaminDataGetReq reconnectedConnection 1 =
        some ⟨1, .reqInit, gamReqFile, some [47, 98], 9⟩ := by decide +kernel
    exact ⟨fun _ => .inl rfl, .inl ⟨⟨_, live, .inl rfl⟩, rfl⟩⟩
  · intro input member
    simp only [List.mem_cons, List.not_mem_nil, or_false] at member
    rcases member with rfl | rfl <;>
      exact ⟨⟨⟨rfl, by decide, by decide, by decide, by decide⟩, by decide⟩, by decide, by decide⟩

end Gamin.Client
