import Gamin.Client.Api
import Gamin.Client.RequestOrder
import Gamin.PacketStream

/-! # Delivery of events

What the application should get to see is said of whole packets: each packet is accepted
or dropped by a registry of the requests.  The buffer of the client, filled by reads and
emptied by `FAMNextEvent`, is related to it by its outlook, the decoder that the bytes
still in the buffer lead to.  No call changes the outlook, but for feeding it what is read.
-/

namespace Gamin.Client

open Gamin Gamin.Library

/-! ## Acceptance of packets -/

/-- Which packets of a request reach the application. -/
inductive Delivery where
  | every
  | acknowledgeOnly
  | nothing
  deriving DecidableEq, Repr

/-- The requests of a connection with their user data, and whether the filter behind a
reconnection is active. -/
@[ext] structure Registry where
  request : Int → Option (Delivery × Pointer)
  restarted : Bool

def Registry.remove (registry : Registry) (reqno : Int) : Registry :=
  { registry with request := fun other => if other = reqno then none else registry.request other }

/-- The filter behind a reconnection lets a change pass, and ends with it. -/
def endsRestart (type : Nat) : Bool := type = famCreated ∨ type = famMoved ∨ type = famChanged

/-- What becomes of one packet: the registry behind it, and the event if it is accepted. -/
def acceptPacket (registry : Registry) (packet : GAMPacket) : Registry × Option FAMEvent :=
  match registry.request packet.seq with
  | none => (registry, none)
  | some (delivery, userData) =>
    if delivery = .nothing then (registry, none)
    else if delivery = .acknowledgeOnly ∧ packet.type ≠ famAcknowledge then (registry, none)
    else if registry.restarted ∧ ¬ endsRestart packet.type then
      ({ registry with restarted := packet.type ≠ famEndExist }, none)
    else
      let registry := { registry with restarted := false }
      (if packet.type = famAcknowledge then registry.remove packet.seq else registry,
        some { reqnum := packet.seq, filename := packet.path, userdata := userData, code := packet.type })

theorem acceptPacket_drops {registry : Registry} {packet : GAMPacket}
    (dropped : ∀ delivery userData, registry.request packet.seq = some (delivery, userData) →
      delivery = .nothing ∨ (delivery = .acknowledgeOnly ∧ packet.type ≠ famAcknowledge)) :
    acceptPacket registry packet = (registry, none) := by
  cases known : registry.request packet.seq with
  | none => simp [acceptPacket, known]
  | some entry =>
    obtain ⟨delivery, userData⟩ := entry
    rcases dropped delivery userData known with rfl | ⟨rfl, other⟩
    · simp [acceptPacket, known]
    · simp [acceptPacket, known, other]

theorem acceptPacket_held {registry : Registry} {packet : GAMPacket} {delivery : Delivery}
    {userData : Pointer} (known : registry.request packet.seq = some (delivery, userData))
    (passes : ¬ (delivery = .nothing ∨ (delivery = .acknowledgeOnly ∧ packet.type ≠ famAcknowledge)))
    (held : registry.restarted = true ∧ ¬ endsRestart packet.type = true) :
    acceptPacket registry packet =
      ({ registry with restarted := packet.type ≠ famEndExist }, none) := by
  obtain ⟨loud, acknowledged⟩ := not_or.mp passes
  simp only [acceptPacket, known, if_neg loud, if_neg acknowledged, if_pos held]

theorem acceptPacket_passes {registry : Registry} {packet : GAMPacket} {delivery : Delivery}
    {userData : Pointer} (known : registry.request packet.seq = some (delivery, userData))
    (passes : ¬ (delivery = .nothing ∨ (delivery = .acknowledgeOnly ∧ packet.type ≠ famAcknowledge)))
    (free : ¬ (registry.restarted = true ∧ ¬ endsRestart packet.type = true)) :
    acceptPacket registry packet =
      (if packet.type = famAcknowledge then { registry with restarted := false }.remove packet.seq
        else { registry with restarted := false },
        some { reqnum := packet.seq, filename := packet.path, userdata := userData, code := packet.type }) := by
  obtain ⟨loud, acknowledged⟩ := not_or.mp passes
  simp only [acceptPacket, known, if_neg loud, if_neg acknowledged, if_neg free]

/-- Processes a packet behind the events so far. -/
def deliverPacket (state : Registry × List FAMEvent) (packet : GAMPacket) :
    Registry × List FAMEvent :=
  ((acceptPacket state.1 packet).1, state.2 ++ (acceptPacket state.1 packet).2.toList)

/-- The events of the accepted packets, in order. -/
def acceptedEvents (registry : Registry) (packets : List GAMPacket) : List FAMEvent :=
  (packets.foldl deliverPacket (registry, [])).2

/-! ## The registry of a connection -/

def deliveryOf : GAMReqState → Delivery
  | .reqNone => .nothing
  | .reqInit => .every
  | .reqConfirmed => .every
  | .reqSuspended => .nothing
  | .reqCancelled => .acknowledgeOnly

/-- What an entry of the table says to the registry. -/
def registryEntry (req : GAMReqData) : Int × Delivery × Pointer :=
  (req.reqno, deliveryOf req.state, req.userData)

def registryOf (conn : GAMData) : Registry where
  request := fun reqno => ((conn.reqTab.map registryEntry).find? (·.1 = reqno)).map (·.2)
  restarted := conn.restarted

/-- On a sorted table the registry knows exactly the live requests. -/
theorem registryOf_request {conn : GAMData} (sorted : TableSorted conn) (reqno : Int) :
    (registryOf conn).request reqno =
      (gaminDataGetReq conn reqno).map fun req => (deliveryOf req.state, req.userData) := by
  have searched : conn.reqTab.find? (fun req => req.reqno = reqno) = gaminDataGetReq conn reqno := by
    apply Option.ext
    intro req
    rw [getReq_eq_some_iff sorted]
    constructor
    · intro found
      exact ⟨List.mem_of_find?_eq_some found, by simpa using List.find?_some found⟩
    · rintro ⟨member, same⟩
      cases found : conn.reqTab.find? (fun req => req.reqno = reqno) with
      | none =>
        have missing := List.find?_eq_none.mp found req member
        simp [same] at missing
      | some other =>
        obtain ⟨first, firstInside, rfl⟩ := List.mem_iff_getElem.mp member
        obtain ⟨second, secondInside, rfl⟩ := List.mem_iff_getElem.mp (List.mem_of_find?_eq_some found)
        have otherSame := List.find?_some found
        simp only [decide_eq_true_eq] at otherSame
        have position := sorted_position_unique sorted secondInside firstInside (otherSame.trans same.symm)
        simp [position]
  rw [← searched]
  simp only [registryOf, List.find?_map, Option.map_map]
  rfl

/-- Deleting a request removes it from the registry, and no other. -/
theorem registryOf_delReq {conn : GAMData} (sorted : TableSorted conn) (reqno : Int) :
    registryOf (gaminDataDelReq conn reqno).2 = (registryOf conn).remove reqno := by
  have sortedAfter := gaminDataDelReq_sorted sorted reqno
  have restarted : (gaminDataDelReq conn reqno).2.restarted = conn.restarted := by
    simp only [gaminDataDelReq]
    split <;> rfl
  -- the entry with the number goes, and since the table is sorted there is only one
  have members (req : GAMReqData) :
      req ∈ (gaminDataDelReq conn reqno).2.reqTab ↔ req ∈ conn.reqTab ∧ req.reqno ≠ reqno := by
    simp only [gaminDataDelReq]
    split
    · rename_i missed
      have absent := getReqIdx_complete sorted missed
      constructor
      · intro member
        exact ⟨member, fun same => absent (List.mem_map.mpr ⟨req, member, same⟩)⟩
      · exact And.left
    · have located : 0 ≤ gaminDataGetReqIdx conn reqno := by omega
      obtain ⟨inside, same⟩ := getReqIdx_sound located
      simp only [List.mem_eraseIdx_iff_getElem]
      constructor
      · rintro ⟨index, indexInside, different, rfl⟩
        refine ⟨List.getElem_mem indexInside, fun equal => different ?_⟩
        exact sorted_position_unique sorted indexInside inside (equal.trans same.symm)
      · rintro ⟨member, different⟩
        obtain ⟨index, indexInside, rfl⟩ := List.mem_iff_getElem.mp member
        exact ⟨index, indexInside, fun equal => different (by subst equal; exact same), rfl⟩
  -- both registries answer alike for every number
  apply Registry.ext
  · funext other
    simp only [registryOf_request sortedAfter, Registry.remove]
    split
    · rename_i same
      cases found : gaminDataGetReq (gaminDataDelReq conn reqno).2 other with
      | none => rfl
      | some req =>
        obtain ⟨member, key⟩ := (getReq_eq_some_iff sortedAfter other req).mp found
        exact absurd (key.trans same) ((members req).mp member).2
    · rename_i different
      rw [registryOf_request sorted]
      congr 1
      apply Option.ext
      intro req
      rw [getReq_eq_some_iff sortedAfter, getReq_eq_some_iff sorted, members]
      constructor
      · rintro ⟨⟨member, _⟩, key⟩
        exact ⟨member, key⟩
      · rintro ⟨member, key⟩
        exact ⟨⟨member, by rw [key]; exact different⟩, key⟩
  · simp only [Registry.remove]
    exact restarted

/-- Replacing an entry by one that says the same leaves the registry and the order alone. -/
theorem registryEntry_set {reqTab : List GAMReqData} {index : Nat} {req other : GAMReqData}
    (lookup : reqTab[index]? = some req) (same : registryEntry other = registryEntry req) :
    (reqTab.set index other).map registryEntry = reqTab.map registryEntry := by
  obtain ⟨inside, rfl⟩ := List.getElem?_eq_some_iff.mp lookup
  rw [List.map_set, same, ← List.getElem_map registryEntry (h := by simpa using inside)]
  exact List.set_getElem_self _

theorem reqnos_entries (reqTab : List GAMReqData) :
    reqnos reqTab = (reqTab.map registryEntry).map (·.1) := by
  simp [reqnos, registryEntry]

/-! ## The buffer -/

/-- The bytes that were received and not processed yet. -/
def buffered (conn : GAMData) : Bytes := window conn.event 0 conn.evnRead.toNat

/-- The event that is handed out by the next `gamin_data_read_event`. -/
def pendingEvent (conn : GAMData) : FAMEvent where
  reqnum := conn.evnReqnum
  filename := (packetAt conn.event 0).path.takeWhile (· ≠ 0)
  userdata := conn.evnUserdata
  code := packetType conn.event 0

/-- A packet with its path cut at the first NUL byte, as the string functions see it. -/
def asString (packet : GAMPacket) : GAMPacket :=
  { packet with path := packet.path.takeWhile (· ≠ 0) }

/-- The packets of the event stream. -/
def eventFraming : Framing UInt8 GAMPacket := packetFraming fun _ => false

/-- Decodes events behind those delivered so far. -/
def drainEvents (state : Registry × List FAMEvent) (bytes : Bytes) :
    Decoder (Registry × List FAMEvent) UInt8 :=
  eventFraming.drain (fun state packet => (deliverPacket state (asString packet), true)) state bytes

/-- What holds of a connection between two operations. -/
structure BufferInvariant (conn : GAMData) : Prop where
  sorted : TableSorted conn
  auth : conn.auth = 0 ∨ conn.auth = 1
  nonnegative : 0 ≤ conn.evnRead
  fits : conn.evnRead ≤ sizeofGAMPacket
  whole : conn.evnReady = true → packetLen conn.event 0 ≤ conn.evnRead ∧
    packetPathlen conn.event 0 + gamPacketHeaderLen = packetLen conn.event 0

/-- The registry behind the pending event. -/
def registryBehind (conn : GAMData) : Registry :=
  if packetType conn.event 0 = famAcknowledge then (registryOf conn).remove (packetSeq conn.event 0)
  else registryOf conn

/-- The outlook of a connection: what has been delivered and the bytes it still holds, as a
state of the decoder of the whole stream. -/
def outlook (conn : GAMData) (delivered : List FAMEvent) : Decoder (Registry × List FAMEvent) UInt8 :=
  if conn.evnReady then
    drainEvents (registryBehind conn, delivered ++ [pendingEvent conn])
      ((buffered conn).drop (packetLen conn.event 0))
  else drainEvents (registryOf conn, delivered) (buffered conn)

/-- What `gamin_data_conn_event` leaves alone. -/
theorem gaminDataConnEvent_frame (conn : GAMData) :
    0 ≤ (gaminDataConnEvent conn).1 ∧ (gaminDataConnEvent conn).2.event = conn.event ∧
      (gaminDataConnEvent conn).2.evnRead = conn.evnRead ∧
      (gaminDataConnEvent conn).2.auth = conn.auth ∧
      (gaminDataConnEvent conn).2.reqTab.map registryEntry = conn.reqTab.map registryEntry := by
  unfold gaminDataConnEvent
  simp only
  split
  · exact ⟨by omega, rfl, rfl, rfl, rfl⟩
  rename_i req found
  have entries : req.state = .reqInit →
      (conn.reqTab.set (gaminDataGetReqIdx conn (packetSeq conn.event 0)).toNat
        { req with state := .reqConfirmed }).map registryEntry = conn.reqTab.map registryEntry := by
    intro state
    refine registryEntry_set (?_ : _ = some req) ?_
    · simp only [gaminDataGetReq] at found
      split at found
      · contradiction
      · exact found
    · simp [registryEntry, deliveryOf, state]
  split
  · exact ⟨by omega, rfl, rfl, rfl, rfl⟩
  split
  · exact ⟨by omega, rfl, rfl, rfl, rfl⟩
  · by_cases initial : req.state = .reqInit <;> simp only [initial, if_true, if_false] <;>
      grind

theorem registryOf_connEvent (conn : GAMData) :
    registryOf (gaminDataConnEvent conn).2 =
      { registryOf conn with restarted := (gaminDataConnEvent conn).2.restarted } := by
  obtain ⟨_, _, _, _, entries⟩ := gaminDataConnEvent_frame conn
  simp [registryOf, entries]

/-- A packet of an unknown, suspended or cancelled request changes nothing. -/
theorem gaminDataConnEvent_drops {conn : GAMData}
    (dropped : ∀ req, gaminDataGetReq conn (packetSeq conn.event 0) = some req →
      deliveryOf req.state = .nothing ∨
        (deliveryOf req.state = .acknowledgeOnly ∧ packetType conn.event 0 ≠ famAcknowledge)) :
    gaminDataConnEvent conn = (0, conn) := by
  cases found : gaminDataGetReq conn (packetSeq conn.event 0) with
  | none => simp [gaminDataConnEvent, found]
  | some req =>
    have silent := dropped req found
    cases state : req.state <;> simp [state, deliveryOf] at silent <;>
      simp [gaminDataConnEvent, found, state, silent]

/-- A packet of another request passes unless the filter behind a reconnection holds it. -/
theorem gaminDataConnEvent_passes {conn : GAMData} {req : GAMReqData}
    (found : gaminDataGetReq conn (packetSeq conn.event 0) = some req)
    (passes : deliveryOf req.state ≠ .nothing ∧
      ¬ (deliveryOf req.state = .acknowledgeOnly ∧ packetType conn.event 0 ≠ famAcknowledge)) :
    if conn.restarted ∧ ¬ endsRestart (packetType conn.event 0) then
      (gaminDataConnEvent conn).2.evnReady = conn.evnReady ∧
        (gaminDataConnEvent conn).2.restarted = decide (packetType conn.event 0 ≠ famEndExist)
    else
      (gaminDataConnEvent conn).2.evnReady = true ∧
        (gaminDataConnEvent conn).2.restarted = false ∧
        (gaminDataConnEvent conn).2.evnReqnum = packetSeq conn.event 0 ∧
        (gaminDataConnEvent conn).2.evnUserdata = req.userData := by
  simp only [gaminDataConnEvent, endsRestart, found]
  obtain ⟨loud, acknowledged⟩ := passes
  cases state : req.state <;> simp only [state, deliveryOf] at loud acknowledged ⊢ <;> grind

/-- The decision of `gamin_data_conn_event` is the one of any registry that agrees with the
search in the table about the request of the packet in the buffer. -/
theorem gaminDataConnEvent_decides {conn : GAMData} {registry : Registry}
    (lookup : registry.request (packetSeq conn.event 0) =
      (gaminDataGetReq conn (packetSeq conn.event 0)).map fun req => (deliveryOf req.state, req.userData))
    (restarted : registry.restarted = conn.restarted) (idle : conn.evnReady = false) :
    (match (acceptPacket registry (asString (packetAt conn.event 0))).2 with
    | none => (gaminDataConnEvent conn).2.evnReady = false ∧
        { registry with restarted := (gaminDataConnEvent conn).2.restarted } =
          (acceptPacket registry (asString (packetAt conn.event 0))).1
    | some event => (gaminDataConnEvent conn).2.evnReady = true ∧
        pendingEvent (gaminDataConnEvent conn).2 = event ∧
        (if packetType conn.event 0 = famAcknowledge then
          { registry with restarted := (gaminDataConnEvent conn).2.restarted }.remove
            (packetSeq conn.event 0)
        else { registry with restarted := (gaminDataConnEvent conn).2.restarted }) =
          (acceptPacket registry (asString (packetAt conn.event 0))).1) := by
  obtain ⟨_, event, _, _, _⟩ := gaminDataConnEvent_frame conn
  -- the packet is dropped without a trace, or its request takes it
  by_cases dropped : ∀ req, gaminDataGetReq conn (packetSeq conn.event 0) = some req →
      deliveryOf req.state = .nothing ∨
        (deliveryOf req.state = .acknowledgeOnly ∧ packetType conn.event 0 ≠ famAcknowledge)
  · rw [gaminDataConnEvent_drops dropped, acceptPacket_drops]
    · exact ⟨idle, by rw [← restarted]⟩
    · intro delivery userData known
      obtain ⟨req, found, same⟩ := Option.map_eq_some_iff.mp (lookup.symm.trans known)
      cases same
      exact dropped req found
  · push Not at dropped
    obtain ⟨req, found, loud, acknowledged⟩ := dropped
    have passes : ¬ (deliveryOf req.state = .nothing ∨
        (deliveryOf req.state = .acknowledgeOnly ∧ packetType conn.event 0 ≠ famAcknowledge)) := by
      rintro (quiet | ⟨cancelled, other⟩)
      · exact loud quiet
      · exact other (acknowledged cancelled)
    have known : registry.request (asString (packetAt conn.event 0)).seq =
        some (deliveryOf req.state, req.userData) := by
      rw [found] at lookup
      exact lookup
    have fields := gaminDataConnEvent_passes found (not_or.mp passes)
    -- after a restart events are held back until one ends it
    by_cases held : conn.restarted = true ∧ ¬ endsRestart (packetType conn.event 0) = true
    · rw [if_pos held] at fields
      rw [← restarted] at held
      rw [acceptPacket_held known passes held]
      exact ⟨fields.1.trans idle, by rw [fields.2]; rfl⟩
    · rw [if_neg held] at fields
      rw [← restarted] at held
      obtain ⟨ready, ended, reqnum, userData⟩ := fields
      rw [acceptPacket_passes known passes held]
      refine ⟨ready, ?_, ?_⟩
      · simp only [pendingEvent, event, reqnum, userData]
        rfl
      · simp only [ended]
        rfl

/-- On a sorted table it is the one of the registry of the connection. -/
theorem gaminDataConnEvent_accepts {conn : GAMData} (sorted : TableSorted conn)
    (idle : conn.evnReady = false) :
    (match (acceptPacket (registryOf conn) (asString (packetAt conn.event 0))).2 with
    | none => (gaminDataConnEvent conn).2.evnReady = false ∧
        registryOf (gaminDataConnEvent conn).2 =
          (acceptPacket (registryOf conn) (asString (packetAt conn.event 0))).1
    | some event => (gaminDataConnEvent conn).2.evnReady = true ∧
        pendingEvent (gaminDataConnEvent conn).2 = event ∧
        registryBehind (gaminDataConnEvent conn).2 =
          (acceptPacket (registryOf conn) (asString (packetAt conn.event 0))).1) := by
  obtain ⟨_, event, _, _, _⟩ := gaminDataConnEvent_frame conn
  have decides := gaminDataConnEvent_decides (registryOf_request sorted _) rfl idle
  simp only [registryBehind, registryOf_connEvent, event]
  exact decides

/-! ## Reading an event -/

theorem gaminDataDelReq_frame (conn : GAMData) (reqno : Int) :
    (gaminDataDelReq conn reqno).2 = { conn with reqTab := (gaminDataDelReq conn reqno).2.reqTab } := by
  simp only [gaminDataDelReq]
  split <;> rfl

/-- The bytes behind the packet at the front, moved to the front. -/
theorem window_behind {conn : GAMData} (invariant : BufferInvariant conn) (ready : conn.evnReady = true) :
    window conn.event (packetPath 0 + packetPathlen conn.event 0)
        (conn.evnRead - packetLen conn.event 0).toNat =
      (buffered conn).drop (packetLen conn.event 0) := by
  obtain ⟨whole, sizes⟩ := invariant.whole ready
  have nonnegative := invariant.nonnegative
  rw [buffered, window_drop _ _ _ _ (by omega)]
  congr 1
  · simp only [packetPath]
    omega
  · omega

/-- A successful read hands out the pending event and changes nothing else of the outlook. -/
theorem gaminDataReadEvent_ready {conn : GAMData} (invariant : BufferInvariant conn)
    (ready : conn.evnReady = true) (delivered : List FAMEvent) :
    (gaminDataReadEvent conn).1 = some (pendingEvent conn) ∧
      (gaminDataReadEvent conn).2.evnReady = false ∧
      BufferInvariant (gaminDataReadEvent conn).2 ∧
      outlook (gaminDataReadEvent conn).2 (delivered ++ [pendingEvent conn]) = outlook conn delivered := by
  obtain ⟨whole, sizes⟩ := invariant.whole ready
  have nonnegative := invariant.nonnegative
  have fits := invariant.fits
  have behind := window_behind invariant ready
  -- the connection behind the deletion of an acknowledged request
  obtain ⟨after, deleted⟩ : ∃ after : GAMData, after =
      if packetType conn.event 0 = famAcknowledge then
        (gaminDataDelReq { conn with evnReady := false, evnRead := conn.evnRead - packetLen conn.event 0 }
          (packetSeq conn.event 0)).2
      else { conn with evnReady := false, evnRead := conn.evnRead - packetLen conn.event 0 } := ⟨_, rfl⟩
  have sorted : TableSorted after := by
    rw [deleted]
    split
    · exact @gaminDataDelReq_sorted { conn with
        evnReady := false, evnRead := conn.evnRead - packetLen conn.event 0 } invariant.sorted _
    · exact invariant.sorted
  have registry : registryOf after = registryBehind conn := by
    rw [deleted, registryBehind]
    split
    · exact @registryOf_delReq { conn with
        evnReady := false, evnRead := conn.evnRead - packetLen conn.event 0 } invariant.sorted _
    · rfl
  have fields : after.evnReady = false ∧ after.evnRead = conn.evnRead - packetLen conn.event 0 ∧
      after.event = conn.event ∧ after.auth = conn.auth := by
    rw [deleted]
    split
    · rw [gaminDataDelReq_frame]
      exact ⟨rfl, rfl, rfl, rfl⟩
    · exact ⟨rfl, rfl, rfl, rfl⟩
  obtain ⟨idle, rest, event, auth⟩ := fields
  have result : gaminDataReadEvent conn = (some (pendingEvent conn),
      if after.evnRead > 0 then { after with
        event := move after.event 0 (packetPath 0 + packetPathlen after.event 0) after.evnRead.toNat }
      else after) := by
    simp only [gaminDataReadEvent, ready, not_true_eq_false, if_false, ← deleted]
    split <;> rfl
  rw [result]
  refine ⟨rfl, ?_, ?_, ?_⟩
  · simp only
    split <;> exact idle
  · simp only
    split
    · exact ⟨sorted, auth ▸ invariant.auth, by simp only [rest]; omega, by simp only [rest]; omega,
        fun other => by simp [idle] at other⟩
    · exact ⟨sorted, auth ▸ invariant.auth, by rw [rest]; omega, by rw [rest]; omega,
        fun other => by simp [idle] at other⟩
  · simp only
    split
    · rename_i more
      simp only [outlook, idle, ready, Bool.false_eq_true, if_false, if_true, buffered,
        window_move_same, event, rest, behind]
      congr 1
      exact Prod.ext (registry ▸ rfl) rfl
    · rename_i last
      have empty : after.evnRead.toNat = 0 := by omega
      simp only [outlook, idle, ready, Bool.false_eq_true, if_false, if_true, registry]
      rw [← behind, show (conn.evnRead - packetLen conn.event 0).toNat = 0 by omega, buffered, empty,
        window_zero, window_zero]

/-! ## The decoding loop -/

theorem eventFraming_window (conn : GAMData) :
    eventFraming.scan (buffered conn) =
      if conn.evnRead.toNat < gamPacketHeaderLen then .incomplete
      else if packetLen conn.event 0 > sizeofGAMPacket then .malformed
      else if packetVersion conn.event 0 ≠ gamProtoVersion then .malformed
      else if packetPathlen conn.event 0 ≤ 0 ∨ packetPathlen conn.event 0 > maxPathLen then .malformed
      else if packetPathlen conn.event 0 + gamPacketHeaderLen ≠ packetLen conn.event 0 then .malformed
      else if conn.evnRead.toNat < packetLen conn.event 0 then .incomplete
      else .frame (packetAt conn.event 0) (packetLen conn.event 0) := by
  rw [eventFraming, show (packetFraming _).scan = scanPacket _ from rfl, buffered, scanPacket_window]
  simp only [Bool.false_eq_true, not_false_eq_true, true_and]

/-- A whole packet is in front of the buffer. -/
structure PacketInFront (conn : GAMData) : Prop where
  sizes : packetPathlen conn.event 0 + gamPacketHeaderLen = packetLen conn.event 0
  whole : packetLen conn.event 0 ≤ conn.evnRead
  found : eventFraming.scan (buffered conn) = .frame (packetAt conn.event 0) (packetLen conn.event 0)

/-- The connection after a packet that has been decided is taken off the front of the buffer. -/
def connBehind (conn : GAMData) (event : Nat → UInt8) : GAMData :=
  { (gaminDataConnEvent conn).2 with
    evnRead := (gaminDataConnEvent conn).2.evnRead - packetLen conn.event 0
    event := event }

@[simp] theorem connBehind_evnReady (conn : GAMData) (event : Nat → UInt8) :
    (connBehind conn event).evnReady = (gaminDataConnEvent conn).2.evnReady := rfl

/-- What the loop does: it stops when no whole packet is left, fails on one that is malformed, and decides
the others up to the first that it accepts. -/
inductive DataLoop : GAMData → Int × GAMData → Prop where
  | waiting {conn : GAMData} (found : eventFraming.scan (buffered conn) = .incomplete) : DataLoop conn (0, conn)
  | malformed {conn : GAMData} {result : Int} (found : eventFraming.scan (buffered conn) = .malformed)
      (failed : result ≠ 0) : DataLoop conn (result, conn)
  | ready {conn : GAMData} (front : PacketInFront conn) (ready : (gaminDataConnEvent conn).2.evnReady = true) :
      DataLoop conn (0, (gaminDataConnEvent conn).2)
  | dropped {conn : GAMData} {event : Nat → UInt8} {outcome : Int × GAMData} (front : PacketInFront conn)
      (dropped : (gaminDataConnEvent conn).2.evnReady = false)
      (behind : buffered (connBehind conn event) = (buffered conn).drop (packetLen conn.event 0))
      (rest : DataLoop (connBehind conn event) outcome) : DataLoop conn outcome

theorem PacketInFront.rest {conn : GAMData} (front : PacketInFront conn) {event : Nat → UInt8}
    (fits : conn.evnRead ≤ sizeofGAMPacket) :
    0 ≤ (connBehind conn event).evnRead ∧ (connBehind conn event).evnRead ≤ sizeofGAMPacket := by
  have read := (gaminDataConnEvent_frame conn).2.2.1
  have whole := front.whole
  simp only [connBehind, read]
  omega

theorem gaminDataConnDataLoop_decodes {conn : GAMData} (nonnegative : 0 ≤ conn.evnRead) :
    DataLoop conn (gaminDataConnDataLoop conn) := by
  have found := eventFraming_window conn
  fun_induction gaminDataConnDataLoop conn with
  -- the checks of the header, in the order of the code
  | case1 conn short =>
    rw [if_pos (by simp only [gamPacketHeaderLen] at *; omega)] at found
    exact .waiting found
  | case2 conn header long =>
    rw [if_neg (by omega), if_pos long] at found
    exact .malformed found (by decide)
  | case3 conn header long version =>
    rw [if_neg (by omega), if_neg long, if_pos version] at found
    exact .malformed found (by decide)
  | case4 conn header long version path =>
    rw [if_neg (by omega), if_neg long, if_neg version, if_pos path] at found
    exact .malformed found (by decide)
  | case5 conn header long version path sizes =>
    rw [if_neg (by omega), if_neg long, if_neg version, if_neg path, if_pos sizes] at found
    exact .malformed found (by decide)
  | case6 conn header long version path sizes part =>
    rw [if_neg (by omega), if_neg long, if_neg version, if_neg path, if_neg sizes, if_pos (by omega)] at found
    exact .waiting found
  -- `gamin_data_conn_event` does not fail
  | case7 conn header long version path sizes part result after decided failed =>
    have nonneg := (gaminDataConnEvent_frame conn).1
    rw [decided] at nonneg
    exact absurd failed (by simpa using nonneg)
  -- an event is ready
  | case8 conn header long version path sizes part result after decided success ready =>
    rw [if_neg (by omega), if_neg long, if_neg version, if_neg path, if_neg sizes, if_neg (by omega)] at found
    have loop := @DataLoop.ready conn ⟨by omega, by omega, found⟩
    rw [decided] at loop
    exact loop ready
  -- the packet is dropped, and nothing is behind it
  | case9 conn header long version path sizes part result after decided success dropped last =>
    rw [if_neg (by omega), if_neg long, if_neg version, if_neg path, if_neg sizes, if_neg (by omega)] at found
    have front : PacketInFront conn := ⟨by omega, by omega, found⟩
    have read := (gaminDataConnEvent_frame conn).2.2.1
    have next : connBehind conn after.event = { after with evnRead := 0 } := by
      rw [connBehind, decided]
      simp only [last]
    rw [decided] at read
    simp only at read
    refine @DataLoop.dropped conn after.event _ front (by simpa [decided] using dropped) ?_ ?_
    · rw [next, buffered, buffered, window_drop _ _ _ _ (by omega),
        show conn.evnRead.toNat - packetLen conn.event 0 = 0 by omega]
      rfl
    · rw [next]
      exact .waiting eventFraming.scan_nil
  -- the packet is dropped, and what is behind it moves to the front
  | case10 conn header long version path sizes part result after decided success dropped more inductionHypothesis =>
    rw [if_neg (by omega), if_neg long, if_neg version, if_neg path, if_neg sizes, if_neg (by omega)] at found
    have front : PacketInFront conn := ⟨by omega, by omega, found⟩
    obtain ⟨_, event, read, _, _⟩ := gaminDataConnEvent_frame conn
    have next : connBehind conn (move after.event 0 (packetPath 0 + packetPathlen after.event 0)
        (after.evnRead - packetLen conn.event 0).toNat) = { after with
          evnRead := after.evnRead - packetLen conn.event 0
          event := move after.event 0 (packetPath 0 + packetPathlen after.event 0)
            (after.evnRead - packetLen conn.event 0).toNat } := by
      rw [connBehind, decided]
    rw [decided] at event read
    simp only at event read
    refine @DataLoop.dropped conn (move after.event 0 (packetPath 0 + packetPathlen after.event 0)
      (after.evnRead - packetLen conn.event 0).toNat) _ front (by simpa [decided] using dropped) ?_ ?_
    · rw [next]
      simp only [buffered, window_move_same, event]
      rw [window_drop _ _ _ _ (by omega)]
      congr 1
      · simp only [packetPath]
        omega
      · omega
    · rw [next]
      exact inductionHypothesis (by simp only; omega) (eventFraming_window _)

theorem gaminDataConnEvent_sorted {conn : GAMData} (sorted : TableSorted conn) :
    TableSorted (gaminDataConnEvent conn).2 := by
  obtain ⟨_, _, _, _, entries⟩ := gaminDataConnEvent_frame conn
  rw [TableSorted, reqnos_entries, entries, ← reqnos_entries]
  exact sorted

/-- One packet in the buffer is decided as the decoder of the stream decides it. -/
theorem gaminDataConnEvent_outlook {conn : GAMData} (invariant : BufferInvariant conn)
    (idle : conn.evnReady = false) (front : PacketInFront conn) (delivered : List FAMEvent) :
    BufferInvariant (gaminDataConnEvent conn).2 ∧
      outlook conn delivered =
        if (gaminDataConnEvent conn).2.evnReady then outlook (gaminDataConnEvent conn).2 delivered
        else drainEvents (registryOf (gaminDataConnEvent conn).2, delivered)
          ((buffered conn).drop (packetLen conn.event 0)) := by
  obtain ⟨_, event, read, auth, _⟩ := gaminDataConnEvent_frame conn
  have accepts := gaminDataConnEvent_accepts invariant.sorted idle
  have unfolded : outlook conn delivered =
      drainEvents (deliverPacket (registryOf conn, delivered) (asString (packetAt conn.event 0)))
        ((buffered conn).drop (packetLen conn.event 0)) := by
    simp only [outlook, idle, Bool.false_eq_true, if_false, drainEvents]
    exact Framing.drain_accepted front.found rfl
  refine ⟨⟨gaminDataConnEvent_sorted invariant.sorted, auth ▸ invariant.auth, read ▸ invariant.nonnegative,
    read ▸ invariant.fits, fun _ => by rw [event, read]; exact ⟨front.whole, front.sizes⟩⟩, ?_⟩
  rw [unfolded, deliverPacket]
  cases decision : (acceptPacket (registryOf conn) (asString (packetAt conn.event 0))).2 with
  | none =>
    rw [decision] at accepts
    obtain ⟨dropped, registry⟩ := accepts
    simp [dropped, registry]
  | some pending =>
    rw [decision] at accepts
    obtain ⟨ready, same, registry⟩ := accepts
    simp only [outlook, ready, if_true, registry, same, buffered, event, read]
    rfl

/-- Decoding leaves the outlook alone; it stops at an accepted event or when no whole packet
is left, and it fails only on a stream that is malformed. -/
theorem gaminDataConnDataLoop_outlook {conn : GAMData} (invariant : BufferInvariant conn)
    (idle : conn.evnReady = false) (delivered : List FAMEvent) :
    if (gaminDataConnDataLoop conn).1 = 0 then
      BufferInvariant (gaminDataConnDataLoop conn).2 ∧
        outlook (gaminDataConnDataLoop conn).2 delivered = outlook conn delivered ∧
        ((gaminDataConnDataLoop conn).2.evnReady = false →
          eventFraming.scan (buffered (gaminDataConnDataLoop conn).2) = .incomplete)
    else (∃ state, outlook conn delivered = .rejected state) := by
  have loop := gaminDataConnDataLoop_decodes invariant.nonnegative
  generalize gaminDataConnDataLoop conn = outcome at loop ⊢
  induction loop with
  | waiting found => exact ⟨invariant, rfl, fun _ => found⟩
  | malformed found failed =>
    rw [if_neg failed]
    simp only [outlook, idle, Bool.false_eq_true, if_false]
    exact ⟨_, Framing.drain_malformed found⟩
  | ready front ready =>
    obtain ⟨kept, same⟩ := gaminDataConnEvent_outlook invariant idle front delivered
    rw [if_pos ready] at same
    exact ⟨kept, same.symm, fun other => by simp [ready] at other⟩
  | @dropped conn event _ front dropped behind _ inductionHypothesis =>
    obtain ⟨kept, same⟩ := gaminDataConnEvent_outlook invariant idle front delivered
    obtain ⟨nonnegative, fits⟩ := front.rest invariant.fits
    have step := inductionHypothesis
      ⟨kept.sorted, kept.auth, nonnegative, fits, fun ready => by simp [dropped] at ready⟩ dropped
    -- what is left in the buffer has the outlook of all of it
    have moved : outlook (connBehind conn event) delivered = outlook conn delivered := by
      rw [same, ← behind]
      simp only [outlook, connBehind_evnReady, dropped, Bool.false_eq_true, if_false]
      rfl
    rwa [moved] at step

theorem gaminDataConnData_loop {conn : GAMData} {len : Int} (positive : 0 ≤ len)
    (nonnegative : 0 ≤ conn.evnRead) (fits : len + conn.evnRead ≤ sizeofGAMPacket) :
    gaminDataConnData conn len = gaminDataConnDataLoop { conn with evnRead := conn.evnRead + len } := by
  rw [gaminDataConnData, if_neg (by omega), if_neg (by omega)]

/-- `gamin_data_event_ready` decodes what is in the buffer. -/
theorem gaminDataEventReady_outlook {conn : GAMData} (invariant : BufferInvariant conn)
    (delivered : List FAMEvent) (accepted : ∀ state, outlook conn delivered ≠ .rejected state) :
    (gaminDataEventReady conn).1 = (gaminDataEventReady conn).2.evnReady ∧
      BufferInvariant (gaminDataEventReady conn).2 ∧
      outlook (gaminDataEventReady conn).2 delivered = outlook conn delivered ∧
      ((gaminDataEventReady conn).2.evnReady = false →
        eventFraming.scan (buffered (gaminDataEventReady conn).2) = .incomplete) := by
  unfold gaminDataEventReady
  by_cases ready : conn.evnReady = true
  · rw [if_pos ready]
    exact ⟨ready.symm, invariant, rfl, fun idle => by simp [ready] at idle⟩
  rw [if_neg ready]
  have idle : conn.evnReady = false := by simpa using ready
  by_cases some : conn.evnRead ≠ 0
  · have decoded := gaminDataConnDataLoop_outlook invariant idle delivered
    rw [if_pos some, gaminDataConnData_loop (Int.le_refl 0) invariant.nonnegative
      (by have := invariant.fits; omega), Int.add_zero]
    split at decoded
    · exact ⟨rfl, decoded⟩
    · obtain ⟨state, rejected⟩ := decoded
      exact absurd rejected (accepted state)
  · rw [if_neg some]
    have empty : conn.evnRead = 0 := by omega
    refine ⟨rfl, invariant, rfl, fun _ => ?_⟩
    rw [buffered, empty]
    exact eventFraming.scan_nil

/-! ## Reading from the socket -/

/-- What is fed behind the outlook, as it is fed to the decoder of the stream. -/
def feedEvents (decoder : Decoder (Registry × List FAMEvent) UInt8) (bytes : Bytes) :
    Decoder (Registry × List FAMEvent) UInt8 :=
  eventFraming.feed (fun state packet => (deliverPacket state (asString packet), true)) decoder bytes

theorem feedEvents_drain (state : Registry × List FAMEvent) (bytes more : Bytes) :
    feedEvents (drainEvents state bytes) more = drainEvents state (bytes ++ more) :=
  (Framing.drain_append state bytes more).symm

/-- The answers a healthy server connection gives to one call: the credentials are there when
they are asked for, and a read delivers at least one byte and at most what fits. -/
structure AnswersFit (conn : GAMData) (answers : ReadAnswers) : Prop where
  credential : answers.credential = some 0
  sameUid : answers.sameUid = true
  available : 0 ≤ answers.available
  read : ∃ bytes, answers.read = .data bytes ∧ 0 < bytes.length ∧
    (bytes.length : Int) ≤ gaminDataGetDataSize conn

/-- A successful chunk feeds the outlook. -/
theorem gaminReadChunk_outlook {conn : GAMData} (invariant : BufferInvariant conn)
    (idle : conn.evnReady = false) {answers : ReadAnswers} (fit : AnswersFit conn answers)
    (delivered : List FAMEvent)
    (accepted : ∀ state, feedEvents (outlook conn delivered) (gaminReadChunk conn answers).2.2 ≠
      .rejected state) :
    (gaminReadChunk conn answers).1 = 0 ∧
      BufferInvariant (gaminReadChunk conn answers).2.1 ∧
      outlook (gaminReadChunk conn answers).2.1 delivered =
        feedEvents (outlook conn delivered) (gaminReadChunk conn answers).2.2 := by
  obtain ⟨bytes, read, _, size⟩ := fit.read
  have nonnegative := invariant.nonnegative
  simp only [gaminDataGetDataSize] at size
  -- the buffer with the chunk stored behind it
  obtain ⟨filled, same⟩ : ∃ filled : GAMData, filled = { conn with
      event := store conn.event conn.evnRead.toNat bytes, evnRead := conn.evnRead + bytes.length } :=
    ⟨_, rfl⟩
  have chunk : gaminReadChunk conn answers =
      (if (gaminDataConnDataLoop filled).1 < 0 then -1 else 0, (gaminDataConnDataLoop filled).2, bytes) := by
    rw [same]
    simp only [gaminReadChunk, read]
    rw [@gaminDataConnData_loop { conn with event := store conn.event conn.evnRead.toNat bytes } _
      (by omega) nonnegative (by simp only; omega)]
  have idleFilled : filled.evnReady = false := by rw [same]; exact idle
  have invariantFilled : BufferInvariant filled := by
    rw [same]
    exact ⟨invariant.sorted, invariant.auth, by simp only; omega, by simp only; omega,
      fun ready => by simp [idle] at ready⟩
  -- what the loop finds in it is what was left before, followed by the chunk
  have fed : outlook filled delivered = feedEvents (outlook conn delivered) bytes := by
    have appended := window_store_append conn.event 0 conn.evnRead.toNat bytes
    rw [Nat.zero_add] at appended
    simp only [outlook, idle, idleFilled, Bool.false_eq_true, if_false, feedEvents_drain, buffered]
    rw [← appended, same]
    congr 2
    simp only
    omega
  have decoded := gaminDataConnDataLoop_outlook invariantFilled idleFilled delivered
  rw [chunk] at accepted ⊢
  split at decoded
  · rename_i success
    exact ⟨by simp [success], decoded.1, decoded.2.1.trans fed⟩
  · obtain ⟨state, rejected⟩ := decoded
    exact absurd (fed.symm.trans rejected) (accepted state)

/-- Signing in changes neither the buffer nor the registry. -/
theorem gaminDataDoneAuth_outlook {conn : GAMData} (invariant : BufferInvariant conn)
    (delivered : List FAMEvent) :
    BufferInvariant (gaminDataDoneAuth conn) ∧
      outlook (gaminDataDoneAuth conn) delivered = outlook conn delivered :=
  ⟨⟨invariant.sorted, .inr rfl, invariant.nonnegative, invariant.fits, invariant.whole⟩, rfl⟩

theorem gaminReadData_outlook {conn : GAMData} (invariant : BufferInvariant conn)
    (idle : conn.evnReady = false) {answers : ReadAnswers} (fit : AnswersFit conn answers) (block : Bool)
    (delivered : List FAMEvent)
    (accepted : ∀ state, feedEvents (outlook conn delivered) (gaminReadData conn answers block).2.2 ≠
      .rejected state) :
    (gaminReadData conn answers block).1 = 0 ∧
      BufferInvariant (gaminReadData conn answers block).2.1 ∧
      outlook (gaminReadData conn answers block).2.1 delivered =
        feedEvents (outlook conn delivered) (gaminReadData conn answers block).2.2 := by
  have checked : gaminCheckCred conn answers = (0, gaminDataDoneAuth conn) := by
    simp [gaminCheckCred, fit.credential, fit.sameUid]
  obtain ⟨invariantDone, outlookDone⟩ := gaminDataDoneAuth_outlook invariant delivered
  have available := fit.available
  have nothing : feedEvents (outlook conn delivered) [] = outlook conn delivered := by
    simp only [outlook, idle, Bool.false_eq_true, if_false, feedEvents_drain, List.append_nil]
  -- the first read asks for the credentials
  rcases invariant.auth with needed | done
  · have need : gaminDataNeedAuth conn = 1 := by simp [gaminDataNeedAuth, needed]
    simp only [gaminReadData, need, if_true, checked, Int.lt_irrefl, if_false] at accepted ⊢
    rw [if_neg (by omega)] at accepted ⊢
    by_cases waits : ¬ block = true ∧ answers.available = 0
    · rw [if_pos waits, nothing]
      exact ⟨rfl, invariantDone, outlookDone⟩
    · rw [if_neg waits] at accepted ⊢
      rw [← outlookDone] at accepted ⊢
      exact gaminReadChunk_outlook invariantDone idle
        ⟨fit.credential, fit.sameUid, fit.available, fit.read⟩ delivered accepted
  · have need : gaminDataNeedAuth conn = 0 := by simp [gaminDataNeedAuth, done]
    have read : gaminReadData conn answers block = gaminReadChunk conn answers := by
      simp [gaminReadData, need]
    rw [read] at accepted ⊢
    exact gaminReadChunk_outlook invariant idle fit delivered accepted

end Gamin.Client
