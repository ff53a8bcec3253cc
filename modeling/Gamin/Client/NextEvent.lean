import Gamin.Client.Buffers
import Gamin.Client.Locking
import Gamin.Client.Sessions

/-! # The blocking contract of FAMNextEvent

`FAMNextEvent` should wait until an event can be delivered, but it reads only once.  What
one call returns is compared with the first event that the stream of the server has for
the application, for every way of cutting the stream.  Which packets are dropped is
decided by the search in the request table as it is, sorted or not.
-/

namespace Gamin.Client

open Gamin Gamin.Library

/-! ## The registry of the search -/

/-- The requests as `gamin_data_get_req` finds them. -/
def searchRegistry (conn : GAMData) : Registry where
  request := fun reqno =>
    (gaminDataGetReq conn reqno).map fun req => (deliveryOf req.state, req.userData)
  restarted := conn.restarted

/-- The search looks at nothing but the numbers. -/
theorem gaminDataGetReqIdxLoop_congr {first second : List GAMReqData}
    (same : reqnos first = reqnos second) (reqno min max : Int) :
    gaminDataGetReqIdxLoop first reqno min max = gaminDataGetReqIdxLoop second reqno min max := by
  have entry (index : Nat) : first[index]?.map (·.reqno) = second[index]?.map (·.reqno) := by
    rw [← List.getElem?_map, ← List.getElem?_map]
    exact congrArg (fun numbers => numbers[index]?) same
  -- at every index both tables have the same number, so both searches go the same way
  fun_induction gaminDataGetReqIdxLoop first reqno min max with
  | case1 min max inside cur missing =>
    have other := entry cur.toNat
    rw [missing] at other
    rw [gaminDataGetReqIdxLoop, if_pos inside]
    simp only [Option.map_eq_none_iff.mp other.symm, cur]
  | case2 min max inside cur req found here =>
    obtain ⟨other, foundOther, number⟩ := Option.map_eq_some_iff.mp
      ((entry cur.toNat).symm.trans (congrArg _ found))
    rw [gaminDataGetReqIdxLoop, if_pos inside]
    simp only [show (max + min) / 2 = cur from rfl, foundOther, number, here, if_true]
  | case3 min max inside cur req found elsewhere smaller inductionHypothesis =>
    obtain ⟨other, foundOther, number⟩ := Option.map_eq_some_iff.mp
      ((entry cur.toNat).symm.trans (congrArg _ found))
    conv_rhs => rw [gaminDataGetReqIdxLoop, if_pos inside]
    simp only [show (max + min) / 2 = cur from rfl, foundOther, number, if_neg elsewhere, if_pos smaller]
    exact inductionHypothesis
  | case4 min max inside cur req found elsewhere larger inductionHypothesis =>
    obtain ⟨other, foundOther, number⟩ := Option.map_eq_some_iff.mp
      ((entry cur.toNat).symm.trans (congrArg _ found))
    conv_rhs => rw [gaminDataGetReqIdxLoop, if_pos inside]
    simp only [show (max + min) / 2 = cur from rfl, foundOther, number, if_neg elsewhere, if_neg larger]
    exact inductionHypothesis
  | case5 min max outside =>
    rw [gaminDataGetReqIdxLoop, if_neg outside]

theorem searchRegistry_congr {first second : GAMData}
    (entries : first.reqTab.map registryEntry = second.reqTab.map registryEntry)
    (restarted : first.restarted = second.restarted) : searchRegistry first = searchRegistry second := by
  have numbers : reqnos first.reqTab = reqnos second.reqTab := by
    rw [reqnos_entries, reqnos_entries, entries]
  have length : first.reqTab.length = second.reqTab.length := by
    simpa using congrArg List.length entries
  have index (reqno : Int) : gaminDataGetReqIdx first reqno = gaminDataGetReqIdx second reqno := by
    simp only [gaminDataGetReqIdx, length, gaminDataGetReqIdxLoop_congr numbers]
  have lookup (conn : GAMData) (reqno : Int) : (searchRegistry conn).request reqno =
      if gaminDataGetReqIdx conn reqno < 0 then none
      else ((conn.reqTab.map registryEntry)[(gaminDataGetReqIdx conn reqno).toNat]?).map (·.2) := by
    simp only [searchRegistry, gaminDataGetReq]
    split
    · rfl
    · rw [List.getElem?_map, Option.map_map]
      rfl
  apply Registry.ext
  · funext reqno
    rw [lookup, lookup, index, entries]
  · exact restarted

theorem searchRegistry_connEvent (conn : GAMData) :
    { searchRegistry conn with restarted := (gaminDataConnEvent conn).2.restarted } =
      searchRegistry (gaminDataConnEvent conn).2 := by
  obtain ⟨_, _, _, _, entries⟩ := gaminDataConnEvent_frame conn
  exact @searchRegistry_congr { conn with restarted := (gaminDataConnEvent conn).2.restarted } _
    entries.symm rfl

/-! ## One pass over the buffer -/

/-- The events in the bytes of the buffer, and what comes behind them. -/
def bufferedEvents (conn : GAMData) : Decoder (Registry × List FAMEvent) UInt8 :=
  drainEvents (searchRegistry conn, []) (buffered conn)

/-- A pass of the loop has either found the first event of the buffer, or used up all the
whole packets in it without finding one. -/
def PassResult (before after : GAMData) : Prop :=
  BufferSound after ∧
    if after.evnReady then [pendingEvent after] <+: (bufferedEvents before).state.2
    else bufferedEvents before = .waiting (searchRegistry after, []) (buffered after) ∧
      eventFraming.scan (buffered after) = .incomplete

/-- Whatever is decoded behind an event, the event stays the first. -/
theorem drainEvents_first (registry : Registry) (event : FAMEvent) (bytes : Bytes) :
    [event] <+: (drainEvents (registry, [event]) bytes).state.2 := by
  apply Framing.drain_keeps (fun state : Registry × List FAMEvent => [event] <+: state.2)
  · intro state packet grown
    exact deliverPacket_grows [event] state (asString packet) grown
  · exact List.prefix_rfl

/-- One packet: it is the first event, or the decoder goes on behind it. -/
theorem gaminDataConnEvent_pass {conn : GAMData} (sound : BufferSound conn) (idle : conn.evnReady = false)
    (front : PacketInFront conn) :
    BufferSound (gaminDataConnEvent conn).2 ∧
      if (gaminDataConnEvent conn).2.evnReady then
        [pendingEvent (gaminDataConnEvent conn).2] <+: (bufferedEvents conn).state.2
      else bufferedEvents conn = drainEvents (searchRegistry (gaminDataConnEvent conn).2, [])
        ((buffered conn).drop (packetLen conn.event 0)) := by
  obtain ⟨_, event, read, _, _⟩ := gaminDataConnEvent_frame conn
  have decides := @gaminDataConnEvent_decides conn (searchRegistry conn) rfl rfl idle
  have unfolded : bufferedEvents conn =
      drainEvents (deliverPacket (searchRegistry conn, []) (asString (packetAt conn.event 0)))
        ((buffered conn).drop (packetLen conn.event 0)) :=
    Framing.drain_accepted front.found rfl
  constructor
  · exact ⟨read ▸ sound.nonnegative, read ▸ sound.fits, fun _ => by rw [event, read]; exact ⟨front.whole, front.sizes⟩⟩
  · rw [unfolded, deliverPacket]
    cases decision : (acceptPacket (searchRegistry conn) (asString (packetAt conn.event 0))).2 with
    | none =>
      rw [decision] at decides
      obtain ⟨dropped, registry⟩ := decides
      simp only [dropped, Bool.false_eq_true, if_false, ← registry, searchRegistry_connEvent,
        Option.toList_none, List.append_nil]
    | some pending =>
      rw [decision] at decides
      obtain ⟨ready, same, _⟩ := decides
      simp only [ready, if_true, same, Option.toList_some, List.nil_append]
      exact drainEvents_first _ pending _

theorem gaminDataConnDataLoop_pass {conn : GAMData} (sound : BufferSound conn)
    (idle : conn.evnReady = false) :
    if (gaminDataConnDataLoop conn).1 = 0 then PassResult conn (gaminDataConnDataLoop conn).2
    else ∃ state, bufferedEvents conn = .rejected state := by
  have loop := gaminDataConnDataLoop_decodes sound.nonnegative
  generalize gaminDataConnDataLoop conn = outcome at loop ⊢
  induction loop with
  | waiting found =>
    refine ⟨sound, ?_⟩
    simp only [idle, Bool.false_eq_true, if_false]
    exact ⟨Framing.drain_incomplete found, found⟩
  | malformed found failed =>
    rw [if_neg failed]
    exact ⟨_, Framing.drain_malformed found⟩
  | ready front ready =>
    obtain ⟨kept, first⟩ := gaminDataConnEvent_pass sound idle front
    rw [if_pos ready] at first
    exact ⟨kept, by rwa [if_pos ready]⟩
  | @dropped conn event _ front dropped behind _ inductionHypothesis =>
    have going := (gaminDataConnEvent_pass sound idle front).2
    rw [if_neg (by simp [dropped]), ← behind] at going
    obtain ⟨nonnegative, fits⟩ := front.rest sound.fits
    have step := inductionHypothesis ⟨nonnegative, fits, fun ready => by simp [dropped] at ready⟩ dropped
    -- what is left in the buffer decodes to what all of it does
    have same : bufferedEvents (connBehind conn event) = bufferedEvents conn := going.symm
    simp only [PassResult, same] at step ⊢
    exact step

/-! ## One call -/

/-- The stream up to here is one that well-formed packets can make up. -/
def StreamAccepted (conn : GAMData) (bytes : Bytes) : Prop :=
  ∀ state, drainEvents (searchRegistry conn, []) (buffered conn ++ bytes) ≠ .rejected state

theorem streamAccepted_front {conn : GAMData} {bytes more : Bytes}
    (accepted : StreamAccepted conn (bytes ++ more)) : StreamAccepted conn bytes := by
  apply drainEvents_healthy
  rw [List.append_assoc]
  exact accepted

/-- `gamin_data_event_ready` makes one pass over the buffer. -/
theorem gaminDataEventReady_pass {conn : GAMData} (sound : BufferSound conn) (idle : conn.evnReady = false)
    (accepted : StreamAccepted conn []) :
    (gaminDataEventReady conn).1 = (gaminDataEventReady conn).2.evnReady ∧
      PassResult conn (gaminDataEventReady conn).2 := by
  simp only [gaminDataEventReady, idle, Bool.false_eq_true, if_false]
  by_cases some : conn.evnRead = 0
  · have nothing : buffered conn = [] := by rw [buffered, some, Int.toNat_zero, window_zero]
    refine ⟨trivial, ?_⟩
    rw [if_neg (not_not.mpr some)]
    refine ⟨sound, ?_⟩
    simp only [idle, Bool.false_eq_true, if_false, bufferedEvents, nothing]
    exact ⟨Framing.drain_nil, eventFraming.scan_nil⟩
  · have pass := gaminDataConnDataLoop_pass sound idle
    refine ⟨trivial, ?_⟩
    rw [if_pos some, gaminDataConnData_loop (Int.le_refl 0) sound.nonnegative
      (by have := sound.fits; omega), Int.add_zero]
    split at pass
    · exact pass
    · obtain ⟨state, rejected⟩ := pass
      have clean := accepted state
      rw [List.append_nil] at clean
      exact absurd rejected clean

/-- A chunk that fits is stored behind the buffer, and one pass is made over both. -/
theorem gaminReadChunk_pass {conn : GAMData} (sound : BufferSound conn) (idle : conn.evnReady = false)
    {answers : ReadAnswers} {bytes : Bytes} (read : answers.read = .data bytes)
    (size : (bytes.length : Int) ≤ gaminDataGetDataSize conn) (accepted : StreamAccepted conn bytes) :
    ∃ filled : GAMData, buffered filled = buffered conn ++ bytes ∧
      searchRegistry filled = searchRegistry conn ∧
      (gaminReadChunk conn answers).1 = 0 ∧ PassResult filled (gaminReadChunk conn answers).2.1 := by
  have nonnegative := sound.nonnegative
  simp only [gaminDataGetDataSize] at size
  -- the buffer with the chunk stored behind it
  obtain ⟨filled, same⟩ : ∃ filled : GAMData, filled = { conn with
      event := store conn.event conn.evnRead.toNat bytes, evnRead := conn.evnRead + bytes.length } :=
    ⟨_, rfl⟩
  have chunk : gaminReadChunk conn answers =
      (if (gaminDataConnDataLoop filled).1 < 0 then -1 else 0, (gaminDataConnDataLoop filled).2, bytes) := by
    rw [same]
    simp only [gaminReadChunk, read]
    rw [@gaminDataConnData_loop { conn with event := store conn.event conn.evnRead.toNat bytes } _
      (by omega) nonnegative (by simp only; omega)]
  have bytesFilled : buffered filled = buffered conn ++ bytes := by
    have appended := window_store_append conn.event 0 conn.evnRead.toNat bytes
    rw [Nat.zero_add] at appended
    rw [buffered, buffered, ← appended, same]
    congr 1
    simp only
    omega
  have registryFilled : searchRegistry filled = searchRegistry conn := by
    rw [same]
    exact searchRegistry_congr rfl rfl
  have idleFilled : filled.evnReady = false := by rw [same]; exact idle
  have soundFilled : BufferSound filled := by
    rw [same]
    exact ⟨by simp only; omega, by simp only; omega, fun ready => by simp [idle] at ready⟩
  -- the loop makes one pass over it
  have pass := gaminDataConnDataLoop_pass soundFilled idleFilled
  refine ⟨filled, bytesFilled, registryFilled, ?_⟩
  rw [chunk]
  split at pass
  · rename_i success
    exact ⟨by simp [success], pass⟩
  · obtain ⟨state, rejected⟩ := pass
    rw [bufferedEvents, bytesFilled, registryFilled] at rejected
    exact absurd rejected (accepted state)

/-- Decoding does not touch the state of the authentication. -/
theorem gaminDataConnDataLoop_auth (conn : GAMData) : (gaminDataConnDataLoop conn).2.auth = conn.auth :=
  @gaminDataConnDataLoop_keeps (fun after => after.auth = conn.auth) (fun _ _ same => same)
    (fun same => (gaminDataConnEvent_frame _).2.2.2.1.trans same) conn rfl

theorem gaminDataEventReady_auth (conn : GAMData) : (gaminDataEventReady conn).2.auth = conn.auth := by
  unfold gaminDataEventReady
  split
  · rfl
  · simp only
    split
    · unfold gaminDataConnData
      split
      · rfl
      · split
        · rfl
        · exact gaminDataConnDataLoop_auth _
    · rfl

/-! ## The contract -/

/-- The first event that the stream has for the application. -/
def nextDeliverable (conn : GAMData) (packets : List GAMPacket) : Option FAMEvent :=
  if conn.evnReady then some (pendingEvent conn)
  else (acceptedEvents (searchRegistry conn) packets).head?

/-- The credentials are refused, or `read` fails or finds the connection closed. -/
def ReadFails (conn : GAMData) (answers : ReadAnswers) : Prop :=
  ¬ Authenticated conn answers ∨ answers.read = .failed ∨ answers.read = .endOfFile

theorem authenticated_congr {first second : GAMData} {answers : ReadAnswers}
    (same : first.auth = second.auth) : Authenticated first answers ↔ Authenticated second answers := by
  rw [Authenticated, Authenticated, same]

theorem readFails_congr {first second : GAMData} {answers : ReadAnswers}
    (same : first.auth = second.auth) : ReadFails first answers ↔ ReadFails second answers := by
  rw [ReadFails, ReadFails, authenticated_congr same]

theorem gaminReadData_fails {conn : GAMData} {answers : ReadAnswers} (fails : ReadFails conn answers) :
    (gaminReadData conn answers true).1 < 0 := by
  rw [← not_le, gaminReadData_succeeds]
  rintro ⟨authenticated, bytes, read, _⟩
  rcases fails with refused | failed | closed
  · exact refused authenticated
  · rw [read] at failed
    contradiction
  · rw [read] at closed
    contradiction

theorem not_readFails {conn : GAMData} {answers : ReadAnswers} (succeeds : ¬ ReadFails conn answers) :
    Authenticated conn answers ∧ ∃ bytes, answers.read = .data bytes := by
  obtain ⟨authenticated, received⟩ := not_or.mp succeeds
  refine ⟨not_not.mp authenticated, ?_⟩
  cases read : answers.read with
  | data bytes => exact ⟨bytes, rfl⟩
  | failed => exact absurd (.inl read) received
  | endOfFile => exact absurd (.inr read) received

/-- What `fam.h` promises of a call: the next event, and an error only if reading fails. -/
def NextEventContract (conn : GAMData) (answers : ReadAnswers) (packets : List GAMPacket) :
    Option FAMEvent → Prop
  | some event => nextDeliverable conn packets = some event
  | none => ReadFails conn answers

/-- The bytes of the one read of a call. -/
def ReadAnswers.bytes (answers : ReadAnswers) : Bytes :=
  match answers.read with
  | .data bytes => bytes
  | _ => []

/-- An event is ready, or a deliverable packet is complete with the bytes of the first read. -/
def EventArrives (conn : GAMData) (answers : ReadAnswers) (packets : List GAMPacket) : Prop :=
  conn.evnReady = true ∨ ∃ count,
    (packets.take count).flatMap GAMPacket.encode <+: buffered conn ++ answers.bytes ∧
      acceptedEvents (searchRegistry conn) (packets.take count) ≠ []

theorem acceptedEvents_prefix (registry : Registry) (packets more : List GAMPacket) :
    acceptedEvents registry packets <+: acceptedEvents registry (packets ++ more) := by
  simp only [acceptedEvents, List.foldl_append]
  generalize packets.foldl deliverPacket (registry, []) = state
  induction more generalizing state with
  | nil => exact List.prefix_rfl
  | cons packet more inductionHypothesis =>
    exact (List.prefix_append _ _).trans (inductionHypothesis (deliverPacket state packet))

theorem foldl_asString {packets : List GAMPacket} (events : ∀ packet ∈ packets, EventPacket packet)
    (state : Registry × List FAMEvent) :
    packets.foldl (fun state packet => deliverPacket state (asString packet)) state =
      packets.foldl deliverPacket state := by
  apply List.foldl_ext
  intro state packet member
  rw [asString_eventPacket (events packet member)]

section Stream

variable {conn : GAMData} {packets : List GAMPacket} {piece rest : Bytes}

/-- What a piece of the stream holds: its whole packets, and the start of the next one. -/
theorem drainEvents_piece (events : ∀ packet ∈ packets, EventPacket packet)
    (stream : piece ++ rest = packets.flatMap GAMPacket.encode) (registry : Registry) :
    ∃ count leftover, piece = (packets.take count).flatMap GAMPacket.encode ++ leftover ∧
      drainEvents (registry, []) piece =
        .waiting ((packets.take count).foldl deliverPacket (registry, [])) leftover := by
  obtain ⟨count, leftover, split, drained⟩ := drain_encoded_prefix
    (fun state packet => deliverPacket state (asString packet)) packets
    (fun packet member => (events packet member).wellFormed) (registry, []) stream
  rw [foldl_asString fun packet member => events packet (List.mem_of_mem_take member)] at drained
  exact ⟨count, leftover, split, drained⟩

theorem found_is_first (events : ∀ packet ∈ packets, EventPacket packet)
    (stream : piece ++ rest = packets.flatMap GAMPacket.encode) {event : FAMEvent}
    (found : [event] <+: (drainEvents (searchRegistry conn, []) piece).state.2) :
    (acceptedEvents (searchRegistry conn) packets).head? = some event ∧
      ∃ count, (packets.take count).flatMap GAMPacket.encode <+: piece ∧
        acceptedEvents (searchRegistry conn) (packets.take count) ≠ [] := by
  obtain ⟨count, leftover, split, drained⟩ := drainEvents_piece events stream (searchRegistry conn)
  rw [drained] at found
  have first : [event] <+: acceptedEvents (searchRegistry conn) (packets.take count) := found
  have whole := acceptedEvents_prefix (searchRegistry conn) (packets.take count) (packets.drop count)
  rw [List.take_append_drop] at whole
  obtain ⟨more, same⟩ := first.trans whole
  refine ⟨by rw [← same]; rfl, count, ⟨leftover, split.symm⟩, ?_⟩
  intro nothing
  rw [nothing] at first
  simp at first

theorem none_is_whole (events : ∀ packet ∈ packets, EventPacket packet) {registry : Registry}
    {leftover : Bytes}
    (exhausted : drainEvents (searchRegistry conn, []) piece = .waiting (registry, []) leftover) :
    ¬ ∃ count, (packets.take count).flatMap GAMPacket.encode <+: piece ∧
      acceptedEvents (searchRegistry conn) (packets.take count) ≠ [] := by
  rintro ⟨count, ⟨more, split⟩, some⟩
  have encoded := drainEvents_encoded (searchRegistry conn)
    (fun packet member => events packet (List.mem_of_mem_take member) : ∀ packet ∈ packets.take count, _)
  have behind := feedEvents_drain (searchRegistry conn, []) ((packets.take count).flatMap GAMPacket.encode) more
  rw [split, exhausted, encoded] at behind
  apply some
  have grown : acceptedEvents (searchRegistry conn) (packets.take count) <+:
      (feedEvents (.waiting ((packets.take count).foldl deliverPacket (searchRegistry conn, [])) [])
        more).state.2 := by
    apply Framing.drain_keeps (fun state : Registry × List FAMEvent =>
      acceptedEvents (searchRegistry conn) (packets.take count) <+: state.2)
    · intro state packet grown
      exact deliverPacket_grows _ state (asString packet) grown
    · exact List.prefix_rfl
  rw [behind] at grown
  exact List.prefix_nil.mp grown

theorem stream_accepted (events : ∀ packet ∈ packets, EventPacket packet)
    (stream : buffered conn ++ piece ++ rest = packets.flatMap GAMPacket.encode) :
    StreamAccepted conn piece := by
  intro state rejected
  obtain ⟨count, leftover, _, drained⟩ := drainEvents_piece events stream (searchRegistry conn)
  rw [drained] at rejected
  contradiction

end Stream

theorem gaminDataReadEvent_idle {conn : GAMData} (idle : conn.evnReady = false) :
    (gaminDataReadEvent conn).1 = none := by
  simp [gaminDataReadEvent, idle]

theorem gaminDataReadEvent_first {conn : GAMData} (ready : conn.evnReady = true) :
    (gaminDataReadEvent conn).1 = some (pendingEvent conn) := by
  simp only [gaminDataReadEvent, ready, not_true_eq_false, if_false, apply_ite Prod.fst, ite_self]
  rfl

/-- The result of a call: the event that is ready, or what the read makes ready. -/
theorem famNextEvent_result {fc : FAMConnection} {conn : GAMData} (client : fc.client = some conn)
    (isOpen : 0 ≤ fc.fd) (answers : ReadAnswers) (reconnect : ReconnectAnswers) :
    (famNextEvent fc answers reconnect).1 =
      if (gaminDataEventReady conn).1 then (gaminDataReadEvent (gaminDataEventReady conn).2).1
      else if (gaminReadData (gaminDataEventReady conn).2 answers true).1 < 0 then none
      else (gaminDataReadEvent (gaminReadData (gaminDataEventReady conn).2 answers true).2.1).1 := by
  simp only [famNextEvent, client, if_neg (not_lt.mpr isOpen)]
  cases ready : (gaminDataEventReady conn).1 with
  | true => simp
  | false =>
    simp only [Bool.false_eq_true, if_false]
    split <;> rfl

/-- On an open connection, with a stream of well-formed packets cut in any way, a call
keeps the contract exactly when an event is ready, the first read completes one, or
reading fails. -/
theorem famNextEvent_contract_iff (fc : FAMConnection) (conn : GAMData) (client : fc.client = some conn)
    (isOpen : 0 ≤ fc.fd) (sound : BufferSound conn) (answers : ReadAnswers) (reconnect : ReconnectAnswers)
    (fits : (answers.bytes.length : Int) ≤ gaminDataGetDataSize (gaminDataEventReady conn).2)
    (packets : List GAMPacket) (events : ∀ packet ∈ packets, EventPacket packet) (later : Bytes)
    (stream : buffered conn ++ answers.bytes ++ later = packets.flatMap GAMPacket.encode) :
    NextEventContract conn answers packets (famNextEvent fc answers reconnect).1 ↔
      EventArrives conn answers packets ∨ ReadFails conn answers := by
  rw [famNextEvent_result client isOpen]
  cases readyNow : conn.evnReady with
  | true =>
    have unchanged : gaminDataEventReady conn = (true, conn) := by simp [gaminDataEventReady, readyNow]
    simp only [unchanged, if_true, gaminDataReadEvent_first readyNow, NextEventContract,
      nextDeliverable, readyNow, EventArrives, true_or]
  | false =>
    have accepted := stream_accepted events stream
    obtain ⟨isReady, soundAfter, pass⟩ := gaminDataEventReady_pass sound readyNow
      (@streamAccepted_front conn [] _ accepted)
    cases ready : (gaminDataEventReady conn).2.evnReady with
    | true =>
      -- the buffer already holds the event
      rw [if_pos ready] at pass
      rw [isReady, if_pos ready, gaminDataReadEvent_first ready]
      obtain ⟨first, count, whole, some⟩ := @found_is_first conn packets _ _ events
        ((List.append_assoc _ _ _).symm.trans stream) _ pass
      apply iff_of_true
      · simp only [NextEventContract, nextDeliverable, readyNow, Bool.false_eq_true, if_false, first]
      · exact .inl (.inr ⟨count, whole.trans (List.prefix_append _ _), some⟩)
    | false =>
      rw [if_neg (by simp [ready])] at pass
      obtain ⟨used, incomplete⟩ := pass
      rw [isReady, ready, if_neg Bool.false_ne_true]
      by_cases failing : ReadFails conn answers
      · have failed := gaminReadData_fails ((readFails_congr (gaminDataEventReady_auth conn)).mpr failing)
        rw [if_pos failed]
        exact iff_of_true failing (.inr failing)
      · obtain ⟨authenticated, bytes, read⟩ := not_readFails failing
        have same : answers.bytes = bytes := by rw [ReadAnswers.bytes, read]
        rw [same] at fits stream accepted
        -- the bytes of the read, decoded behind what the first pass has left
        have continued : drainEvents (searchRegistry (gaminDataEventReady conn).2, [])
            (buffered (gaminDataEventReady conn).2 ++ bytes) =
              drainEvents (searchRegistry conn, []) (buffered conn ++ bytes) := by
          rw [← feedEvents_drain, ← feedEvents_drain, ← bufferedEvents, ← bufferedEvents, used,
            bufferedEvents, drainEvents, Framing.drain_incomplete incomplete]
        obtain ⟨filled, bytesFilled, registryFilled, success, _, pass⟩ := @gaminReadChunk_pass
          (gaminDataDoneAuth (gaminDataEventReady conn).2)
          ⟨soundAfter.nonnegative, soundAfter.fits, soundAfter.whole⟩ ready answers bytes read fits
          (fun state rejected => accepted state (continued.symm.trans rejected))
        have events' : bufferedEvents filled = drainEvents (searchRegistry conn, []) (buffered conn ++ bytes) := by
          rw [bufferedEvents, bytesFilled, registryFilled]
          exact continued
        rw [gaminReadData_authenticated ((authenticated_congr (gaminDataEventReady_auth conn)).mpr authenticated),
          success, if_neg (Int.lt_irrefl 0)]
        cases arrived : (gaminReadChunk (gaminDataDoneAuth (gaminDataEventReady conn).2) answers).2.1.evnReady with
        | true =>
          rw [if_pos arrived, events'] at pass
          rw [gaminDataReadEvent_first arrived]
          obtain ⟨first, count, whole, some⟩ := found_is_first events stream pass
          apply iff_of_true
          · simp only [NextEventContract, nextDeliverable, readyNow, Bool.false_eq_true, if_false, first]
          · exact .inl (.inr ⟨count, by rw [same]; exact whole, some⟩)
        | false =>
          -- the read has succeeded, but no event is complete
          rw [if_neg (by simp [arrived]), events'] at pass
          rw [gaminDataReadEvent_idle arrived]
          apply iff_of_false failing
          rintro ((other | completes) | failed)
          · rw [readyNow] at other
            contradiction
          · rw [same] at completes
            exact none_is_whole events pass.1 completes
          · exact failing failed

/-! ## Two reads -/

/-- The packet arrives in two reads.  The first call reports an error, although reading
does not fail, the stream is well formed, and the packet is deliverable. -/
theorem split_packet_reported_as_error :
    (famNextEvent (connectionOf monitoringConnection) (chunkAnswers [12, 0, 1, 0, 1, 0, 5])
        ⟨true, true, true, true⟩).1 = none ∧
      ¬ NextEventContract monitoringConnection (chunkAnswers [12, 0, 1, 0, 1, 0, 5]) [createdPacket] none ∧
      [12, 0, 1, 0, 1, 0, 5] ++ [0, 2, 0, 47, 98] = [createdPacket].flatMap GAMPacket.encode ∧
      nextDeliverable monitoringConnection [createdPacket] = some ⟨1, [47, 98], 9, famCreated⟩ := by
  refine ⟨by decide +kernel, ?_, by decide +kernel, by decide +kernel⟩
  have authenticated : Authenticated monitoringConnection (chunkAnswers [12, 0, 1, 0, 1, 0, 5]) :=
    .inr ⟨by decide +kernel, rfl, rfl⟩
  rintro (refused | failed | closed)
  · exact refused authenticated
  · nomatch failed
  · nomatch closed

/-- Read in one piece, the same packet is returned. -/
theorem whole_packet_returned :
    NextEventContract monitoringConnection (chunkAnswers createdPacket.encode) [createdPacket]
      (famNextEvent (connectionOf monitoringConnection) (chunkAnswers createdPacket.encode)
        ⟨true, true, true, true⟩).1 := by
  apply (famNextEvent_contract_iff (connectionOf monitoringConnection) monitoringConnection rfl (by decide)
    ⟨by decide +kernel, by decide +kernel, by decide +kernel⟩ _ _ (by decide +kernel) [createdPacket]
    ?_ [] (by decide +kernel)).mpr
  · exact .inl (.inr ⟨1, ⟨[], by decide +kernel⟩, by decide +kernel⟩)
  · intro packet member
    cases List.mem_singleton.mp member
    exact ⟨⟨rfl, by decide, by decide, by decide, by decide⟩, by decide⟩

end Gamin.Client
