import Gamin.Client.Delivery
import Gamin.Library.Runs
import Mathlib.Data.List.TakeWhile

/-! # Sessions

An application that calls `FAMNextEvent` and `FAMPending` in any order, over a socket that
cuts the stream of the server in any way.  What it gets are the accepted packets in order,
as long as the request table is sorted.
-/

namespace Gamin.Client

open Gamin Gamin.Library

/-! ## Calls -/

/-- A call that reads events, with the answers of the system calls it makes. -/
inductive EventCall where
  | nextEvent (answers : ReadAnswers) (reconnect : ReconnectAnswers)
  | pending (available : Int) (answers : ReadAnswers) (reconnect : ReconnectAnswers)
  deriving DecidableEq, Repr

def EventCall.answers : EventCall → ReadAnswers
  | .nextEvent answers _ => answers
  | .pending _ answers _ => answers

/-- An application that reads events: its connection and the events it has got so far. -/
structure Session where
  fc : FAMConnection
  delivered : List FAMEvent

def eventStep (session : Session) : EventCall → Session
  | .nextEvent answers reconnect =>
    match famNextEvent session.fc answers reconnect with
    | (event, fc) => { fc := fc, delivered := session.delivered ++ event.toList }
  | .pending available answers reconnect =>
    { session with fc := (famPending session.fc available answers reconnect).2 }

/-- When a call finds no event ready, its reads are those of a healthy connection. -/
def ReadsFit (session : Session) (call : EventCall) : Prop :=
  ∀ conn, session.fc.client = some conn → (gaminDataEventReady conn).1 = false →
    AnswersFit (gaminDataEventReady conn).2 call.answers

/-- The outlook is where the bytes received so far lead to. -/
def SessionInvariant (registry : Registry) (session : Session) : Prop :=
  ∃ conn, session.fc.client = some conn ∧ BufferInvariant conn ∧
    outlook conn session.delivered = drainEvents (registry, []) session.fc.received

theorem drainEvents_healthy {state : Registry × List FAMEvent} {bytes more : Bytes}
    (healthy : ∀ after, drainEvents state (bytes ++ more) ≠ .rejected after)
    (after : Registry × List FAMEvent) : drainEvents state bytes ≠ .rejected after := by
  intro rejected
  apply healthy after
  rw [← feedEvents_drain, rejected]
  rfl

/-- Handing out the event that is ready, if any, keeps the outlook. -/
theorem gaminDataReadEvent_outlook {conn : GAMData} (invariant : BufferInvariant conn)
    (delivered : List FAMEvent) :
    BufferInvariant (gaminDataReadEvent conn).2 ∧
      outlook (gaminDataReadEvent conn).2 (delivered ++ (gaminDataReadEvent conn).1.toList) =
        outlook conn delivered := by
  by_cases ready : conn.evnReady = true
  · obtain ⟨event, _, kept, same⟩ := gaminDataReadEvent_ready invariant ready delivered
    rw [event]
    exact ⟨kept, same⟩
  · have nothing : gaminDataReadEvent conn = (none, conn) := by simp [gaminDataReadEvent, ready]
    rw [nothing]
    exact ⟨invariant, by simp⟩

/-- What `FAMNextEvent` reads on an open connection. -/
theorem famNextEvent_reads {fc : FAMConnection} {conn after filled : GAMData} {ready : Bool}
    {result : Int} {bytes : Bytes} (client : fc.client = some conn) (isOpen : ¬ fc.fd < 0)
    (decoded : gaminDataEventReady conn = (ready, after)) (answers : ReadAnswers)
    (reconnect : ReconnectAnswers)
    (read : (if ready then ((0 : Int), after, []) else gaminReadData after answers true) =
      (result, filled, bytes)) :
    (famNextEvent fc answers reconnect).2.received = fc.received ++ bytes := by
  simp only [famNextEvent, client, if_neg isOpen, decoded, read]
  split
  · rfl
  · split <;> rfl

/-- What `FAMNextEvent` does on an open connection when its reads succeed. -/
theorem famNextEvent_open {fc : FAMConnection} {conn after filled : GAMData} {ready : Bool}
    {bytes : Bytes} (client : fc.client = some conn) (isOpen : ¬ fc.fd < 0)
    (decoded : gaminDataEventReady conn = (ready, after)) (answers : ReadAnswers)
    (reconnect : ReconnectAnswers)
    (read : (if ready then ((0 : Int), after, []) else gaminReadData after answers true) =
      (0, filled, bytes)) :
    (famNextEvent fc answers reconnect).1 = (gaminDataReadEvent filled).1 ∧
      (famNextEvent fc answers reconnect).2.client = some (gaminDataReadEvent filled).2 := by
  simp only [famNextEvent, client, if_neg isOpen, decoded, read, Int.lt_irrefl, if_false]
  split <;> simp

theorem famNextEvent_received (fc : FAMConnection) (answers : ReadAnswers)
    (reconnect : ReconnectAnswers) :
    fc.received <+: (famNextEvent fc answers reconnect).2.received := by
  unfold famNextEvent
  simp only
  repeat' split
  all_goals first | exact List.prefix_rfl | exact List.prefix_append _ _

theorem famPending_received (fc : FAMConnection) (pending : Int) (answers : ReadAnswers)
    (reconnect : ReconnectAnswers) :
    fc.received <+: (famPending fc pending answers reconnect).2.received := by
  unfold famPending
  simp only
  repeat' split
  all_goals first | exact List.prefix_rfl | exact List.prefix_append _ _

theorem eventStep_received (session : Session) (call : EventCall) :
    session.fc.received <+: (eventStep session call).fc.received := by
  cases call with
  | nextEvent answers reconnect => exact famNextEvent_received _ _ _
  | pending available answers reconnect => exact famPending_received _ _ _ _

theorem famNextEvent_invariant {registry : Registry} {session : Session}
    (invariant : SessionInvariant registry session) {answers : ReadAnswers} {reconnect : ReconnectAnswers}
    (fits : ReadsFit session (.nextEvent answers reconnect))
    (healthy : ∀ state, drainEvents (registry, [])
      (eventStep session (.nextEvent answers reconnect)).fc.received ≠ .rejected state) :
    SessionInvariant registry (eventStep session (.nextEvent answers reconnect)) := by
  obtain ⟨conn, client, buffer, same⟩ := invariant
  by_cases isOpen : ¬ session.fc.fd < 0
  · have healthyBefore : ∀ state, drainEvents (registry, []) session.fc.received ≠ .rejected state := by
      obtain ⟨more, grown⟩ := eventStep_received session (.nextEvent answers reconnect)
      rw [← grown] at healthy
      exact drainEvents_healthy healthy
    have decoded := gaminDataEventReady_outlook buffer session.delivered
      (fun state => same ▸ healthyBefore state)
    cases answer : gaminDataEventReady conn with
    | mk ready after =>
      rw [answer] at decoded
      obtain ⟨isReady, bufferAfter, sameAfter, _⟩ := decoded
      simp only at isReady bufferAfter sameAfter
      -- what the call has read when it comes to hand out an event
      obtain ⟨filled, bytes, read, bufferFilled, fed⟩ : ∃ filled bytes,
          (if ready then ((0 : Int), after, []) else gaminReadData after answers true) =
            (0, filled, bytes) ∧ BufferInvariant filled ∧
          outlook filled session.delivered =
            drainEvents (registry, []) (session.fc.received ++ bytes) := by
        cases ready with
        | true => exact ⟨after, [], rfl, bufferAfter, by rw [List.append_nil, sameAfter, same]⟩
        | false =>
          have fit : AnswersFit after answers := by
            have fits' := fits conn client
            rw [answer] at fits'
            exact fits' rfl
          have idle : after.evnReady = false := isReady.symm
          have read := gaminReadData_outlook bufferAfter idle fit true session.delivered
          cases chunk : gaminReadData after answers true with
          | mk result rest =>
            obtain ⟨filled, bytes⟩ := rest
            have received := famNextEvent_reads client isOpen answer answers reconnect chunk
            rw [chunk, sameAfter, same, feedEvents_drain, ← received] at read
            obtain ⟨success, bufferRead, fed⟩ := read healthy
            exact ⟨filled, bytes, Prod.ext success rfl, bufferRead, by rw [fed, received]⟩
      obtain ⟨event, clientAfter⟩ := famNextEvent_open client isOpen answer answers reconnect read
      have received := famNextEvent_reads client isOpen answer answers reconnect read
      obtain ⟨bufferRead, sameRead⟩ := gaminDataReadEvent_outlook bufferFilled session.delivered
      refine ⟨_, clientAfter, bufferRead, ?_⟩
      simp only [eventStep, event, received]
      rw [sameRead, fed]
  · have closed : famNextEvent session.fc answers reconnect = (none, session.fc) := by
      simp only [famNextEvent, client, if_pos (not_not.mp isOpen)]
    refine ⟨conn, ?_, buffer, ?_⟩
    · simpa [eventStep, closed] using client
    · simpa [eventStep, closed] using same

/-- What `FAMPending` comes to: it decodes, and on an open connection it may read. -/
theorem famPending_open {fc : FAMConnection} {conn after : GAMData} (client : fc.client = some conn)
    (decoded : gaminDataEventReady conn = (false, after)) {pending : Int}
    (available : 0 ≤ if fc.fd < (0 : Int) then -1 else pending) (answers : ReadAnswers)
    (reconnect : ReconnectAnswers) {result : Int} {filled : GAMData} {bytes : Bytes} :
    (if (if fc.fd < (0 : Int) then -1 else pending) > 0 then gaminReadData after answers false
      else ((0 : Int), after, [])) = (result, filled, bytes) →
    (famPending fc pending answers reconnect).2.received = fc.received ++ bytes ∧
      (result = 0 → (famPending fc pending answers reconnect).2.client =
        some (gaminDataEventReady filled).2) := by
  intro read
  simp only [famPending, client, decoded]
  rw [if_neg (by omega), read]
  refine ⟨rfl, ?_⟩
  rintro rfl
  rfl

theorem famPending_invariant {registry : Registry} {session : Session}
    (invariant : SessionInvariant registry session) {available : Int} {answers : ReadAnswers}
    {reconnect : ReconnectAnswers} (fits : ReadsFit session (.pending available answers reconnect))
    (healthy : ∀ state, drainEvents (registry, [])
      (eventStep session (.pending available answers reconnect)).fc.received ≠ .rejected state) :
    SessionInvariant registry (eventStep session (.pending available answers reconnect)) := by
  obtain ⟨conn, client, buffer, same⟩ := invariant
  have healthyBefore : ∀ state, drainEvents (registry, []) session.fc.received ≠ .rejected state := by
    obtain ⟨more, grown⟩ := eventStep_received session (.pending available answers reconnect)
    rw [← grown] at healthy
    exact drainEvents_healthy healthy
  have decoded := gaminDataEventReady_outlook buffer session.delivered
    (fun state => same ▸ healthyBefore state)
  cases answer : gaminDataEventReady conn with
  | mk ready after =>
    rw [answer] at decoded
    obtain ⟨isReady, bufferAfter, sameAfter, _⟩ := decoded
    simp only at isReady bufferAfter sameAfter
    cases ready with
    | true =>
      refine ⟨after, ?_, bufferAfter, ?_⟩
      · simp [eventStep, famPending, client, answer]
      · simpa [eventStep, famPending, client, answer, sameAfter] using same
    | false =>
      -- select fails, or it tells whether data have arrived
      by_cases failed : (if session.fc.fd < (0 : Int) then -1 else available) < 0
      · refine ⟨after, ?_, bufferAfter, ?_⟩
        · simp only [eventStep, famPending, client, answer, if_pos failed]
        · simp only [eventStep, famPending, client, answer, if_pos failed]
          rw [sameAfter, same]
      · have fit : AnswersFit after answers := by
          have fits' := fits conn client
          rw [answer] at fits'
          exact fits' rfl
        have idle : after.evnReady = false := isReady.symm
        have opened {result filled bytes} := @famPending_open _ _ _ client answer _ (not_lt.mp failed)
          answers reconnect result filled bytes
        -- what the buffer holds afterwards, whether anything was read or not
        obtain ⟨filled, bytes, read, bufferFilled, fed, received⟩ : ∃ filled bytes,
            (if (if session.fc.fd < (0 : Int) then -1 else available) > 0 then
              gaminReadData after answers false else ((0 : Int), after, [])) = (0, filled, bytes) ∧
            BufferInvariant filled ∧
            outlook filled session.delivered =
              drainEvents (registry, []) (session.fc.received ++ bytes) ∧
            (eventStep session (.pending available answers reconnect)).fc.received =
              session.fc.received ++ bytes := by
          by_cases arrived : (if session.fc.fd < (0 : Int) then -1 else available) > 0
          · rw [if_pos arrived] at opened ⊢
            have read := gaminReadData_outlook bufferAfter idle fit false session.delivered
            cases chunk : gaminReadData after answers false with
            | mk result rest =>
              obtain ⟨filled, bytes⟩ := rest
              have received := (opened chunk).1
              rw [chunk, sameAfter, same, feedEvents_drain, ← received] at read
              obtain ⟨success, bufferRead, fed⟩ := read healthy
              exact ⟨filled, bytes, Prod.ext success rfl, bufferRead, by rw [fed, received], received⟩
          · rw [if_neg arrived] at opened ⊢
            exact ⟨after, [], rfl, bufferAfter, by rw [List.append_nil, sameAfter, same],
              (opened rfl).1⟩
        have filledReady := gaminDataEventReady_outlook bufferFilled session.delivered (fun state => by
          rw [fed, ← received]
          exact healthy state)
        refine ⟨_, (opened read).2 rfl, filledReady.2.1, ?_⟩
        rw [received, ← fed]
        exact filledReady.2.2.1

theorem eventStep_invariant {registry : Registry} {session : Session}
    (invariant : SessionInvariant registry session) {call : EventCall} (fits : ReadsFit session call)
    (healthy : ∀ state, drainEvents (registry, []) (eventStep session call).fc.received ≠
      .rejected state) : SessionInvariant registry (eventStep session call) := by
  cases call with
  | nextEvent answers reconnect => exact famNextEvent_invariant invariant fits healthy
  | pending available answers reconnect => exact famPending_invariant invariant fits healthy

/-! ## Runs of calls -/

theorem run_received (session : Session) (calls : List EventCall) :
    session.fc.received <+: (run eventStep session calls).fc.received := by
  induction calls generalizing session with
  | nil => exact List.prefix_rfl
  | cons call calls inductionHypothesis =>
    exact (eventStep_received session call).trans (inductionHypothesis _)

theorem run_invariant {registry : Registry} {session : Session}
    (invariant : SessionInvariant registry session) {calls : List EventCall}
    (fits : Guarded eventStep ReadsFit session calls)
    (healthy : ∀ state, drainEvents (registry, []) (run eventStep session calls).fc.received ≠
      .rejected state) : SessionInvariant registry (run eventStep session calls) := by
  induction calls generalizing session with
  | nil => exact invariant
  | cons call calls inductionHypothesis =>
    have healthyStep : ∀ state, drainEvents (registry, []) (eventStep session call).fc.received ≠
        .rejected state := by
      obtain ⟨more, grown⟩ := run_received (eventStep session call) calls
      rw [run_cons, ← grown] at healthy
      exact drainEvents_healthy healthy
    exact inductionHypothesis (eventStep_invariant invariant fits.1 healthyStep) fits.2 healthy

/-- No packet of the stream is in the buffer, and the credentials were checked or are due. -/
structure BetweenPackets (conn : GAMData) : Prop where
  evnRead : conn.evnRead = 0
  evnReady : conn.evnReady = false
  auth : conn.auth = 0 ∨ conn.auth = 1

/-- A packet as the server sends it: its path is a nonempty string. -/
structure EventPacket (packet : GAMPacket) : Prop where
  wellFormed : packet.WellFormed fun _ => false
  terminated : 0 ∉ packet.path

theorem asString_eventPacket {packet : GAMPacket} (event : EventPacket packet) :
    asString packet = packet := by
  have whole : packet.path.takeWhile (· ≠ 0) = packet.path := by
    rw [List.takeWhile_eq_self_iff]
    intro byte member
    rw [decide_eq_true_eq]
    rintro rfl
    exact event.terminated member
  rw [asString, whole]

/-- The stream of a sequence of packets decodes to the events that are accepted. -/
theorem drainEvents_encoded (registry : Registry) {packets : List GAMPacket}
    (events : ∀ packet ∈ packets, EventPacket packet) :
    drainEvents (registry, []) (packets.flatMap GAMPacket.encode) =
      .waiting (packets.foldl deliverPacket (registry, [])) [] := by
  rw [drainEvents, eventFraming, drain_encoded _ packets (fun packet member => (events packet member).wellFormed)]
  congr 1
  apply List.foldl_ext
  intro state packet member
  rw [asString_eventPacket (events packet member)]

theorem deliverPacket_grows (delivered : List FAMEvent) (state : Registry × List FAMEvent)
    (packet : GAMPacket) (grown : delivered <+: state.2) : delivered <+: (deliverPacket state packet).2 :=
  grown.trans (List.prefix_append _ _)

/-- What has been delivered is at the front of what the outlook leads to. -/
theorem outlook_delivered (conn : GAMData) (delivered : List FAMEvent) (more : Bytes) :
    delivered <+: (feedEvents (outlook conn delivered) more).state.2 := by
  have behind (state : Registry × List FAMEvent) (bytes : Bytes) (grown : delivered <+: state.2) :
      delivered <+: (feedEvents (drainEvents state bytes) more).state.2 := by
    rw [feedEvents_drain]
    refine Framing.drain_keeps (fun state : Registry × List FAMEvent => delivered <+: state.2) ?_ grown _
    intro state packet
    exact deliverPacket_grows delivered state (asString packet)
  unfold outlook
  split
  · exact behind _ _ (List.prefix_append _ _)
  · exact behind _ _ List.prefix_rfl

/-- On a sorted request table the events returned are the accepted packets in order, each
once: at any time a beginning of them, and all of them as soon as everything that was sent
has been received and no event is ready. -/
theorem events_delivered_in_order (fc : FAMConnection) (conn : GAMData)
    (client : fc.client = some conn) (fresh : fc.received = []) (between : BetweenPackets conn)
    (sorted : TableSorted conn) (packets : List GAMPacket)
    (events : ∀ packet ∈ packets, EventPacket packet) (calls : List EventCall)
    (fits : Guarded eventStep ReadsFit ⟨fc, []⟩ calls)
    (stream : (run eventStep ⟨fc, []⟩ calls).fc.received <+: packets.flatMap GAMPacket.encode) :
    (run eventStep ⟨fc, []⟩ calls).delivered <+: acceptedEvents (registryOf conn) packets ∧
      ((run eventStep ⟨fc, []⟩ calls).fc.received = packets.flatMap GAMPacket.encode →
        (∀ final, (run eventStep ⟨fc, []⟩ calls).fc.client = some final →
          (gaminDataEventReady final).1 = false) →
        (run eventStep ⟨fc, []⟩ calls).delivered = acceptedEvents (registryOf conn) packets) := by
  have encoded := drainEvents_encoded (registryOf conn) events
  obtain ⟨more, whole⟩ := stream
  have healthy : ∀ state, drainEvents (registryOf conn, [])
      (run eventStep ⟨fc, []⟩ calls).fc.received ≠ .rejected state := by
    refine drainEvents_healthy (?_ : ∀ state, drainEvents _ (_ ++ more) ≠ .rejected state)
    rw [whole, encoded]
    exact fun state other => nomatch other
  -- the invariant holds between packets
  have start : SessionInvariant (registryOf conn) ⟨fc, []⟩ := by
    refine ⟨conn, client, ⟨sorted, between.auth, ?_, ?_, ?_⟩, ?_⟩
    · rw [between.evnRead]
    · rw [between.evnRead]
      decide
    · intro ready
      rw [between.evnReady] at ready
      contradiction
    · simp [outlook, between.evnReady, buffered, between.evnRead, fresh]
  obtain ⟨final, clientFinal, bufferFinal, outlookFinal⟩ := run_invariant start fits healthy
  constructor
  · have delivered := outlook_delivered final (run eventStep ⟨fc, []⟩ calls).delivered more
    rw [outlookFinal, feedEvents_drain, whole, encoded] at delivered
    exact delivered
  -- everything has been received, and the buffer makes no further event
  · intro all exhausted
    obtain ⟨isReady, _, kept, drained⟩ := gaminDataEventReady_outlook bufferFinal
      (run eventStep ⟨fc, []⟩ calls).delivered (fun state => outlookFinal ▸ healthy state)
    have idle : (gaminDataEventReady final).2.evnReady = false := by
      rw [← isReady]
      exact exhausted final clientFinal
    rw [outlookFinal, all, encoded] at kept
    simp only [outlook, idle, Bool.false_eq_true, if_false, drainEvents,
      Framing.drain_incomplete (drained idle), Decoder.waiting.injEq] at kept
    exact congrArg Prod.snd kept.1

/-! ## Two sessions -/

/-- A connection of the application, with the data behind it. -/
def connectionOf (conn : GAMData) : FAMConnection where
  fd := 3
  client := some conn
  famErrno := .ok
  lockDepth := 0
  received := []

/-- The answers of a call that reads these bytes. -/
def chunkAnswers (bytes : Bytes) : ReadAnswers where
  credential := some 0
  sameUid := true
  available := 1
  read := .data bytes

theorem client_observed {session : Session} {conn : GAMData} (observe : GAMData → Bool) {value : Bool}
    (observed : session.fc.client.map observe = some value) (client : session.fc.client = some conn) :
    observe conn = value := by
  rw [client] at observed
  exact Option.some.inj observed

/-- One request on /b, numbered by the library. -/
def monitoringConnection : GAMData :=
  run requestStep gaminDataNew [.getReqnum [47, 98] 1 9 ⟨true, true, true⟩]

def createdAndDeleted : List GAMPacket := [⟨1, 1, famCreated, [47, 98]⟩, ⟨1, 1, famDeleted, [47, 98]⟩]

/-- The first packet arrives in two pieces, the second one piggy-backed on it. -/
def splitCalls : List EventCall :=
  [.pending 1 (chunkAnswers [12, 0, 1, 0, 1, 0, 5]) ⟨true, true, true, true⟩,
    .nextEvent (chunkAnswers [0, 2, 0, 47, 98, 12, 0, 1, 0, 1, 0, 2, 0, 2, 0, 47, 98])
      ⟨true, true, true, true⟩,
    .nextEvent (chunkAnswers [0]) ⟨true, true, true, true⟩]

theorem splitCalls_deliver :
    (run eventStep ⟨connectionOf monitoringConnection, []⟩ splitCalls).delivered =
      [⟨1, [47, 98], 9, famCreated⟩, ⟨1, [47, 98], 9, famDeleted⟩] := by
  have events : ∀ packet ∈ createdAndDeleted, EventPacket packet := by
    intro packet member
    simp only [createdAndDeleted, List.mem_cons, List.not_mem_nil, or_false] at member
    rcases member with rfl | rfl <;> exact ⟨⟨rfl, by decide, by decide, by decide, by decide⟩, by decide⟩
  have fits : Guarded eventStep ReadsFit ⟨connectionOf monitoringConnection, []⟩ splitCalls := by
    refine ⟨?_, ?_, ?_, trivial⟩ <;> intro conn client idle
    · have room := client_observed (fun conn =>
        decide (7 ≤ gaminDataGetDataSize (gaminDataEventReady conn).2))
        (show _ = some true by decide +kernel) client
      exact ⟨rfl, rfl, by decide, _, rfl, by decide, of_decide_eq_true room⟩
    · have room := client_observed (fun conn =>
        decide (17 ≤ gaminDataGetDataSize (gaminDataEventReady conn).2))
        (show _ = some true by decide +kernel) client
      exact ⟨rfl, rfl, by decide, _, rfl, by decide, of_decide_eq_true room⟩
    · have ready := client_observed (fun conn => (gaminDataEventReady conn).1)
        (show _ = some true by decide +kernel) client
      exact absurd idle (by rw [ready]; decide)
  have received : (run eventStep ⟨connectionOf monitoringConnection, []⟩ splitCalls).fc.received =
      createdAndDeleted.flatMap GAMPacket.encode := by
    decide +kernel
  have all := (events_delivered_in_order (connectionOf monitoringConnection) monitoringConnection rfl rfl
    ⟨by decide +kernel, by decide +kernel, by decide +kernel⟩ (by decide +kernel) createdAndDeleted
    events splitCalls fits (received ▸ List.prefix_rfl)).2 received
  rw [all]
  · decide +kernel
  · intro final client
    exact client_observed (fun final => (gaminDataEventReady final).1)
      (by decide +kernel) client

/-- The connection on which 5 was chosen before a number was taken from the counter. -/
def unsortedConnection : GAMData := run requestStep gaminDataNew chosenThenCounted

def createdPacket : GAMPacket := ⟨1, 1, famCreated, [47, 98]⟩

/-- The application asks for events when the packet has arrived. -/
def lostSession : Session :=
  run eventStep ⟨connectionOf unsortedConnection, []⟩
    [.pending 1 (chunkAnswers createdPacket.encode) ⟨true, true, true, true⟩]

/-- Request 1 is live, but it is not found: the packet is accepted by the registry, and it
has been received, but no event is delivered or ready. -/
theorem unsorted_table_loses_event :
    acceptedEvents (registryOf unsortedConnection) [createdPacket] =
        [⟨1, [47, 98], 0, famCreated⟩] ∧
      lostSession.fc.received = [createdPacket].flatMap GAMPacket.encode ∧
      lostSession.delivered = [] ∧
      lostSession.fc.client.map (fun final => (gaminDataEventReady final).1) = some false := by
  decide +kernel

end Gamin.Client
