import Gamin.Client.Monitors
import Gamin.Library.Writing
import Gamin.Server.EventQueue

/-! # The byte streams between the library and the server

Both sides write a packet with the same loop, and return -1 when it fails.  On the server nobody
looks at this result but to log it, and in the library it goes to the application, whose next call
writes to the same descriptor.  So a packet that broke off may have another one behind it.  A
reconnection puts another socket under the descriptor of the library.  The byte for the
credentials, the first one of each socket in this direction, is left out.
-/

namespace Gamin.Link

open Gamin Gamin.Library Gamin.Client Gamin.Server

/-! ## Writing a packet -/

/-- `gam_client_conn_write`: the result, if it returns, and the bytes that were taken. -/
def gamClientConnWrite (fd sourceFd : Int) (data : Bytes) (results : List WriteResult) :
    Option Bool × Bytes :=
  let fd := if fd < 0 then sourceFd else fd
  if fd < 0 then (some false, []) else writeLoop data results

/-- `gamin_write_byte`, with its loop. -/
def gaminWriteBytes (data : Bytes) (results : List WriteResult) : Option Int × Bytes :=
  match writeLoop data results with
  | (outcome, bytes) => (outcome.map fun success => if success then 0 else -1, bytes)

/-- What becomes of the loop is one of the answers that the other modules know. -/
theorem gaminWriteBytes_answer {data : Bytes} (nonempty : data ≠ []) {results : List WriteResult}
    {result : Int} {bytes : Bytes}
    (returned : gaminWriteBytes data results = (some result, bytes)) :
    ∃ answer, gaminWriteByte data answer = (result, bytes) := by
  have front := writeLoop_prefix data results
  have part := @writeLoop_part _ data nonempty results
  have whole := @writeLoop_whole _ data results
  unfold gaminWriteBytes at returned
  cases loop : writeLoop data results with
  | mk outcome taken =>
    simp only [loop, Prod.mk.injEq] at front part whole returned
    obtain ⟨value, rfl⟩ := returned
    cases outcome with
    | none => simp at value
    | some success =>
      simp only [Option.map_some, Option.some.injEq] at value
      cases success with
      | true => exact ⟨.complete, Prod.ext value (whole rfl).symm⟩
      | false =>
        have shorter : taken.length < data.length :=
          lt_of_le_of_ne front.length_le fun same => part (by simp) (front.eq_of_length same)
        refine ⟨.failedBehind taken.length, ?_⟩
        rw [gaminWriteByte, if_pos shorter, ← List.prefix_iff_eq_take.mp front]
        exact Prod.ext value rfl

/-- A packet on a connection whose descriptor is open: the result of the function that writes it,
if it returns. -/
def sendPacket (conn : Channel UInt8) (packet : GAMPacket) (results : List WriteResult) :
    Option Int × Channel UInt8 :=
  let message : Transmission UInt8 := { data := packet.encode, results := results }
  (message.outcome.map fun success => if success then 0 else -1, conn.write message)

/-- On the side of the library, as long as no earlier packet is still being written. -/
theorem sendPacket_client {conn : Channel UInt8} (free : conn.blocked = false) (packet : GAMPacket)
    (results : List WriteResult) :
    ((sendPacket conn packet results).1, (sendPacket conn packet results).2.stream) =
      ((gaminWriteBytes packet.encode results).1,
        conn.stream ++ (gaminWriteBytes packet.encode results).2) := by
  simp [sendPacket, gaminWriteBytes, Channel.write, free, Transmission.outcome, Transmission.bytes]

/-- On the side of the server, where -1 stands for the `FALSE` of the loop. -/
theorem sendPacket_server {conn : Channel UInt8} (free : conn.blocked = false) (packet : GAMPacket)
    (results : List WriteResult) {fd : Int} (opened : 0 ≤ fd) (sourceFd : Int) :
    ((sendPacket conn packet results).1, (sendPacket conn packet results).2.stream) =
      ((gamClientConnWrite fd sourceFd packet.encode results).1.map fun success =>
          if success then 0 else -1,
        conn.stream ++ (gamClientConnWrite fd sourceFd packet.encode results).2) := by
  have notNegative : ¬ fd < 0 := by omega
  simp [sendPacket, gamClientConnWrite, Channel.write, free, notNegative, Transmission.outcome,
    Transmission.bytes]

/-! ## The server -/

/-- `gam_send_event`. -/
def gamSendEventOn (conn : Channel UInt8) (reqno : Nat) (event : GaminEventType) (path : Bytes)
    (results : List WriteResult) : Option Int × Channel UInt8 :=
  match gamSendEvent reqno event path with
  | none => (some (-1), conn)
  | some packet => sendPacket conn packet results

/-- `gam_send_ack` for a path that is not empty. -/
def gamSendAckOn (conn : Channel UInt8) (reqno : Nat) (path : Bytes) (results : List WriteResult) :
    Option Int × Channel UInt8 :=
  match gamSendAck reqno path with
  | none => (some (-1), conn)
  | some packet => sendPacket conn packet results

/-- Where the server writes: the end of `gam_server_emit_one_event` while inotify is not running,
`gam_eq_flush`, and a cancel request. -/
inductive ServerWrite where
  | emit (reqno : Nat) (event : GaminEventType) (path : Bytes) (results : List WriteResult)
  | flush (events : List (GamEqEvent × List WriteResult))
  | acknowledge (reqno : Nat) (path : Bytes) (results : List WriteResult)

/-- The results are logged or dropped. -/
def serverWrite (conn : Channel UInt8) : ServerWrite → Channel UInt8
  | .emit reqno event path results => (gamSendEventOn conn reqno event path results).2
  | .flush events => events.foldl (fun conn (event, results) =>
      (gamSendEventOn conn event.reqno event.event event.path results).2) conn
  | .acknowledge reqno path results => (gamSendAckOn conn reqno path results).2

/-- The packets of one event, with the answers of `write`. -/
def eventMessages (reqno : Nat) (event : GaminEventType) (path : Bytes) (results : List WriteResult) :
    List (Transmission UInt8) :=
  (gamSendEvent reqno event path).toList.map fun packet => ⟨packet.encode, results⟩

def ServerWrite.messages : ServerWrite → List (Transmission UInt8)
  | .emit reqno event path results => eventMessages reqno event path results
  | .flush events => events.flatMap fun (event, results) =>
      eventMessages event.reqno event.event event.path results
  | .acknowledge reqno path results =>
    (gamSendAck reqno path).toList.map fun packet => ⟨packet.encode, results⟩

/-! ## The library -/

/-- The streams of the sockets that the library has had under its descriptor, the last of which is
there now. -/
structure ClientStreams where
  closed : List (Channel UInt8)
  current : Channel UInt8

def ClientStreams.new : ClientStreams := { closed := [], current := .new }

def ClientStreams.all (streams : ClientStreams) : List (Channel UInt8) := streams.closed ++ [streams.current]

/-- Where the library writes: the end of `gamin_send_request`, and `gamin_try_reconnect` when it
gets as far as the loop behind `dup2`. -/
inductive ClientWrite where
  | request (type : Nat) (path : Bytes) (reqnum : Int) (existsFlag : Int) (results : List WriteResult)
  | reconnect (requests : List (GAMReqData × List WriteResult))

/-- The loop of `gamin_try_reconnect`. -/
def resendAll (conn : Channel UInt8) (requests : List (GAMReqData × List WriteResult)) : Channel UInt8 :=
  requests.foldl (fun conn (req, results) =>
    match gaminResendRequest req with
    | none => conn
    | some packet => (sendPacket conn packet results).2) conn

/-- The result of a request goes to the application, the others are dropped.  The loop is not
reached as long as a packet is still being written to the socket before. -/
def clientWrite (streams : ClientStreams) : ClientWrite → ClientStreams
  | .request type path reqnum existsFlag results =>
    { streams with current := (sendPacket streams.current (requestPacket type path reqnum existsFlag) results).2 }
  | .reconnect requests =>
    if streams.current.blocked then streams
    else { closed := streams.closed ++ [streams.current], current := resendAll .new requests }

def resentMessages (requests : List (GAMReqData × List WriteResult)) : List (Transmission UInt8) :=
  requests.flatMap fun (req, results) => (gaminResendRequest req).toList.map fun packet => ⟨packet.encode, results⟩

/-- The messages for each socket, from one on for which some have come already. -/
def socketMessages (messages : List (Transmission UInt8)) : List ClientWrite → List (List (Transmission UInt8))
  | [] => [messages]
  | .request type path reqnum existsFlag results :: writes =>
    socketMessages (messages ++ [⟨(requestPacket type path reqnum existsFlag).encode, results⟩]) writes
  | .reconnect requests :: writes => messages :: socketMessages (resentMessages requests) writes

/-- The sockets up to the one that stays. -/
def reachedSockets : List (List (Transmission UInt8)) → List (List (Transmission UInt8))
  | [] => []
  | messages :: sockets =>
    messages :: if messages.any fun message => decide message.Waits then [] else reachedSockets sockets

/-! ## The messages -/

theorem encode_nonempty (packet : GAMPacket) : packet.encode ≠ [] := by
  apply List.ne_nil_of_length_pos
  rw [GAMPacket.encode_length]
  exact Nat.add_pos_left (by decide) _

theorem gamSendEventOn_messages (conn : Channel UInt8) (reqno : Nat) (event : GaminEventType)
    (path : Bytes) (results : List WriteResult) :
    (gamSendEventOn conn reqno event path results).2 =
      run Channel.write conn (eventMessages reqno event path results) := by
  unfold gamSendEventOn eventMessages
  cases gamSendEvent reqno event path with
  | none => rfl
  | some packet => rfl

theorem run_flatMap {State Input Item : Type*} {step : State → Input → State}
    {move : State → Item → State} {inputs : Item → List Input}
    (moves : ∀ state item, move state item = run step state (inputs item)) (state : State)
    (items : List Item) : items.foldl move state = run step state (items.flatMap inputs) := by
  induction items generalizing state with
  | nil => rfl
  | cons item items inductionHypothesis =>
    rw [List.foldl_cons, List.flatMap_cons, run_append, ← moves, inductionHypothesis]

theorem serverWrite_messages (conn : Channel UInt8) (write : ServerWrite) :
    serverWrite conn write = run Channel.write conn write.messages := by
  cases write with
  | emit reqno event path results => exact gamSendEventOn_messages conn reqno event path results
  | flush events =>
    exact run_flatMap (fun conn (event, results) =>
      gamSendEventOn_messages conn event.reqno event.event event.path results) conn events
  | acknowledge reqno path results =>
    simp only [serverWrite, gamSendAckOn, ServerWrite.messages]
    cases gamSendAck reqno path with
    | none => rfl
    | some packet => rfl

theorem resendAll_messages (conn : Channel UInt8) (requests : List (GAMReqData × List WriteResult)) :
    resendAll conn requests = run Channel.write conn (resentMessages requests) := by
  refine run_flatMap (fun conn item => ?_) conn requests
  obtain ⟨req, results⟩ := item
  simp only []
  cases gaminResendRequest req with
  | none => rfl
  | some packet => rfl

theorem serverMessages_nonempty (write : ServerWrite) :
    ∀ message ∈ write.messages, message.data ≠ [] := by
  intro message member
  cases write <;>
    simp only [ServerWrite.messages, eventMessages, List.mem_flatMap, List.mem_map] at member
  · obtain ⟨packet, _, rfl⟩ := member
    exact encode_nonempty packet
  · obtain ⟨_, _, packet, _, rfl⟩ := member
    exact encode_nonempty packet
  · obtain ⟨packet, _, rfl⟩ := member
    exact encode_nonempty packet

theorem resentMessages_nonempty (requests : List (GAMReqData × List WriteResult)) :
    ∀ message ∈ resentMessages requests, message.data ≠ [] := by
  intro message member
  obtain ⟨_, _, within⟩ := List.mem_flatMap.mp member
  obtain ⟨packet, _, rfl⟩ := List.mem_map.mp within
  exact encode_nonempty packet

/-! ## The sockets of the library -/

/-- A packet that is still being written is the last thing that happens. -/
theorem run_clientWrite_blocked {streams : ClientStreams} (blocked : streams.current.blocked = true)
    (writes : List ClientWrite) : run clientWrite streams writes = streams := by
  induction writes with
  | nil => rfl
  | cons write writes inductionHypothesis =>
    have same : clientWrite streams write = streams := by
      cases write with
      | request type path reqnum existsFlag results => simp [clientWrite, sendPacket, Channel.write, blocked]
      | reconnect requests => exact if_pos blocked
    rw [run_cons, same]
    exact inductionHypothesis

/-- By induction on what the library does: the sockets so far, and those that come. -/
theorem run_clientWrite {streams : ClientStreams} {messages : List (Transmission UInt8)}
    (current : streams.current = run Channel.write .new messages)
    (nonempty : ∀ message ∈ messages, message.data ≠ []) (writes : List ClientWrite) :
    (run clientWrite streams writes).all = streams.closed ++
      (reachedSockets (socketMessages messages writes)).map (run Channel.write .new) := by
  induction writes generalizing streams messages with
  | nil => simp [ClientStreams.all, socketMessages, reachedSockets, current]
  | cons write writes inductionHypothesis =>
    cases write with
    | request type path reqnum existsFlag results =>
      refine inductionHypothesis ?_ fun message member => ?_
      · rw [run_append, ← current]
        rfl
      · rcases List.mem_append.mp member with old | new
        · exact nonempty message old
        · rw [List.mem_singleton.mp new]
          exact encode_nonempty _
    | reconnect requests =>
      have waits := run_blocked_iff nonempty
      rw [← current] at waits
      rw [socketMessages, reachedSockets, ← waits]
      by_cases blocked : streams.current.blocked = true
      · rw [run_clientWrite_blocked blocked, if_pos blocked, List.map_singleton, ← current]
        rfl
      · rw [run_cons, clientWrite, if_neg blocked, if_neg blocked]
        refine (inductionHypothesis (resendAll_messages .new requests) (resentMessages_nonempty requests)).trans ?_
        rw [List.map_cons, ← current, List.append_assoc]
        rfl

/-- Every message is a packet. -/
theorem socketMessages_nonempty {messages : List (Transmission UInt8)}
    (nonempty : ∀ message ∈ messages, message.data ≠ []) {writes : List ClientWrite} :
    ∀ socket ∈ socketMessages messages writes, ∀ message ∈ socket, message.data ≠ [] := by
  induction writes generalizing messages with
  | nil =>
    intro socket member
    rw [List.mem_singleton.mp member]
    exact nonempty
  | cons write writes inductionHypothesis =>
    cases write with
    | request type path reqnum existsFlag results =>
      refine inductionHypothesis fun message member => ?_
      rcases List.mem_append.mp member with old | new
      · exact nonempty message old
      · rw [List.mem_singleton.mp new]
        exact encode_nonempty _
    | reconnect requests =>
      intro socket member
      rcases List.mem_cons.mp member with rfl | later
      · exact nonempty
      · exact inductionHypothesis (resentMessages_nonempty requests) socket later

theorem mem_reachedSockets {sockets : List (List (Transmission UInt8))} {socket : List (Transmission UInt8)}
    (member : socket ∈ reachedSockets sockets) : socket ∈ sockets := by
  induction sockets with
  | nil => exact member
  | cons first sockets inductionHypothesis =>
    rw [reachedSockets] at member
    rcases List.mem_cons.mp member with rfl | later
    · exact List.mem_cons_self
    · split at later
      · contradiction
      · exact List.mem_cons_of_mem _ (inductionHypothesis later)

/-! ## Both directions -/

/-- In both directions, and in that of the library for each of its sockets, the stream is intact if
and only if `write` takes nothing more once it has failed within a packet. -/
theorem streams_intact_iff (server : List ServerWrite) (client : List ClientWrite) :
    ((run serverWrite .new server).Intact ↔ ErrorsLast (server.flatMap ServerWrite.messages)) ∧
    ((∀ channel ∈ (run clientWrite .new client).all, channel.Intact) ↔
      ∀ messages ∈ reachedSockets (socketMessages [] client), ErrorsLast messages) := by
  constructor
  · rw [run, run_flatMap serverWrite_messages]
    refine intact_iff_errorsLast fun message member => ?_
    obtain ⟨write, _, within⟩ := List.mem_flatMap.mp member
    exact serverMessages_nonempty write message within
  · have nothing : ∀ message ∈ ([] : List (Transmission UInt8)), message.data ≠ [] := nofun
    rw [@run_clientWrite .new [] rfl nothing client, ClientStreams.new, List.nil_append, List.forall_mem_map]
    refine forall₂_congr fun messages member => ?_
    exact intact_iff_errorsLast (socketMessages_nonempty nothing messages (mem_reachedSockets member))

/-- Three bytes of a request are taken before `write` fails, and the next request is taken whole. -/
theorem second_request_behind_torn_one :
    ¬ ∀ channel ∈ (run clientWrite .new [.request 1 [47, 97] 1 0 [.accepted 3, .failed],
      .request 1 [47, 98] 2 0 [.accepted 12]]).all, channel.Intact := by
  intro intact
  have silent := (intact _ List.mem_cons_self).silent
  revert silent
  decide

/-- Behind a reconnection the requests are on a socket of their own. -/
example : ∀ messages ∈ reachedSockets (socketMessages [] [.request 1 [47, 97] 1 0 [.accepted 3, .failed],
    .reconnect [], .request 1 [47, 98] 2 0 [.accepted 12]]), ErrorsLast messages := by
  simp [socketMessages, reachedSockets, resentMessages, ErrorsLast, attempted]

end Gamin.Link
