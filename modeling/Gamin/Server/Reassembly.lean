import Gamin.Server.Connection
import Gamin.PacketStream
import Gamin.Library.Runs

/-! # Reassembly of requests

The decoder of `gam_connection_data` refines packet-by-packet decoding of the whole
stream: at every moment the buffer holds what that decoder has left over.  This holds for
both build variants and for every way of cutting the stream into reads.
-/

namespace Gamin.Server

open Gamin Gamin.Library

variable {Server : Type*}

/-- The requests of a stream.  Only a cancel request may come without a path. -/
def requestFraming : Framing UInt8 GAMPacket := packetFraming (· == gamReqCancel)

/-- What serving a request comes to, said of the packet alone: the new state of the server,
and whether the request was accepted. -/
def serveRequest (handlers : RequestHandlers Server) (server : Server) (packet : GAMPacket) :
    Server × Bool :=
  let type := packet.type &&& 0xF
  let options := packet.type &&& 0xFFF0
  let path := packet.path.takeWhile (· ≠ 0)
  if packet.path.length ≥ maxPathLen then (server, false)
  else if type = gamReqFile ∨ type = gamReqDir then
    (handlers.addSubscription server path packet.seq (type = gamReqDir) options, true)
  else if type = gamReqCancel then
    match handlers.cancelSubscription server packet.seq with
    | none => (server, false)
    | some server => (server, true)
  else if type = gamReqDebug then (handlers.debugRequest server path options, true)
  else (server, false)

/-- Serves a request and logs it. -/
def consumeRequest (handlers : RequestHandlers Server) (state : List GAMPacket × Server)
    (packet : GAMPacket) : (List GAMPacket × Server) × Bool :=
  ((state.1 ++ [packet], (serveRequest handlers state.2 packet).1),
    (serveRequest handlers state.2 packet).2)

/-! ## One request -/

theorem packetSeq_update (memory : Nat → UInt8) (req offset : Nat) (byte : UInt8) :
    packetSeq (Function.update memory (packetPath req + offset) byte) req = packetSeq memory req := by
  have low : req + 4 ≠ packetPath req + offset := by unfold packetPath gamPacketHeaderLen; omega
  have high : req + 4 + 1 ≠ packetPath req + offset := by unfold packetPath gamPacketHeaderLen; omega
  simp [packetSeq, readShort, Function.update_of_ne low, Function.update_of_ne high]

/-- The string in the terminated buffer ends inside the path of the packet. -/
theorem cString_terminated (memory : Nat → UInt8) (address length : Nat) :
    cString (Function.update memory (address + length) 0) address (length + 1) =
      (window memory address length).takeWhile (· ≠ 0) := by
  have before : window (Function.update memory (address + length) 0) address length =
      window memory address length := by
    apply window_congr
    intro offset inside
    exact Function.update_of_ne (by omega) _ _
  have last : window (Function.update memory (address + length) 0) (address + length) 1 = [0] := by
    simp [window]
  rw [cString, window_append, before, last, List.takeWhile_append]
  split
  · rename_i whole
    simpa using ((List.takeWhile_prefix _).eq_of_length whole).symm
  · rfl

/-- Behind the restored buffer, the handler does to the server what the packet says. -/
theorem gamConnectionRequest_serves (handlers : RequestHandlers Server) (memory : Nat → UInt8)
    (req : Nat) (server : Server) :
    gamConnectionRequest handlers memory req server =
      (memory, (serveRequest handlers server (packetAt memory req)).1,
        if (serveRequest handlers server (packetAt memory req)).2 then 0 else -1) := by
  have same := gamConnectionRequest_memory handlers memory req server
  refine Prod.ext same ?_
  simp only [gamConnectionRequest, serveRequest, packetPathlen_update, packetSeq_update,
    cString_terminated, packetAt, window_length]
  by_cases long : packetPathlen memory req ≥ maxPathLen
  · simp [long]
  by_cases add : packetType memory req &&& 0xF = gamReqFile ∨ packetType memory req &&& 0xF = gamReqDir
  · simp [long, add]
    rfl
  by_cases cancel : packetType memory req &&& 0xF = gamReqCancel
  · have other : ¬ (gamReqCancel = gamReqFile ∨ gamReqCancel = gamReqDir) := by decide
    cases handlers.cancelSubscription server (packetSeq memory req) <;>
      simp [long, cancel, other]
  by_cases debug : packetType memory req &&& 0xF = gamReqDebug
  · have other : ¬ (gamReqDebug = gamReqFile ∨ gamReqDebug = gamReqDir) := by decide
    have another : ¬ gamReqDebug = gamReqCancel := by decide
    simp [long, debug, other, another]
  · simp [long, add, cancel, debug]

/-! ## The decoding loop -/

/-- The scanner on the bytes at `req` makes the checks of the loop. -/
theorem requestFraming_window (memory : Nat → UInt8) (req length : Nat) :
    requestFraming.scan (window memory req length) =
      if length < gamPacketHeaderLen then .incomplete
      else if packetLen memory req > sizeofGAMPacket then .malformed
      else if packetVersion memory req ≠ gamProtoVersion then .malformed
      else if packetType memory req ≠ gamReqCancel ∧
          (packetPathlen memory req ≤ 0 ∨ packetPathlen memory req > maxPathLen) then .malformed
      else if packetPathlen memory req + gamPacketHeaderLen ≠ packetLen memory req then .malformed
      else if length < packetLen memory req then .incomplete
      else .frame (packetAt memory req) (packetLen memory req) := by
  rw [requestFraming, show (packetFraming _).scan = scanPacket _ from rfl, scanPacket_window]
  simp only [beq_iff_eq, ne_eq]

theorem consumeRequest_served {handlers : RequestHandlers Server} {memory after : Nat → UInt8}
    {req : Nat} {server server' : Server} {result : Int}
    (served : gamConnectionRequest handlers memory req server = (after, server', result))
    (requests : List GAMPacket) :
    after = memory ∧ consumeRequest handlers (requests, server) (packetAt memory req) =
      ((requests ++ [packetAt memory req], server'), decide (¬ result < 0)) := by
  rw [gamConnectionRequest_serves] at served
  simp only [Prod.mk.injEq] at served
  obtain ⟨rfl, rfl, rfl⟩ := served
  refine ⟨rfl, ?_⟩
  cases verdict : (serveRequest handlers server (packetAt memory req)).2 <;>
    simp [consumeRequest, verdict]

/-- The decoder that a result of the loop stands for. -/
def loopDecoder : Int × GamConnData Server × Nat → Decoder (List GAMPacket × Server) UInt8
  | (result, conn, req) =>
    if result < 0 then .rejected (conn.requests, conn.server)
    else .waiting (conn.requests, conn.server) (window conn.request req conn.requestLen)

/-- The loop decodes what is in the buffer.  The variant that moves the rest to the front
never leaves the front. -/
theorem gamConnectionDataLoop_decodes (variant : BuildVariant) (handlers : RequestHandlers Server)
    (conn : GamConnData Server) (req : Nat) (front : variant = .memmove → req = 0) :
    loopDecoder (gamConnectionDataLoop variant handlers conn req) =
      requestFraming.drain (consumeRequest handlers) (conn.requests, conn.server)
        (window conn.request req conn.requestLen) := by
  have found := requestFraming_window conn.request req conn.requestLen
  fun_induction gamConnectionDataLoop variant handlers conn req with
  | case1 _ conn req short =>
    rw [if_pos short] at found
    exact (Framing.drain_incomplete found).symm
  | case2 _ conn req header long =>
    rw [if_neg header, if_pos long] at found
    exact (Framing.drain_malformed found).symm
  | case3 _ conn req header long version =>
    rw [if_neg header, if_neg long, if_pos version] at found
    exact (Framing.drain_malformed found).symm
  | case4 _ conn req header long version path =>
    rw [if_neg header, if_neg long, if_neg version, if_pos path] at found
    exact (Framing.drain_malformed found).symm
  | case5 _ conn req header long version path sizes =>
    rw [if_neg header, if_neg long, if_neg version, if_neg path, if_pos sizes] at found
    exact (Framing.drain_malformed found).symm
  | case6 _ conn req header long version path sizes part =>
    rw [if_neg header, if_neg long, if_neg version, if_neg path, if_neg sizes, if_pos part] at found
    exact (Framing.drain_incomplete found).symm
  | case7 _ conn req header long version path sizes part memory server result served conn' refused =>
    rw [if_neg header, if_neg long, if_neg version, if_neg path, if_neg sizes, if_neg part] at found
    obtain ⟨rfl, consumed⟩ := consumeRequest_served served conn.requests
    rw [Framing.drain_refused found (by rw [consumed, decide_eq_false (by simpa using refused)])]
    simp [loopDecoder, conn']
  | case8 _ conn req header long version path sizes part memory server result served conn' accepted
      last =>
    rw [if_neg header, if_neg long, if_neg version, if_neg path, if_neg sizes, if_neg part] at found
    obtain ⟨rfl, consumed⟩ := consumeRequest_served served conn.requests
    rw [Framing.drain_accepted found (by rw [consumed, decide_eq_true accepted]),
      window_drop _ _ _ _ (by omega), last, window_zero, Framing.drain_nil]
    simp [loopDecoder, conn']
  | case9 conn req header long version path sizes part memory server result served conn' accepted
      more inductionHypothesis =>
    rw [if_neg header, if_neg long, if_neg version, if_neg path, if_neg sizes, if_neg part] at found
    obtain ⟨rfl, consumed⟩ := consumeRequest_served served conn.requests
    rw [Framing.drain_accepted found (by rw [consumed, decide_eq_true accepted]),
      window_drop _ _ _ _ (by omega)]
    exact inductionHypothesis (fun other => nomatch other) (requestFraming_window _ _ _)
  | case10 conn req header long version path sizes part memory server result served conn' accepted
      more inductionHypothesis =>
    rw [if_neg header, if_neg long, if_neg version, if_neg path, if_neg sizes, if_neg part] at found
    obtain ⟨rfl, consumed⟩ := consumeRequest_served served conn.requests
    rw [Framing.drain_accepted found (by rw [consumed, decide_eq_true accepted]),
      window_drop _ _ _ _ (by omega)]
    -- the rest is moved to the front, where the loop goes on
    obtain rfl := front rfl
    rw [inductionHypothesis (fun _ => rfl) (requestFraming_window _ _ _), window_move_same]

/-- The bytes kept for the next call are no whole request, so they leave room. -/
theorem gamConnectionDataLoop_room (variant : BuildVariant) (handlers : RequestHandlers Server)
    (conn : GamConnData Server) (req : Nat)
    (success : ¬ (gamConnectionDataLoop variant handlers conn req).1 < 0) :
    (gamConnectionDataLoop variant handlers conn req).2.1.requestLen < sizeofGAMPacket := by
  fun_induction gamConnectionDataLoop variant handlers conn req with
  | case1 _ conn req short => exact Nat.lt_of_lt_of_le short (by decide)
  | case2 => simp at success
  | case3 => simp at success
  | case4 => simp at success
  | case5 => simp at success
  | case6 _ conn req header long version path sizes part => exact Nat.lt_of_lt_of_le part (by omega)
  | case7 => simp at success
  | case8 => exact Nat.zero_lt_succ _
  | case9 _ _ _ _ _ _ _ _ _ _ _ _ _ _ _ inductionHypothesis => exact inductionHypothesis success
  | case10 _ _ _ _ _ _ _ _ _ _ _ _ _ _ _ inductionHypothesis => exact inductionHypothesis success

theorem gamConnectionDataLoop_state (variant : BuildVariant) (handlers : RequestHandlers Server)
    (conn : GamConnData Server) (req : Nat) :
    (gamConnectionDataLoop variant handlers conn req).2.1.state = conn.state := by
  fun_induction gamConnectionDataLoop variant handlers conn req <;> first | rfl | assumption

theorem gamConnectionData_decodes (variant : BuildVariant) (handlers : RequestHandlers Server)
    (conn : GamConnData Server) (len : Nat) :
    loopDecoder ((gamConnectionData variant handlers conn len).1,
        (gamConnectionData variant handlers conn len).2, 0) =
      requestFraming.drain (consumeRequest handlers) (conn.requests, conn.server)
        (window conn.request 0 (conn.requestLen + len)) := by
  rw [← gamConnectionDataLoop_decodes variant handlers
    { conn with requestLen := conn.requestLen + len } 0 (fun _ => rfl)]
  unfold gamConnectionData
  cases loop : gamConnectionDataLoop variant handlers
    { conn with requestLen := conn.requestLen + len } 0 with
  | mk result rest =>
    obtain ⟨after, req⟩ := rest
    by_cases failed : result < 0
    · simp [loopDecoder, failed]
    by_cases moved : after.requestLen > 0 ∧ req ≠ 0
    · simp [loopDecoder, failed, moved, window_move_same]
    · simp only [loopDecoder, if_neg failed, if_neg moved, Int.lt_irrefl, if_false,
        Decoder.waiting.injEq, true_and]
      rcases Nat.eq_zero_or_pos after.requestLen with empty | some
      · rw [empty, window_zero, window_zero]
      · rw [show req = 0 by omega]

theorem gamConnectionData_room (variant : BuildVariant) (handlers : RequestHandlers Server)
    (conn : GamConnData Server) (len : Nat)
    (success : ¬ (gamConnectionData variant handlers conn len).1 < 0) :
    (gamConnectionData variant handlers conn len).2.requestLen < sizeofGAMPacket := by
  have room := gamConnectionDataLoop_room variant handlers
    { conn with requestLen := conn.requestLen + len } 0
  unfold gamConnectionData at success ⊢
  cases loop : gamConnectionDataLoop variant handlers
    { conn with requestLen := conn.requestLen + len } 0 with
  | mk result rest =>
    rw [loop] at room success
    by_cases failed : result < 0
    · simp [failed] at success
    · simp only [if_neg failed]
      split <;> exact room failed

theorem gamConnectionData_state (variant : BuildVariant) (handlers : RequestHandlers Server)
    (conn : GamConnData Server) (len : Nat) :
    (gamConnectionData variant handlers conn len).2.state = conn.state := by
  have kept := gamConnectionDataLoop_state variant handlers
    { conn with requestLen := conn.requestLen + len } 0
  unfold gamConnectionData
  cases loop : gamConnectionDataLoop variant handlers
    { conn with requestLen := conn.requestLen + len } 0 with
  | mk result rest =>
    rw [loop] at kept
    simp only
    split
    · exact kept
    · split <;> exact kept

/-! ## Reads -/

/-- The decoder that a connection stands for between two reads. -/
def connectionDecoder (conn : GamConnData Server) : Decoder (List GAMPacket × Server) UInt8 :=
  if conn.state = .okay then
    .waiting (conn.requests, conn.server) (window conn.request 0 conn.requestLen)
  else .rejected (conn.requests, conn.server)

/-- A read delivers at least one byte and at most what fits. -/
def ReadFits (conn : GamConnData Server) (chunk : Bytes) : Prop :=
  conn.state = .okay → 0 < chunk.length ∧ (chunk.length : Int) ≤ gamConnectionGetDataSize conn

/-- The next read asks for at least one byte. -/
def HasRoom (conn : GamConnData Server) : Prop :=
  conn.state = .okay → 0 < gamConnectionGetDataSize conn

/-- What a read does to the decoder: no bytes are the end of the connection. -/
def readDecoder (handlers : RequestHandlers Server)
    (decoder : Decoder (List GAMPacket × Server) UInt8) (chunk : Bytes) :
    Decoder (List GAMPacket × Server) UInt8 :=
  if chunk.length = 0 then .rejected decoder.state
  else requestFraming.feed (consumeRequest handlers) decoder chunk

/-- One read of the connection is one step of the decoder. -/
theorem gamClientConnRead_decodes (variant : BuildVariant) (handlers : RequestHandlers Server)
    (conn : GamConnData Server) (chunk : Bytes) :
    connectionDecoder (gamClientConnRead variant handlers conn chunk) =
      readDecoder handlers (connectionDecoder conn) chunk := by
  by_cases okay : conn.state = .okay
  · by_cases ended : chunk.length = 0
    · simp [gamClientConnRead, okay, ended, connectionDecoder, readDecoder, Decoder.state]
    · have decodes := gamConnectionData_decodes variant handlers
        { conn with request := store conn.request conn.requestLen chunk } chunk.length
      have kept := gamConnectionData_state variant handlers
        { conn with request := store conn.request conn.requestLen chunk } chunk.length
      -- the bytes come behind those that wait in the buffer
      have appended := window_store_append conn.request 0 conn.requestLen chunk
      rw [Nat.zero_add] at appended
      simp only [appended] at decodes
      simp only [readDecoder, if_neg ended, connectionDecoder, if_pos okay, Framing.feed]
      rw [← decodes]
      simp only [gamClientConnRead, okay, if_neg ended]
      cases answer : gamConnectionData variant handlers
        { conn with request := store conn.request conn.requestLen chunk } chunk.length with
      | mk result after =>
        rw [answer] at kept
        simp only [okay] at kept answer ⊢
        rw [answer]
        by_cases failed : result < 0
        · simp [failed, loopDecoder]
        · simp [failed, loopDecoder, kept]
  · have other : gamClientConnRead variant handlers conn chunk = conn := by
      unfold gamClientConnRead
      split
      · contradiction
      · rfl
    rw [other]
    simp [connectionDecoder, okay, readDecoder, Framing.feed, Decoder.state]

/-- What every request that meets the guard keeps, a read keeps whose requests all meet it. -/
theorem gamClientConnRead_guarded {variant : BuildVariant} {handlers : RequestHandlers Server}
    {guard : List GAMPacket × Server → GAMPacket → Prop} (property : List GAMPacket × Server → Prop)
    (kept : ∀ state packet, property state → guard state packet → property (consumeRequest handlers state packet).1)
    {conn : GamConnData Server} {chunk : Bytes} (holds : property (conn.requests, conn.server))
    (guarded : requestFraming.DrainGuarded (consumeRequest handlers) guard (conn.requests, conn.server)
      (window conn.request 0 conn.requestLen ++ chunk)) :
    property ((gamClientConnRead variant handlers conn chunk).requests,
      (gamClientConnRead variant handlers conn chunk).server) := by
  have decoded (after : GamConnData Server) :
      (connectionDecoder after).state = (after.requests, after.server) := by
    unfold connectionDecoder
    split <;> rfl
  rw [← decoded, gamClientConnRead_decodes, readDecoder]
  split
  · rw [decoded]
    exact holds
  · rw [connectionDecoder]
    split
    · exact Framing.drain_guarded property kept holds guarded
    · exact holds

theorem gamClientConnRead_room (variant : BuildVariant) (handlers : RequestHandlers Server)
    (conn : GamConnData Server) (chunk : Bytes) (room : HasRoom conn) :
    HasRoom (gamClientConnRead variant handlers conn chunk) := by
  unfold gamClientConnRead
  split
  · split
    · intro open'
      exact nomatch open'
    · have bounded := gamConnectionData_room variant handlers
        { conn with request := store conn.request conn.requestLen chunk } chunk.length
      split
      rename_i result after answer
      rw [answer] at bounded
      split
      · intro open'
        exact nomatch open'
      · rename_i success
        have small := bounded success
        intro _
        simp only [gamConnectionGetDataSize] at small ⊢
        omega
  · exact room

theorem connectionDecoder_run (variant : BuildVariant) (handlers : RequestHandlers Server)
    (conn : GamConnData Server) (chunks : List Bytes) :
    connectionDecoder (run (gamClientConnRead variant handlers) conn chunks) =
      chunks.foldl (readDecoder handlers) (connectionDecoder conn) := by
  induction chunks generalizing conn with
  | nil => rfl
  | cons chunk chunks inductionHypothesis =>
    rw [run_cons, inductionHypothesis, gamClientConnRead_decodes, List.foldl_cons]

/-- While every read delivers something, reading is feeding. -/
theorem connectionDecoder_fed {variant : BuildVariant} {handlers : RequestHandlers Server}
    {conn : GamConnData Server} {chunks : List Bytes}
    (fits : Guarded (gamClientConnRead variant handlers) ReadFits conn chunks) :
    connectionDecoder (run (gamClientConnRead variant handlers) conn chunks) =
      chunks.foldl (requestFraming.feed (consumeRequest handlers)) (connectionDecoder conn) := by
  induction chunks generalizing conn with
  | nil => rfl
  | cons chunk chunks inductionHypothesis =>
    rw [run_cons, inductionHypothesis fits.2, gamClientConnRead_decodes, List.foldl_cons]
    congr 1
    unfold readDecoder
    split
    · rename_i empty
      by_cases okay : conn.state = .okay
      · have some := (fits.1 okay).1
        omega
      · simp [connectionDecoder, okay, Decoder.state, Framing.feed]
    · rfl

/-- Reassembly: however the stream is cut into reads that fit, and in either build variant,
the requests that were served, what they did to the server, the bytes left over and the
acceptance of the stream are those of decoding it as a whole; the other variant agrees; a
served request leaves the buffer as it was; and the next read always has room. -/
theorem requests_reassembled (variant : BuildVariant) (handlers : RequestHandlers Server)
    (server : Server) (chunks : List Bytes)
    (fits : Guarded (gamClientConnRead variant handlers) ReadFits (gamConnectionNew server) chunks) :
    connectionDecoder (run (gamClientConnRead variant handlers) (gamConnectionNew server) chunks) =
        requestFraming.drain (consumeRequest handlers) ([], server) chunks.flatten ∧
      (∀ other : BuildVariant,
        connectionDecoder (run (gamClientConnRead other handlers) (gamConnectionNew server) chunks) =
          connectionDecoder (run (gamClientConnRead variant handlers) (gamConnectionNew server) chunks)) ∧
      (∀ memory req (state : Server), (gamConnectionRequest handlers memory req state).1 = memory) ∧
      Throughout (gamClientConnRead variant handlers) HasRoom (gamConnectionNew server) chunks := by
  refine ⟨?_, ?_, ?_, ?_⟩
  · rw [connectionDecoder_fed fits]
    exact Framing.feed_chunks chunks ([], server)
  · intro other
    rw [connectionDecoder_run, connectionDecoder_run]
  · exact gamConnectionRequest_memory handlers
  · refine Throughout.of_guarded ?_ ?_ fits
    · intro conn chunk room _
      exact gamClientConnRead_room variant handlers conn chunk room
    · intro _
      simp [gamConnectionGetDataSize, gamConnectionNew, sizeofGAMPacket, gamPacketHeaderLen, maxPathLen]

/-- A server that keeps only the numbers and paths of its subscriptions. -/
def subscriptionList : RequestHandlers (List (Nat × Bytes)) where
  addSubscription := fun server path reqno _ _ => server ++ [(reqno, path)]
  cancelSubscription := fun server reqno =>
    if server.any (·.1 = reqno) then some (server.eraseP (·.1 = reqno)) else none
  debugRequest := fun server _ _ => server

/-- Two requests, cut inside the header of the first and inside the path of the second. -/
def splitRequests : List Bytes :=
  [[12, 0, 1], [0, 7, 0, 2, 0, 2, 0, 47, 97, 13, 0, 1, 0, 8, 0, 1, 0, 3, 0, 47], [98, 0]]

theorem splitRequests_reassembled :
    connectionDecoder (run (gamClientConnRead .inPlace subscriptionList) (gamConnectionNew [])
        splitRequests) =
      .waiting ([⟨1, 7, 2, [47, 97]⟩, ⟨1, 8, 1, [47, 98, 0]⟩], [(7, [47, 97]), (8, [47, 98])]) [] := by
  have fits : Guarded (gamClientConnRead .inPlace subscriptionList) ReadFits (gamConnectionNew [])
      splitRequests := by
    refine ⟨fun _ => ?_, fun _ => ?_, fun _ => ?_, trivial⟩ <;> decide +kernel
  rw [(requests_reassembled .inPlace subscriptionList [] splitRequests fits).1]
  have first : requestFraming.scan splitRequests.flatten =
      .frame ⟨1, 7, 2, [47, 97]⟩ 12 := rfl
  have second : requestFraming.scan (splitRequests.flatten.drop 12) =
      .frame ⟨1, 8, 1, [47, 98, 0]⟩ 13 := rfl
  rw [Framing.drain_accepted first rfl, Framing.drain_accepted second rfl]
  exact Framing.drain_nil

end Gamin.Server
