import Gamin.Library.Framing
import Gamin.Protocol
import Mathlib.Logic.Function.Basic

/-! # The server side of a client connection

The request buffer of `GamConnData` and the functions that fill and decode it
(`gam_connection.c`, `gam_channel.c`).  The buffer is the memory from address 0 on.
What a request does to the listener and to the backends is a parameter here, and the
packets handed to `gam_connection_request` are logged.
-/

namespace Gamin.Server

open Gamin Gamin.Library

/-- `GamConnState`. -/
inductive GamConnState where
  | error
  | auth
  | okay
  | closed
  deriving DecidableEq, Repr

/-- The two ways of `gam_connection_data` to get to the next request of the buffer, chosen
by the architecture: advance the pointer, or move the rest of the buffer to its front. -/
inductive BuildVariant where
  | inPlace
  | memmove
  deriving DecidableEq, Repr

/-- What the cases of `gam_connection_request` do with the rest of the server.  The answer
of `cancelSubscription` is `none` when no subscription has the number. -/
structure RequestHandlers (Server : Type*) where
  addSubscription : Server → (path : Bytes) → (reqno : Nat) → (isDir : Bool) →
    (options : Nat) → Server
  cancelSubscription : Server → (reqno : Nat) → Option Server
  debugRequest : Server → (path : Bytes) → (options : Nat) → Server

/-- The part of `GamConnData` that takes part in decoding. -/
structure GamConnData (Server : Type*) where
  state : GamConnState
  requestLen : Nat
  request : Nat → UInt8
  requests : List GAMPacket
  server : Server

variable {Server : Type*}

/-- The size `gam_connection_get_data` reports; the data go behind the bytes that are there. -/
def gamConnectionGetDataSize (conn : GamConnData Server) : Int :=
  sizeofGAMPacket - conn.requestLen

/-- `gam_connection_request`: the memory, the rest of the server and the result. -/
def gamConnectionRequest (handlers : RequestHandlers Server) (memory : Nat → UInt8) (req : Nat)
    (server : Server) : (Nat → UInt8) × Server × Int :=
  let type := packetType memory req &&& 0xF
  let options := packetType memory req &&& 0xFFF0
  if packetPathlen memory req ≥ maxPathLen then (memory, server, -1)
  else
    let byteSave := memory (packetPath req + packetPathlen memory req)
    let zeroed := Function.update memory (packetPath req + packetPathlen memory req) 0
    let path := cString zeroed (packetPath req) (packetPathlen zeroed req + 1)
    let restored := Function.update zeroed (packetPath req + packetPathlen zeroed req) byteSave
    if type = gamReqFile ∨ type = gamReqDir then
      (restored, handlers.addSubscription server path (packetSeq zeroed req)
        (type = gamReqDir) options, 0)
    else if type = gamReqCancel then
      match handlers.cancelSubscription server (packetSeq zeroed req) with
      | none => (restored, server, -1)
      | some server => (restored, server, 0)
    else if type = gamReqDebug then (restored, handlers.debugRequest server path options, 0)
    else (restored, server, -1)

theorem packetPathlen_update (memory : Nat → UInt8) (req offset : Nat) (byte : UInt8) :
    packetPathlen (Function.update memory (packetPath req + offset) byte) req =
      packetPathlen memory req := by
  have low : req + 8 ≠ packetPath req + offset := by unfold packetPath gamPacketHeaderLen; omega
  have high : req + 8 + 1 ≠ packetPath req + offset := by unfold packetPath gamPacketHeaderLen; omega
  simp [packetPathlen, readShort, Function.update_of_ne low, Function.update_of_ne high]

/-- The borrowed byte is given back on every exit: the buffer is as it was. -/
theorem gamConnectionRequest_memory (handlers : RequestHandlers Server) (memory : Nat → UInt8)
    (req : Nat) (server : Server) :
    (gamConnectionRequest handlers memory req server).1 = memory := by
  have restored : Function.update (Function.update memory
      (packetPath req + packetPathlen memory req) 0)
      (packetPath req + packetPathlen memory req)
      (memory (packetPath req + packetPathlen memory req)) = memory := by
    rw [Function.update_idem, Function.update_eq_self]
  simp only [gamConnectionRequest, packetPathlen_update]
  split
  · rfl
  · split
    · exact restored
    · split
      · split <;> exact restored
      · split <;> exact restored

/-- The loop of `gam_connection_data`: the result, the connection and the place of the
request the loop stopped at. -/
def gamConnectionDataLoop (variant : BuildVariant) (handlers : RequestHandlers Server)
    (conn : GamConnData Server) (req : Nat) : Int × GamConnData Server × Nat :=
  if conn.requestLen < gamPacketHeaderLen then (0, conn, req)
  else if packetLen conn.request req > sizeofGAMPacket then (-1, conn, req)
  else if packetVersion conn.request req ≠ gamProtoVersion then (-1, conn, req)
  else if packetType conn.request req ≠ gamReqCancel ∧
      (packetPathlen conn.request req ≤ 0 ∨ packetPathlen conn.request req > maxPathLen) then
    (-1, conn, req)
  else if _sizes : packetPathlen conn.request req + gamPacketHeaderLen ≠ packetLen conn.request req then
    (-1, conn, req)
  -- the rest of the packet is still to come
  else if _partial : conn.requestLen < packetLen conn.request req then (0, conn, req)
  else
    match _served : gamConnectionRequest handlers conn.request req conn.server with
    | (memory, server, result) =>
      let conn' : GamConnData Server := { conn with
        request := memory
        server := server
        requests := conn.requests ++ [packetAt conn.request req] }
      if result < 0 then (-1, conn', req)
      else if conn.requestLen - packetLen memory req = 0 then
        (0, { conn' with requestLen := 0 }, req)
      else
        match variant with
        | .inPlace =>
          gamConnectionDataLoop .inPlace handlers
            { conn' with requestLen := conn.requestLen - packetLen memory req }
            (req + packetLen memory req)
        | .memmove =>
          gamConnectionDataLoop .memmove handlers
            { conn' with
              requestLen := conn.requestLen - packetLen memory req
              request := move memory 0 (req + packetLen memory req)
                (conn.requestLen - packetLen memory req) } req
termination_by conn.requestLen
decreasing_by
  all_goals
    have same := gamConnectionRequest_memory handlers conn.request req conn.server
    rw [_served] at same
    simp only at same
    subst same
    simp only [gamPacketHeaderLen] at *
    omega

/-- `gam_connection_data` after `len` more bytes have been read into the buffer. -/
def gamConnectionData (variant : BuildVariant) (handlers : RequestHandlers Server)
    (conn : GamConnData Server) (len : Nat) : Int × GamConnData Server :=
  match gamConnectionDataLoop variant handlers { conn with requestLen := conn.requestLen + len } 0 with
  | (result, conn, req) =>
    if result < 0 then (-1, conn)
    else if conn.requestLen > 0 ∧ req ≠ 0 then
      (0, { conn with request := move conn.request 0 req conn.requestLen })
    else (0, conn)

/-- `gam_client_conn_read` on an authenticated connection: `read` delivers a chunk, and an
empty one means that the client is gone. -/
def gamClientConnRead (variant : BuildVariant) (handlers : RequestHandlers Server)
    (conn : GamConnData Server) (chunk : Bytes) : GamConnData Server :=
  match conn.state with
  | .okay =>
    if chunk.length = 0 then { conn with state := .closed }
    else
      match gamConnectionData variant handlers
        { conn with request := store conn.request conn.requestLen chunk } chunk.length with
      | (result, conn) => if result < 0 then { conn with state := .closed } else conn
  | _ => conn

/-- A connection right after the check of the credentials. -/
def gamConnectionNew (server : Server) : GamConnData Server where
  state := .okay
  requestLen := 0
  request := fun _ => 0
  requests := []
  server := server

end Gamin.Server
