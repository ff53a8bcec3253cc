import Gamin.Client.Events

/-! # Reading events through the public interface

`FAMNextEvent` and `FAMPending` of `gam_api.c`, and what they call to read from the
server and to reconnect.  The answers of the system calls are arguments.  The pointer
arguments of the public functions are not NULL.  The bytes that are read behind the
credentials are logged.
-/

namespace Gamin.Client

open Gamin Gamin.Library

/-- The values of `FAMErrno`. -/
inductive FAMError where
  | ok
  | arg
  | file
  | connect
  | auth
  | mem
  | unimplem
  deriving DecidableEq, Repr

/-- A connection as the calling thread sees it: the descriptor, the data behind it, the
error variable, and how often the thread holds the lock. -/
structure FAMConnection where
  fd : Int
  client : Option GAMData
  famErrno : FAMError
  lockDepth : Int
  received : Bytes

/-- The answer of `read`, interruptions left out. -/
inductive ReadAnswer where
  | data (bytes : Bytes)
  | endOfFile
  | failed
  deriving DecidableEq, Repr

/-- The answers of the system calls of `gamin_read_data`: the byte `recvmsg` leaves in the
buffer, whether the server has the identity of the client, `select`, and `read`. -/
structure ReadAnswers where
  credential : Option UInt8
  sameUid : Bool
  available : Int
  read : ReadAnswer
  deriving DecidableEq, Repr

/-- Which steps of a reconnection succeed. -/
structure ReconnectAnswers where
  socketPath : Bool
  connected : Bool
  credential : Bool
  duplicated : Bool
  deriving DecidableEq, Repr

/-- `gamin_check_cred`. -/
def gaminCheckCred (conn : GAMData) (answers : ReadAnswers) : Int × GAMData :=
  match answers.credential with
  | none => (-1, conn)
  | some byte =>
    if byte ≠ 0 then (-1, conn)
    else if ¬ answers.sameUid then (-1, conn)
    else (0, gaminDataDoneAuth conn)

/-- The second half of `gamin_read_data`, from `gamin_data_get_data` on. -/
def gaminReadChunk (conn : GAMData) (answers : ReadAnswers) : Int × GAMData × Bytes :=
  match answers.read with
  | .failed => (-1, conn, [])
  | .endOfFile => (-1, conn, [])
  | .data bytes =>
    match gaminDataConnData { conn with event := store conn.event conn.evnRead.toNat bytes }
        bytes.length with
    | (result, conn) => (if result < 0 then -1 else 0, conn, bytes)

/-- `gamin_read_data`: the result, the data, and the bytes that were read. -/
def gaminReadData (conn : GAMData) (answers : ReadAnswers) (block : Bool) : Int × GAMData × Bytes :=
  if gaminDataNeedAuth conn = 1 then
    match gaminCheckCred conn answers with
    | (result, conn) =>
      if result < 0 then (-1, conn, [])
      else if ¬ block ∧ answers.available < 0 then (-1, conn, [])
      else if ¬ block ∧ answers.available = 0 then (0, conn, [])
      else gaminReadChunk conn answers
  else if gaminDataNeedAuth conn ≠ 0 then (-1, conn, [])
  else gaminReadChunk conn answers

/-- `gamin_resend_request`: the packet written for a request, if any. -/
def gaminResendRequest (req : GAMReqData) : Option GAMPacket :=
  req.filename.map fun filename =>
    { version := gamProtoVersion
      seq := (req.reqno % 65536).toNat
      type := req.type ||| gamOptNoexists
      path := filename }

/-- `gamin_try_reconnect`: the result, the data, and the requests written again. -/
def gaminTryReconnect (conn : GAMData) (fd : Int) (answers : ReconnectAnswers) :
    Int × GAMData × List GAMPacket :=
  if fd < 0 then (-1, conn, [])
  else if ¬ answers.socketPath then (-1, conn, [])
  else if ¬ answers.connected then (-1, conn, [])
  else if ¬ answers.credential then (-1, conn, [])
  else if ¬ answers.duplicated then (-1, conn, [])
  else
    match gaminDataReset conn with
    | (requests, conn) => (0, conn, requests.filterMap gaminResendRequest)

/-- `FAMNextEvent`: the event on success. -/
def famNextEvent (fc : FAMConnection) (answers : ReadAnswers) (reconnect : ReconnectAnswers) :
    Option FAMEvent × FAMConnection :=
  match fc.client with
  | none => (none, { fc with famErrno := .arg })
  | some conn =>
    if fc.fd < 0 then (none, fc)
    else
      let fc := { fc with lockDepth := fc.lockDepth + 1 }
      match gaminDataEventReady conn with
      | (ready, conn) =>
        match if ready then ((0 : Int), conn, []) else gaminReadData conn answers true with
        | (result, conn, bytes) =>
          let fc := { fc with received := fc.received ++ bytes }
          if result < 0 then
            (none, { fc with
              client := some (gaminTryReconnect conn fc.fd reconnect).2.1
              famErrno := .connect })
          else
            match gaminDataReadEvent conn with
            | (event, conn) =>
              let fc := { fc with client := some conn, lockDepth := fc.lockDepth - 1 }
              (event, if event.isNone then { fc with famErrno := .connect } else fc)

/-- `FAMPending`: the result; `pending` is the answer of its own `select`. -/
def famPending (fc : FAMConnection) (pending : Int) (answers : ReadAnswers)
    (reconnect : ReconnectAnswers) : Int × FAMConnection :=
  match fc.client with
  | none => (-1, { fc with famErrno := .arg })
  | some conn =>
    let fc := { fc with lockDepth := fc.lockDepth + 1 }
    match gaminDataEventReady conn with
    | (true, conn) => (1, { fc with client := some conn, lockDepth := fc.lockDepth - 1 })
    | (false, conn) =>
      let available : Int := if fc.fd < (0 : Int) then -1 else pending
      if available < 0 then (-1, { fc with client := some conn })
      else
        match if available > 0 then gaminReadData conn answers false else ((0 : Int), conn, []) with
        | (result, conn, bytes) =>
          let conn := if result < 0 then (gaminTryReconnect conn fc.fd reconnect).2.1 else conn
          match gaminDataEventReady conn with
          | (ready, conn) =>
            (if ready then 1 else 0, { fc with
              client := some conn
              lockDepth := fc.lockDepth - 1
              received := fc.received ++ bytes })

end Gamin.Client
