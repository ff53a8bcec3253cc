import Gamin.Client.Api

/-! # Sending requests through the public interface

`gamin_send_request` and the public functions that send: the `FAMMonitor` family,
`FAMCancelMonitor` and `FAMNoExists`.  Every function returns the bytes it has written to
the server.  The debugging interface is not compiled in.
-/

namespace Gamin.Client

open Gamin Gamin.Library

/-- A string of the application, without the NUL byte behind it. -/
structure CString where
  bytes : Bytes
  terminated : 0 ∉ bytes
  deriving DecidableEq

/-- How far the calls of `write` for one packet get, interruptions left out. -/
inductive WriteAnswer where
  | complete
  | failedBehind (bytes : Nat)
  deriving DecidableEq, Repr

/-- `gamin_write_byte`: the result and the bytes that were written. -/
def gaminWriteByte (data : Bytes) : WriteAnswer → Int × Bytes
  | .complete => (0, data)
  | .failedBehind bytes => if bytes < data.length then (-1, data.take bytes) else (0, data)

theorem gaminWriteByte_whole {data : Bytes} {answer : WriteAnswer}
    (whole : (gaminWriteByte data answer).1 = 0) : (gaminWriteByte data answer).2 = data := by
  cases answer with
  | complete => rfl
  | failedBehind bytes =>
    simp only [gaminWriteByte] at whole ⊢
    split at whole
    · contradiction
    · rename_i enough
      rw [if_neg enough]

theorem gaminWriteByte_length (data : Bytes) (answer : WriteAnswer) :
    (gaminWriteByte data answer).2.length ≤ data.length ∧
      ((gaminWriteByte data answer).2.length = data.length → (gaminWriteByte data answer).1 = 0) := by
  cases answer with
  | complete => exact ⟨Nat.le_refl _, fun _ => rfl⟩
  | failedBehind bytes =>
    simp only [gaminWriteByte]
    split
    · rename_i early
      simp only [List.length_take]
      omega
    · exact ⟨Nat.le_refl _, fun _ => rfl⟩

def gaminDataNoExists (conn : GAMData) : GAMData := { conn with noexist := true }

def gaminDataGetExists (conn : GAMData) : Int := if conn.noexist then 0 else 1

/-- What sending a request leads to; `reqnum` is the field of the `FAMRequest`. -/
structure Sending where
  result : Int
  reqnum : Int
  client : GAMData
  famErrno : FAMError
  sent : Bytes

/-- The packet `gamin_send_request` writes; the number is cast to an unsigned short. -/
def requestPacket (type : Nat) (path : Bytes) (reqnum : Int) (existsFlag : Int) : GAMPacket where
  version := gamProtoVersion
  seq := (reqnum % 65536).toNat
  type := if type = gamReqDir ∧ existsFlag = 0 then type ||| gamOptNoexists else type
  path := path

/-- The end of `gamin_send_request`, behind the choice of the request number. -/
def writeRequest (type : Nat) (path : Bytes) (reqnum frReqnum : Int) (data : GAMData)
    (famErrno : FAMError) (written : WriteAnswer) : Sending :=
  match gaminWriteByte (requestPacket type path reqnum (gaminDataGetExists data)).encode written with
  | (result, sent) =>
    { result := result
      reqnum := frReqnum
      client := data
      famErrno := if result < 0 then .connect else famErrno
      sent := sent }

/-- `gamin_send_request`; `reqnum` is the number in the `FAMRequest`. -/
def gaminSendRequest (type : Nat) (filename : Option CString) (reqnum : Int) (userData : Pointer)
    (data : GAMData) (hasReqnum : Bool) (famErrno : FAMError) (memory : Allocation)
    (written : WriteAnswer) : Sending :=
  match filename with
  | none => writeRequest type [] reqnum reqnum data famErrno written
  | some filename =>
    if filename.bytes.length > maxPathLen then ⟨-1, reqnum, data, .file, []⟩
    else if ¬ hasReqnum then
      match gaminDataGetReqnum data filename.bytes type userData memory with
      | (number, data) =>
        if number < 0 then ⟨-1, reqnum, data, .arg, []⟩
        else writeRequest type filename.bytes number number data famErrno written
    else
      match gaminDataGetRequest data filename.bytes type userData reqnum memory with
      | (number, data) =>
        if number < 0 then ⟨-1, reqnum, data, .mem, []⟩
        else writeRequest type filename.bytes number reqnum data famErrno written

/-! ## The public functions

A NULL pointer for the name or the request is `none`.  They return the result, the number
in the `FAMRequest`, the connection, and the bytes written.
-/

/-- What the functions of the `FAMMonitor` family have in common. -/
def famMonitor (type : Nat) (hasReqnum : Bool) (fc : FAMConnection) (filename : Option CString)
    (request : Option Int) (userData : Pointer) (memory : Allocation) (written : WriteAnswer) :
    Int × Option Int × FAMConnection × Bytes :=
  match filename, request with
  | some filename, some reqnum =>
    if filename.bytes[0]? ≠ some 47 ∨ filename.bytes.length ≥ maxPathLen then
      (-1, request, { fc with famErrno := .file }, [])
    else
      match fc.client with
      | none => (-1, request, { fc with famErrno := .arg }, [])
      | some conn =>
        if fc.fd < 0 then (-1, request, { fc with famErrno := .arg }, [])
        else
          let fc := { fc with lockDepth := fc.lockDepth + 1 }
          let sending :=
            gaminSendRequest type (some filename) reqnum userData conn hasReqnum fc.famErrno memory written
          (sending.result, some sending.reqnum,
            { fc with
              client := some sending.client
              famErrno := sending.famErrno
              lockDepth := fc.lockDepth - 1 },
            sending.sent)
  | _, _ => (-1, request, { fc with famErrno := .arg }, [])

def famMonitorDirectory := famMonitor gamReqDir false

def famMonitorFile := famMonitor gamReqFile false

def famMonitorDirectory2 (fc : FAMConnection) (filename : Option CString) (request : Option Int)
    (memory : Allocation) (written : WriteAnswer) :=
  famMonitor gamReqDir true fc filename request 0 memory written

def famMonitorFile2 (fc : FAMConnection) (filename : Option CString) (request : Option Int)
    (memory : Allocation) (written : WriteAnswer) :=
  famMonitor gamReqFile true fc filename request 0 memory written

/-- `FAMCancelMonitor`. -/
def famCancelMonitor (fc : FAMConnection) (request : Option Int) (written : WriteAnswer) :
    Int × FAMConnection × Bytes :=
  match request, fc.client with
  | some reqnum, some conn =>
    if fc.fd < 0 then (-1, { fc with famErrno := .arg }, [])
    else
      let fc := { fc with lockDepth := fc.lockDepth + 1 }
      match gaminDataCancel conn reqnum with
      | (result, conn) =>
        if result < 0 then
          (-1, { fc with client := some conn, famErrno := .arg, lockDepth := fc.lockDepth - 1 }, [])
        else
          let sending := gaminSendRequest gamReqCancel none reqnum 0 conn false fc.famErrno
            ⟨true, true, true⟩ written
          (sending.result,
            { fc with
              client := some sending.client
              famErrno := if sending.result ≠ 0 then .connect else sending.famErrno
              lockDepth := fc.lockDepth - 1 },
            sending.sent)
  | _, _ => (-1, { fc with famErrno := .arg }, [])

/-- `FAMNoExists`; it takes the lock before it looks at the pointer to the data, so there
is no result when that is NULL. -/
def famNoExists (fc : FAMConnection) : Option (Int × FAMConnection) :=
  match fc.client with
  | none => none
  | some conn =>
    let fc := { fc with lockDepth := fc.lockDepth + 1 }
    some (0, { fc with client := some (gaminDataNoExists conn), lockDepth := fc.lockDepth - 1 })

/-! ## Calls of the public functions

All of them but `FAMClose`, with the answers of the system calls they make.
-/

inductive ApiCall where
  | monitorDirectory (filename : Option CString) (request : Option Int) (userData : Pointer)
      (memory : Allocation) (written : WriteAnswer)
  | monitorFile (filename : Option CString) (request : Option Int) (userData : Pointer)
      (memory : Allocation) (written : WriteAnswer)
  | monitorDirectory2 (filename : Option CString) (request : Option Int) (memory : Allocation)
      (written : WriteAnswer)
  | monitorFile2 (filename : Option CString) (request : Option Int) (memory : Allocation)
      (written : WriteAnswer)
  | nextEvent (answers : ReadAnswers) (reconnect : ReconnectAnswers)
  | pending (available : Int) (answers : ReadAnswers) (reconnect : ReconnectAnswers)
  | cancelMonitor (request : Option Int) (written : WriteAnswer)
  | noExists
  deriving DecidableEq

/-- The connection after a call, if the call returns. -/
def apiStep (fc : FAMConnection) : ApiCall → Option FAMConnection
  | .monitorDirectory filename request userData memory written =>
    some (famMonitorDirectory fc filename request userData memory written).2.2.1
  | .monitorFile filename request userData memory written =>
    some (famMonitorFile fc filename request userData memory written).2.2.1
  | .monitorDirectory2 filename request memory written =>
    some (famMonitorDirectory2 fc filename request memory written).2.2.1
  | .monitorFile2 filename request memory written =>
    some (famMonitorFile2 fc filename request memory written).2.2.1
  | .nextEvent answers reconnect => some (famNextEvent fc answers reconnect).2
  | .pending available answers reconnect => some (famPending fc available answers reconnect).2
  | .cancelMonitor request written => some (famCancelMonitor fc request written).2.1
  | .noExists => (famNoExists fc).map (·.2)

/-- A connection as `FAMOpen` leaves it. -/
def openedConnection : FAMConnection where
  fd := 3
  client := some gaminDataNew
  famErrno := .ok
  lockDepth := 0
  received := []

/-- A property of the data behind the connection, if there are any. -/
def OfClient (property : GAMData → Prop) (fc : FAMConnection) : Prop :=
  ∀ conn, fc.client = some conn → property conn

theorem OfClient.of_some {property : GAMData → Prop} {fc : FAMConnection} {conn : GAMData}
    (client : fc.client = some conn) (holds : property conn) : OfClient property fc := by
  intro other same
  cases client.symm.trans same
  exact holds

end Gamin.Client
