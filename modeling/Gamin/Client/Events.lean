import Gamin.Client.Requests

/-! # Receiving events

The part of `gam_data.c` that decodes the packets of the server and hands one event at a
time to the application.  The buffer `conn->event` is the memory from address 0 on: it
holds the packet that is being read and the bytes received behind it.
-/

namespace Gamin.Client

open Gamin Gamin.Library

/-- `FAMEvent`, without the connection pointer and the host name, which is always NULL. -/
structure FAMEvent where
  reqnum : Int
  filename : Bytes
  userdata : Pointer
  code : Nat
  deriving DecidableEq, Repr

/-- `gamin_data_read_event`; the event is `none` on an error. -/
def gaminDataReadEvent (conn : GAMData) : Option FAMEvent × GAMData :=
  if ¬ conn.evnReady then (none, conn)
  else
    let event : FAMEvent :=
      { reqnum := conn.evnReqnum
        filename := (window conn.event (packetPath 0) (packetPathlen conn.event 0)).takeWhile (· ≠ 0)
        userdata := conn.evnUserdata
        code := packetType conn.event 0 }
    let conn :=
      { conn with evnReady := false, evnRead := conn.evnRead - packetLen conn.event 0 }
    let conn :=
      if event.code = famAcknowledge then (gaminDataDelReq conn (packetSeq conn.event 0)).2 else conn
    if conn.evnRead > 0 then
      (some event, { conn with
        event := move conn.event 0 (packetPath 0 + packetPathlen conn.event 0) conn.evnRead.toNat })
    else (some event, conn)

/-- The size `gamin_data_get_data` reports; the data go behind the bytes that are there. -/
def gaminDataGetDataSize (conn : GAMData) : Int := sizeofGAMPacket - conn.evnRead

/-- `gamin_data_conn_event` for the packet at the front of the buffer. -/
def gaminDataConnEvent (conn : GAMData) : Int × GAMData :=
  let seq : Int := packetSeq conn.event 0
  let type := packetType conn.event 0
  match gaminDataGetReq conn seq with
  | none => (0, conn)
  | some req =>
    if req.state = .reqNone ∨ req.state = .reqSuspended then (0, conn)
    else if req.state = .reqCancelled ∧ type ≠ famAcknowledge then (0, conn)
    else
      let conn :=
        if req.state = .reqInit then
          { conn with reqTab :=
              conn.reqTab.set (gaminDataGetReqIdx conn seq).toNat { req with state := .reqConfirmed } }
        else conn
      let conn :=
        if conn.restarted ∧ (type = famCreated ∨ type = famMoved ∨ type = famChanged) then
          { conn with restarted := false }
        else conn
      if conn.restarted then
        (0, if type = famEndExist then { conn with restarted := false } else conn)
      else
        (1, { conn with evnReady := true, evnReqnum := seq, evnUserdata := req.userData })

def gaminDataDoneAuth (conn : GAMData) : GAMData := { conn with auth := 1 }

/-- `gamin_data_need_auth`. -/
def gaminDataNeedAuth (conn : GAMData) : Int :=
  if conn.auth = 1 then 0 else if conn.auth = 0 then 1 else -1

theorem gaminDataConnEvent_evnRead (conn : GAMData) :
    (gaminDataConnEvent conn).2.evnRead = conn.evnRead := by
  unfold gaminDataConnEvent
  grind

/-- The loop of `gamin_data_conn_data`. -/
def gaminDataConnDataLoop (conn : GAMData) : Int × GAMData :=
  if conn.evnRead < gamPacketHeaderLen then (0, conn)
  else if packetLen conn.event 0 > sizeofGAMPacket then (-1, conn)
  else if packetVersion conn.event 0 ≠ gamProtoVersion then (-1, conn)
  else if packetPathlen conn.event 0 ≤ 0 ∨ packetPathlen conn.event 0 > maxPathLen then (-1, conn)
  else if _sizes : packetPathlen conn.event 0 + gamPacketHeaderLen ≠ packetLen conn.event 0 then (-1, conn)
  else if _partial : conn.evnRead < packetLen conn.event 0 then (0, conn)
  else
    match _decided : gaminDataConnEvent conn with
    | (result, conn') =>
      if result < 0 then (-1, conn')
      else if conn'.evnReady then (0, conn')
      else if conn'.evnRead - packetLen conn.event 0 = 0 then (0, { conn' with evnRead := 0 })
      else
        gaminDataConnDataLoop { conn' with
          evnRead := conn'.evnRead - packetLen conn.event 0
          event := move conn'.event 0 (packetPath 0 + packetPathlen conn'.event 0)
            (conn'.evnRead - packetLen conn.event 0).toNat }
termination_by conn.evnRead.toNat
decreasing_by
  have same := gaminDataConnEvent_evnRead conn
  rw [_decided] at same
  simp only [gamPacketHeaderLen] at *
  omega

/-- What has nothing to do with the buffer is kept by the loop if it is kept where a packet is decided. -/
theorem gaminDataConnDataLoop_keeps {property : GAMData → Prop}
    (moved : ∀ {conn} evnRead event, property conn → property { conn with evnRead := evnRead, event := event })
    (decides : ∀ {conn}, property conn → property (gaminDataConnEvent conn).2) {conn : GAMData}
    (holds : property conn) : property (gaminDataConnDataLoop conn).2 := by
  fun_induction gaminDataConnDataLoop conn with
  | case1 | case2 | case3 | case4 | case5 | case6 => exact holds
  | case7 conn _ _ _ _ _ _ result after decided | case8 conn _ _ _ _ _ _ result after decided =>
    have kept := decides holds
    rwa [decided] at kept
  | case9 conn _ _ _ _ _ _ result after decided =>
    have kept := decides holds
    rw [decided] at kept
    exact moved 0 after.event kept
  | case10 conn _ _ _ _ _ _ result after decided _ _ _ inductionHypothesis =>
    have kept := decides holds
    rw [decided] at kept
    exact inductionHypothesis (moved _ _ kept)

/-- `gamin_data_conn_data` after `len` more bytes have been read into the buffer. -/
def gaminDataConnData (conn : GAMData) (len : Int) : Int × GAMData :=
  if len < 0 ∨ conn.evnRead < 0 then (-1, conn)
  else if len + conn.evnRead > sizeofGAMPacket then (-1, conn)
  else gaminDataConnDataLoop { conn with evnRead := conn.evnRead + len }

/-- `gamin_data_event_ready`. -/
def gaminDataEventReady (conn : GAMData) : Bool × GAMData :=
  if conn.evnReady then (true, conn)
  else
    let conn := if conn.evnRead ≠ 0 then (gaminDataConnData conn 0).2 else conn
    (conn.evnReady, conn)

end Gamin.Client
