import Gamin.Protocol
import Mathlib.Data.Int.Basic

/-! # The request table of a client connection

The part of `gam_data.c` that keeps `req_tab`, the array of the requests registered on
one connection.  The live part of the array is a list; an address handed over by the
application is a number.  `malloc`, `realloc` and `strdup` may fail, so every operation
that allocates is given their answers.

The indices of the searches are not wrapped around.  `Gamin.Client.RequestArray` keeps the array itself and
shows that nothing changes up to `2 ^ 30` entries, which take some forty gigabytes in the client; what is
said of longer lists elsewhere is about lists alone.
-/

namespace Gamin.Client

open Gamin

/-- `GAMReqState`. -/
inductive GAMReqState where
  | reqNone
  | reqInit
  | reqConfirmed
  | reqSuspended
  | reqCancelled
  deriving DecidableEq, Repr

/-- `GAMReqData`.  The filename is NULL when `strdup` failed. -/
structure GAMReqData where
  reqno : Int
  state : GAMReqState
  type : Nat
  filename : Option Bytes
  userData : Pointer
  deriving DecidableEq, Repr

/-- `GAMData`.  `reqTab` is the live part of the array, so `req_nr` is its length;
`reqTabAllocated` says that the array pointer is not NULL. -/
structure GAMData where
  reqno : Int
  auth : Int
  restarted : Bool
  noexist : Bool
  evnReady : Bool
  evnRead : Int
  event : Nat → UInt8
  evnReqnum : Int
  evnUserdata : Pointer
  reqMax : Nat
  reqTabAllocated : Bool
  reqTab : List GAMReqData

/-- The answers of the allocator to one request: is there memory for the array, for the
entry, and for the copy of the filename? -/
structure Allocation where
  reqTab : Bool
  request : Bool
  filename : Bool
  deriving DecidableEq, Repr

/-- A signed 32-bit result, wrapped around. -/
def wrapInt (number : Int) : Int := number.bmod 4294967296

def gaminDataNew : GAMData where
  reqno := 1
  auth := 0
  restarted := false
  noexist := false
  evnReady := false
  evnRead := 0
  event := fun _ => 0
  evnReqnum := 0
  evnUserdata := 0
  reqMax := 0
  reqTabAllocated := false
  reqTab := []

/-! ## The two binary searches -/

/-- The loop of `gamin_data_get_req_loc` and the comparison behind it. -/
def gaminDataGetReqLocLoop (reqTab : List GAMReqData) (reqno min max : Int) : Int :=
  if min < max then
    let cur := (max + min) / 2
    match reqTab[cur.toNat]? with
    | none => -1
    | some req =>
      if req.reqno = reqno then -1
      else if req.reqno < reqno then gaminDataGetReqLocLoop reqTab reqno (cur + 1) max
      else gaminDataGetReqLocLoop reqTab reqno min (cur - 1)
  else
    match reqTab[min.toNat]? with
    | none => -1
    | some req => if reqno > req.reqno then min + 1 else min
termination_by (max - min).toNat
decreasing_by all_goals omega

def gaminDataGetReqLoc (conn : GAMData) (reqno : Int) : Int :=
  if conn.reqTab.length = 0 then 0
  else gaminDataGetReqLocLoop conn.reqTab reqno 0 (conn.reqTab.length - 1)

/-- The loop of `gamin_data_get_req_idx`. -/
def gaminDataGetReqIdxLoop (reqTab : List GAMReqData) (reqno min max : Int) : Int :=
  if min ≤ max then
    let cur := (max + min) / 2
    match reqTab[cur.toNat]? with
    | none => -1
    | some req =>
      if req.reqno = reqno then cur
      else if req.reqno < reqno then gaminDataGetReqIdxLoop reqTab reqno (cur + 1) max
      else gaminDataGetReqIdxLoop reqTab reqno min (cur - 1)
  else -1
termination_by (max + 1 - min).toNat
decreasing_by all_goals omega

def gaminDataGetReqIdx (conn : GAMData) (reqno : Int) : Int :=
  gaminDataGetReqIdxLoop conn.reqTab reqno 0 (conn.reqTab.length - 1)

def gaminDataGetReq (conn : GAMData) (reqno : Int) : Option GAMReqData :=
  let idx := gaminDataGetReqIdx conn reqno
  if idx < 0 then none else conn.reqTab[idx.toNat]?

/-! ## Adding, cancelling and deleting requests -/

/-- `gamin_allocate_request`: makes room for one more entry; `false` stands for NULL. -/
def gaminAllocateRequest (conn : GAMData) (memory : Allocation) : Bool × GAMData :=
  if ¬ conn.reqTabAllocated then
    let conn := { conn with reqMax := 10, reqTab := [] }
    if ¬ memory.reqTab then (false, conn)
    else (memory.request, { conn with reqTabAllocated := true })
  else if conn.reqTab.length = conn.reqMax then
    if ¬ memory.reqTab then (false, conn)
    else (memory.request, { conn with reqMax := conn.reqMax * 2 })
  else if conn.reqTab.length > conn.reqMax then
    (false, { conn with reqTab := conn.reqTab.take conn.reqMax })
  else (memory.request, conn)

/-- The entry both functions below fill in. -/
def newRequest (filename : Bytes) (type : Nat) (userData : Pointer) (reqno : Int)
    (memory : Allocation) : GAMReqData where
  reqno := reqno
  state := .reqInit
  type := type
  filename := if memory.filename then some filename else none
  userData := userData

def gaminDataAddReq2 (conn : GAMData) (filename : Bytes) (type : Nat) (userData : Pointer)
    (reqno : Int) (memory : Allocation) : Option GAMReqData × GAMData :=
  let idx := gaminDataGetReqLoc conn reqno
  if idx < 0 then (none, conn)
  else if (conn.reqTab[idx.toNat]?).any (·.reqno = reqno) then (none, conn)
  else
    match gaminAllocateRequest conn memory with
    | (false, conn) => (none, conn)
    | (true, conn) =>
      let req := newRequest filename type userData reqno memory
      let idx := if (conn.reqTab[idx.toNat]?).any (·.reqno < reqno) then idx + 1 else idx
      (some req, { conn with reqTab := conn.reqTab.take idx.toNat ++ req :: conn.reqTab.drop idx.toNat })

def gaminDataAddReq (conn : GAMData) (filename : Bytes) (type : Nat) (userData : Pointer)
    (memory : Allocation) : Option GAMReqData × GAMData :=
  match gaminAllocateRequest conn memory with
  | (false, conn) => (none, conn)
  | (true, conn) =>
    let req := newRequest filename type userData conn.reqno memory
    (some req, { conn with reqno := wrapInt (conn.reqno + 1), reqTab := conn.reqTab ++ [req] })

def gaminDataDelReq (conn : GAMData) (reqno : Int) : Int × GAMData :=
  let idx := gaminDataGetReqIdx conn reqno
  if idx < 0 then (-1, conn)
  else (0, { conn with reqTab := conn.reqTab.eraseIdx idx.toNat })

def gaminDataCancel (conn : GAMData) (reqno : Int) : Int × GAMData :=
  let idx := gaminDataGetReqIdx conn reqno
  if idx < 0 then (-1, conn)
  else
    match conn.reqTab[idx.toNat]? with
    | none => (-1, conn)
    | some data =>
      if data.state = .reqCancelled then (0, conn)
      else (1, { conn with reqTab := conn.reqTab.set idx.toNat { data with state := .reqCancelled } })

def gaminDataGetReqnum (conn : GAMData) (filename : Bytes) (type : Nat) (userData : Pointer)
    (memory : Allocation) : Int × GAMData :=
  match gaminDataAddReq conn filename type userData memory with
  | (none, conn) => (-1, conn)
  | (some req, conn) => (req.reqno, conn)

def gaminDataGetRequest (conn : GAMData) (filename : Bytes) (type : Nat) (userData : Pointer)
    (reqno : Int) (memory : Allocation) : Int × GAMData :=
  match gaminDataAddReq2 conn filename type userData reqno memory with
  | (none, conn) => (-1, conn)
  | (some req, conn) => (req.reqno, conn)

/-- `gamin_data_reset`: the array of requests to register again, and the connection. -/
def gaminDataReset (conn : GAMData) : List GAMReqData × GAMData :=
  (conn.reqTab, { conn with
    auth := 0, reqno := 1, restarted := true, evnReady := false, evnRead := 0 })

end Gamin.Client
