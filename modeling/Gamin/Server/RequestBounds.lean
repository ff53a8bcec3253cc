import Gamin.Server.Reassembly

/-! # The memory that a request is served from

`gam_connection_request` ends the path of a request with a NUL byte in place.  Where the packet is the last
of the buffer and fills it, that byte is behind the buffer.
-/

namespace Gamin.Server

open Gamin Gamin.Library

variable {Server : Type*}

/-! ## What is touched -/

/-- A request that is served: the memory then, and the place of its packet. -/
structure ServedRequest where
  memory : Nat → UInt8
  req : Nat

/-- The requests that the loop of `gam_connection_data` hands to `gam_connection_request`. -/
def servedByLoop (variant : BuildVariant) (handlers : RequestHandlers Server)
    (conn : GamConnData Server) (req : Nat) : List ServedRequest :=
  if conn.requestLen < gamPacketHeaderLen then []
  else if packetLen conn.request req > sizeofGAMPacket then []
  else if packetVersion conn.request req ≠ gamProtoVersion then []
  else if packetType conn.request req ≠ gamReqCancel ∧
      (packetPathlen conn.request req ≤ 0 ∨ packetPathlen conn.request req > maxPathLen) then []
  else if _sizes : packetPathlen conn.request req + gamPacketHeaderLen ≠ packetLen conn.request req then []
  else if _partial : conn.requestLen < packetLen conn.request req then []
  else
    ⟨conn.request, req⟩ ::
      match _served : gamConnectionRequest handlers conn.request req conn.server with
      | (memory, server, result) =>
        let conn' : GamConnData Server := { conn with
          request := memory
          server := server
          requests := conn.requests ++ [packetAt conn.request req] }
        if result < 0 then []
        else if conn.requestLen - packetLen memory req = 0 then []
        else
          match variant with
          | .inPlace =>
            servedByLoop .inPlace handlers
              { conn' with requestLen := conn.requestLen - packetLen memory req } (req + packetLen memory req)
          | .memmove =>
            servedByLoop .memmove handlers
              { conn' with
                requestLen := conn.requestLen - packetLen memory req
                request := move memory 0 (req + packetLen memory req)
                  (conn.requestLen - packetLen memory req) } req
termination_by conn.requestLen
decreasing_by
  all_goals
    have same := gamConnectionRequest_memory handlers conn.request req conn.server
    rw [_served] at same
    simp only at same
    subst same
    simp only [gamPacketHeaderLen] at *
    omega

/-- The requests that are served when a chunk has been read. -/
def servedBy (variant : BuildVariant) (handlers : RequestHandlers Server) (conn : GamConnData Server)
    (chunk : Bytes) : List ServedRequest :=
  if conn.state = .okay ∧ chunk.length ≠ 0 then
    servedByLoop variant handlers
      { conn with
        request := store conn.request conn.requestLen chunk
        requestLen := conn.requestLen + chunk.length } 0
  else []

/-- The bytes of the buffer that `gam_connection_request` reads or writes: the header, and unless the path is
refused, the path and the byte behind it. -/
def requestAccesses (served : ServedRequest) : List Nat :=
  (List.range gamPacketHeaderLen).map (served.req + ·) ++
    if packetPathlen served.memory served.req ≥ maxPathLen then []
    else (List.range (packetPathlen served.memory served.req + 1)).map (packetPath served.req + ·)

/-- All of them are in `conn->request`. -/
def ServedWithin (served : ServedRequest) : Prop := ∀ index ∈ requestAccesses served, index < sizeofGAMPacket

/-- The packet does not reach the end of the buffer, or its path is refused. -/
def EndsBefore (served : ServedRequest) : Prop :=
  packetPathlen served.memory served.req ≥ maxPathLen ∨
    served.req + gamPacketHeaderLen + packetPathlen served.memory served.req < sizeofGAMPacket

/-! ## The loop -/

/-- These are the requests that are logged. -/
theorem servedByLoop_requests (variant : BuildVariant) (handlers : RequestHandlers Server)
    (conn : GamConnData Server) (req : Nat) :
    (gamConnectionDataLoop variant handlers conn req).2.1.requests =
      conn.requests ++ (servedByLoop variant handlers conn req).map
        fun served => packetAt served.memory served.req := by
  fun_induction gamConnectionDataLoop variant handlers conn req with
  | case1 _ conn req header => simp [servedByLoop, header]
  | case2 _ conn req header long => simp [servedByLoop, header, long]
  | case3 _ conn req header long version => simp [servedByLoop, header, long, version]
  | case4 _ conn req header long version path =>
    rw [servedByLoop, if_neg header, if_neg long, if_neg version, if_pos path]
    exact (List.append_nil _).symm
  | case5 _ conn req header long version path sizes =>
    rw [servedByLoop, if_neg header, if_neg long, if_neg version, if_neg path, dif_pos sizes]
    exact (List.append_nil _).symm
  | case6 _ conn req header long version path sizes part =>
    rw [servedByLoop, if_neg header, if_neg long, if_neg version, if_neg path, dif_neg sizes, dif_pos part]
    exact (List.append_nil _).symm
  | case7 _ conn req header long version path sizes part memory server result served conn' refused =>
    rw [servedByLoop, if_neg header, if_neg long, if_neg version, if_neg path, dif_neg sizes, dif_neg part]
    split
    case h_1 same =>
      obtain ⟨rfl, rfl, rfl⟩ := Prod.mk.inj (served.symm.trans same)
      simp [refused, conn']
  | case8 _ conn req header long version path sizes part memory server result served conn' accepted last =>
    rw [servedByLoop, if_neg header, if_neg long, if_neg version, if_neg path, dif_neg sizes, dif_neg part]
    split
    case h_1 same =>
      obtain ⟨rfl, rfl, rfl⟩ := Prod.mk.inj (served.symm.trans same)
      simp [accepted, last, conn']
  | case9 conn req header long version path sizes part memory server result served conn' accepted more
      inductionHypothesis =>
    rw [servedByLoop, if_neg header, if_neg long, if_neg version, if_neg path, dif_neg sizes, dif_neg part,
      inductionHypothesis]
    split
    case h_1 same =>
      obtain ⟨rfl, rfl, rfl⟩ := Prod.mk.inj (served.symm.trans same)
      simp [accepted, more, conn']
  | case10 conn req header long version path sizes part memory server result served conn' accepted more
      inductionHypothesis =>
    rw [servedByLoop, if_neg header, if_neg long, if_neg version, if_neg path, dif_neg sizes, dif_neg part,
      inductionHypothesis]
    split
    case h_1 same =>
      obtain ⟨rfl, rfl, rfl⟩ := Prod.mk.inj (served.symm.trans same)
      simp [accepted, more, conn']

/-- A packet that is served is within the bytes that have been received, and where the rest is moved to the front
it is at the front. -/
theorem servedByLoop_inside (variant : BuildVariant) (handlers : RequestHandlers Server)
    {conn : GamConnData Server} {req : Nat} (fits : req + conn.requestLen ≤ sizeofGAMPacket)
    (front : variant = .memmove → req = 0) :
    ∀ served ∈ servedByLoop variant handlers conn req,
      served.req + gamPacketHeaderLen + packetPathlen served.memory served.req ≤ sizeofGAMPacket ∧
        (variant = .memmove → served.req = 0) := by
  fun_induction servedByLoop variant handlers conn req with
  | case1 | case2 | case3 | case4 | case5 | case6 => exact nofun
  | case7 variant conn req header long version path sizes part inPlace memmove =>
    intro served member
    cases List.mem_cons.mp member with
    | inl here =>
      subst here
      exact ⟨by dsimp only; omega, front⟩
    | inr later =>
      split at later
      case h_1 memory server result same =>
        have kept := gamConnectionRequest_memory handlers conn.request req conn.server
        rw [same] at kept
        dsimp only at kept later
        subst kept
        split at later
        · contradiction
        · split at later
          · contradiction
          case isFalse more =>
            split at later
            · exact inPlace _ server result same more (by dsimp only; omega) nofun served later
            · exact memmove _ server result same more (by dsimp only; omega) front served later

theorem servedBy_inside (variant : BuildVariant) (handlers : RequestHandlers Server)
    {conn : GamConnData Server} {chunk : Bytes} (fits : ReadFits conn chunk) :
    ∀ served ∈ servedBy variant handlers conn chunk,
      served.req + gamPacketHeaderLen + packetPathlen served.memory served.req ≤ sizeofGAMPacket ∧
        (variant = .memmove → served.req = 0) := by
  unfold servedBy
  split
  case isTrue reads =>
    have small := (fits reads.1).2
    refine servedByLoop_inside variant handlers ?_ fun _ => rfl
    simp only [gamConnectionGetDataSize] at small
    dsimp only
    omega
  case isFalse => exact fun _ member => absurd member List.not_mem_nil

/-- A request that has been received is served within the buffer exactly if it does not fill it. -/
theorem servedWithin_iff {served : ServedRequest}
    (inside : served.req + gamPacketHeaderLen + packetPathlen served.memory served.req ≤ sizeofGAMPacket) :
    ServedWithin served ↔ EndsBefore served := by
  unfold ServedWithin EndsBefore requestAccesses
  by_cases refused : packetPathlen served.memory served.req ≥ maxPathLen
  · simp only [if_pos refused, List.append_nil, List.mem_map, List.mem_range]
    refine ⟨fun _ => .inl refused, fun _ index => ?_⟩
    rintro ⟨offset, inHeader, rfl⟩
    omega
  · simp only [if_neg refused, List.mem_append, List.mem_map, List.mem_range, packetPath]
    constructor
    · exact fun within => .inr (within _ (.inr ⟨_, Nat.lt_succ_self _, rfl⟩))
    · rintro (long | short) index isAccess
      · exact absurd long refused
      · obtain ⟨offset, inHeader, rfl⟩ | ⟨offset, inPath, rfl⟩ := isAccess
        · omega
        · omega

/-- Every request of every stream is served within the buffer exactly if its packet does not end where the
buffer does.  Where the rest is moved to the front it always is. -/
theorem requests_served_within (variant : BuildVariant) (handlers : RequestHandlers Server) (server : Server)
    (chunks : List Bytes)
    (fits : Guarded (gamClientConnRead variant handlers) ReadFits (gamConnectionNew server) chunks) :
    Guarded (gamClientConnRead variant handlers)
      (fun conn chunk => ∀ served ∈ servedBy variant handlers conn chunk,
        (ServedWithin served ↔ EndsBefore served) ∧ (variant = .memmove → ServedWithin served))
      (gamConnectionNew server) chunks := by
  refine fits.imp fun conn chunk small served member => ?_
  obtain ⟨inside, front⟩ := servedBy_inside variant handlers small served member
  have exactly := servedWithin_iff inside
  refine ⟨exactly, fun isMemmove => exactly.mpr ?_⟩
  -- the packet is at the front, and a path that would reach the end of the buffer is refused
  have atFront := front isMemmove
  unfold EndsBefore
  simp only [atFront, sizeofGAMPacket]
  omega

theorem splitRequests_served_within :
    Guarded (gamClientConnRead .inPlace subscriptionList)
      (fun conn chunk => ∀ served ∈ servedBy .inPlace subscriptionList conn chunk,
        (ServedWithin served ↔ EndsBefore served) ∧ (BuildVariant.inPlace = .memmove → ServedWithin served))
      (gamConnectionNew []) splitRequests := by
  apply requests_served_within
  refine ⟨fun _ => ?_, fun _ => ?_, fun _ => ?_, trivial⟩ <;> decide +kernel

/-! ## Two packets that fill the buffer -/

/-- A request for a file with a short path, and behind it one whose path is as long as the rest of the buffer. -/
def fullBuffer : Bytes :=
  (GAMPacket.encode { version := gamProtoVersion, seq := 1, type := gamReqFile, path := [47, 97] }) ++
    GAMPacket.encode { version := gamProtoVersion, seq := 2, type := gamReqFile, path := List.replicate 4084 47 }

/-- The byte behind the second path is behind the buffer. -/
theorem not_served_within : ¬ ∀ (variant : BuildVariant) (handlers : RequestHandlers (List (Nat × Bytes)))
    (server : List (Nat × Bytes)) (chunks : List Bytes),
    Guarded (gamClientConnRead variant handlers) ReadFits (gamConnectionNew server) chunks →
    Guarded (gamClientConnRead variant handlers)
      (fun conn chunk => ∀ served ∈ servedBy variant handlers conn chunk, ServedWithin served)
      (gamConnectionNew server) chunks := by
  intro within
  have fits : Guarded (gamClientConnRead .inPlace subscriptionList) ReadFits (gamConnectionNew []) [fullBuffer] :=
    ⟨fun _ => by decide +kernel, trivial⟩
  have served : (servedBy .inPlace subscriptionList (gamConnectionNew []) fullBuffer).map
      (fun served => (served.req, packetPathlen served.memory served.req)) = [(0, 2), (12, 4084)] := by
    decide +kernel
  have second : (12, 4084) ∈ (servedBy .inPlace subscriptionList (gamConnectionNew []) fullBuffer).map
      (fun served => (served.req, packetPathlen served.memory served.req)) := by
    rw [served]
    exact List.mem_cons_of_mem _ List.mem_cons_self
  obtain ⟨last, member, place⟩ := List.mem_map.mp second
  obtain ⟨req, pathlen⟩ := Prod.mk.inj place
  have inside := (within .inPlace subscriptionList [] [fullBuffer] fits).1 last member
  have ends := (servedWithin_iff (by rw [pathlen, req]; decide)).mp inside
  unfold EndsBefore at ends
  rw [pathlen, req] at ends
  revert ends
  decide

end Gamin.Server
