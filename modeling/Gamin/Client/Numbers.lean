import Gamin.Client.Reading
import Gamin.Client.RequestOrder
import Gamin.Client.Reconnect
import Gamin.Client.Delivery
import Gamin.Server.EventQueue
import Gamin.Server.Reassembly
import Mathlib.Data.List.TakeWhile

/-! # Request numbers on the wire

A request number is an int in the table of the client and an unsigned short in every
packet.  As long as the numbers are below 65536, and each one drawn from the counter is
ahead of the table, the server decodes the request that was sent, and an event that echoes
its number leads back to it.
-/

namespace Gamin.Client

open Gamin Gamin.Library Gamin.Server

/-! ## What should hold -/

/-- The number of a request as the server reads it. -/
def wireNumber (reqno : Int) : Nat := (reqno % 65536).toNat

/-- The requests that were accepted; a negative number is refused when it is in the table. -/
def acceptedRequests (conn : GAMData) : List GAMReqData := conn.reqTab.filter fun req => 0 ≤ req.reqno

/-- An event or an Acknowledge of the server leads to the request it is about, and no two
requests share a number on the wire. -/
structure WireFaithful (conn : GAMData) : Prop where
  events : ∀ req ∈ acceptedRequests conn, ∀ event path packet,
    gamSendEvent (wireNumber req.reqno) event path = some packet →
      gaminDataGetReq conn packet.seq = some req
  acknowledge : ∀ req ∈ acceptedRequests conn, ∀ path packet,
    gamSendAck (wireNumber req.reqno) path = some packet → gaminDataGetReq conn packet.seq = some req
  distinct : ((acceptedRequests conn).map fun req => wireNumber req.reqno).Nodup

/-- However the bytes are cut into reads, an idle connection of the server adds just this
subscription. -/
def ServerRegisters (bytes path : Bytes) (number : Nat) (isDir : Bool) (options : Nat) : Prop :=
  ∀ (Server : Type) (variant : BuildVariant) (handlers : RequestHandlers Server)
    (conn : GamConnData Server) (chunks : List Bytes), conn.state = .okay → conn.requestLen = 0 →
    chunks.flatten = bytes → Guarded (gamClientConnRead variant handlers) ReadFits conn chunks →
      (run (gamClientConnRead variant handlers) conn chunks).server =
          handlers.addSubscription conn.server path number isDir options ∧
        (run (gamClientConnRead variant handlers) conn chunks).state = .okay ∧
        (run (gamClientConnRead variant handlers) conn chunks).requestLen = 0

/-- A call of the `FAMMonitor` family that succeeds: the server decodes the number, kind,
options and path of the request that is now in the table. -/
def DecodedAsSent (directory : Bool) (userData : Pointer) (memory : Allocation) (noexist : Bool)
    (filename : Option CString) (outcome : Int × Option Int × FAMConnection × Bytes) : Prop :=
  outcome.1 = 0 → ∃ name conn, ∃ number : Nat, filename = some name ∧ outcome.2.1 = some (number : Int) ∧
    outcome.2.2.1.client = some conn ∧
    newRequest name.bytes (if directory then gamReqDir else gamReqFile) userData number memory ∈ conn.reqTab ∧
    ServerRegisters outcome.2.2.2 name.bytes number directory
      (if directory ∧ noexist then gamOptNoexists else 0)

/-! ## From the client to the server -/

/-- The packet of an accepted monitor request, decoded by the server. -/
theorem requestPacket_registers {name : CString} {reqnum : Int} (directory noexist : Bool)
    (absolute : name.bytes[0]? = some 47) (short : name.bytes.length < maxPathLen)
    (positive : 0 ≤ reqnum) (small : reqnum < 65536) :
    ServerRegisters
      (requestPacket (if directory then gamReqDir else gamReqFile) name.bytes reqnum
        (if noexist then 0 else 1)).encode
      name.bytes reqnum.toNat directory (if directory ∧ noexist then gamOptNoexists else 0) := by
  intro Server variant handlers conn chunks okay empty whole fits
  obtain ⟨packet, same⟩ : ∃ packet, packet =
      requestPacket (if directory then gamReqDir else gamReqFile) name.bytes reqnum
        (if noexist then 0 else 1) := ⟨_, rfl⟩
  have nonempty : 0 < name.bytes.length := (List.getElem?_eq_some_iff.mp absolute).1
  have seq : packet.seq = reqnum.toNat := by
    rw [same]
    simp only [requestPacket]
    omega
  have path : packet.path = name.bytes := by rw [same]; rfl
  have masks : packet.type < 65536 ∧ packet.type &&& 0xF = (if directory then gamReqDir else gamReqFile) ∧
      packet.type &&& 0xFFF0 = (if directory ∧ noexist then gamOptNoexists else 0) := by
    rw [same]
    simp only [requestPacket]
    cases directory <;> cases noexist <;> decide
  obtain ⟨typeFits, kind, options⟩ := masks
  have wellFormed : packet.WellFormed (· == gamReqCancel) :=
    { version := by rw [same]; rfl
      seq := by rw [seq]; omega
      type := typeFits
      path := .inr (by rw [path]; exact nonempty)
      short := by rw [path]; exact short.le }
  have string : packet.path.takeWhile (· ≠ 0) = name.bytes := by
    rw [path, List.takeWhile_eq_self_iff]
    intro byte member
    rw [decide_eq_true_eq]
    rintro rfl
    exact name.terminated member
  have served : serveRequest handlers conn.server packet =
      (handlers.addSubscription conn.server name.bytes reqnum.toNat directory
        (if directory ∧ noexist then gamOptNoexists else 0), true) := by
    have fitsPath : ¬ packet.path.length ≥ maxPathLen := by
      rw [path]
      omega
    simp only [serveRequest, if_neg fitsPath, kind, options, string, seq]
    cases directory <;> rfl
  -- the decoder of the connection before and behind the chunks
  have start : connectionDecoder conn = .waiting (conn.requests, conn.server) [] := by
    rw [connectionDecoder, if_pos okay, empty, window_zero]
  have fed := connectionDecoder_fed fits
  have scanned := scanPacket_encode wellFormed []
  rw [List.append_nil] at scanned
  have consumed : consumeRequest handlers (conn.requests, conn.server) packet =
      ((conn.requests ++ [packet], handlers.addSubscription conn.server name.bytes reqnum.toNat directory
        (if directory ∧ noexist then gamOptNoexists else 0)), true) := by
    simp only [consumeRequest, served]
  have decoded : requestFraming.drain (consumeRequest handlers) (conn.requests, conn.server) packet.encode =
      .waiting (conn.requests ++ [packet], handlers.addSubscription conn.server name.bytes reqnum.toNat
        directory (if directory ∧ noexist then gamOptNoexists else 0)) [] := by
    rw [Framing.drain_accepted scanned consumed, List.drop_length]
    exact Framing.drain_nil
  rw [start, Framing.feed_chunks, whole, ← same, decoded, connectionDecoder] at fed
  split at fed
  · rename_i stillOkay
    simp only [Decoder.waiting.injEq, Prod.mk.injEq] at fed
    refine ⟨fed.1.2, stillOkay, ?_⟩
    have length := congrArg List.length fed.2
    rwa [window_length] at length
  · contradiction

/-! ## The table under the public functions -/

/-- The functions that read events only take requests off the table. -/
structure Shrinks (before after : GAMData) : Prop where
  reqnos : (reqnos after.reqTab).Sublist (reqnos before.reqTab)
  allocated : after.reqTabAllocated = before.reqTabAllocated

theorem Shrinks.refl (conn : GAMData) : Shrinks conn conn := ⟨List.Sublist.refl _, rfl⟩

/-- An operation that leaves the table alone. -/
theorem Shrinks.of_same {before after : GAMData} (reqTab : after.reqTab = before.reqTab)
    (allocated : after.reqTabAllocated = before.reqTabAllocated) : Shrinks before after :=
  ⟨by rw [reqTab], allocated⟩

theorem gaminDataConnEvent_shrinks (conn : GAMData) : Shrinks conn (gaminDataConnEvent conn).2 := by
  obtain ⟨_, _, _, _, entries⟩ := gaminDataConnEvent_frame conn
  constructor
  · rw [reqnos_entries, reqnos_entries, entries]
  · unfold gaminDataConnEvent
    simp only
    repeat' split
    all_goals rfl

theorem gaminDataDelReq_shrinks (conn : GAMData) (reqno : Int) :
    Shrinks conn (gaminDataDelReq conn reqno).2 := by
  simp only [gaminDataDelReq]
  split
  · exact .refl _
  · exact ⟨(List.eraseIdx_sublist _ _).map _, rfl⟩

/-! ## Numbers that fit -/

/-- The table is sorted, and every number fits a packet. -/
structure NumbersFit (conn : GAMData) : Prop where
  sorted : TableSorted conn
  present : ArrayPresent conn
  small : ∀ reqno ∈ reqnos conn.reqTab, reqno < 65536

theorem NumbersFit.shrinks {before after : GAMData} (fit : NumbersFit before)
    (shrunk : Shrinks before after) : NumbersFit after where
  sorted := List.Pairwise.sublist shrunk.reqnos fit.sorted
  present := by
    intro missing
    have none := fit.present (shrunk.allocated.symm.trans missing)
    have sublist := shrunk.reqnos
    rw [none] at sublist
    simpa [reqnos] using sublist
  small := fun reqno member => fit.small reqno (shrunk.reqnos.subset member)

theorem NumbersFit.reading : ReadingKeeps NumbersFit where
  same := fun fit reqTab allocated => fit.shrinks (.of_same reqTab allocated)
  connEvent := fun conn fit => fit.shrinks (gaminDataConnEvent_shrinks conn)
  delReq := fun conn reqno fit => fit.shrinks (gaminDataDelReq_shrinks conn reqno)

/-- What fits leads back to its request. -/
theorem NumbersFit.wireFaithful {conn : GAMData} (fit : NumbersFit conn) : WireFaithful conn := by
  have own (req : GAMReqData) (accepted : req ∈ acceptedRequests conn) :
      ((wireNumber req.reqno : Nat) : Int) = req.reqno ∧ wireNumber req.reqno < 65536 := by
    obtain ⟨member, positive⟩ := List.mem_filter.mp accepted
    have small := fit.small req.reqno (List.mem_map_of_mem member)
    simp only [decide_eq_true_eq] at positive
    simp only [wireNumber]
    omega
  have found (req : GAMReqData) (accepted : req ∈ acceptedRequests conn) (packet : GAMPacket)
      (seq : packet.seq = wireNumber req.reqno % 65536) : gaminDataGetReq conn packet.seq = some req := by
    obtain ⟨same, short⟩ := own req accepted
    rw [getReq_eq_some_iff fit.sorted]
    exact ⟨(List.mem_filter.mp accepted).1, by rw [seq, Nat.mod_eq_of_lt short, same]⟩
  refine ⟨?_, ?_, ?_⟩
  · intro req accepted event path packet sent
    exact found req accepted packet (gamSendEvent_seq sent)
  · intro req accepted path packet sent
    exact found req accepted packet (gamSendAck_seq sent)
  · -- the numbers on the wire are those of the table, which increase
    have increasing : (acceptedRequests conn).Pairwise fun first second => first.reqno < second.reqno :=
      List.Pairwise.sublist List.filter_sublist (List.pairwise_map.mp fit.sorted)
    apply List.pairwise_map.mpr
    apply increasing.imp_of_mem
    intro first second firstMember secondMember less
    have firstOwn := (own first firstMember).1
    have secondOwn := (own second secondMember).1
    omega

/-- What `gamin_data_get_reqnum` does to the table. -/
theorem gaminDataAddReq_table {conn : GAMData} (present : ArrayPresent conn) (filename : Bytes)
    (type : Nat) (userData : Pointer) (memory : Allocation) :
    (gaminDataAddReq conn filename type userData memory).1 = none ∧
        (∃ count, (gaminDataAddReq conn filename type userData memory).2.reqTab = conn.reqTab.take count) ∨
      EntryGranted conn memory ∧
        (gaminDataAddReq conn filename type userData memory).1 =
          some (newRequest filename type userData conn.reqno memory) ∧
        (gaminDataAddReq conn filename type userData memory).2.reqTab =
          conn.reqTab ++ [newRequest filename type userData conn.reqno memory] := by
  unfold gaminDataAddReq
  cases answer : gaminAllocateRequest conn memory with
  | mk granted after =>
    cases granted with
    | false =>
      obtain ⟨count, taken⟩ := gaminAllocateRequest_prefix conn memory
      rw [answer] at taken
      exact .inl ⟨rfl, count, taken⟩
    | true =>
      obtain ⟨table, counter⟩ := gaminAllocateRequest_granted present answer
      refine .inr ⟨(gaminAllocateRequest_true_iff conn memory).mp (by rw [answer]), ?_, ?_⟩
      · simp only [counter]
      · simp only [counter, table]

theorem gaminDataAddReq2_table {conn : GAMData} (present : ArrayPresent conn) (filename : Bytes)
    (type : Nat) (userData : Pointer) (reqno : Int) (memory : Allocation) :
    (gaminDataAddReq2 conn filename type userData reqno memory).1 = none ∧
        (∃ count, (gaminDataAddReq2 conn filename type userData reqno memory).2.reqTab =
          conn.reqTab.take count) ∨
      (gaminDataAddReq2 conn filename type userData reqno memory).1 =
          some (newRequest filename type userData reqno memory) ∧
        ∃ index, (gaminDataAddReq2 conn filename type userData reqno memory).2.reqTab =
          conn.reqTab.take index ++ newRequest filename type userData reqno memory :: conn.reqTab.drop index := by
  have untouched : conn.reqTab = conn.reqTab.take conn.reqTab.length := by simp
  unfold gaminDataAddReq2
  simp only
  split
  · exact .inl ⟨rfl, _, untouched⟩
  split
  · exact .inl ⟨rfl, _, untouched⟩
  cases answer : gaminAllocateRequest conn memory with
  | mk granted after =>
    cases granted with
    | false =>
      obtain ⟨count, taken⟩ := gaminAllocateRequest_prefix conn memory
      rw [answer] at taken
      exact .inl ⟨rfl, count, taken⟩
    | true =>
      obtain ⟨table, _⟩ := gaminAllocateRequest_granted present answer
      rw [← table]
      exact .inr ⟨rfl, _, rfl⟩

theorem gaminDataGetReqnum_data (conn : GAMData) (filename : Bytes) (type : Nat) (userData : Pointer)
    (memory : Allocation) : (gaminDataGetReqnum conn filename type userData memory).2 =
      (gaminDataAddReq conn filename type userData memory).2 := by
  unfold gaminDataGetReqnum
  split <;> simp_all

theorem gaminDataGetRequest_data (conn : GAMData) (filename : Bytes) (type : Nat) (userData : Pointer)
    (reqno : Int) (memory : Allocation) : (gaminDataGetRequest conn filename type userData reqno memory).2 =
      (gaminDataAddReq2 conn filename type userData reqno memory).2 := by
  unfold gaminDataGetRequest
  split <;> simp_all

theorem gaminDataGetReqnum_fit {conn : GAMData} (fit : NumbersFit conn) (filename : Bytes) (type : Nat)
    (userData : Pointer) (memory : Allocation)
    (guard : EntryGranted conn memory → CounterAhead conn ∧ conn.reqno < 65536) :
    NumbersFit (gaminDataGetReqnum conn filename type userData memory).2 := by
  have same := gaminDataGetReqnum_data conn filename type userData memory
  have sorted := (gaminDataAddReq_sorted_iff fit.present fit.sorted filename type userData memory).mpr
    fun granted => (guard granted).1
  refine ⟨same ▸ sorted, same ▸ gaminDataAddReq_present fit.present _ _ _ _, ?_⟩
  rw [same]
  rcases gaminDataAddReq_table fit.present filename type userData memory with
    ⟨_, count, table⟩ | ⟨granted, _, table⟩
  · intro reqno member
    rw [table, reqnos, List.map_take] at member
    exact fit.small reqno (List.mem_of_mem_take member)
  · intro reqno member
    rw [table, reqnos, List.map_append, List.mem_append] at member
    cases member with
    | inl old => exact fit.small reqno old
    | inr new =>
      rw [List.map_singleton, List.mem_singleton] at new
      rw [new]
      exact (guard granted).2

theorem gaminDataGetRequest_fit {conn : GAMData} (fit : NumbersFit conn) (filename : Bytes) (type : Nat)
    (userData : Pointer) (reqno : Int) (memory : Allocation)
    (guard : (gaminDataAddReq2 conn filename type userData reqno memory).1.isSome = true → reqno < 65536) :
    NumbersFit (gaminDataGetRequest conn filename type userData reqno memory).2 := by
  have same := gaminDataGetRequest_data conn filename type userData reqno memory
  have sorted := gaminDataAddReq2_sorted fit.sorted filename type userData reqno memory
  refine ⟨same ▸ sorted, same ▸ gaminDataAddReq2_present fit.present _ _ _ _ _, ?_⟩
  rw [same]
  rcases gaminDataAddReq2_table fit.present filename type userData reqno memory with
    ⟨_, count, table⟩ | ⟨taken, index, table⟩
  · intro other member
    rw [table, reqnos, List.map_take] at member
    exact fit.small other (List.mem_of_mem_take member)
  · intro other member
    obtain ⟨req, inTable, rfl⟩ := List.mem_map.mp member
    rw [table, List.mem_append, List.mem_cons] at inTable
    rcases inTable with before | rfl | behind
    · exact fit.small req.reqno (List.mem_map_of_mem (List.mem_of_mem_take before))
    · exact guard (by rw [taken]; rfl)
    · exact fit.small req.reqno (List.mem_map_of_mem (List.mem_of_mem_drop behind))

/-! ## Every sequence of calls -/

/-- A call of the `FAMMonitor` family that gets as far as the table. -/
def ReachesTable (fc : FAMConnection) (filename : Option CString) (conn : GAMData) (name : CString) : Prop :=
  fc.client = some conn ∧ 0 ≤ fc.fd ∧ filename = some name ∧ name.bytes[0]? = some 47 ∧
    name.bytes.length < maxPathLen

/-- A number from the counter is ahead of the table and fits a packet. -/
def CounterFits (fc : FAMConnection) (filename : Option CString) (memory : Allocation) : Prop :=
  ∀ conn name, ReachesTable fc filename conn name → EntryGranted conn memory →
    CounterAhead conn ∧ conn.reqno < 65536

/-- A number of the caller that the table takes fits a packet. -/
def ChoiceFits (fc : FAMConnection) (filename : Option CString) (type : Nat) (request : Option Int)
    (memory : Allocation) : Prop :=
  ∀ conn name reqnum, ReachesTable fc filename conn name → request = some reqnum →
    (gaminDataAddReq2 conn name.bytes type 0 reqnum memory).1.isSome = true → reqnum < 65536

/-- The condition under which numbers survive a call. -/
def NumberGuard (fc : FAMConnection) : ApiCall → Prop
  | .monitorDirectory filename _ _ memory _ => CounterFits fc filename memory
  | .monitorFile filename _ _ memory _ => CounterFits fc filename memory
  | .monitorDirectory2 filename request memory _ => ChoiceFits fc filename gamReqDir request memory
  | .monitorFile2 filename request memory _ => ChoiceFits fc filename gamReqFile request memory
  | _ => True

/-- What the server makes of a call of the `FAMMonitor` family that succeeds. -/
def RequestDecoded (fc : FAMConnection) : ApiCall → Prop
  | .monitorDirectory filename request userData memory written => ∀ conn, fc.client = some conn →
    DecodedAsSent true userData memory conn.noexist filename
      (famMonitorDirectory fc filename request userData memory written)
  | .monitorFile filename request userData memory written => ∀ conn, fc.client = some conn →
    DecodedAsSent false userData memory conn.noexist filename
      (famMonitorFile fc filename request userData memory written)
  | .monitorDirectory2 filename request memory written => ∀ conn, fc.client = some conn →
    DecodedAsSent true 0 memory conn.noexist filename
      (famMonitorDirectory2 fc filename request memory written)
  | .monitorFile2 filename request memory written => ∀ conn, fc.client = some conn →
    DecodedAsSent false 0 memory conn.noexist filename
      (famMonitorFile2 fc filename request memory written)
  | _ => True

/-! ## The functions that send -/

theorem gaminDataAddReq_noexist (conn : GAMData) (filename : Bytes) (type : Nat) (userData : Pointer)
    (memory : Allocation) :
    (gaminDataAddReq conn filename type userData memory).2.noexist = conn.noexist := by
  unfold gaminDataAddReq gaminAllocateRequest
  grind

theorem gaminDataAddReq2_noexist (conn : GAMData) (filename : Bytes) (type : Nat) (userData : Pointer)
    (reqno : Int) (memory : Allocation) :
    (gaminDataAddReq2 conn filename type userData reqno memory).2.noexist = conn.noexist := by
  unfold gaminDataAddReq2 gaminAllocateRequest
  grind

/-- What is known of the end of `gamin_send_request` when the request is in the table. -/
theorem writeRequest_decoded {name : CString} {reqnum : Int} (directory : Bool) {data : GAMData} (famErrno : FAMError)
    (written : WriteAnswer) (absolute : name.bytes[0]? = some 47) (short : name.bytes.length < maxPathLen)
    (positive : 0 ≤ reqnum) (small : reqnum < 65536)
    (success : (writeRequest (if directory then gamReqDir else gamReqFile) name.bytes reqnum reqnum data
      famErrno written).result = 0) :
    ServerRegisters (writeRequest (if directory then gamReqDir else gamReqFile) name.bytes reqnum reqnum
        data famErrno written).sent name.bytes reqnum.toNat directory
      (if directory ∧ data.noexist then gamOptNoexists else 0) := by
  have registers := requestPacket_registers directory data.noexist absolute short positive small
  have whole := gaminWriteByte_whole (show (gaminWriteByte (requestPacket
    (if directory then gamReqDir else gamReqFile) name.bytes reqnum (gaminDataGetExists data)).encode
    written).1 = 0 from success)
  have sent : (writeRequest (if directory then gamReqDir else gamReqFile) name.bytes reqnum reqnum data
      famErrno written).sent = (gaminWriteByte (requestPacket
        (if directory then gamReqDir else gamReqFile) name.bytes reqnum (gaminDataGetExists data)).encode
        written).2 := rfl
  rw [sent, whole]
  exact registers

/-- A call of the `FAMMonitor` family is refused, or it comes to `gamin_send_request`. -/
theorem famMonitor_cases (type : Nat) (hasReqnum : Bool) (fc : FAMConnection)
    (filename : Option CString) (request : Option Int) (userData : Pointer) (memory : Allocation)
    (written : WriteAnswer) :
    ((famMonitor type hasReqnum fc filename request userData memory written).1 = -1 ∧
        (famMonitor type hasReqnum fc filename request userData memory written).2.2.1.client = fc.client ∧
        (famMonitor type hasReqnum fc filename request userData memory written).2.2.2 = []) ∨
      ∃ conn name reqnum sending, ReachesTable fc filename conn name ∧ request = some reqnum ∧
        sending = gaminSendRequest type (some name) reqnum userData conn hasReqnum fc.famErrno memory
          written ∧
        famMonitor type hasReqnum fc filename request userData memory written =
          (sending.result, some sending.reqnum,
            { fc with
              client := some sending.client
              famErrno := sending.famErrno
              lockDepth := fc.lockDepth + 1 - 1 },
            sending.sent) := by
  unfold famMonitor
  split
  · rename_i name reqnum
    split
    · exact .inl ⟨rfl, rfl, rfl⟩
    -- a path that is accepted reaches the table if the connection is open
    · rename_i accepted
      obtain ⟨relative, long⟩ := not_or.mp accepted
      cases client : fc.client with
      | none => exact .inl ⟨rfl, rfl, rfl⟩
      | some conn =>
        by_cases closed : fc.fd < 0
        · simp only [if_pos closed]
          exact .inl ⟨trivial, trivial, trivial⟩
        · refine .inr ⟨conn, name, reqnum, _, ?_, rfl, rfl, ?_⟩
          · exact ⟨client, not_lt.mp closed, rfl, not_not.mp relative, not_le.mp long⟩
          · simp only [if_neg closed]
  · exact .inl ⟨rfl, rfl, rfl⟩

/-- What sending a request should do: the numbers fit, and if it succeeds, the server
decodes the request that is now in the table. -/
structure SendingFaithful (directory : Bool) (userData : Pointer) (memory : Allocation) (noexist : Bool)
    (name : CString) (sending : Sending) : Prop where
  fit : NumbersFit sending.client
  decoded : sending.result = 0 → ∃ number : Nat, sending.reqnum = number ∧
    newRequest name.bytes (if directory then gamReqDir else gamReqFile) userData number memory ∈
      sending.client.reqTab ∧
    ServerRegisters sending.sent name.bytes number directory
      (if directory ∧ noexist then gamOptNoexists else 0)

section Sending

variable {conn : GAMData} {name : CString} {reqnum : Int} {memory : Allocation}

/-- The end of both cases: the request is in the table under a number that fits. -/
theorem written_faithful (directory : Bool) (userData : Pointer) {data : GAMData} (fit : NumbersFit data)
    (same : data.noexist = conn.noexist)
    (member : newRequest name.bytes (if directory then gamReqDir else gamReqFile) userData reqnum memory ∈
      data.reqTab)
    (absolute : name.bytes[0]? = some 47) (short : name.bytes.length < maxPathLen) (positive : ¬ reqnum < 0)
    (famErrno : FAMError) (written : WriteAnswer) :
    SendingFaithful directory userData memory conn.noexist name
      (writeRequest (if directory then gamReqDir else gamReqFile) name.bytes reqnum reqnum data
        famErrno written) := by
  refine ⟨fit, fun success => ⟨reqnum.toNat, ?_, ?_, ?_⟩⟩
  · exact (Int.toNat_of_nonneg (not_lt.mp positive)).symm
  · rw [Int.toNat_of_nonneg (not_lt.mp positive)]
    exact member
  · have small := fit.small reqnum (List.mem_map_of_mem member)
    rw [← same]
    exact writeRequest_decoded directory famErrno written absolute short (not_lt.mp positive) small success

theorem gaminSendRequest_counted (fit : NumbersFit conn) (absolute : name.bytes[0]? = some 47)
    (short : name.bytes.length < maxPathLen)
    (guard : EntryGranted conn memory → CounterAhead conn ∧ conn.reqno < 65536)
    (directory : Bool) (userData : Pointer) (famErrno : FAMError) (written : WriteAnswer) :
    SendingFaithful directory userData memory conn.noexist name
      (gaminSendRequest (if directory then gamReqDir else gamReqFile) (some name) reqnum userData conn
        false famErrno memory written) := by
  have kept := gaminDataGetReqnum_fit fit name.bytes (if directory then gamReqDir else gamReqFile)
    userData memory guard
  have frame := gaminDataAddReq_noexist conn name.bytes (if directory then gamReqDir else gamReqFile)
    userData memory
  have table := gaminDataAddReq_table fit.present name.bytes (if directory then gamReqDir else gamReqFile)
    userData memory
  simp only [gaminSendRequest, if_neg (show ¬ name.bytes.length > maxPathLen by omega),
    Bool.false_eq_true, not_false_eq_true, if_true]
  cases answer : gaminDataAddReq conn name.bytes (if directory then gamReqDir else gamReqFile)
    userData memory with
  | mk added data =>
    rw [answer] at frame table
    simp only at frame table
    cases added with
    | none =>
      simp only [gaminDataGetReqnum, answer] at kept ⊢
      exact ⟨kept, fun success => by simp at success⟩
    | some req =>
      simp only [gaminDataGetReqnum, answer] at kept ⊢
      obtain ⟨none, _⟩ | ⟨_, same, grown⟩ := table
      · contradiction
      · simp only [Option.some.injEq] at same
        subst same
        -- an entry was made; its number may still be refused
        by_cases negative : (newRequest name.bytes (if directory then gamReqDir else gamReqFile) userData
            conn.reqno memory).reqno < 0
        · rw [if_pos negative]
          exact ⟨kept, fun success => by simp at success⟩
        · rw [if_neg negative]
          apply written_faithful directory userData kept frame _ absolute short negative famErrno written
          rw [grown]
          exact List.mem_append_right _ (List.mem_singleton_self _)

theorem gaminSendRequest_chosen (fit : NumbersFit conn) (absolute : name.bytes[0]? = some 47)
    (short : name.bytes.length < maxPathLen) (directory : Bool)
    (guard : (gaminDataAddReq2 conn name.bytes (if directory then gamReqDir else gamReqFile) 0 reqnum
      memory).1.isSome = true → reqnum < 65536)
    (famErrno : FAMError) (written : WriteAnswer) :
    SendingFaithful directory 0 memory conn.noexist name
      (gaminSendRequest (if directory then gamReqDir else gamReqFile) (some name) reqnum 0 conn
        true famErrno memory written) := by
  have kept := gaminDataGetRequest_fit fit name.bytes (if directory then gamReqDir else gamReqFile) 0 reqnum
    memory guard
  have frame := gaminDataAddReq2_noexist conn name.bytes (if directory then gamReqDir else gamReqFile) 0
    reqnum memory
  have table := gaminDataAddReq2_table fit.present name.bytes (if directory then gamReqDir else gamReqFile)
    0 reqnum memory
  simp only [gaminSendRequest, if_neg (show ¬ name.bytes.length > maxPathLen by omega), not_true_eq_false,
    if_false]
  cases answer : gaminDataAddReq2 conn name.bytes (if directory then gamReqDir else gamReqFile) 0 reqnum
    memory with
  | mk added data =>
    rw [answer] at frame table
    simp only at frame table
    cases added with
    | none =>
      simp only [gaminDataGetRequest, answer] at kept ⊢
      exact ⟨kept, fun success => by simp at success⟩
    | some req =>
      simp only [gaminDataGetRequest, answer] at kept ⊢
      obtain ⟨none, _⟩ | ⟨same, index, grown⟩ := table
      · contradiction
      · simp only [Option.some.injEq] at same
        subst same
        -- an entry was made; its number may still be refused
        by_cases negative : (newRequest name.bytes (if directory then gamReqDir else gamReqFile) 0
            reqnum memory).reqno < 0
        · rw [if_pos negative]
          exact ⟨kept, fun success => by simp at success⟩
        · rw [if_neg negative]
          apply written_faithful directory 0 kept frame _ absolute short negative famErrno written
          rw [grown]
          exact List.mem_append_right _ List.mem_cons_self

end Sending

/-- A call of the family is faithful when what it sends is. -/
theorem famMonitor_faithful {fc : FAMConnection} (fit : OfClient NumbersFit fc) (directory hasReqnum : Bool)
    (filename : Option CString) (request : Option Int) (userData : Pointer) (memory : Allocation)
    (written : WriteAnswer)
    (sends : ∀ conn name reqnum, ReachesTable fc filename conn name → request = some reqnum →
      SendingFaithful directory userData memory conn.noexist name
        (gaminSendRequest (if directory then gamReqDir else gamReqFile) (some name) reqnum userData conn
          hasReqnum fc.famErrno memory written)) :
    OfClient NumbersFit (famMonitor (if directory then gamReqDir else gamReqFile) hasReqnum fc filename
        request userData memory written).2.2.1 ∧
      ∀ conn, fc.client = some conn → DecodedAsSent directory userData memory conn.noexist filename
        (famMonitor (if directory then gamReqDir else gamReqFile) hasReqnum fc filename request userData
          memory written) := by
  rcases famMonitor_cases (if directory then gamReqDir else gamReqFile) hasReqnum fc filename request
    userData memory written with ⟨refused, same, _⟩ | ⟨conn, name, reqnum, sending, reached, number, rfl, result⟩
  · refine ⟨fun conn client => fit conn (same.symm.trans client), fun conn client success => ?_⟩
    rw [refused] at success
    contradiction
  · obtain ⟨kept, decoded⟩ := sends conn name reqnum reached number
    rw [result]
    refine ⟨.of_some rfl kept, fun other client success => ?_⟩
    cases reached.1.symm.trans client
    obtain ⟨assigned, same, member, registers⟩ := decoded success
    exact ⟨name, _, assigned, reached.2.2.1, congrArg some same, rfl, member, registers⟩

theorem gaminDataCancel_shrinks (conn : GAMData) (reqno : Int) : Shrinks conn (gaminDataCancel conn reqno).2 := by
  constructor
  · rw [gaminDataCancel_reqnos]
  · simp only [gaminDataCancel]
    repeat' split
    all_goals rfl

theorem famCancelMonitor_fit {fc : FAMConnection} (fit : OfClient NumbersFit fc) (request : Option Int)
    (written : WriteAnswer) : OfClient NumbersFit (famCancelMonitor fc request written).2.1 := by
  unfold famCancelMonitor
  split
  · rename_i reqnum conn client
    have cancelled := (fit conn client).shrinks (gaminDataCancel_shrinks conn reqnum)
    split
    · exact fit
    · simp only
      split
      · exact .of_some rfl cancelled
      · exact .of_some rfl cancelled
  · exact fit

theorem famNoExists_fit {fc after : FAMConnection} {result : Int} (fit : OfClient NumbersFit fc)
    (returned : famNoExists fc = some (result, after)) : OfClient NumbersFit after := by
  unfold famNoExists at returned
  split at returned
  · contradiction
  · rename_i conn client
    simp only [Option.some.injEq, Prod.mk.injEq] at returned
    have noticed : after.client = some (gaminDataNoExists conn) := by rw [← returned.2]
    exact .of_some noticed ((fit conn client).shrinks (.of_same rfl rfl))

/-- A guarded call keeps the numbers fitting, and what it sends is decoded as it was sent. -/
theorem apiStep_numbers (fc : FAMConnection) (call : ApiCall) (fit : OfClient NumbersFit fc)
    (guard : NumberGuard fc call) :
    RequestDecoded fc call ∧ ∀ after, apiStep fc call = some after → OfClient NumbersFit after := by
  cases call with
  | monitorDirectory filename request userData memory written =>
    obtain ⟨kept, decoded⟩ := famMonitor_faithful fit true false filename request userData memory written
      fun conn name reqnum reached _ => gaminSendRequest_counted (fit conn reached.1) reached.2.2.2.1
        reached.2.2.2.2 (guard conn name reached) true userData fc.famErrno written
    exact ⟨decoded, fun after returned => by cases returned; exact kept⟩
  | monitorFile filename request userData memory written =>
    obtain ⟨kept, decoded⟩ := famMonitor_faithful fit false false filename request userData memory written
      fun conn name reqnum reached _ => gaminSendRequest_counted (fit conn reached.1) reached.2.2.2.1
        reached.2.2.2.2 (guard conn name reached) false userData fc.famErrno written
    exact ⟨decoded, fun after returned => by cases returned; exact kept⟩
  | monitorDirectory2 filename request memory written =>
    obtain ⟨kept, decoded⟩ := famMonitor_faithful fit true true filename request 0 memory written
      fun conn name reqnum reached number => gaminSendRequest_chosen (fit conn reached.1) reached.2.2.2.1
        reached.2.2.2.2 true (guard conn name reqnum reached number) fc.famErrno written
    exact ⟨decoded, fun after returned => by cases returned; exact kept⟩
  | monitorFile2 filename request memory written =>
    obtain ⟨kept, decoded⟩ := famMonitor_faithful fit false true filename request 0 memory written
      fun conn name reqnum reached number => gaminSendRequest_chosen (fit conn reached.1) reached.2.2.2.1
        reached.2.2.2.2 false (guard conn name reqnum reached number) fc.famErrno written
    exact ⟨decoded, fun after returned => by cases returned; exact kept⟩
  -- the other calls send nothing, or only a cancellation
  | nextEvent answers reconnect =>
    exact ⟨trivial, fun after returned => by cases returned; exact NumbersFit.reading.nextEvent fit answers reconnect⟩
  | pending available answers reconnect =>
    exact ⟨trivial, fun after returned => by
      cases returned; exact NumbersFit.reading.pending fit available answers reconnect⟩
  | cancelMonitor request written =>
    exact ⟨trivial, fun after returned => by cases returned; exact famCancelMonitor_fit fit request written⟩
  | noExists =>
    refine ⟨trivial, fun after returned => ?_⟩
    obtain ⟨⟨result, connection⟩, answer, rfl⟩ := Option.map_eq_some_iff.mp returned
    exact famNoExists_fit fit answer

/-- In every sequence of calls on a new connection whose numbers fit, events and
Acknowledges lead back to their requests all along, and the server decodes every request
as it was sent. -/
theorem numbers_survive (calls : List ApiCall)
    (guarded : Guarded (partialStep apiStep) (GuardIfAny NumberGuard) (some openedConnection) calls) :
    Throughout (partialStep apiStep) (IfAny (OfClient WireFaithful)) (some openedConnection) calls ∧
      Guarded (partialStep apiStep) (GuardIfAny RequestDecoded) (some openedConnection) calls := by
  have start : OfClient NumbersFit openedConnection :=
    .of_some rfl ⟨List.Pairwise.nil, fun _ => rfl, fun reqno member => nomatch member⟩
  constructor
  · apply (Throughout.of_partial (fun fc call after fit guard returned =>
      (apiStep_numbers fc call fit guard).2 after returned) start guarded).imp
    intro state fits
    exact IfAny.imp (fun fc fit conn client => (fit conn client).wireFaithful) state fits
  · exact guarded_of_returns (fun fc call fit guard => apiStep_numbers fc call fit guard) start guarded

/-! ## Two sequences of calls -/

theorem pathA_terminated : (0 : UInt8) ∉ ([47, 97] : Bytes) := by decide

def pathA : CString := ⟨[47, 97], pathA_terminated⟩

def pathB : CString := ⟨[47, 98], by decide⟩

/-- A number from the counter and a chosen one are used, and the first is given back. -/
def countedCalls : List ApiCall :=
  [.monitorFile (some pathB) (some 0) 9 ⟨true, true, true⟩ .complete,
    .monitorDirectory2 (some pathA) (some 7) ⟨true, true, true⟩ .complete,
    .cancelMonitor (some 1) .complete]

theorem countedCalls_survive :
    Throughout (partialStep apiStep) (IfAny (OfClient WireFaithful)) (some openedConnection) countedCalls ∧
      Guarded (partialStep apiStep) (GuardIfAny RequestDecoded) (some openedConnection) countedCalls := by
  apply numbers_survive
  refine ⟨?_, ?_, trivial, trivial⟩
  · rintro conn name ⟨client, _⟩ _
    cases client
    exact ⟨fun req member => (nomatch member), by decide⟩
  · rintro conn name reqnum _ request _
    cases request
    decide

/-- The application chooses the numbers 1 and 65537. -/
def chosenCalls : List ApiCall :=
  [.monitorFile2 (some pathA) (some 1) ⟨true, true, true⟩ .complete,
    .monitorFile2 (some pathB) (some 65537) ⟨true, true, true⟩ .complete]

/-- Both calls succeed, but on the wire both requests have the number 1. -/
theorem chosen_numbers_collide :
    ((run (partialStep apiStep) (some openedConnection) chosenCalls).bind (·.client)).map
        (fun conn => (acceptedRequests conn).map fun req => (req.reqno, wireNumber req.reqno)) =
        some [(1, 1), (65537, 1)] ∧
      ¬ Throughout (partialStep apiStep) (IfAny (OfClient WireFaithful)) (some openedConnection)
        chosenCalls := by
  have numbers : ((run (partialStep apiStep) (some openedConnection) chosenCalls).bind (·.client)).map
      (fun conn => (acceptedRequests conn).map fun req => (req.reqno, wireNumber req.reqno)) =
      some [(1, 1), (65537, 1)] := by
    decide +kernel
  refine ⟨numbers, fun faithful => ?_⟩
  obtain ⟨conn, found, entries⟩ := Option.map_eq_some_iff.mp numbers
  obtain ⟨fc, reached, client⟩ := Option.bind_eq_some_iff.mp found
  have last := faithful.last
  rw [reached] at last
  have distinct := (last conn client).distinct
  have wire := congrArg (List.map Prod.snd) entries
  rw [List.map_map] at wire
  rw [show (acceptedRequests conn).map (fun req => wireNumber req.reqno) = [1, 1] from wire] at distinct
  exact absurd distinct (by decide)

end Gamin.Client
