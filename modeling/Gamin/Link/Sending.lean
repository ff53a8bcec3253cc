import Gamin.Client.Numbers
import Gamin.Server.Requests

/-! # What the library sends

Every call writes at most one packet, apart from a reconnection, which writes one for each
request of the table.  The packets of the library are monitor requests on paths that the server
takes, as long as the table holds nothing else, and cancel requests.
-/

namespace Gamin.Link

open Gamin Gamin.Library Gamin.Client Gamin.Server

/-! ## The table -/

/-- The request can be sent: it is for a file or a directory, and its path fits a packet. -/
def Sendable (req : GAMReqData) : Prop :=
  (req.type = gamReqFile ∨ req.type = gamReqDir) ∧
    ∀ path, req.filename = some path → 0 < path.length ∧ path.length < maxPathLen

/-- Everything in the table can be sent again. -/
def TableSendable (conn : GAMData) : Prop := ∀ req ∈ conn.reqTab, Sendable req

/-- The state of a request does not matter. -/
theorem TableSendable.set {conn : GAMData} (sendable : TableSendable conn) {req : GAMReqData}
    (member : req ∈ conn.reqTab) (index : Nat) (state : GAMReqState) :
    TableSendable { conn with reqTab := conn.reqTab.set index { req with state := state } } := by
  intro other inTable
  cases List.mem_or_eq_of_mem_set inTable with
  | inl old => exact sendable other old
  | inr new => exact new ▸ sendable req member

theorem gaminDataGetReq_mem {conn : GAMData} {reqno : Int} {req : GAMReqData}
    (found : gaminDataGetReq conn reqno = some req) : req ∈ conn.reqTab := by
  simp only [gaminDataGetReq] at found
  split at found
  · contradiction
  · exact List.mem_of_getElem? found

theorem tableSendable_reading : ReadingKeeps TableSendable where
  same := fun sendable reqTab _ req member => sendable req (reqTab ▸ member)
  connEvent := by
    intro conn sendable
    simp only [gaminDataConnEvent]
    cases found : gaminDataGetReq conn (packetSeq conn.event 0) with
    | none => exact sendable
    | some req =>
      have confirmed := sendable.set (gaminDataGetReq_mem found)
        (gaminDataGetReqIdx conn (packetSeq conn.event 0)).toNat .reqConfirmed
      simp only
      repeat' split
      all_goals first | exact sendable | exact confirmed
  delReq := by
    intro conn reqno sendable
    simp only [gaminDataDelReq]
    split
    · exact sendable
    · exact fun req member => sendable req (List.mem_of_mem_eraseIdx member)

theorem gaminDataCancel_sendable {conn : GAMData} (sendable : TableSendable conn) (reqno : Int) :
    TableSendable (gaminDataCancel conn reqno).2 := by
  simp only [gaminDataCancel]
  split
  · exact sendable
  · split
    · exact sendable
    · rename_i data found
      split
      · exact sendable
      · exact sendable.set (List.mem_of_getElem? found) _ .reqCancelled

section Monitor

variable {conn : GAMData} {name : CString} {type : Nat}

theorem newRequest_sendable (kind : type = gamReqFile ∨ type = gamReqDir)
    (nonempty : 0 < name.bytes.length) (short : name.bytes.length < maxPathLen) (userData : Pointer)
    (reqno : Int) (memory : Allocation) :
    Sendable (newRequest name.bytes type userData reqno memory) := by
  refine ⟨kind, fun path filename => ?_⟩
  simp only [newRequest] at filename
  split at filename
  · cases filename
    exact ⟨nonempty, short⟩
  · contradiction

theorem gaminAllocateRequest_sendable (sendable : TableSendable conn) (memory : Allocation) :
    TableSendable (gaminAllocateRequest conn memory).2 := by
  obtain ⟨count, table⟩ := gaminAllocateRequest_prefix conn memory
  intro req member
  rw [table] at member
  exact sendable req (List.mem_of_mem_take member)

theorem gaminDataGetReqnum_sendable (sendable : TableSendable conn)
    (kind : type = gamReqFile ∨ type = gamReqDir) (nonempty : 0 < name.bytes.length)
    (short : name.bytes.length < maxPathLen) (userData : Pointer) (memory : Allocation) :
    TableSendable (gaminDataGetReqnum conn name.bytes type userData memory).2 := by
  have allocated := gaminAllocateRequest_sendable sendable memory
  unfold gaminDataGetReqnum gaminDataAddReq
  cases answer : gaminAllocateRequest conn memory with
  | mk granted after =>
    rw [answer] at allocated
    cases granted with
    | false => exact allocated
    | true =>
      intro req member
      cases List.mem_append.mp member with
      | inl old => exact allocated req old
      | inr new =>
        rw [List.mem_singleton.mp new]
        exact newRequest_sendable kind nonempty short userData _ memory

theorem gaminDataGetRequest_sendable (sendable : TableSendable conn)
    (kind : type = gamReqFile ∨ type = gamReqDir) (nonempty : 0 < name.bytes.length)
    (short : name.bytes.length < maxPathLen) (userData : Pointer) (reqno : Int) (memory : Allocation) :
    TableSendable (gaminDataGetRequest conn name.bytes type userData reqno memory).2 := by
  have allocated := gaminAllocateRequest_sendable sendable memory
  unfold gaminDataGetRequest gaminDataAddReq2
  by_cases missed : gaminDataGetReqLoc conn reqno < 0
  · simp only [if_pos missed]
    exact sendable
  · simp only [if_neg missed]
    by_cases taken : (conn.reqTab[(gaminDataGetReqLoc conn reqno).toNat]?).any (·.reqno = reqno) = true
    · simp only [if_pos taken]
      exact sendable
    · simp only [if_neg taken]
      cases answer : gaminAllocateRequest conn memory with
      | mk granted after =>
        rw [answer] at allocated
        cases granted with
        | false => exact allocated
        | true =>
          intro req member
          rcases List.mem_append.mp member with before | here
          · exact allocated req (List.mem_of_mem_take before)
          · rcases List.mem_cons.mp here with new | behind
            · rw [new]
              exact newRequest_sendable kind nonempty short userData reqno memory
            · exact allocated req (List.mem_of_mem_drop behind)

/-- Sending a monitor request keeps the table sendable, and writes its packet or nothing. -/
theorem gaminSendRequest_sends (sendable : TableSendable conn)
    (kind : type = gamReqFile ∨ type = gamReqDir) (nonempty : 0 < name.bytes.length)
    (short : name.bytes.length < maxPathLen) (reqnum : Int) (userData : Pointer) (hasReqnum : Bool)
    (famErrno : FAMError) (memory : Allocation) (written : WriteAnswer) (sending : Sending)
    (sends : sending = gaminSendRequest type (some name) reqnum userData conn hasReqnum famErrno memory
      written) :
    TableSendable sending.client ∧
      (sending.sent = [] ∨ ∃ number existsFlag, sending.sent =
        (gaminWriteByte (requestPacket type name.bytes number existsFlag).encode written).2) := by
  have counted := gaminDataGetReqnum_sendable sendable kind nonempty short userData memory
  have chosen := gaminDataGetRequest_sendable sendable kind nonempty short userData reqnum memory
  rw [sends]
  simp only [gaminSendRequest, if_neg (show ¬ name.bytes.length > maxPathLen by omega)]
  cases hasReqnum with
  | false =>
    simp only [Bool.false_eq_true, not_false_eq_true, if_true]
    split
    · exact ⟨counted, .inl rfl⟩
    · exact ⟨counted, .inr ⟨_, _, rfl⟩⟩
  | true =>
    simp only [not_true_eq_false, if_false]
    split
    · exact ⟨chosen, .inl rfl⟩
    · exact ⟨chosen, .inr ⟨_, _, rfl⟩⟩

end Monitor

/-! ## The packets -/

theorem requestPacket_library {type : Nat} {path : Bytes} (kind : type = gamReqFile ∨ type = gamReqDir)
    (nonempty : 0 < path.length) (short : path.length < maxPathLen) (number existsFlag : Int) :
    LibraryPacket (requestPacket type path number existsFlag) ∧
      ¬ IsCancel (requestPacket type path number existsFlag) := by
  obtain ⟨packet, same⟩ : ∃ packet, packet = requestPacket type path number existsFlag := ⟨_, rfl⟩
  have masks : packet.type < 65536 ∧
      (packet.type &&& 0xF = gamReqFile ∨ packet.type &&& 0xF = gamReqDir) := by
    rw [same]
    simp only [requestPacket]
    rcases kind with rfl | rfl <;> split <;> decide
  have other : ¬ IsCancel packet := by
    intro cancel
    rcases masks.2 with file | dir
    · exact absurd (file.symm.trans cancel) (by decide)
    · exact absurd (dir.symm.trans cancel) (by decide)
  refine same ▸ ⟨⟨⟨?_, ?_, masks.1, ?_, ?_⟩, ?_, ?_⟩, other⟩
  · rw [same]; rfl
  · rw [same]; simp only [requestPacket]; omega
  · rw [same]; exact .inr nonempty
  · rw [same]; exact short.le
  · rw [same]; exact short
  · exact masks.2.imp id .inl

/-- The packet of `FAMCancelMonitor`. -/
def cancelPacket (reqnum : Int) : GAMPacket := requestPacket gamReqCancel [] reqnum 1

theorem cancelPacket_library (reqnum : Int) :
    LibraryPacket (cancelPacket reqnum) ∧ (cancelPacket reqnum).seq = wireNumber reqnum := by
  have type : (cancelPacket reqnum).type = gamReqCancel := by
    simp only [cancelPacket, requestPacket]
    exact if_neg (by decide)
  refine ⟨⟨⟨rfl, ?_, ?_, .inl ?_, Nat.zero_le _⟩, ?_, .inr (.inr ?_)⟩, rfl⟩
  · simp only [cancelPacket, requestPacket]
    omega
  · rw [type]
    decide
  · rw [type]
    rfl
  · exact Nat.zero_lt_succ _
  · rw [IsCancel, type]
    rfl

theorem gaminResendRequest_library {req : GAMReqData} (sendable : Sendable req) {packet : GAMPacket}
    (resent : gaminResendRequest req = some packet) : LibraryPacket packet ∧ ¬ IsCancel packet := by
  obtain ⟨path, filename, rfl⟩ := Option.map_eq_some_iff.mp resent
  obtain ⟨nonempty, short⟩ := sendable.2 path filename
  have masks : req.type ||| gamOptNoexists < 65536 ∧
      ((req.type ||| gamOptNoexists) &&& 0xF = gamReqFile ∨
        (req.type ||| gamOptNoexists) &&& 0xF = gamReqDir) := by
    rcases sendable.1 with file | dir
    · rw [file]; decide
    · rw [dir]; decide
  refine ⟨⟨⟨rfl, ?_, masks.1, .inr nonempty, short.le⟩, short, masks.2.imp id .inl⟩, ?_⟩
  · simp only
    omega
  · intro cancel
    rcases masks.2 with file | dir
    · exact absurd (file.symm.trans cancel) (by decide)
    · exact absurd (dir.symm.trans cancel) (by decide)

/-! ## Calls -/

/-- The bytes that a call writes on the connection it finds. -/
def requestBytes (fc : FAMConnection) : ApiCall → Bytes
  | .monitorDirectory filename request userData memory written =>
    (famMonitorDirectory fc filename request userData memory written).2.2.2
  | .monitorFile filename request userData memory written =>
    (famMonitorFile fc filename request userData memory written).2.2.2
  | .monitorDirectory2 filename request memory written =>
    (famMonitorDirectory2 fc filename request memory written).2.2.2
  | .monitorFile2 filename request memory written =>
    (famMonitorFile2 fc filename request memory written).2.2.2
  | .cancelMonitor request written => (famCancelMonitor fc request written).2.2
  | .nextEvent _ _ => []
  | .pending _ _ _ => []
  | .noExists => []

/-- The request is in the table when it is cancelled. -/
def CancelReaches (fc : FAMConnection) (reqnum : Int) : Prop :=
  ∃ conn, fc.client = some conn ∧ 0 ≤ fc.fd ∧ 0 ≤ gaminDataGetReqIdx conn reqnum

/-- A call writes nothing, or a packet of the library as far as the socket takes it.  Only
`FAMCancelMonitor` writes a cancel request, for a number that is in the table. -/
def SendsPacket (fc : FAMConnection) (call : ApiCall) (bytes : Bytes) : Prop :=
  bytes = [] ∨ ∃ packet written, LibraryPacket packet ∧
    bytes = (gaminWriteByte packet.encode written).2 ∧
    (IsCancel packet → ∃ reqnum, call = .cancelMonitor (some reqnum) written ∧
      packet = cancelPacket reqnum ∧ CancelReaches fc reqnum)

theorem famMonitor_sends {fc : FAMConnection} (sendable : OfClient TableSendable fc) {type : Nat}
    (kind : type = gamReqFile ∨ type = gamReqDir) (hasReqnum : Bool) (filename : Option CString)
    (request : Option Int) (userData : Pointer) (memory : Allocation) (written : WriteAnswer)
    (call : ApiCall) :
    OfClient TableSendable (famMonitor type hasReqnum fc filename request userData memory written).2.2.1 ∧
      SendsPacket fc call (famMonitor type hasReqnum fc filename request userData memory written).2.2.2 := by
  obtain ⟨_, same, silent⟩ | ⟨conn, name, reqnum, sending, reached, _, sends, result⟩ :=
    famMonitor_cases type hasReqnum fc filename request userData memory written
  · exact ⟨fun conn client => sendable conn (same.symm.trans client), .inl silent⟩
  · have nonempty : 0 < name.bytes.length := (List.getElem?_eq_some_iff.mp reached.2.2.2.1).1
    have short := reached.2.2.2.2
    obtain ⟨kept, sent⟩ := gaminSendRequest_sends (sendable conn reached.1) kind nonempty short reqnum
      userData hasReqnum fc.famErrno memory written sending sends
    rw [result]
    refine ⟨.of_some rfl kept, ?_⟩
    cases sent with
    | inl nothing => exact .inl nothing
    | inr packet =>
      obtain ⟨number, existsFlag, bytes⟩ := packet
      obtain ⟨library, monitor⟩ := requestPacket_library kind nonempty short number existsFlag
      exact .inr ⟨_, written, library, bytes, fun cancel => absurd cancel monitor⟩

theorem famCancelMonitor_sends {fc : FAMConnection} (sendable : OfClient TableSendable fc)
    (request : Option Int) (written : WriteAnswer) :
    OfClient TableSendable (famCancelMonitor fc request written).2.1 ∧
      SendsPacket fc (.cancelMonitor request written) (famCancelMonitor fc request written).2.2 := by
  cases request with
  | none => exact ⟨sendable, .inl rfl⟩
  | some reqnum =>
    cases client : fc.client with
    | none =>
      simp only [famCancelMonitor, client]
      exact ⟨fun conn some => by simp at some, .inl rfl⟩
    | some conn =>
      have cancelled := gaminDataCancel_sendable (sendable conn client) reqnum
      by_cases closed : fc.fd < 0
      · simp only [famCancelMonitor, client, if_pos closed]
        exact ⟨.of_some rfl (sendable conn client), .inl rfl⟩
      · by_cases missing : (gaminDataCancel conn reqnum).1 < 0
        · simp only [famCancelMonitor, client, if_neg closed, if_pos missing]
          exact ⟨.of_some rfl cancelled, .inl rfl⟩
        · simp only [famCancelMonitor, client, if_neg closed, if_neg missing]
          -- the request is written only if its number has been found
          have inTable : 0 ≤ gaminDataGetReqIdx conn reqnum := by
            by_contra absent
            simp [gaminDataCancel, not_le.mp absent] at missing
          refine ⟨.of_some rfl cancelled, .inr ⟨cancelPacket reqnum, written,
            (cancelPacket_library reqnum).1, ?_, fun _ => ⟨reqnum, rfl, rfl, conn, client, not_lt.mp closed,
              inTable⟩⟩⟩
          have noOption (existsFlag : Int) :
              requestPacket gamReqCancel [] reqnum existsFlag = cancelPacket reqnum := by
            simp only [cancelPacket, requestPacket]
            rw [if_neg (fun both => absurd both.1 (by decide)), if_neg (by decide)]
          simp only [gaminSendRequest, writeRequest, noOption]

/-- Every call keeps the table sendable, and sends at most one packet on the connection it finds. -/
theorem apiStep_sends {fc after : FAMConnection} {call : ApiCall} (sendable : OfClient TableSendable fc)
    (returned : apiStep fc call = some after) :
    OfClient TableSendable after ∧ SendsPacket fc call (requestBytes fc call) := by
  cases call with
  | monitorDirectory filename request userData memory written =>
    cases returned
    exact famMonitor_sends sendable (.inr rfl) false filename request userData memory written _
  | monitorFile filename request userData memory written =>
    cases returned
    exact famMonitor_sends sendable (.inl rfl) false filename request userData memory written _
  | monitorDirectory2 filename request memory written =>
    cases returned
    exact famMonitor_sends sendable (.inr rfl) true filename request 0 memory written _
  | monitorFile2 filename request memory written =>
    cases returned
    exact famMonitor_sends sendable (.inl rfl) true filename request 0 memory written _
  | nextEvent answers reconnect =>
    cases returned
    exact ⟨tableSendable_reading.nextEvent sendable answers reconnect, .inl rfl⟩
  | pending available answers reconnect =>
    cases returned
    exact ⟨tableSendable_reading.pending sendable available answers reconnect, .inl rfl⟩
  | cancelMonitor request written =>
    cases returned
    exact famCancelMonitor_sends sendable request written
  | noExists =>
    obtain ⟨⟨result, connection⟩, answer, rfl⟩ := Option.map_eq_some_iff.mp returned
    cases client : fc.client with
    | none => simp [famNoExists, client] at answer
    | some conn =>
      simp only [famNoExists, client, Option.some.injEq, Prod.mk.injEq] at answer
      rw [← answer.2]
      exact ⟨.of_some rfl (tableSendable_reading.same (sendable conn client) rfl rfl), .inl rfl⟩

end Gamin.Link
