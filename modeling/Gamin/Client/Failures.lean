import Gamin.Client.Numbers

/-! # What a failed call leaves behind

A request is put into the table, or marked as cancelled, before its packet is written, and
nothing is undone when a later step fails.  A call that returns -1 has left the table alone
exactly when it failed before that, and the exact condition says which steps must not fail.
-/

namespace Gamin.Client

open Gamin Gamin.Library

/-! ## What a call returns -/

/-- The result of a function that registers or cancels, and the connection after it. -/
def registrationOutcome (fc : FAMConnection) : ApiCall → Option (Int × FAMConnection)
  | .monitorDirectory filename request userData memory written =>
    let outcome := famMonitorDirectory fc filename request userData memory written
    some (outcome.1, outcome.2.2.1)
  | .monitorFile filename request userData memory written =>
    let outcome := famMonitorFile fc filename request userData memory written
    some (outcome.1, outcome.2.2.1)
  | .monitorDirectory2 filename request memory written =>
    let outcome := famMonitorDirectory2 fc filename request memory written
    some (outcome.1, outcome.2.2.1)
  | .monitorFile2 filename request memory written =>
    let outcome := famMonitorFile2 fc filename request memory written
    some (outcome.1, outcome.2.2.1)
  | .cancelMonitor request written =>
    let outcome := famCancelMonitor fc request written
    some (outcome.1, outcome.2.1)
  | _ => none

/-- The entries of the table, with their states, if there is a table. -/
def requestTable (fc : FAMConnection) : Option (List GAMReqData) := fc.client.map (·.reqTab)

/-- If the call returns -1, the request table is as it was before. -/
def FailureHarmless (fc : FAMConnection) (call : ApiCall) : Prop :=
  ∀ result after, registrationOutcome fc call = some (result, after) → result = -1 →
    requestTable after = requestTable fc

/-! ## Calls that get through -/

/-- The calls of `write` get through a packet of this length. -/
def WriteAnswer.Completes (length : Nat) : WriteAnswer → Prop
  | .complete => True
  | .failedBehind bytes => length ≤ bytes

instance (length : Nat) : (written : WriteAnswer) → Decidable (written.Completes length)
  | .complete => .isTrue trivial
  | .failedBehind bytes => inferInstanceAs (Decidable (length ≤ bytes))

/-- `gamin_data_get_req_loc` has a place for the number, and it is not there yet. -/
def TableTakes (conn : GAMData) (reqno : Int) : Prop :=
  0 ≤ gaminDataGetReqLoc conn reqno ∧
    ¬ (conn.reqTab[(gaminDataGetReqLoc conn reqno).toNat]?).any (·.reqno = reqno)

/-- A call that gets an entry under the number of the counter also gets through the rest. -/
def CountedFinishes (fc : FAMConnection) (filename : Option CString) (request : Option Int)
    (memory : Allocation) (written : WriteAnswer) : Prop :=
  ∀ conn name, ReachesTable fc filename conn name → request.isSome → EntryGranted conn memory →
    0 ≤ conn.reqno ∧ written.Completes (gamPacketHeaderLen + name.bytes.length)

/-- A call that gets an entry under the number of the caller also gets through the rest. -/
def ChosenFinishes (fc : FAMConnection) (filename : Option CString) (request : Option Int)
    (memory : Allocation) (written : WriteAnswer) : Prop :=
  ∀ conn name reqnum, ReachesTable fc filename conn name → request = some reqnum →
    TableTakes conn reqnum → EntryGranted conn memory →
    0 ≤ reqnum ∧ written.Completes (gamPacketHeaderLen + name.bytes.length)

/-- A request that becomes cancelled has its packet written. -/
def CancelFinishes (fc : FAMConnection) (request : Option Int) (written : WriteAnswer) : Prop :=
  ∀ conn reqnum req, fc.client = some conn → 0 ≤ fc.fd → request = some reqnum →
    gaminDataGetReq conn reqnum = some req → req.state ≠ .reqCancelled →
    written.Completes gamPacketHeaderLen

def Finishes (fc : FAMConnection) : ApiCall → Prop
  | .monitorDirectory filename request _ memory written =>
    CountedFinishes fc filename request memory written
  | .monitorFile filename request _ memory written =>
    CountedFinishes fc filename request memory written
  | .monitorDirectory2 filename request memory written =>
    ChosenFinishes fc filename request memory written
  | .monitorFile2 filename request memory written =>
    ChosenFinishes fc filename request memory written
  | .cancelMonitor request written => CancelFinishes fc request written
  | _ => True

/-! ## The size of the table -/

/-- The array has room for the entries, and there are none without it. -/
structure TableShaped (conn : GAMData) : Prop where
  present : ArrayPresent conn
  room : conn.reqTabAllocated = true → 0 < conn.reqMax ∧ conn.reqTab.length ≤ conn.reqMax

theorem TableShaped.shrinks {before after : GAMData} (shaped : TableShaped before)
    (shrunk : Shrinks before after) (reqMax : after.reqMax = before.reqMax) : TableShaped after where
  present := by
    intro missing
    have none := shaped.present (shrunk.allocated.symm.trans missing)
    have sublist := shrunk.reqnos
    rw [none] at sublist
    simpa [reqnos] using sublist
  room := by
    intro allocated
    have shorter := shrunk.reqnos.length_le
    have room := shaped.room (shrunk.allocated.symm.trans allocated)
    rw [reqnos_length, reqnos_length] at shorter
    rw [reqMax]
    exact ⟨room.1, shorter.trans room.2⟩

/-- An allocation that fails leaves the entries alone. -/
theorem gaminAllocateRequest_refused {conn : GAMData} (shaped : TableShaped conn)
    {memory : Allocation} (refused : ¬ EntryGranted conn memory) :
    (gaminAllocateRequest conn memory).1 = false ∧
      (gaminAllocateRequest conn memory).2.reqTab = conn.reqTab ∧
      TableShaped (gaminAllocateRequest conn memory).2 := by
  have no : (gaminAllocateRequest conn memory).1 = false :=
    Bool.eq_false_iff.mpr fun yes => refused ((gaminAllocateRequest_true_iff conn memory).mp yes)
  -- neither the first allocation nor a larger one touches the entries before it succeeds
  have present := gaminAllocateRequest_present shaped.present memory
  refine ⟨no, ?_, present, ?_⟩
  · cases allocated : conn.reqTabAllocated with
    | false =>
      have empty := shaped.present allocated
      unfold gaminAllocateRequest
      simp only [allocated, Bool.false_eq_true, not_false_eq_true, if_true]
      split <;> exact empty.symm
    | true =>
      have room := (shaped.room allocated).2
      unfold gaminAllocateRequest
      simp only [allocated, not_true, if_false]
      repeat' split
      all_goals first | rfl | omega
  · intro allocated
    cases before : conn.reqTabAllocated with
    | false =>
      have empty := shaped.present before
      unfold gaminAllocateRequest at allocated ⊢
      simp only [before, Bool.false_eq_true, not_false_eq_true, if_true] at allocated ⊢
      split <;> simp
    | true =>
      have room := shaped.room before
      unfold gaminAllocateRequest
      simp only [before, not_true, if_false]
      repeat' split
      all_goals first | exact room | (simp only; omega)

/-- One that succeeds makes room for one more. -/
theorem gaminAllocateRequest_room {conn after : GAMData} (shaped : TableShaped conn)
    {memory : Allocation} (success : gaminAllocateRequest conn memory = (true, after)) :
    conn.reqTab.length < after.reqMax := by
  cases allocated : conn.reqTabAllocated with
  | false =>
    have empty := shaped.present allocated
    unfold gaminAllocateRequest at success
    simp only [allocated, Bool.false_eq_true, not_false_eq_true, if_true] at success
    split at success
    · simp at success
    · simp only [Prod.mk.injEq] at success
      rw [← success.2, empty]
      exact Nat.zero_lt_succ 9
  | true =>
    have room := shaped.room allocated
    unfold gaminAllocateRequest at success
    simp only [allocated, not_true, if_false] at success
    split at success
    · split at success
      · simp at success
      · simp only [Prod.mk.injEq] at success
        rw [← success.2]
        simp only
        omega
    · split at success
      · simp at success
      · simp only [Prod.mk.injEq] at success
        rw [← success.2]
        omega

/-! ## Calls of the `FAMMonitor` family -/

theorem gaminWriteByte_completes (packet : GAMPacket) (written : WriteAnswer) :
    (gaminWriteByte packet.encode written).1 =
      if written.Completes (gamPacketHeaderLen + packet.path.length) then 0 else -1 := by
  cases written with
  | complete => rfl
  | failedBehind bytes =>
    simp only [gaminWriteByte, GAMPacket.encode_length]
    by_cases early : bytes < gamPacketHeaderLen + packet.path.length
    · have fails : ¬ WriteAnswer.Completes (gamPacketHeaderLen + packet.path.length)
          (.failedBehind bytes) := not_le.mpr early
      rw [if_pos early, if_neg fails]
    · have completes : WriteAnswer.Completes (gamPacketHeaderLen + packet.path.length)
          (.failedBehind bytes) := not_lt.mp early
      rw [if_neg early, if_pos completes]

/-- The end of `gamin_send_request` fails with the write. -/
theorem writeRequest_settled (type : Nat) (path : Bytes) (reqnum frReqnum : Int) (data : GAMData)
    (famErrno : FAMError) (written : WriteAnswer) :
    (writeRequest type path reqnum frReqnum data famErrno written).client = data ∧
      ((writeRequest type path reqnum frReqnum data famErrno written).result = -1 ↔
        ¬ written.Completes (gamPacketHeaderLen + path.length)) := by
  refine ⟨rfl, ?_⟩
  simp only [writeRequest, gaminWriteByte_completes, requestPacket]
  split <;> simp_all

/-- What sending a request does to the table: an entry that is made stays. -/
structure SendingSettled (sending : Sending) (conn : GAMData) (entered finishes : Prop) : Prop where
  kept : ¬ entered → sending.result = -1 ∧ sending.client.reqTab = conn.reqTab
  grown : entered → sending.client.reqTab ≠ conn.reqTab ∧ (sending.result = -1 ↔ ¬ finishes)
  shaped : TableShaped sending.client

/-- A list with an element more is another list. -/
theorem take_cons_drop_ne {Entry : Type*} (entries : List Entry) (entry : Entry) (index : Nat) :
    entries.take index ++ entry :: entries.drop index ≠ entries := by
  intro same
  have length := congrArg List.length same
  simp only [List.length_append, List.length_take, List.length_cons, List.length_drop] at length
  omega

/-- What adding a request does: it refuses, or it makes an entry. -/
structure EntrySettled (outcome : Option GAMReqData × GAMData) (conn : GAMData) (entered : Prop)
    (reqno : Int) : Prop where
  kept : ¬ entered → outcome.1 = none ∧ outcome.2.reqTab = conn.reqTab
  grown : entered → outcome.2.reqTab ≠ conn.reqTab ∧ ∃ req, outcome.1 = some req ∧ req.reqno = reqno
  shaped : TableShaped outcome.2

theorem not_granted {conn after : GAMData} {memory : Allocation}
    (answer : gaminAllocateRequest conn memory = (false, after)) : ¬ EntryGranted conn memory := by
  intro granted
  have yes := (gaminAllocateRequest_true_iff conn memory).mpr granted
  rw [answer] at yes
  contradiction

theorem gaminDataAddReq_settled {conn : GAMData} (shaped : TableShaped conn) (filename : Bytes)
    (type : Nat) (userData : Pointer) (memory : Allocation) :
    EntrySettled (gaminDataAddReq conn filename type userData memory) conn
      (EntryGranted conn memory) conn.reqno := by
  unfold gaminDataAddReq
  cases answer : gaminAllocateRequest conn memory with
  | mk granted after =>
    cases granted with
    | false =>
      obtain ⟨_, table, kept⟩ := gaminAllocateRequest_refused shaped (not_granted answer)
      rw [answer] at table kept
      exact ⟨fun _ => ⟨rfl, table⟩, fun granted => absurd granted (not_granted answer), kept⟩
    | true =>
      have granted : EntryGranted conn memory :=
        (gaminAllocateRequest_true_iff conn memory).mp (by rw [answer])
      obtain ⟨table, counter⟩ := gaminAllocateRequest_granted shaped.present answer
      have room := gaminAllocateRequest_room shaped answer
      refine ⟨fun refused => absurd granted refused, fun _ => ⟨?_, _, rfl, counter⟩, ?_, ?_⟩
      · simp [table]
      · intro missing
        have allocated := (gaminAllocateRequest_success answer).2.1
        exact absurd (allocated.symm.trans missing) (by decide)
      · intro _
        simp only [table, List.length_append, List.length_singleton]
        omega

theorem gaminDataAddReq2_settled {conn : GAMData} (shaped : TableShaped conn) (filename : Bytes)
    (type : Nat) (userData : Pointer) (reqno : Int) (memory : Allocation) :
    EntrySettled (gaminDataAddReq2 conn filename type userData reqno memory) conn
      (TableTakes conn reqno ∧ EntryGranted conn memory) reqno := by
  unfold gaminDataAddReq2
  simp only
  -- the search refuses the number, finds it taken, or gives its place
  by_cases refused : gaminDataGetReqLoc conn reqno < 0
  · rw [if_pos refused]
    exact ⟨fun _ => ⟨rfl, rfl⟩, fun entered => absurd entered.1.1 (not_le.mpr refused), shaped⟩
  · rw [if_neg refused]
    split
    · rename_i present
      exact ⟨fun _ => ⟨rfl, rfl⟩, fun entered => absurd present entered.1.2, shaped⟩
    · rename_i absent
      cases answer : gaminAllocateRequest conn memory with
      | mk granted after =>
        cases granted with
        | false =>
          obtain ⟨_, table, kept⟩ := gaminAllocateRequest_refused shaped (not_granted answer)
          rw [answer] at table kept
          exact ⟨fun _ => ⟨rfl, table⟩, fun entered => absurd entered.2 (not_granted answer), kept⟩
        | true =>
          have granted : EntryGranted conn memory :=
            (gaminAllocateRequest_true_iff conn memory).mp (by rw [answer])
          obtain ⟨table, _⟩ := gaminAllocateRequest_granted shaped.present answer
          have room := gaminAllocateRequest_room shaped answer
          refine ⟨fun outside => absurd ⟨⟨not_lt.mp refused, absent⟩, granted⟩ outside,
            fun _ => ⟨?_, _, rfl, rfl⟩, ?_, ?_⟩
          · rw [← table]
            exact take_cons_drop_ne after.reqTab _ _
          · intro missing
            have allocated := (gaminAllocateRequest_success answer).2.1
            exact absurd (allocated.symm.trans missing) (by decide)
          · intro _
            simp only [table, List.length_append, List.length_take, List.length_cons,
              List.length_drop]
            omega

/-- The rest of `gamin_send_request` undoes nothing. -/
theorem EntrySettled.sending {outcome : Option GAMReqData × GAMData} {conn : GAMData} {entered : Prop}
    {reqno : Int} (settled : EntrySettled outcome conn entered reqno) (type : Nat) (path : Bytes)
    (frReqnum : Int → Int) (reqnum : Int) (refusal famErrno : FAMError) (written : WriteAnswer) :
    SendingSettled
      (match (match outcome with
        | (none, conn) => ((-1 : Int), conn)
        | (some req, conn) => (req.reqno, conn)) with
      | (number, data) =>
        if number < 0 then ⟨-1, reqnum, data, refusal, []⟩
        else writeRequest type path number (frReqnum number) data famErrno written)
      conn entered (0 ≤ reqno ∧ written.Completes (gamPacketHeaderLen + path.length)) := by
  obtain ⟨made, data⟩ := outcome
  by_cases isEntered : entered
  · obtain ⟨different, req, rfl, rfl⟩ := settled.grown isEntered
    have shaped := settled.shaped
    by_cases negative : req.reqno < 0
    · simp only [if_pos negative]
      refine ⟨fun outside => absurd isEntered outside, fun _ => ⟨different, ?_⟩, shaped⟩
      exact iff_of_true rfl fun finishes => absurd finishes.1 (not_le.mpr negative)
    · simp only [if_neg negative]
      refine ⟨fun outside => absurd isEntered outside, fun _ => ⟨different, ?_⟩, shaped⟩
      rw [(writeRequest_settled type path _ _ data famErrno written).2,
        and_iff_right (not_lt.mp negative)]
  · obtain ⟨rfl, table⟩ := settled.kept isEntered
    exact ⟨fun _ => ⟨rfl, table⟩, fun inside => absurd inside isEntered, settled.shaped⟩

theorem gaminSendRequest_counted_settled {conn : GAMData} (shaped : TableShaped conn) {name : CString}
    (short : name.bytes.length < maxPathLen) (type : Nat) (reqnum : Int) (userData : Pointer)
    (famErrno : FAMError) (memory : Allocation) (written : WriteAnswer) :
    SendingSettled (gaminSendRequest type (some name) reqnum userData conn false famErrno memory written)
      conn (EntryGranted conn memory)
      (0 ≤ conn.reqno ∧ written.Completes (gamPacketHeaderLen + name.bytes.length)) := by
  have fits : ¬ name.bytes.length > maxPathLen := by omega
  simp only [gaminSendRequest, if_neg fits, Bool.false_eq_true, not_false_eq_true, if_true]
  exact (gaminDataAddReq_settled shaped name.bytes type userData memory).sending type name.bytes id
    reqnum .arg famErrno written

theorem gaminSendRequest_chosen_settled {conn : GAMData} (shaped : TableShaped conn) {name : CString}
    (short : name.bytes.length < maxPathLen) (type : Nat) (reqnum : Int) (userData : Pointer)
    (famErrno : FAMError) (memory : Allocation) (written : WriteAnswer) :
    SendingSettled (gaminSendRequest type (some name) reqnum userData conn true famErrno memory written)
      conn (TableTakes conn reqnum ∧ EntryGranted conn memory)
      (0 ≤ reqnum ∧ written.Completes (gamPacketHeaderLen + name.bytes.length)) := by
  have fits : ¬ name.bytes.length > maxPathLen := by omega
  simp only [gaminSendRequest, if_neg fits, not_true, if_false]
  exact (gaminDataAddReq2_settled shaped name.bytes type userData reqnum memory).sending type
    name.bytes (fun _ => reqnum) reqnum .mem famErrno written

/-- What a call of the family comes to when it reaches the table. -/
theorem famMonitor_reached {fc : FAMConnection} {filename : Option CString} {conn : GAMData}
    {name : CString} (reached : ReachesTable fc filename conn name) (type : Nat) (hasReqnum : Bool)
    (reqnum : Int) (userData : Pointer) (memory : Allocation) (written : WriteAnswer) :
    let sending := gaminSendRequest type (some name) reqnum userData conn hasReqnum fc.famErrno memory
      written
    let outcome := famMonitor type hasReqnum fc filename (some reqnum) userData memory written
    outcome.1 = sending.result ∧ outcome.2.2.1.client = some sending.client := by
  obtain ⟨client, opened, rfl, absolute, short⟩ := reached
  have accepted : ¬ (name.bytes[0]? ≠ some 47 ∨ name.bytes.length ≥ maxPathLen) := by
    rw [not_or]
    exact ⟨not_not.mpr absolute, by omega⟩
  simp only [famMonitor, if_neg accepted, client, if_neg (not_lt.mpr opened), and_self]

/-- A call of the family is harmless when what it makes of the table is finished. -/
theorem famMonitor_harmless_iff {fc : FAMConnection} (shaped : OfClient TableShaped fc) (type : Nat)
    (hasReqnum : Bool) (filename : Option CString) (request : Option Int) (userData : Pointer)
    (memory : Allocation) (written : WriteAnswer)
    (entered finishes : GAMData → CString → Int → Prop)
    (settled : ∀ conn name reqnum, ReachesTable fc filename conn name → request = some reqnum →
      SendingSettled (gaminSendRequest type (some name) reqnum userData conn hasReqnum fc.famErrno
        memory written) conn (entered conn name reqnum) (finishes conn name reqnum)) :
    OfClient TableShaped (famMonitor type hasReqnum fc filename request userData memory written).2.2.1 ∧
    (((famMonitor type hasReqnum fc filename request userData memory written).1 = -1 →
      requestTable (famMonitor type hasReqnum fc filename request userData memory written).2.2.1 =
        requestTable fc) ↔
    ∀ conn name reqnum, ReachesTable fc filename conn name → request = some reqnum →
      entered conn name reqnum → finishes conn name reqnum) := by
  -- the call comes to the table, or it is refused before that
  by_cases reaches : ∃ conn name reqnum, ReachesTable fc filename conn name ∧ request = some reqnum
  · obtain ⟨conn, name, reqnum, reached, rfl⟩ := reaches
    obtain ⟨result, client⟩ :=
      famMonitor_reached reached type hasReqnum reqnum userData memory written
    have done := settled conn name reqnum reached rfl
    refine ⟨.of_some client done.shaped, ?_⟩
    rw [result, requestTable, client, requestTable, reached.1]
    simp only [Option.map_some, Option.some.injEq]
    constructor
    · intro harmless other otherName number reachedOther same isEntered
      obtain rfl : conn = other := Option.some.inj (reached.1.symm.trans reachedOther.1)
      obtain rfl : name = otherName := Option.some.inj (reached.2.2.1.symm.trans reachedOther.2.2.1)
      obtain rfl : reqnum = number := same
      obtain ⟨different, fails⟩ := done.grown isEntered
      by_contra unfinished
      exact different (harmless (fails.mpr unfinished))
    · intro finish failed
      by_cases isEntered : entered conn name reqnum
      · exact absurd (finish conn name reqnum reached rfl isEntered)
          ((done.grown isEntered).2.mp failed)
      · exact (done.kept isEntered).2
  · rcases famMonitor_cases type hasReqnum fc filename request userData memory written with
      ⟨_, same, _⟩ | ⟨conn, name, reqnum, _, reached, number, _⟩
    · refine ⟨fun conn found => shaped conn (same.symm.trans found), ?_⟩
      refine iff_of_true (fun _ => by rw [requestTable, same, requestTable]) fun conn name reqnum reached number => ?_
      exact absurd ⟨conn, name, reqnum, reached, number⟩ reaches
    · exact absurd ⟨conn, name, reqnum, reached, number⟩ reaches

/-! ## `FAMCancelMonitor` -/

theorem gaminDataCancel_reqMax (conn : GAMData) (reqno : Int) :
    (gaminDataCancel conn reqno).2.reqMax = conn.reqMax := by
  simp only [gaminDataCancel]
  repeat' split
  all_goals rfl

/-- What cancelling does to the table. -/
theorem gaminDataCancel_table (conn : GAMData) (reqno : Int) :
    (gaminDataGetReq conn reqno = none → gaminDataCancel conn reqno = (-1, conn)) ∧
    ∀ req, gaminDataGetReq conn reqno = some req →
      (req.state = .reqCancelled → gaminDataCancel conn reqno = (0, conn)) ∧
      (req.state ≠ .reqCancelled → (gaminDataCancel conn reqno).1 = 1 ∧
        (gaminDataCancel conn reqno).2.reqTab ≠ conn.reqTab) := by
  simp only [gaminDataGetReq, gaminDataCancel]
  by_cases missing : gaminDataGetReqIdx conn reqno < 0
  · simp only [if_pos missing]
    exact ⟨fun _ => trivial, fun req found => by contradiction⟩
  · simp only [if_neg missing]
    cases found : conn.reqTab[(gaminDataGetReqIdx conn reqno).toNat]? with
    | none => exact ⟨fun _ => rfl, fun req impossible => by contradiction⟩
    | some data =>
      refine ⟨fun impossible => by contradiction, fun req same => ?_⟩
      obtain rfl : data = req := Option.some.inj same
      refine ⟨fun cancelled => by simp only [if_pos cancelled], fun live => ?_⟩
      simp only [if_neg live]
      refine ⟨trivial, fun unchanged => live ?_⟩
      obtain ⟨inside, entry⟩ := List.getElem?_eq_some_iff.mp found
      have there := congrArg (·[(gaminDataGetReqIdx conn reqno).toNat]?) unchanged
      simp only [List.getElem?_set_self inside, found, Option.some.injEq] at there
      exact congrArg GAMReqData.state there.symm

theorem famCancelMonitor_harmless_iff {fc : FAMConnection} (shaped : OfClient TableShaped fc)
    (request : Option Int) (written : WriteAnswer) :
    OfClient TableShaped (famCancelMonitor fc request written).2.1 ∧
    (((famCancelMonitor fc request written).1 = -1 →
      requestTable (famCancelMonitor fc request written).2.1 = requestTable fc) ↔
    CancelFinishes fc request written) := by
  cases request with
  | none =>
    refine ⟨shaped, iff_of_true (fun _ => rfl) fun conn reqnum req _ _ impossible => ?_⟩
    contradiction
  | some reqnum =>
    cases client : fc.client with
    | none =>
      refine ⟨fun conn found => ?_, iff_of_true (fun _ => ?_) fun conn number req found => ?_⟩
      · simp only [famCancelMonitor, client] at found
        contradiction
      · simp only [famCancelMonitor, client, requestTable]
      · cases client.symm.trans found
    | some conn =>
      have live := shaped conn client
      by_cases closed : fc.fd < 0
      · simp only [famCancelMonitor, client, if_pos closed]
        refine ⟨.of_some rfl live, iff_of_true (fun _ => ?_) fun conn number req _ opened => ?_⟩
        · simp only [requestTable, client]
        · omega
      · have kept : TableShaped (gaminDataCancel conn reqnum).2 :=
          live.shrinks (gaminDataCancel_shrinks conn reqnum) (gaminDataCancel_reqMax conn reqnum)
        obtain ⟨absent, present⟩ := gaminDataCancel_table conn reqnum
        have opened := not_lt.mp closed
        -- the condition is about the one request that the number leads to
        have only : CancelFinishes fc (some reqnum) written ↔
            ∀ req, gaminDataGetReq conn reqnum = some req → req.state ≠ .reqCancelled →
              written.Completes gamPacketHeaderLen := by
          constructor
          · exact fun finishes req => finishes conn reqnum req client opened rfl
          · intro finishes other number req found _ same
            cases client.symm.trans found
            cases same
            exact finishes req
        rw [only]
        simp only [famCancelMonitor, client, if_neg closed]
        cases found : gaminDataGetReq conn reqnum with
        | none =>
          rw [absent found]
          refine ⟨.of_some rfl live, iff_of_true (fun _ => ?_) fun req impossible => ?_⟩
          · simp [requestTable, client]
          · contradiction
        | some req =>
          by_cases cancelled : req.state = .reqCancelled
          · -- the request stays cancelled, whatever becomes of the packet
            rw [(present req found).1 cancelled]
            refine ⟨.of_some rfl live, iff_of_true (fun _ => ?_) fun other same isLive => ?_⟩
            · simp [requestTable, client, gaminSendRequest, writeRequest]
            · cases same
              exact absurd cancelled isLive
          · obtain ⟨result, changed⟩ := (present req found).2 cancelled
            rw [show gaminDataCancel conn reqnum = (1, (gaminDataCancel conn reqnum).2) from
              Prod.ext result rfl]
            simp only [show ¬ (1 : Int) < 0 by decide, if_false, gaminSendRequest]
            obtain ⟨same, fails⟩ := writeRequest_settled gamReqCancel [] reqnum reqnum
              (gaminDataCancel conn reqnum).2 fc.famErrno written
            refine ⟨.of_some (congrArg some same) kept, ?_⟩
            simp only [requestTable, client, Option.map_some, same, Option.some.injEq, changed, fails,
              List.length_nil, Nat.add_zero, imp_false, not_not]
            constructor
            · exact fun completes other _ _ => completes
            · exact fun completes => completes req rfl cancelled

/-! ## Every sequence of calls -/

theorem gaminDataConnEvent_reqMax (conn : GAMData) :
    (gaminDataConnEvent conn).2.reqMax = conn.reqMax := by
  unfold gaminDataConnEvent
  grind

theorem gaminDataConnDataLoop_reqMax (conn : GAMData) :
    (gaminDataConnDataLoop conn).2.reqMax = conn.reqMax :=
  @gaminDataConnDataLoop_keeps (fun after => after.reqMax = conn.reqMax) (fun _ _ same => same)
    (fun same => (gaminDataConnEvent_reqMax _).trans same) conn rfl

theorem gaminDataConnData_reqMax (conn : GAMData) (len : Int) :
    (gaminDataConnData conn len).2.reqMax = conn.reqMax := by
  simp only [gaminDataConnData]
  repeat' split
  all_goals first | rfl | exact gaminDataConnDataLoop_reqMax _

theorem gaminDataEventReady_reqMax (conn : GAMData) :
    (gaminDataEventReady conn).2.reqMax = conn.reqMax := by
  simp only [gaminDataEventReady]
  repeat' split
  all_goals first | rfl | exact gaminDataConnData_reqMax _ _

theorem gaminReadData_reqMax (conn : GAMData) (answers : ReadAnswers) (block : Bool) :
    (gaminReadData conn answers block).2.1.reqMax = conn.reqMax := by
  have chunk (conn : GAMData) : (gaminReadChunk conn answers).2.1.reqMax = conn.reqMax := by
    unfold gaminReadChunk
    cases answers.read with
    | failed => rfl
    | endOfFile => rfl
    | data bytes => exact gaminDataConnData_reqMax _ _
  have checked : (gaminCheckCred conn answers).2.reqMax = conn.reqMax := by
    unfold gaminCheckCred
    repeat' split
    all_goals rfl
  simp only [gaminReadData]
  repeat' split
  all_goals first | rfl | exact checked | exact (chunk _).trans checked | exact chunk _

theorem gaminDataDelReq_reqMax (conn : GAMData) (reqno : Int) :
    (gaminDataDelReq conn reqno).2.reqMax = conn.reqMax := by
  simp only [gaminDataDelReq]
  split <;> rfl

theorem gaminDataReadEvent_reqMax (conn : GAMData) :
    (gaminDataReadEvent conn).2.reqMax = conn.reqMax := by
  simp only [gaminDataReadEvent]
  repeat' split
  all_goals first | rfl | exact gaminDataDelReq_reqMax _ _

theorem gaminTryReconnect_reqMax (conn : GAMData) (fd : Int) (answers : ReconnectAnswers) :
    (gaminTryReconnect conn fd answers).2.1.reqMax = conn.reqMax := by
  simp only [gaminTryReconnect]
  repeat' split
  all_goals rfl

theorem Shrinks.trans {first second third : GAMData} (before : Shrinks first second)
    (after : Shrinks second third) : Shrinks first third :=
  ⟨after.reqnos.trans before.reqnos, after.allocated.trans before.allocated⟩

theorem Shrinks.reading (conn : GAMData) : ReadingKeeps (Shrinks conn) where
  same := fun shrunk reqTab allocated => shrunk.trans (.of_same reqTab allocated)
  connEvent := fun before shrunk => shrunk.trans (gaminDataConnEvent_shrinks before)
  delReq := fun before reqno shrunk => shrunk.trans (gaminDataDelReq_shrinks before reqno)

theorem TableShaped.passes : PassesKeep TableShaped where
  eventReady := fun conn shaped =>
    shaped.shrinks ((Shrinks.reading conn).eventReady (.refl conn)) (gaminDataEventReady_reqMax conn)
  readData := fun conn answers block shaped _ =>
    shaped.shrinks ((Shrinks.reading conn).readData (.refl conn) answers block)
      (gaminReadData_reqMax conn answers block)
  readEvent := fun conn shaped =>
    shaped.shrinks ((Shrinks.reading conn).readEvent (.refl conn)) (gaminDataReadEvent_reqMax conn)
  tryReconnect := fun conn fd answers shaped =>
    shaped.shrinks ((Shrinks.reading conn).tryReconnect (.refl conn) fd answers)
      (gaminTryReconnect_reqMax conn fd answers)

/-- A call that registers or cancels is harmless or not by what it comes to. -/
theorem failureHarmless_iff {fc after : FAMConnection} {call : ApiCall} {result : Int}
    (outcome : registrationOutcome fc call = some (result, after)) :
    FailureHarmless fc call ↔ (result = -1 → requestTable after = requestTable fc) := by
  constructor
  · exact fun harmless => harmless result after outcome
  · intro harmless other otherAfter same
    cases outcome.symm.trans same
    exact harmless

theorem countedFinishes_iff (fc : FAMConnection) (filename : Option CString) (request : Option Int)
    (memory : Allocation) (written : WriteAnswer) :
    CountedFinishes fc filename request memory written ↔
      ∀ conn name reqnum, ReachesTable fc filename conn name → request = some reqnum →
        EntryGranted conn memory →
        0 ≤ conn.reqno ∧ written.Completes (gamPacketHeaderLen + name.bytes.length) := by
  constructor
  · intro finishes conn name reqnum reached same
    exact finishes conn name reached (by rw [same]; rfl)
  · intro finishes conn name reached given
    obtain ⟨reqnum, same⟩ := Option.isSome_iff_exists.mp given
    exact finishes conn name reqnum reached same

theorem chosenFinishes_iff (fc : FAMConnection) (filename : Option CString) (request : Option Int)
    (memory : Allocation) (written : WriteAnswer) :
    ChosenFinishes fc filename request memory written ↔
      ∀ conn name reqnum, ReachesTable fc filename conn name → request = some reqnum →
        TableTakes conn reqnum ∧ EntryGranted conn memory →
        0 ≤ reqnum ∧ written.Completes (gamPacketHeaderLen + name.bytes.length) := by
  simp only [ChosenFinishes, and_imp]

section

variable {fc : FAMConnection} (shaped : OfClient TableShaped fc)

include shaped

theorem countedCall_harmless_iff (type : Nat) (filename : Option CString) (request : Option Int)
    (userData : Pointer) (memory : Allocation) (written : WriteAnswer) :
    OfClient TableShaped (famMonitor type false fc filename request userData memory written).2.2.1 ∧
    (((famMonitor type false fc filename request userData memory written).1 = -1 →
      requestTable (famMonitor type false fc filename request userData memory written).2.2.1 =
        requestTable fc) ↔ CountedFinishes fc filename request memory written) := by
  rw [countedFinishes_iff]
  exact famMonitor_harmless_iff shaped type false filename request userData memory written
    (fun conn _ _ => EntryGranted conn memory)
    (fun conn name _ => 0 ≤ conn.reqno ∧ written.Completes (gamPacketHeaderLen + name.bytes.length))
    fun conn name reqnum reached _ => gaminSendRequest_counted_settled (shaped conn reached.1)
      reached.2.2.2.2 type reqnum userData fc.famErrno memory written

theorem chosenCall_harmless_iff (type : Nat) (filename : Option CString) (request : Option Int)
    (userData : Pointer) (memory : Allocation) (written : WriteAnswer) :
    OfClient TableShaped (famMonitor type true fc filename request userData memory written).2.2.1 ∧
    (((famMonitor type true fc filename request userData memory written).1 = -1 →
      requestTable (famMonitor type true fc filename request userData memory written).2.2.1 =
        requestTable fc) ↔ ChosenFinishes fc filename request memory written) := by
  rw [chosenFinishes_iff]
  exact famMonitor_harmless_iff shaped type true filename request userData memory written
    (fun conn _ reqnum => TableTakes conn reqnum ∧ EntryGranted conn memory)
    (fun _ name reqnum => 0 ≤ reqnum ∧ written.Completes (gamPacketHeaderLen + name.bytes.length))
    fun conn name reqnum reached _ => gaminSendRequest_chosen_settled (shaped conn reached.1)
      reached.2.2.2.2 type reqnum userData fc.famErrno memory written

/-- A call keeps the shape of the table, and is harmless exactly when it finishes what it began. -/
theorem apiStep_harmless_iff (call : ApiCall) :
    (FailureHarmless fc call ↔ Finishes fc call) ∧
      ∀ after, apiStep fc call = some after → OfClient TableShaped after := by
  -- only calls that monitor or cancel send a request
  cases call with
  | monitorDirectory filename request userData memory written =>
    obtain ⟨kept, harmless⟩ :=
      countedCall_harmless_iff shaped gamReqDir filename request userData memory written
    exact ⟨(failureHarmless_iff rfl).trans harmless, fun after returned => by cases returned; exact kept⟩
  | monitorFile filename request userData memory written =>
    obtain ⟨kept, harmless⟩ :=
      countedCall_harmless_iff shaped gamReqFile filename request userData memory written
    exact ⟨(failureHarmless_iff rfl).trans harmless, fun after returned => by cases returned; exact kept⟩
  | monitorDirectory2 filename request memory written =>
    obtain ⟨kept, harmless⟩ :=
      chosenCall_harmless_iff shaped gamReqDir filename request 0 memory written
    exact ⟨(failureHarmless_iff rfl).trans harmless, fun after returned => by cases returned; exact kept⟩
  | monitorFile2 filename request memory written =>
    obtain ⟨kept, harmless⟩ :=
      chosenCall_harmless_iff shaped gamReqFile filename request 0 memory written
    exact ⟨(failureHarmless_iff rfl).trans harmless, fun after returned => by cases returned; exact kept⟩
  | nextEvent answers reconnect =>
    refine ⟨iff_of_true (fun _ _ impossible => by cases impossible) trivial, fun after returned => ?_⟩
    cases returned
    exact TableShaped.passes.nextEvent shaped answers reconnect
  | pending available answers reconnect =>
    refine ⟨iff_of_true (fun _ _ impossible => by cases impossible) trivial, fun after returned => ?_⟩
    cases returned
    exact TableShaped.passes.pending shaped available answers reconnect
  | cancelMonitor request written =>
    obtain ⟨kept, harmless⟩ := famCancelMonitor_harmless_iff shaped request written
    exact ⟨(failureHarmless_iff rfl).trans harmless, fun after returned => by cases returned; exact kept⟩
  | noExists =>
    refine ⟨iff_of_true (fun _ _ impossible => by cases impossible) trivial, fun after returned => ?_⟩
    simp only [apiStep, famNoExists] at returned
    cases client : fc.client with
    | none => simp [client] at returned
    | some conn =>
      simp only [client, Option.map_some, Option.some.injEq] at returned
      rw [← returned]
      exact .of_some rfl ((shaped conn client).shrinks (.of_same rfl rfl) rfl)

end

/-- In every state that calls lead to, a call that fails leaves the table alone exactly when
whatever it did to the table is finished. -/
theorem failures_harmless_iff (start : FAMConnection)
    (fresh : ∀ conn, start.client = some conn → conn = gaminDataNew) (calls : List ApiCall)
    (fc : FAMConnection) (reached : run (partialStep apiStep) (some start) calls = some fc)
    (call : ApiCall) : FailureHarmless fc call ↔ Finishes fc call := by
  have shapedStart : OfClient TableShaped start := by
    intro conn client
    rw [fresh conn client]
    exact ⟨fun _ => rfl, fun allocated => nomatch allocated⟩
  have throughout : Throughout (partialStep apiStep) (IfAny (OfClient TableShaped)) (some start) calls :=
    .of_partial_kept (fun fc call after shaped => (apiStep_harmless_iff shaped call).2 after) shapedStart calls
  have last := throughout.last
  rw [reached] at last
  exact (apiStep_harmless_iff last call).1

/-- Asks for /b on a connection that the server has closed. -/
def unwrittenCall : ApiCall :=
  .monitorFile (some pathB) (some 0) 9 ⟨true, true, true⟩ (.failedBehind 0)

theorem failures_harmless_iff_refused :
    FailureHarmless openedConnection
        (.monitorFile (some pathB) (some 0) 9 ⟨true, false, true⟩ (.failedBehind 0)) ↔
      Finishes openedConnection
        (.monitorFile (some pathB) (some 0) 9 ⟨true, false, true⟩ (.failedBehind 0)) :=
  failures_harmless_iff openedConnection (fun _ client => (Option.some.inj client).symm) []
    openedConnection rfl _

/-- The call fails, and the next reconnection registers the request all the same. -/
theorem unwritten_request_registered :
    ¬ FailureHarmless openedConnection unwrittenCall ∧
      (registrationOutcome openedConnection unwrittenCall).map
          (fun outcome => (outcome.1, outcome.2.client.map fun conn =>
            (gaminTryReconnect conn 3 ⟨true, true, true, true⟩).2.2.map (·.path))) =
        some (-1, some [[47, 98]]) := by
  refine ⟨?_, by decide +kernel⟩
  rw [failureHarmless_iff rfl]
  decide +kernel

end Gamin.Client
