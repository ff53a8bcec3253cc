import Gamin.Client.Failures
import Gamin.Client.NextEvent
import Gamin.Client.Restart

/-! # Events after a cancellation

`FAMCancelMonitor` marks the request as cancelled, and `gamin_data_conn_event` then drops all its
events but the Acknowledge.  An event that was accepted before stays ready and is handed out by
the next call of `FAMNextEvent`.
-/

namespace Gamin.Client

open Gamin Gamin.Library

/-! ## What should hold, and when -/

/-- The numbers in the request table, as often as they are there. -/
def requestNumbers (fc : FAMConnection) : List Int := ((requestTable fc).map reqnos).getD []

/-- The number that a successful `FAMCancelMonitor` is about. -/
def cancelledBy (fc : FAMConnection) : ApiCall → List Int
  | .cancelMonitor request written => if (famCancelMonitor fc request written).1 = 0 then request.toList else []
  | _ => []

/-- A connection, and the numbers that were cancelled and not registered again. -/
structure CancelHistory where
  fc : FAMConnection
  cancelled : List Int

/-- A number is registered again by a call that puts it into the table once more. -/
def cancelStep (history : CancelHistory) (call : ApiCall) : Option CancelHistory :=
  (apiStep history.fc call).map fun after =>
    { fc := after
      cancelled := (cancelledBy history.fc call ++ history.cancelled).filter fun reqno =>
        (requestNumbers after).count reqno ≤ (requestNumbers history.fc).count reqno }

/-- `FAMNextEvent` returns nothing for a cancelled number but the Acknowledge. -/
def SilentWhenCancelled (history : CancelHistory) : ApiCall → Prop
  | .nextEvent answers reconnect =>
    ∀ event, (famNextEvent history.fc answers reconnect).1 = some event →
      event.reqnum ∈ history.cancelled → event.code = famAcknowledge
  | _ => True

/-- The events of a request in this state are dropped, but for the Acknowledge. -/
def GAMReqState.Drops (state : GAMReqState) : Prop := state ≠ .reqInit ∧ state ≠ .reqConfirmed

instance (state : GAMReqState) : Decidable state.Drops := inferInstanceAs (Decidable (_ ∧ _))

/-- No event of the request is ready but an Acknowledge, and no other request that is not cancelled has
the same number. -/
structure CancelsInTime (conn : GAMData) (reqno : Int) : Prop where
  ready : conn.evnReady = true → conn.evnReqnum = reqno → packetType conn.event 0 = famAcknowledge
  others : ∀ (index : Nat) (inside : index < conn.reqTab.length), conn.reqTab[index].reqno = reqno →
    (index : Int) ≠ gaminDataGetReqIdx conn reqno → conn.reqTab[index].state.Drops

instance (conn : GAMData) (reqno : Int) : Decidable (CancelsInTime conn reqno) :=
  decidable_of_iff
    ((conn.evnReady = true → conn.evnReqnum = reqno → packetType conn.event 0 = famAcknowledge) ∧
      ∀ (index : Nat) (inside : index < conn.reqTab.length), conn.reqTab[index].reqno = reqno →
        (index : Int) ≠ gaminDataGetReqIdx conn reqno → conn.reqTab[index].state.Drops)
    ⟨fun both => ⟨both.1, both.2⟩, fun inTime => ⟨inTime.ready, inTime.others⟩⟩

instance (property : GAMData → Prop) [DecidablePred property] (fc : FAMConnection) :
    Decidable (OfClient property fc) :=
  match client : fc.client with
  | none => .isTrue fun _ found => nomatch client.symm.trans found
  | some conn => decidable_of_iff (property conn)
    ⟨fun holds => .of_some client holds, fun holds => holds conn client⟩

/-- The condition on one call. -/
def CancelGuard (history : CancelHistory) (call : ApiCall) : Prop :=
  ∀ reqno ∈ cancelledBy history.fc call, OfClient (CancelsInTime · reqno) history.fc

instance (history : CancelHistory) (call : ApiCall) : Decidable (CancelGuard history call) :=
  inferInstanceAs (Decidable (∀ reqno ∈ cancelledBy history.fc call, _))

/-! ## A connection that says nothing about a request -/

/-- Every request with the number drops its events, and none of them is ready. -/
structure Quiet (reqno : Int) (conn : GAMData) : Prop where
  drops : ∀ req ∈ conn.reqTab, req.reqno = reqno → req.state.Drops
  ready : conn.evnReady = true → conn.evnReqnum = reqno → packetType conn.event 0 = famAcknowledge

section

variable {reqno : Int} {conn : GAMData}

theorem Quiet.idle (drops : ∀ req ∈ conn.reqTab, req.reqno = reqno → req.state.Drops)
    (idle : conn.evnReady = false) : Quiet reqno conn :=
  ⟨drops, fun ready => by simp [idle] at ready⟩

/-- What `gamin_data_get_req` finds is in the table under that number. -/
theorem gaminDataGetReq_mem {req : GAMReqData} (found : gaminDataGetReq conn reqno = some req) :
    req ∈ conn.reqTab ∧ req.reqno = reqno ∧
      conn.reqTab[(gaminDataGetReqIdx conn reqno).toNat]? = some req := by
  unfold gaminDataGetReq at found
  dsimp only at found
  split at found
  · contradiction
  · rename_i located
    obtain ⟨inside, same⟩ := getReqIdx_sound (not_lt.mp located)
    refine ⟨List.mem_of_getElem? found, ?_, found⟩
    rw [List.getElem?_eq_getElem inside, Option.some.injEq] at found
    rw [← found, same]

/-- Requests that keep their number and their state, but for the first event of one that was not
confirmed. -/
theorem drops_set {table : List GAMReqData} (drops : ∀ req ∈ table, req.reqno = reqno → req.state.Drops)
    {index : Nat} {entry : GAMReqData} (new : entry.reqno = reqno → entry.state.Drops) :
    ∀ req ∈ table.set index entry, req.reqno = reqno → req.state.Drops := by
  intro req member same
  rcases List.mem_or_eq_of_mem_set member with old | rfl
  · exact drops req old same
  · exact new same

/-- One packet: an event of a request that drops them is not accepted. -/
theorem Quiet.connEvent (quiet : Quiet reqno conn) : Quiet reqno (gaminDataConnEvent conn).2 := by
  unfold gaminDataConnEvent
  dsimp only
  cases found : gaminDataGetReq conn (packetSeq conn.event 0) with
  | none => exact quiet
  | some req =>
    obtain ⟨member, number, position⟩ := gaminDataGetReq_mem found
    dsimp only
    split
    · exact quiet
    rename_i live
    split
    · exact quiet
    rename_i wanted
    -- a request that drops its events lets nothing but an acknowledge through
    have accepted (same : (packetSeq conn.event 0 : Int) = reqno) : packetType conn.event 0 = famAcknowledge := by
      obtain ⟨notInit, notConfirmed⟩ := quiet.drops req member (number.trans same)
      cases state : req.state <;> simp_all
    have drops (confirmed : req.state = .reqInit) : ∀ other ∈ conn.reqTab.set
        (gaminDataGetReqIdx conn (packetSeq conn.event 0)).toNat { req with state := .reqConfirmed },
        other.reqno = reqno → other.state.Drops :=
      drops_set quiet.drops fun same => absurd confirmed (quiet.drops req member same).1
    -- the first event of a request confirms it, which is written to the table
    by_cases confirmed : req.state = .reqInit
    · simp only [if_pos confirmed]
      repeat' split
      all_goals first
        | exact ⟨drops confirmed, quiet.ready⟩
        | exact ⟨drops confirmed, fun _ => accepted⟩
    · simp only [if_neg confirmed]
      repeat' split
      all_goals first
        | exact ⟨quiet.drops, quiet.ready⟩
        | exact ⟨quiet.drops, fun _ => accepted⟩

theorem Quiet.connDataLoop (drops : ∀ req ∈ conn.reqTab, req.reqno = reqno → req.state.Drops)
    (idle : conn.evnReady = false) : Quiet reqno (gaminDataConnDataLoop conn).2 := by
  fun_induction gaminDataConnDataLoop conn with
  | case1 | case2 | case3 | case4 | case5 | case6 => exact .idle drops idle
  | case7 conn _ _ _ _ _ _ result after decided | case8 conn _ _ _ _ _ _ result after decided =>
    have kept := (Quiet.idle drops idle).connEvent
    rw [decided] at kept
    exact kept
  | case9 conn _ _ _ _ _ _ result after decided _ dropped =>
    have kept := (Quiet.idle drops idle).connEvent
    rw [decided] at kept
    exact ⟨kept.drops, kept.ready⟩
  | case10 conn _ _ _ _ _ _ result after decided _ dropped _ inductionHypothesis =>
    have kept := (Quiet.idle drops idle).connEvent
    rw [decided] at kept
    exact inductionHypothesis kept.drops (eq_false_of_ne_true dropped)

theorem Quiet.connData (drops : ∀ req ∈ conn.reqTab, req.reqno = reqno → req.state.Drops)
    (idle : conn.evnReady = false) (len : Int) : Quiet reqno (gaminDataConnData conn len).2 := by
  unfold gaminDataConnData
  split
  · exact .idle drops idle
  · split
    · exact .idle drops idle
    · exact .connDataLoop drops idle

theorem Quiet.readChunk (drops : ∀ req ∈ conn.reqTab, req.reqno = reqno → req.state.Drops)
    (idle : conn.evnReady = false) (answers : ReadAnswers) : Quiet reqno (gaminReadChunk conn answers).2.1 := by
  unfold gaminReadChunk
  cases answers.read with
  | failed => exact .idle drops idle
  | endOfFile => exact .idle drops idle
  | data bytes =>
    exact @Quiet.connData reqno { conn with event := store conn.event conn.evnRead.toNat bytes } drops idle _

theorem Quiet.readData (drops : ∀ req ∈ conn.reqTab, req.reqno = reqno → req.state.Drops)
    (idle : conn.evnReady = false) (answers : ReadAnswers) (block : Bool) :
    Quiet reqno (gaminReadData conn answers block).2.1 := by
  have checked : (gaminCheckCred conn answers).2.reqTab = conn.reqTab ∧
      (gaminCheckCred conn answers).2.evnReady = false := by
    unfold gaminCheckCred
    repeat' split
    all_goals exact ⟨rfl, idle⟩
  obtain ⟨table, stillIdle⟩ := checked
  rw [← table] at drops
  unfold gaminReadData
  simp only
  repeat' split
  all_goals first
    | exact .idle drops stillIdle
    | exact .readChunk drops stillIdle answers
    | exact .idle (table ▸ drops) idle
    | exact .readChunk (table ▸ drops) idle answers

/-- An event that is handed out is no longer ready. -/
theorem Quiet.readEvent (quiet : Quiet reqno conn) : Quiet reqno (gaminDataReadEvent conn).2 := by
  unfold gaminDataReadEvent
  by_cases ready : conn.evnReady = true
  · rw [if_neg (not_not.mpr ready)]
    simp only [gaminDataDelReq]
    have fewer (index : Nat) : ∀ req ∈ conn.reqTab.eraseIdx index, req.reqno = reqno → req.state.Drops :=
      fun req member => quiet.drops req (List.mem_of_mem_eraseIdx member)
    repeat' split
    all_goals first
      | exact .idle quiet.drops rfl
      | exact .idle (fewer _) rfl
  · rw [if_pos ready]
    exact quiet

theorem Quiet.tryReconnect (quiet : Quiet reqno conn) (fd : Int) (answers : ReconnectAnswers) :
    Quiet reqno (gaminTryReconnect conn fd answers).2.1 := by
  simp only [gaminTryReconnect, gaminDataReset]
  repeat' split
  all_goals first
    | exact quiet
    | exact .idle quiet.drops rfl

theorem Quiet.passes (reqno : Int) : PassesKeep (Quiet reqno) where
  eventReady conn quiet := by
    unfold gaminDataEventReady
    cases ready : conn.evnReady with
    | true => exact quiet
    | false =>
      simp only [Bool.false_eq_true, if_false]
      split
      · exact .connData quiet.drops ready 0
      · exact quiet
  readData _ answers block quiet idle := .readData quiet.drops idle answers block
  readEvent _ quiet := quiet.readEvent
  tryReconnect _ fd answers quiet := quiet.tryReconnect fd answers

/-- What is ready and about the request is an Acknowledge. -/
theorem Quiet.handedOut (quiet : Quiet reqno conn) {event : FAMEvent}
    (handedOut : (gaminDataReadEvent conn).1 = some event) (about : event.reqnum = reqno) :
    event.code = famAcknowledge := by
  cases ready : conn.evnReady with
  | false =>
    rw [gaminDataReadEvent_idle ready] at handedOut
    contradiction
  | true =>
    rw [gaminDataReadEvent_first ready, Option.some.injEq] at handedOut
    subst handedOut
    exact quiet.ready ready about

theorem famNextEvent_silent {fc : FAMConnection} (quiet : OfClient (Quiet reqno) fc) {answers : ReadAnswers}
    {reconnect : ReconnectAnswers} {event : FAMEvent}
    (handedOut : (famNextEvent fc answers reconnect).1 = some event) (about : event.reqnum = reqno) :
    event.code = famAcknowledge := by
  cases client : fc.client with
  | none => simp [famNextEvent, client] at handedOut
  | some conn =>
    by_cases closed : fc.fd < 0
    · simp [famNextEvent, client, closed] at handedOut
    · have decoded := (Quiet.passes reqno).eventReady conn (quiet conn client)
      rw [famNextEvent_result client (not_lt.mp closed)] at handedOut
      split at handedOut
      · exact decoded.handedOut handedOut about
      · rename_i waits
        split at handedOut
        · contradiction
        · have idle := (gaminDataEventReady_answer conn).symm.trans (eq_false_of_ne_true waits)
          exact (Quiet.readData decoded.drops idle answers true).handedOut handedOut about

end

/-! ## The other calls -/

section

variable {reqno : Int} {conn : GAMData}

/-- An operation that only changes the request table and the counter. -/
def SameEvent (before after : GAMData) : Prop :=
  after.evnReady = before.evnReady ∧ after.evnReqnum = before.evnReqnum ∧ after.event = before.event

theorem Quiet.of_sameEvent (quiet : Quiet reqno conn) {after : GAMData} (same : SameEvent conn after)
    (drops : ∀ req ∈ after.reqTab, req.reqno = reqno → req.state.Drops) : Quiet reqno after := by
  obtain ⟨ready, number, event⟩ := same
  refine ⟨drops, fun isReady about => ?_⟩
  rw [event]
  exact quiet.ready (ready.symm.trans isReady) (number.symm.trans about)

theorem gaminAllocateRequest_sameEvent (conn : GAMData) (memory : Allocation) :
    SameEvent conn (gaminAllocateRequest conn memory).2 := by
  unfold gaminAllocateRequest
  simp only
  repeat' split
  all_goals exact ⟨rfl, rfl, rfl⟩

theorem gaminDataAddReq_sameEvent (conn : GAMData) (filename : Bytes) (type : Nat) (userData : Pointer)
    (memory : Allocation) : SameEvent conn (gaminDataAddReq conn filename type userData memory).2 := by
  have allocated := gaminAllocateRequest_sameEvent conn memory
  unfold gaminDataAddReq
  generalize gaminAllocateRequest conn memory = outcome at allocated ⊢
  obtain ⟨granted, after⟩ := outcome
  cases granted with
  | false => exact allocated
  | true => exact allocated

theorem gaminDataAddReq2_sameEvent (conn : GAMData) (filename : Bytes) (type : Nat) (userData : Pointer)
    (number : Int) (memory : Allocation) :
    SameEvent conn (gaminDataAddReq2 conn filename type userData number memory).2 := by
  have allocated := gaminAllocateRequest_sameEvent conn memory
  unfold gaminDataAddReq2
  generalize gaminAllocateRequest conn memory = outcome at allocated ⊢
  obtain ⟨granted, after⟩ := outcome
  simp only
  split
  · exact ⟨rfl, rfl, rfl⟩
  · split
    · exact ⟨rfl, rfl, rfl⟩
    · cases granted with
      | false => exact allocated
      | true => exact allocated

/-- A new entry under another number changes nothing; one under this number is seen in the table. -/
theorem Quiet.entered (quiet : Quiet reqno conn) {after : GAMData} (same : SameEvent conn after)
    {index : Nat} {entry : GAMReqData}
    (table : after.reqTab = conn.reqTab.take index ++ entry :: conn.reqTab.drop index) :
    Quiet reqno after ∨ (reqnos conn.reqTab).count reqno < (reqnos after.reqTab).count reqno := by
  by_cases here : entry.reqno = reqno
  · right
    have parts : (reqnos conn.reqTab).count reqno =
        (reqnos (conn.reqTab.take index)).count reqno + (reqnos (conn.reqTab.drop index)).count reqno := by
      rw [← List.count_append, reqnos, reqnos, reqnos, ← List.map_append, List.take_append_drop]
    rw [table, parts, reqnos, reqnos, reqnos, List.map_append, List.map_cons, List.count_append, here,
      List.count_cons_self]
    omega
  · refine .inl (quiet.of_sameEvent same fun req member => ?_)
    rw [table, List.mem_append, List.mem_cons] at member
    rcases member with front | rfl | back
    · exact quiet.drops req (List.mem_of_mem_take front)
    · exact fun about => absurd about here
    · exact quiet.drops req (List.mem_of_mem_drop back)

theorem Quiet.taken (quiet : Quiet reqno conn) {after : GAMData} (same : SameEvent conn after) {count : Nat}
    (table : after.reqTab = conn.reqTab.take count) : Quiet reqno after := by
  refine quiet.of_sameEvent same fun req member => ?_
  rw [table] at member
  exact quiet.drops req (List.mem_of_mem_take member)

/-- Sending a monitor request says nothing about a request unless it enters the number. -/
theorem gaminSendRequest_quiet (quiet : Quiet reqno conn) (present : ArrayPresent conn) (type : Nat) (name : CString)
    (reqnum : Int) (userData : Pointer) (hasReqnum : Bool) (famErrno : FAMError) (memory : Allocation)
    (written : WriteAnswer) {after : GAMData} (sent : (gaminSendRequest type (some name) reqnum userData conn
      hasReqnum famErrno memory written).client = after) :
    Quiet reqno after ∨ (reqnos conn.reqTab).count reqno < (reqnos after.reqTab).count reqno := by
  -- the number is counted by the library
  have counted {after : GAMData} (got : (gaminDataGetReqnum conn name.bytes type userData memory).2 = after) :
      Quiet reqno after ∨ (reqnos conn.reqTab).count reqno < (reqnos after.reqTab).count reqno := by
    rw [gaminDataGetReqnum_data] at got
    subst got
    have same := gaminDataAddReq_sameEvent conn name.bytes type userData memory
    rcases gaminDataAddReq_table present name.bytes type userData memory with
      ⟨_, count, table⟩ | ⟨_, _, table⟩
    · exact .inl (quiet.taken same table)
    · apply quiet.entered same
      rw [table, List.take_length, List.drop_length]
  -- the number is chosen by the caller
  have chosen {after : GAMData} (got : (gaminDataGetRequest conn name.bytes type userData reqnum memory).2 = after) :
      Quiet reqno after ∨ (reqnos conn.reqTab).count reqno < (reqnos after.reqTab).count reqno := by
    rw [gaminDataGetRequest_data] at got
    subst got
    have same := gaminDataAddReq2_sameEvent conn name.bytes type userData reqnum memory
    rcases gaminDataAddReq2_table present name.bytes type userData reqnum memory with
      ⟨_, count, table⟩ | ⟨_, index, table⟩
    · exact .inl (quiet.taken same table)
    · exact quiet.entered same table
  subst sent
  simp only [gaminSendRequest]
  repeat' split
  all_goals first
    | exact .inl quiet
    | exact counted rfl
    | exact chosen rfl

/-- A call of the `FAMMonitor` family. -/
theorem famMonitor_quiet {fc : FAMConnection} (quiet : OfClient (Quiet reqno) fc)
    (present : OfClient ArrayPresent fc) (type : Nat) (hasReqnum : Bool) (filename : Option CString)
    (request : Option Int) (userData : Pointer) (memory : Allocation) (written : WriteAnswer)
    {after : FAMConnection} (returned :
      (famMonitor type hasReqnum fc filename request userData memory written).2.2.1 = after) :
    OfClient (Quiet reqno) after ∨ (requestNumbers fc).count reqno < (requestNumbers after).count reqno := by
  subst returned
  rcases famMonitor_cases type hasReqnum fc filename request userData memory written with
    ⟨_, client, _⟩ | ⟨conn, name, reqnum, sending, reached, _, sent, monitored⟩
  · refine .inl fun conn found => quiet conn ?_
    rw [← client]
    exact found
  · rw [monitored]
    have done := gaminSendRequest_quiet (quiet conn reached.1) (present conn reached.1) type name reqnum
      userData hasReqnum fc.famErrno memory written (congrArg Sending.client sent.symm)
    refine done.imp (fun quietAfter => .of_some rfl quietAfter) fun more => ?_
    simpa only [requestNumbers, requestTable, reached.1, Option.map_some, Option.getD_some] using more

/-! ## Cancelling -/

theorem gaminDataCancel_sameEvent (conn : GAMData) (number : Int) :
    SameEvent conn (gaminDataCancel conn number).2 := by
  simp only [gaminDataCancel]
  repeat' split
  all_goals exact ⟨rfl, rfl, rfl⟩

theorem Quiet.cancel (quiet : Quiet reqno conn) (number : Int) : Quiet reqno (gaminDataCancel conn number).2 := by
  refine quiet.of_sameEvent (gaminDataCancel_sameEvent conn number) ?_
  simp only [gaminDataCancel]
  repeat' split
  all_goals first
    | exact quiet.drops
    | exact drops_set quiet.drops fun _ => ⟨by simp, by simp⟩

/-- A request that is cancelled in time is not heard of again. -/
theorem CancelsInTime.quiet (inTime : CancelsInTime conn reqno) (found : 0 ≤ (gaminDataCancel conn reqno).1) :
    Quiet reqno (gaminDataCancel conn reqno).2 := by
  obtain ⟨ready, number, event⟩ := gaminDataCancel_sameEvent conn reqno
  refine ⟨?_, fun isReady about => ?_⟩
  · -- the one that is found is cancelled, and the others were
    simp only [gaminDataCancel] at found ⊢
    split at found
    · contradiction
    rename_i located
    split at found
    · contradiction
    rename_i data lookup
    simp only [if_neg located]
    split at found
    · rename_i cancelled
      simp only [if_pos cancelled]
      intro req member about
      obtain ⟨index, inside, rfl⟩ := List.mem_iff_getElem.mp member
      by_cases here : (index : Int) = gaminDataGetReqIdx conn reqno
      · rw [show (gaminDataGetReqIdx conn reqno).toNat = index by omega, List.getElem?_eq_getElem inside,
          Option.some.injEq] at lookup
        rw [GAMReqState.Drops, lookup, cancelled]
        exact ⟨by simp, by simp⟩
      · exact inTime.others index inside about here
    · rename_i active
      -- an active request is marked in its place
      simp only [if_neg active]
      intro req member about
      obtain ⟨index, inside, rfl⟩ := List.mem_iff_getElem.mp member
      by_cases here : (gaminDataGetReqIdx conn reqno).toNat = index
      · simp only [here, List.getElem_set_self]
        exact ⟨by simp, by simp⟩
      · rw [List.getElem_set_ne here] at about ⊢
        exact inTime.others index (by simpa using inside) about (by omega)
  · rw [event]
    exact inTime.ready (ready.symm.trans isReady) (number.symm.trans about)

theorem famCancelMonitor_quiet {fc : FAMConnection} (quiet : OfClient (Quiet reqno) fc) (request : Option Int)
    (written : WriteAnswer) : OfClient (Quiet reqno) (famCancelMonitor fc request written).2.1 := by
  unfold famCancelMonitor
  split
  case h_1 number conn client =>
    have cancelled := (quiet conn client).cancel number
    split
    · exact quiet
    · dsimp only
      split <;> exact .of_some rfl cancelled
  case h_2 => exact quiet

theorem famCancelMonitor_inTime {fc : FAMConnection} {request : Option Int} {written : WriteAnswer}
    (cancelled : reqno ∈ cancelledBy fc (.cancelMonitor request written))
    (inTime : OfClient (CancelsInTime · reqno) fc) :
    OfClient (Quiet reqno) (famCancelMonitor fc request written).2.1 := by
  simp only [cancelledBy] at cancelled
  split at cancelled
  case isFalse => contradiction
  case isTrue success =>
    have isRequest : request = some reqno := Option.mem_toList.mp cancelled
    subst isRequest
    unfold famCancelMonitor at success ⊢
    cases client : fc.client with
    | none => simp [client] at success
    | some conn =>
      simp only [client] at success ⊢
      split at success
      · contradiction
      · rename_i opened
        simp only [if_neg opened]
        split at success
        · contradiction
        · rename_i found
          simp only [if_neg found]
          exact .of_some rfl ((inTime conn client).quiet (not_lt.mp found))

end

/-! ## Every run -/

/-- What a run keeps: the table has its shape, and cancelled requests are quiet. -/
structure HistoryQuiet (history : CancelHistory) : Prop where
  shaped : OfClient TableShaped history.fc
  quiet : ∀ reqno ∈ history.cancelled, OfClient (Quiet reqno) history.fc

/-- A request that was quiet stays so, or its number is registered again. -/
theorem apiStep_quiet {reqno : Int} {fc after : FAMConnection} (shaped : OfClient TableShaped fc)
    (quiet : OfClient (Quiet reqno) fc) {call : ApiCall} (returned : apiStep fc call = some after) :
    OfClient (Quiet reqno) after ∨ (requestNumbers fc).count reqno < (requestNumbers after).count reqno := by
  have present : OfClient ArrayPresent fc := fun conn client => (shaped conn client).present
  cases call with
  | monitorDirectory | monitorFile | monitorDirectory2 | monitorFile2 =>
    exact famMonitor_quiet quiet present _ _ _ _ _ _ _ (Option.some.inj returned)
  | nextEvent answers reconnect =>
    cases returned
    exact .inl ((Quiet.passes reqno).nextEvent quiet answers reconnect)
  | pending available answers reconnect =>
    cases returned
    exact .inl ((Quiet.passes reqno).pending quiet available answers reconnect)
  | cancelMonitor request written =>
    cases returned
    exact .inl (famCancelMonitor_quiet quiet request written)
  | noExists =>
    obtain ⟨⟨result, connection⟩, answer, rfl⟩ := Option.map_eq_some_iff.mp returned
    left
    unfold famNoExists at answer
    cases client : fc.client with
    | none => simp [client] at answer
    | some conn =>
      simp only [client, Option.some.injEq, Prod.mk.injEq] at answer
      rw [← answer.2]
      exact .of_some rfl ((quiet conn client).of_sameEvent ⟨rfl, rfl, rfl⟩ (quiet conn client).drops)

theorem HistoryQuiet.step {history after : CancelHistory} (invariant : HistoryQuiet history) {call : ApiCall}
    (guard : CancelGuard history call) (stepped : cancelStep history call = some after) : HistoryQuiet after := by
  obtain ⟨fc, returned, rfl⟩ := Option.map_eq_some_iff.mp stepped
  refine ⟨(apiStep_harmless_iff invariant.shaped call).2 fc returned, fun reqno listed => ?_⟩
  obtain ⟨cancelled, notAgain⟩ := List.mem_filter.mp listed
  cases List.mem_append.mp cancelled with
  | inl now =>
    cases call with
    | cancelMonitor request written =>
      cases returned
      exact famCancelMonitor_inTime now (guard reqno now)
    | monitorDirectory | monitorFile | monitorDirectory2 | monitorFile2 | nextEvent | pending | noExists =>
      contradiction
  | inr before =>
    refine (apiStep_quiet invariant.shaped (invariant.quiet reqno before) returned).resolve_right ?_
    simpa using notAgain

/-- As long as no request is cancelled while an event of it is ready, or while another one has the same
number, `FAMNextEvent` returns nothing for a cancelled request but the Acknowledge. -/
theorem cancelled_silent (calls : List ApiCall)
    (guarded : Guarded (partialStep cancelStep) (GuardIfAny CancelGuard) (some ⟨openedConnection, []⟩) calls) :
    Guarded (partialStep cancelStep) (GuardIfAny SilentWhenCancelled) (some ⟨openedConnection, []⟩) calls := by
  have start : HistoryQuiet ⟨openedConnection, []⟩ :=
    ⟨.of_some rfl ⟨fun _ => rfl, fun allocated => nomatch allocated⟩, fun _ none => nomatch none⟩
  refine guarded_of_returns (fun history call invariant guard => ⟨?_, fun after => invariant.step guard⟩) start guarded
  cases call with
  | nextEvent answers reconnect =>
    intro event handedOut cancelled
    exact famNextEvent_silent (invariant.quiet _ cancelled) handedOut rfl
  | monitorDirectory | monitorFile | monitorDirectory2 | monitorFile2 | cancelMonitor | pending | noExists =>
    trivial

/-! ## An event before and after the cancellation -/

def monitorB : ApiCall := .monitorFile (some pathB) (some 0) 9 ⟨true, true, true⟩ .complete

def readPackets (packets : List GAMPacket) : ReadAnswers := chunkAnswers (packets.flatMap GAMPacket.encode)

/-- The request is cancelled, and then a Created that was under way and the Acknowledge are read. -/
def cancelledFirst : List ApiCall :=
  [monitorB, .cancelMonitor (some 1) .complete,
    .pending 1 (readPackets [createdPacket, acknowledgePacket]) ⟨true, true, true, true⟩,
    .nextEvent (readPackets []) ⟨true, true, true, true⟩]

theorem cancelledFirst_silent :
    Guarded (partialStep cancelStep) (GuardIfAny SilentWhenCancelled) (some ⟨openedConnection, []⟩)
      cancelledFirst :=
  cancelled_silent _ (by decide +kernel)

/-- A Created has been read when the request is cancelled. -/
def readFirst : List ApiCall :=
  [monitorB, .pending 1 (readPackets [createdPacket]) ⟨true, true, true, true⟩, .cancelMonitor (some 1) .complete]

/-- The request is cancelled with success, and then the Created is returned. -/
theorem readFirst_speaks :
    ((run (partialStep cancelStep) (some ⟨openedConnection, []⟩) readFirst).map fun history =>
        (history.cancelled, (famNextEvent history.fc (readPackets []) ⟨true, true, true, true⟩).1.map
          fun event => (event.reqnum, event.code))) = some ([1], some (1, famCreated)) ∧
      ¬ Guarded (partialStep cancelStep) (GuardIfAny SilentWhenCancelled) (some ⟨openedConnection, []⟩)
        (readFirst ++ [.nextEvent (readPackets []) ⟨true, true, true, true⟩]) := by
  have spoken : ((run (partialStep cancelStep) (some ⟨openedConnection, []⟩) readFirst).map fun history =>
      (history.cancelled, (famNextEvent history.fc (readPackets []) ⟨true, true, true, true⟩).1.map
        fun event => (event.reqnum, event.code))) = some ([1], some (1, famCreated)) := by
    decide +kernel
  refine ⟨spoken, fun silent => ?_⟩
  obtain ⟨history, reached, told⟩ := Option.map_eq_some_iff.mp spoken
  have last := (guarded_append.mp silent).2.1
  rw [reached] at last
  simp only [Prod.mk.injEq] at told
  obtain ⟨event, handedOut, about⟩ := Option.map_eq_some_iff.mp told.2
  simp only [Prod.mk.injEq] at about
  have acknowledge := last event handedOut (by rw [told.1, about.1]; exact List.mem_singleton_self 1)
  exact absurd (acknowledge.symm.trans about.2) (by decide)

end Gamin.Client
