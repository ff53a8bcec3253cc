import Gamin.Client.Monitors

/-! # What reading keeps

`FAMNextEvent` and `FAMPending` decode packets, take requests off the table when they are
acknowledged, and otherwise only move bytes.  A property of the table that survives one decoded
packet and one deletion survives both functions, a reconnection included.
-/

namespace Gamin.Client

open Gamin Gamin.Library

/-- A property of the request table that the functions below the public ones keep. -/
structure ReadingKeeps (property : GAMData → Prop) : Prop where
  same : ∀ {before after : GAMData}, property before → after.reqTab = before.reqTab →
    after.reqTabAllocated = before.reqTabAllocated → property after
  connEvent : ∀ conn, property conn → property (gaminDataConnEvent conn).2
  delReq : ∀ conn reqno, property conn → property (gaminDataDelReq conn reqno).2

/-! ## A reading that fails -/

/-- The data that a call hands to `gamin_try_reconnect` because its reading has failed. -/
def failedReading (fc : FAMConnection) : ApiCall → Option (GAMData × ReconnectAnswers)
  | .nextEvent answers reconnect =>
    match fc.client with
    | none => none
    | some conn =>
      if fc.fd < 0 then none
      else
        match gaminDataEventReady conn with
        | (ready, conn) =>
          match if ready then ((0 : Int), conn, []) else gaminReadData conn answers true with
          | (result, conn, _) => if result < 0 then some (conn, reconnect) else none
  | .pending available answers reconnect =>
    match fc.client with
    | none => none
    | some conn =>
      match gaminDataEventReady conn with
      | (true, _) => none
      | (false, conn) =>
        let available : Int := if fc.fd < (0 : Int) then -1 else available
        if available > 0 then
          match gaminReadData conn answers false with
          | (result, conn, _) => if result < 0 then some (conn, reconnect) else none
        else none
  | _ => none

/-- The requests that a call registers again on a new connection, if it reconnects. -/
def reconnection (fc : FAMConnection) (call : ApiCall) : Option (List GAMReqData) :=
  (failedReading fc call).bind fun (conn, reconnect) =>
    if (gaminTryReconnect conn fc.fd reconnect).1 = 0 then some (gaminDataReset conn).1 else none

/-- `FAMNextEvent` ends with the data of the reconnection. -/
theorem famNextEvent_failed {fc : FAMConnection} {answers : ReadAnswers} {reconnect : ReconnectAnswers}
    {conn : GAMData} (failed : failedReading fc (.nextEvent answers reconnect) = some (conn, reconnect)) :
    (famNextEvent fc answers reconnect).2.client = some (gaminTryReconnect conn fc.fd reconnect).2.1 := by
  cases client : fc.client with
  | none => simp [failedReading, client] at failed
  | some before =>
    by_cases closed : fc.fd < 0
    · simp [failedReading, client, closed] at failed
    · simp only [failedReading, famNextEvent, client, if_neg closed] at failed ⊢
      generalize (if (gaminDataEventReady before).1 = true then
        ((0 : Int), (gaminDataEventReady before).2, ([] : Bytes))
        else gaminReadData (gaminDataEventReady before).2 answers true) = outcome at failed ⊢
      split at failed
      · rename_i negative
        simp only [Option.some.injEq, Prod.mk.injEq, and_true] at failed
        rw [if_pos negative, failed]
      · contradiction

/-- `FAMPending` looks for an event in the data of the reconnection. -/
theorem famPending_failed {fc : FAMConnection} {available : Int} {answers : ReadAnswers}
    {reconnect : ReconnectAnswers} {conn : GAMData}
    (failed : failedReading fc (.pending available answers reconnect) = some (conn, reconnect)) :
    (famPending fc available answers reconnect).2.client =
      some (gaminDataEventReady (gaminTryReconnect conn fc.fd reconnect).2.1).2 := by
  cases client : fc.client with
  | none => simp [failedReading, client] at failed
  | some before =>
    cases decoded : gaminDataEventReady before with
    | mk ready after =>
      cases ready with
      | true => simp [failedReading, client, decoded] at failed
      | false =>
        simp only [failedReading, famPending, client, decoded] at failed ⊢
        generalize (if fc.fd < (0 : Int) then -1 else available) = arrived at failed ⊢
        split at failed
        · rename_i positive
          rw [if_neg (by omega), if_pos positive]
          split at failed
          · rename_i negative
            simp only [Option.some.injEq, Prod.mk.injEq, and_true] at failed
            simp only [if_pos negative, failed]
          · contradiction
        · contradiction

/-! ## The public functions -/

/-- What the functions that `FAMNextEvent` and `FAMPending` call keep.  They read only when no event
is ready. -/
structure PassesKeep (property : GAMData → Prop) : Prop where
  eventReady : ∀ conn, property conn → property (gaminDataEventReady conn).2
  readData : ∀ conn answers block, property conn → conn.evnReady = false →
    property (gaminReadData conn answers block).2.1
  readEvent : ∀ conn, property conn → property (gaminDataReadEvent conn).2
  tryReconnect : ∀ conn fd answers, property conn → property (gaminTryReconnect conn fd answers).2.1

/-- The answer about an event is the flag of the data it leaves. -/
theorem gaminDataEventReady_answer (conn : GAMData) :
    (gaminDataEventReady conn).1 = (gaminDataEventReady conn).2.evnReady := by
  unfold gaminDataEventReady
  by_cases ready : conn.evnReady = true
  · rw [if_pos ready]
    exact ready.symm
  · rw [if_neg ready]

section

variable {property : GAMData → Prop} (passes : PassesKeep property)

include passes

/-- What a call has decoded or read, before it hands out an event. -/
theorem PassesKeep.filled {conn : GAMData} (holds : property conn) (answers : ReadAnswers) :
    property (if (gaminDataEventReady conn).1 then ((0 : Int), (gaminDataEventReady conn).2, ([] : Bytes))
      else gaminReadData (gaminDataEventReady conn).2 answers true).2.1 := by
  have decoded := passes.eventReady conn holds
  cases ready : (gaminDataEventReady conn).1 with
  | true => exact decoded
  | false =>
    have idle := (gaminDataEventReady_answer conn).symm.trans ready
    exact passes.readData _ answers true decoded idle

theorem PassesKeep.nextEvent {fc : FAMConnection} (holds : OfClient property fc) (answers : ReadAnswers)
    (reconnect : ReconnectAnswers) : OfClient property (famNextEvent fc answers reconnect).2 := by
  cases client : fc.client with
  | none =>
    simp only [famNextEvent, client]
    exact fun _ found => nomatch found
  | some conn =>
    have filled := passes.filled (holds conn client) answers
    simp only [famNextEvent, client]
    split
    · exact holds
    · revert filled
      generalize (if (gaminDataEventReady conn).1 = true then
        ((0 : Int), (gaminDataEventReady conn).2, ([] : Bytes))
        else gaminReadData (gaminDataEventReady conn).2 answers true) = outcome
      intro filled
      split
      · exact .of_some rfl (passes.tryReconnect _ _ _ filled)
      · split
        · exact .of_some rfl (passes.readEvent _ filled)
        · exact .of_some rfl (passes.readEvent _ filled)

theorem PassesKeep.pending {fc : FAMConnection} (holds : OfClient property fc) (available : Int)
    (answers : ReadAnswers) (reconnect : ReconnectAnswers) :
    OfClient property (famPending fc available answers reconnect).2 := by
  cases client : fc.client with
  | none =>
    simp only [famPending, client]
    exact fun _ found => nomatch found
  | some conn =>
    have decoded := passes.eventReady conn (holds conn client)
    have isReady := gaminDataEventReady_answer conn
    simp only [famPending, client]
    cases answer : gaminDataEventReady conn with
    | mk ready after =>
      rw [answer] at decoded isReady
      cases ready with
      | true => exact .of_some rfl decoded
      | false =>
        simp only
        -- no event is ready: whatever select answers, data are read only if some have arrived
        generalize (if fc.fd < (0 : Int) then -1 else available) = arrived
        split
        · exact .of_some rfl decoded
        · have filled : property (if arrived > 0 then gaminReadData after answers false
              else ((0 : Int), after, ([] : Bytes))).2.1 := by
            split
            · exact passes.readData after answers false decoded isReady.symm
            · exact decoded
          revert filled
          generalize (if arrived > 0 then gaminReadData after answers false
            else ((0 : Int), after, ([] : Bytes))) = outcome
          intro filled
          -- a connection that has failed is opened again
          apply OfClient.of_some rfl (passes.eventReady _ _)
          split
          · exact passes.tryReconnect _ _ _ filled
          · exact filled

end

/-! ## Below the public functions -/

section

variable {property : GAMData → Prop} (keeps : ReadingKeeps property)

include keeps

theorem ReadingKeeps.connDataLoop {conn : GAMData} (holds : property conn) :
    property (gaminDataConnDataLoop conn).2 :=
  gaminDataConnDataLoop_keeps (fun _ _ kept => keeps.same kept rfl rfl) (fun kept => keeps.connEvent _ kept) holds

theorem ReadingKeeps.connData {conn : GAMData} (holds : property conn) (len : Int) :
    property (gaminDataConnData conn len).2 := by
  simp only [gaminDataConnData]
  split
  · exact holds
  · split
    · exact holds
    · exact keeps.connDataLoop (keeps.same holds rfl rfl)

theorem ReadingKeeps.eventReady {conn : GAMData} (holds : property conn) :
    property (gaminDataEventReady conn).2 := by
  simp only [gaminDataEventReady]
  split
  · exact holds
  · split
    · exact keeps.connData holds 0
    · exact holds

theorem ReadingKeeps.readChunk {conn : GAMData} (holds : property conn) (answers : ReadAnswers) :
    property (gaminReadChunk conn answers).2.1 := by
  unfold gaminReadChunk
  cases answers.read with
  | failed => exact holds
  | endOfFile => exact holds
  | data bytes =>
    exact keeps.connData (@ReadingKeeps.same _ keeps _
      { conn with event := store conn.event conn.evnRead.toNat bytes } holds rfl rfl) bytes.length

theorem ReadingKeeps.readData {conn : GAMData} (holds : property conn) (answers : ReadAnswers)
    (block : Bool) : property (gaminReadData conn answers block).2.1 := by
  have checked : property (gaminCheckCred conn answers).2 := by
    unfold gaminCheckCred
    repeat' split
    all_goals first | exact holds | exact keeps.same holds rfl rfl
  simp only [gaminReadData]
  repeat' split
  all_goals first
    | exact holds
    | exact checked
    | exact keeps.readChunk checked answers
    | exact keeps.readChunk holds answers

theorem ReadingKeeps.readEvent {conn : GAMData} (holds : property conn) :
    property (gaminDataReadEvent conn).2 := by
  have cut : property { conn with evnReady := false, evnRead := conn.evnRead - packetLen conn.event 0 } :=
    keeps.same holds rfl rfl
  have taken := fun reqno => keeps.delReq _ reqno cut
  simp only [gaminDataReadEvent]
  repeat' split
  all_goals first
    | exact holds
    | exact cut
    | exact taken _
    | exact keeps.same cut rfl rfl
    | exact keeps.same (taken _) rfl rfl

theorem ReadingKeeps.tryReconnect {conn : GAMData} (holds : property conn) (fd : Int)
    (answers : ReconnectAnswers) : property (gaminTryReconnect conn fd answers).2.1 := by
  simp only [gaminTryReconnect]
  repeat' split
  all_goals first | exact holds | exact keeps.same holds rfl rfl

/-! ## Both functions -/

theorem ReadingKeeps.passes : PassesKeep property where
  eventReady := fun _ holds => keeps.eventReady holds
  readData := fun _ answers block holds _ => keeps.readData holds answers block
  readEvent := fun _ holds => keeps.readEvent holds
  tryReconnect := fun _ fd answers holds => keeps.tryReconnect holds fd answers

theorem ReadingKeeps.nextEvent {fc : FAMConnection} (holds : OfClient property fc) (answers : ReadAnswers)
    (reconnect : ReconnectAnswers) : OfClient property (famNextEvent fc answers reconnect).2 :=
  keeps.passes.nextEvent holds answers reconnect

theorem ReadingKeeps.pending {fc : FAMConnection} (holds : OfClient property fc) (available : Int)
    (answers : ReadAnswers) (reconnect : ReconnectAnswers) :
    OfClient property (famPending fc available answers reconnect).2 :=
  keeps.passes.pending holds available answers reconnect

/-- The data that are handed to `gamin_try_reconnect`. -/
theorem ReadingKeeps.failedReading {fc : FAMConnection} {call : ApiCall} {conn : GAMData}
    {reconnect : ReconnectAnswers} (holds : OfClient property fc)
    (failed : failedReading fc call = some (conn, reconnect)) : property conn := by
  cases client : fc.client with
  | none => cases call <;> simp [Client.failedReading, client] at failed
  | some before =>
    have decoded := keeps.eventReady (holds before client)
    cases call with
    -- the read of `FAMNextEvent` blocks
    | nextEvent answers reconnect =>
      by_cases closed : fc.fd < 0
      · simp [Client.failedReading, client, closed] at failed
      · have filled := keeps.passes.filled (holds before client) answers
        simp only [Client.failedReading, client, if_neg closed] at failed
        generalize (if (gaminDataEventReady before).1 = true then
          ((0 : Int), (gaminDataEventReady before).2, ([] : Bytes))
          else gaminReadData (gaminDataEventReady before).2 answers true) = outcome at failed filled
        split at failed
        · simp only [Option.some.injEq, Prod.mk.injEq] at failed
          rw [← failed.1]
          exact filled
        · contradiction
    -- `FAMPending` reads only what has arrived
    | pending available answers reconnect =>
      cases answer : gaminDataEventReady before with
      | mk ready after =>
        rw [answer] at decoded
        cases ready with
        | true => simp [Client.failedReading, client, answer] at failed
        | false =>
          have filled := keeps.readData decoded answers false
          simp only [Client.failedReading, client, answer] at failed
          generalize (if fc.fd < (0 : Int) then -1 else available) = arrived at failed
          split at failed
          · split at failed
            · simp only [Option.some.injEq, Prod.mk.injEq] at failed
              rw [← failed.1]
              exact filled
            · contradiction
          · contradiction
    | monitorDirectory | monitorFile | monitorDirectory2 | monitorFile2 | cancelMonitor | noExists =>
      simp [Client.failedReading] at failed

theorem ReadingKeeps.reconnection {fc : FAMConnection} {call : ApiCall} {requests : List GAMReqData}
    (holds : OfClient property fc) (reconnected : reconnection fc call = some requests) :
    ∃ conn, property conn ∧ requests = conn.reqTab := by
  obtain ⟨⟨conn, reconnect⟩, failed, reset⟩ := Option.bind_eq_some_iff.mp reconnected
  simp only at reset
  split at reset
  · exact ⟨conn, keeps.failedReading holds failed, (Option.some.inj reset).symm⟩
  · contradiction

end

end Gamin.Client
