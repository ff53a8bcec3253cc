import Gamin.Client.Delivery
import Gamin.Client.Reading
import Gamin.Library.Runs

/-! # The receive buffer of a connection

Every public function keeps the receive buffer sound, whatever the system calls answer:
the buffer is not overfull, and an event that is ready is whole.
-/

namespace Gamin.Client

open Gamin Gamin.Library

/-- What holds of the buffer of a connection between two operations. -/
structure BufferSound (conn : GAMData) : Prop where
  nonnegative : 0 ≤ conn.evnRead
  fits : conn.evnRead ≤ sizeofGAMPacket
  whole : conn.evnReady = true → packetLen conn.event 0 ≤ conn.evnRead ∧
    packetPathlen conn.event 0 + gamPacketHeaderLen = packetLen conn.event 0

theorem BufferSound.of_same {before after : GAMData} (sound : BufferSound before)
    (same : after.evnReady = before.evnReady ∧ after.evnRead = before.evnRead ∧
      after.event = before.event) : BufferSound after := by
  obtain ⟨ready, read, event⟩ := same
  exact ⟨read ▸ sound.nonnegative, read ▸ sound.fits, fun isReady => by
    rw [event, read]
    exact sound.whole (ready ▸ isReady)⟩

/-! ## Decoding and reading -/

/-- A pass that fails leaves a sound buffer as well. -/
theorem gaminDataConnDataLoop_sound {conn : GAMData} (sound : BufferSound conn)
    (idle : conn.evnReady = false) : BufferSound (gaminDataConnDataLoop conn).2 := by
  have loop := gaminDataConnDataLoop_decodes sound.nonnegative
  generalize gaminDataConnDataLoop conn = outcome at loop ⊢
  induction loop with
  | waiting | malformed => exact sound
  | @ready conn front =>
    obtain ⟨_, event, read, _, _⟩ := gaminDataConnEvent_frame conn
    exact ⟨read ▸ sound.nonnegative, read ▸ sound.fits, fun _ => by
      rw [event, read]
      exact ⟨front.whole, front.sizes⟩⟩
  | dropped front dropped _ _ inductionHypothesis =>
    obtain ⟨nonnegative, fits⟩ := front.rest sound.fits
    exact inductionHypothesis ⟨nonnegative, fits, fun ready => by simp [dropped] at ready⟩ dropped

theorem gaminDataConnData_sound {conn : GAMData} {len : Int} (sound : BufferSound conn)
    (idle : conn.evnReady = false) : BufferSound (gaminDataConnData conn len).2 := by
  have nonnegative := sound.nonnegative
  simp only [gaminDataConnData]
  split
  · exact sound
  · split
    · exact sound
    · exact gaminDataConnDataLoop_sound
        ⟨by simp only; omega, by simp only; omega, fun ready => by simp [idle] at ready⟩ idle

theorem gaminDataEventReady_sound {conn : GAMData} (sound : BufferSound conn) :
    BufferSound (gaminDataEventReady conn).2 := by
  unfold gaminDataEventReady
  by_cases ready : conn.evnReady = true
  · rw [if_pos ready]
    exact sound
  · rw [if_neg ready]
    simp only
    split
    · exact gaminDataConnData_sound sound (by simpa using ready)
    · exact sound

theorem gaminReadData_sound {conn : GAMData} (sound : BufferSound conn) (idle : conn.evnReady = false)
    (answers : ReadAnswers) (block : Bool) : BufferSound (gaminReadData conn answers block).2.1 := by
  have chunk {conn : GAMData} (sound : BufferSound conn) (idle : conn.evnReady = false) :
      BufferSound (gaminReadChunk conn answers).2.1 := by
    unfold gaminReadChunk
    cases answers.read with
    | failed => exact sound
    | endOfFile => exact sound
    | data bytes =>
      exact @gaminDataConnData_sound { conn with event := store conn.event conn.evnRead.toNat bytes } _
        ⟨sound.nonnegative, sound.fits, fun ready => by simp [idle] at ready⟩ idle
  have checked : BufferSound (gaminCheckCred conn answers).2 ∧
      (gaminCheckCred conn answers).2.evnReady = false := by
    unfold gaminCheckCred
    repeat' split
    all_goals exact ⟨sound.of_same ⟨rfl, rfl, rfl⟩, idle⟩
  unfold gaminReadData
  split
  · simp only
    split
    · exact checked.1
    · split
      · exact checked.1
      · split
        · exact checked.1
        · exact chunk checked.1 checked.2
  · split
    · exact sound
    · exact chunk sound idle

theorem gaminDataReadEvent_sound {conn : GAMData} (sound : BufferSound conn) :
    BufferSound (gaminDataReadEvent conn).2 := by
  unfold gaminDataReadEvent
  by_cases ready : conn.evnReady = true
  · obtain ⟨whole, _⟩ := sound.whole ready
    have fits := sound.fits
    rw [if_neg (not_not.mpr ready)]
    simp only [gaminDataDelReq]
    repeat' split
    all_goals exact ⟨by simp only; omega, by simp only; omega, fun other => absurd other Bool.false_ne_true⟩
  · rw [if_pos ready]
    exact sound

theorem gaminTryReconnect_sound {conn : GAMData} (sound : BufferSound conn) (fd : Int)
    (answers : ReconnectAnswers) : BufferSound (gaminTryReconnect conn fd answers).2.1 := by
  have reset : BufferSound (gaminDataReset conn).2 :=
    ⟨Int.le_refl 0, Int.natCast_nonneg _, fun other => nomatch other⟩
  simp only [gaminTryReconnect]
  repeat' split
  all_goals first | exact sound | exact reset

/-! ## The request table -/

/-- The operations on the request table leave the buffer alone. -/
theorem gaminAllocateRequest_buffer (conn : GAMData) (memory : Allocation) :
    (gaminAllocateRequest conn memory).2.evnReady = conn.evnReady ∧
      (gaminAllocateRequest conn memory).2.evnRead = conn.evnRead ∧
      (gaminAllocateRequest conn memory).2.event = conn.event := by
  unfold gaminAllocateRequest
  simp only
  repeat' split
  all_goals exact ⟨rfl, rfl, rfl⟩

theorem gaminDataGetReqnum_sound {conn : GAMData} (sound : BufferSound conn) (filename : Bytes)
    (type : Nat) (userData : Pointer) (memory : Allocation) :
    BufferSound (gaminDataGetReqnum conn filename type userData memory).2 := by
  have allocated := sound.of_same (gaminAllocateRequest_buffer conn memory)
  unfold gaminDataGetReqnum gaminDataAddReq
  cases answer : gaminAllocateRequest conn memory with
  | mk granted after =>
    rw [answer] at allocated
    cases granted with
    | false => exact allocated
    | true => exact allocated.of_same ⟨rfl, rfl, rfl⟩

theorem gaminDataGetRequest_sound {conn : GAMData} (sound : BufferSound conn) (filename : Bytes)
    (type : Nat) (userData : Pointer) (reqno : Int) (memory : Allocation) :
    BufferSound (gaminDataGetRequest conn filename type userData reqno memory).2 := by
  have allocated := sound.of_same (gaminAllocateRequest_buffer conn memory)
  unfold gaminDataGetRequest gaminDataAddReq2
  by_cases missed : gaminDataGetReqLoc conn reqno < 0
  · simp only [if_pos missed]
    exact sound
  · simp only [if_neg missed]
    by_cases taken : (conn.reqTab[(gaminDataGetReqLoc conn reqno).toNat]?).any (·.reqno = reqno) = true
    · simp only [if_pos taken]
      exact sound
    · simp only [if_neg taken]
      cases answer : gaminAllocateRequest conn memory with
      | mk granted after =>
        rw [answer] at allocated
        cases granted with
        | false => exact allocated
        | true => exact allocated.of_same ⟨rfl, rfl, rfl⟩

theorem gaminSendRequest_sound {conn : GAMData} (sound : BufferSound conn) (type : Nat)
    (filename : Option CString) (reqnum : Int) (userData : Pointer) (hasReqnum : Bool)
    (famErrno : FAMError) (memory : Allocation) (written : WriteAnswer) :
    BufferSound (gaminSendRequest type filename reqnum userData conn hasReqnum famErrno memory
      written).client := by
  cases filename with
  | none => exact sound
  | some filename =>
    have counted := gaminDataGetReqnum_sound sound filename.bytes type userData memory
    have chosen := gaminDataGetRequest_sound sound filename.bytes type userData reqnum memory
    simp only [gaminSendRequest]
    repeat' split
    all_goals first | exact sound | exact counted | exact chosen

theorem gaminDataCancel_sound {conn : GAMData} (sound : BufferSound conn) (reqno : Int) :
    BufferSound (gaminDataCancel conn reqno).2 := by
  simp only [gaminDataCancel]
  repeat' split
  all_goals first | exact sound | exact sound.of_same ⟨rfl, rfl, rfl⟩

/-! ## The public functions -/

theorem famMonitor_sound {fc : FAMConnection} (sound : OfClient BufferSound fc) (type : Nat) (hasReqnum : Bool)
    (filename : Option CString) (request : Option Int) (userData : Pointer) (memory : Allocation)
    (written : WriteAnswer) :
    OfClient BufferSound (famMonitor type hasReqnum fc filename request userData memory written).2.2.1 := by
  unfold famMonitor
  split
  · split
    · exact sound
    · split
      · exact sound
      · rename_i conn client
        split
        · exact sound
        · exact .of_some rfl (gaminSendRequest_sound (sound conn client) ..)
  · exact sound

theorem famCancelMonitor_sound {fc : FAMConnection} (sound : OfClient BufferSound fc) (request : Option Int)
    (written : WriteAnswer) : OfClient BufferSound (famCancelMonitor fc request written).2.1 := by
  unfold famCancelMonitor
  split
  · rename_i reqnum conn client
    have cancelled := gaminDataCancel_sound (sound conn client) reqnum
    split
    · exact sound
    · simp only
      split
      · exact .of_some rfl cancelled
      · exact .of_some rfl (gaminSendRequest_sound cancelled ..)
  · exact sound

theorem bufferSound_passes : PassesKeep BufferSound where
  eventReady := fun _ sound => gaminDataEventReady_sound sound
  readData := fun _ answers block sound idle => gaminReadData_sound sound idle answers block
  readEvent := fun _ sound => gaminDataReadEvent_sound sound
  tryReconnect := fun _ fd answers sound => gaminTryReconnect_sound sound fd answers

theorem famNoExists_sound {fc after : FAMConnection} {result : Int} (sound : OfClient BufferSound fc)
    (returned : famNoExists fc = some (result, after)) : OfClient BufferSound after := by
  unfold famNoExists at returned
  split at returned
  · contradiction
  · rename_i conn client
    simp only [Option.some.injEq, Prod.mk.injEq] at returned
    have noticed : after.client = some (gaminDataNoExists conn) := by rw [← returned.2]
    exact .of_some noticed ((sound conn client).of_same ⟨rfl, rfl, rfl⟩)

theorem apiStep_sound (fc : FAMConnection) (call : ApiCall) (after : FAMConnection)
    (sound : OfClient BufferSound fc) (returned : apiStep fc call = some after) : OfClient BufferSound after := by
  cases call with
  | monitorDirectory =>
    cases returned
    exact famMonitor_sound sound _ _ _ _ _ _ _
  | monitorFile =>
    cases returned
    exact famMonitor_sound sound _ _ _ _ _ _ _
  | monitorDirectory2 =>
    cases returned
    exact famMonitor_sound sound _ _ _ _ _ _ _
  | monitorFile2 =>
    cases returned
    exact famMonitor_sound sound _ _ _ _ _ _ _
  | nextEvent answers reconnect =>
    cases returned
    exact bufferSound_passes.nextEvent sound answers reconnect
  | pending available answers reconnect =>
    cases returned
    exact bufferSound_passes.pending sound available answers reconnect
  | cancelMonitor request written =>
    cases returned
    exact famCancelMonitor_sound sound request written
  | noExists =>
    obtain ⟨⟨result, connection⟩, answer, rfl⟩ := Option.map_eq_some_iff.mp returned
    exact famNoExists_sound sound answer

/-- The buffer is sound in every state that the public functions lead to. -/
theorem calls_keep_buffer_sound {fc : FAMConnection} (sound : OfClient BufferSound fc) (calls : List ApiCall) :
    Throughout (partialStep apiStep) (IfAny (OfClient BufferSound)) (some fc) calls :=
  .of_partial_kept apiStep_sound sound calls

end Gamin.Client
