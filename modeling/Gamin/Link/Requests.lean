import Gamin.Link.Wire

/-! # Requests on their way to the server

An application calls the public functions in any order while the server reads whenever it
likes, also from connections the library has given up.  `FAMCancelMonitor` sends a cancel
request for every number that is in the table, cancelled before or not, and the server closes
the connection when the number is not registered any more.
-/

namespace Gamin.Link

open Gamin Gamin.Library Gamin.Client Gamin.Server

/-- The library and its connections to the server, the current one first. -/
structure Exchange where
  fc : FAMConnection
  wires : List Wire

/-- A call of the application, or a read of the server on one of the connections.  A call that
reconnects is given the answers to its writes on the new connection, and what the backends do
with the requests there. -/
inductive ExchangeInput where
  | call (call : ApiCall) (resent : Nat → WriteAnswer) (taken : Nat → Bool)
  | read (wire : Nat) (length : Nat)

/-- The writes of the loop of `gamin_try_reconnect`. -/
def resends : List GAMReqData → (Nat → WriteAnswer) → List (GAMPacket × WriteAnswer)
  | [], _ => []
  | req :: requests, written =>
    ((gaminResendRequest req).map fun packet => (packet, written 0)).toList ++
      resends requests fun index => written (index + 1)

/-- The new connection of `gamin_try_reconnect`. -/
def reconnected (taken : Nat → Bool) (requests : List GAMReqData) (resent : Nat → WriteAnswer) : Wire :=
  run Wire.writePacket (openWire taken) (resends requests resent)

def exchangeStep (variant : BuildVariant) (exchange : Exchange) : ExchangeInput → Option Exchange
  | .call call resent taken =>
    (apiStep exchange.fc call).map fun fc =>
      { fc := fc
        wires := match reconnection exchange.fc call with
          | some requests => reconnected taken requests resent :: exchange.wires
          | none => exchange.wires.modifyHead (·.write (requestBytes exchange.fc call)) }
  | .read index length => some { exchange with wires := exchange.wires.modify index (·.read variant length) }

/-- An application that has just opened its connection. -/
def openedExchange (taken : Nat → Bool) : Exchange where
  fc := openedConnection
  wires := [openWire taken]

/-- Every packet the server has got to is accepted, and no connection is closed. -/
def AllAccepted (exchange : Exchange) : Prop := ∀ wire ∈ exchange.wires, wire.Accepted

/-! ## Writing behind whole packets -/

/-- Nothing is written behind a packet that has broken off. -/
def WriteGuard (wire : Wire) (write : GAMPacket × WriteAnswer) : Prop :=
  (gaminWriteByte write.1.encode write.2).2 ≠ [] → wire.Whole

/-- A cancel request that is written whole is for a number that is registered. -/
def CancelGuard (wire : Wire) (fc : FAMConnection) : ApiCall → Prop
  | .cancelMonitor (some reqnum) written => CancelReaches fc reqnum →
    (gaminWriteByte (cancelPacket reqnum).encode written).1 = 0 → wireNumber reqnum ∈ wire.registered
  | _ => True

/-- The condition on one step; the reads of the server need none. -/
def ExchangeGuard (exchange : Exchange) : ExchangeInput → Prop
  | .call call resent taken =>
    match reconnection exchange.fc call with
    | some requests => Guarded Wire.writePacket WriteGuard (openWire taken) (resends requests resent)
    | none => ∀ wire, exchange.wires.head? = some wire →
      (requestBytes exchange.fc call ≠ [] → wire.Whole) ∧ CancelGuard wire exchange.fc call
  | .read _ _ => True

/-! ## Every run -/

/-- Together the writes are the bytes of the loop. -/
theorem resends_bytes (wire : Wire) (requests : List GAMReqData) (written : Nat → WriteAnswer) :
    (run Wire.writePacket wire (resends requests written)).sent =
      wire.sent ++ resentBytes requests written := by
  induction requests generalizing wire written with
  | nil => simp [resends, resentBytes]
  | cons req requests inductionHypothesis =>
    cases resent : gaminResendRequest req <;>
      simp [resends, resentBytes, resent, inductionHypothesis, Wire.writePacket, Wire.write]

theorem resends_library {requests : List GAMReqData} (sendable : ∀ req ∈ requests, Sendable req)
    (written : Nat → WriteAnswer) :
    ∀ write ∈ resends requests written, LibraryPacket write.1 ∧ ¬ IsCancel write.1 := by
  induction requests generalizing written with
  | nil => exact fun write member => nomatch member
  | cons req requests inductionHypothesis =>
    intro write member
    cases List.mem_append.mp member with
    | inl first =>
      obtain ⟨packet, resent, rfl⟩ := Option.map_eq_some_iff.mp (Option.mem_toList.mp first)
      exact gaminResendRequest_library (sendable req List.mem_cons_self) resent
    | inr rest =>
      exact inductionHypothesis (fun other inTable => sendable other (List.mem_cons_of_mem _ inTable))
        _ write rest

/-- Monitor requests may be written in any number. -/
theorem writes_accepted {wire : Wire} (accepts : wire.WillAccept)
    {writes : List (GAMPacket × WriteAnswer)}
    (monitors : ∀ write ∈ writes, LibraryPacket write.1 ∧ ¬ IsCancel write.1)
    (guarded : Guarded Wire.writePacket WriteGuard wire writes) :
    (run Wire.writePacket wire writes).WillAccept := by
  induction writes generalizing wire with
  | nil => exact accepts
  | cons write writes inductionHypothesis =>
    obtain ⟨library, monitor⟩ := monitors write List.mem_cons_self
    exact inductionHypothesis
      (accepts.writePacket library write.2 guarded.1 fun _ cancel => absurd cancel monitor)
      (fun other member => monitors other (List.mem_cons_of_mem _ member)) guarded.2

/-- The invariant of a run. -/
structure ExchangeHealthy (exchange : Exchange) : Prop where
  table : OfClient TableSendable exchange.fc
  wires : ∀ wire ∈ exchange.wires, wire.WillAccept

/-- A call that stays on its connection. -/
theorem write_healthy {exchange : Exchange} {call : ApiCall}
    (healthy : ∀ wire ∈ exchange.wires, wire.WillAccept)
    (sends : SendsPacket exchange.fc call (requestBytes exchange.fc call))
    (guard : ∀ wire, exchange.wires.head? = some wire →
      (requestBytes exchange.fc call ≠ [] → wire.Whole) ∧ CancelGuard wire exchange.fc call) :
    ∀ wire ∈ exchange.wires.modifyHead (·.write (requestBytes exchange.fc call)), wire.WillAccept := by
  cases wires : exchange.wires with
  | nil => exact fun wire member => nomatch member
  | cons current former =>
    rw [wires] at healthy guard
    obtain ⟨whole, cancels⟩ := guard current rfl
    have accepts := healthy current List.mem_cons_self
    intro wire member
    cases List.mem_cons.mp member with
    | inr old => exact healthy wire (List.mem_cons_of_mem _ old)
    | inl new =>
      rw [new]
      rcases sends with silent | ⟨packet, written, library, bytes, cancelled⟩
      · rw [silent]
        simpa [Wire.write] using accepts
      · rw [bytes] at whole ⊢
        apply accepts.writePacket library written whole
        intro success cancel
        obtain ⟨reqnum, rfl, rfl, reaches⟩ := cancelled cancel
        rw [(cancelPacket_library reqnum).2]
        exact cancels reaches success

theorem exchangeStep_healthy (variant : BuildVariant) (exchange : Exchange) (input : ExchangeInput)
    (after : Exchange) (healthy : ExchangeHealthy exchange) (guard : ExchangeGuard exchange input)
    (returned : exchangeStep variant exchange input = some after) : ExchangeHealthy after := by
  cases input with
  | call call resent taken =>
    obtain ⟨fc, answer, rfl⟩ := Option.map_eq_some_iff.mp returned
    obtain ⟨table, sends⟩ := apiStep_sends healthy.table answer
    refine ⟨table, ?_⟩
    simp only [ExchangeGuard] at guard ⊢
    -- the call writes on the last wire, or a reconnection opens one and sends the table again
    cases again : reconnection exchange.fc call with
    | none =>
      rw [again] at guard
      exact write_healthy healthy.wires sends guard
    | some requests =>
      rw [again] at guard
      obtain ⟨conn, sendable, rfl⟩ := tableSendable_reading.reconnection healthy.table again
      intro wire member
      cases List.mem_cons.mp member with
      | inr old => exact healthy.wires wire old
      | inl new =>
        rw [new]
        exact writes_accepted ⟨_, _, _, openWire_healthy taken⟩ (resends_library sendable resent) guard
  | read index length =>
    cases returned
    refine ⟨healthy.table, fun wire member => ?_⟩
    obtain ⟨position, inside, rfl⟩ := List.mem_iff_getElem.mp member
    rw [List.getElem_modify]
    have old := healthy.wires _ (List.getElem_mem (by simpa using inside))
    split
    · exact Wire.WillAccept.read variant old length
    · exact old

/-- In every run in which no cancel request is written for a number that is not registered,
and nothing behind a packet that broke off, the server accepts every packet that it gets to,
on every connection, and closes none. -/
theorem packets_accepted (variant : BuildVariant) (taken : Nat → Bool) (inputs : List ExchangeInput)
    (guarded : Guarded (partialStep (exchangeStep variant)) (GuardIfAny ExchangeGuard)
      (some (openedExchange taken)) inputs) :
    Throughout (partialStep (exchangeStep variant)) (IfAny AllAccepted) (some (openedExchange taken))
      inputs := by
  have start : ExchangeHealthy (openedExchange taken) := by
    refine ⟨.of_some rfl fun req member => (nomatch member), fun wire member => ?_⟩
    rw [List.mem_singleton.mp member]
    exact ⟨_, _, _, openWire_healthy taken⟩
  apply (Throughout.of_partial (exchangeStep_healthy variant) start guarded).imp
  exact IfAny.imp fun exchange healthy wire member => (healthy.wires wire member).accepted

/-! ## Cancelling twice -/

def everyTaken : Nat → Bool := fun _ => true

/-- A call whose writes would all go through on a new connection. -/
def callWhole (call : ApiCall) : ExchangeInput := .call call (fun _ => .complete) everyTaken

/-- A file is monitored and cancelled, and the server reads. -/
def cancelledOnce : List ExchangeInput :=
  [callWhole (.monitorFile (some pathB) (some 0) 9 ⟨true, true, true⟩ .complete),
    callWhole (.cancelMonitor (some 1) .complete), .read 0 4106]

theorem cancelledOnce_accepted :
    Throughout (partialStep (exchangeStep .inPlace)) (IfAny AllAccepted) (some (openedExchange everyTaken))
      cancelledOnce := by
  apply packets_accepted
  refine ⟨?_, ?_, trivial, trivial⟩
  · intro wire head
    cases head
    exact ⟨fun _ => by decide +kernel, trivial⟩
  · intro wire head
    cases head
    exact ⟨fun _ => by decide +kernel, fun _ _ => by decide +kernel⟩

/-- The application cancels again before it has read the acknowledgement. -/
def cancelledTwice : List ExchangeInput :=
  cancelledOnce ++ [callWhole (.cancelMonitor (some 1) .complete), .read 0 4106]

/-- The second cancel request is refused, and the server closes the connection. -/
theorem second_cancel_refused :
    (run (partialStep (exchangeStep .inPlace)) (some (openedExchange everyTaken)) cancelledTwice).map
        (fun exchange => exchange.wires.map (·.conn.state)) = some [.closed] ∧
      ¬ Throughout (partialStep (exchangeStep .inPlace)) (IfAny AllAccepted)
        (some (openedExchange everyTaken)) cancelledTwice := by
  have closed :
      (run (partialStep (exchangeStep .inPlace)) (some (openedExchange everyTaken)) cancelledTwice).map
        (fun exchange => exchange.wires.map (·.conn.state)) = some [.closed] := by
    decide +kernel
  refine ⟨closed, fun accepted => ?_⟩
  obtain ⟨exchange, reached, states⟩ := Option.map_eq_some_iff.mp closed
  have last := accepted.last
  rw [reached] at last
  obtain ⟨wire, rest, wires⟩ := List.exists_cons_of_ne_nil
    (show exchange.wires ≠ [] by rintro none; simp [none] at states)
  rw [wires, List.map_cons, List.cons.injEq] at states
  have okay := (last wire (by rw [wires]; exact List.mem_cons_self)).okay
  rw [states.1] at okay
  contradiction

end Gamin.Link
