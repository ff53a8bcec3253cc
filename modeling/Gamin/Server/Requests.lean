import Gamin.Server.Listener
import Gamin.Server.Reassembly

/-! # The requests a listener accepts

The part of `gam_connection_request` that decides about a packet of the library: a monitor
request is always accepted, whether or not a backend takes the subscription, and a cancel
request is accepted if a subscription with its number is on the list.  So what is accepted
depends on nothing but the numbers of the requests served before, and on which of them the
backend has taken.
-/

namespace Gamin.Server

open Gamin Gamin.Library

/-- `GamListener`: the subscriptions on its list, and how many it has asked for. -/
structure GamListener where
  subs : List GamSubscription
  requested : Nat
  deriving DecidableEq, Repr

def gamListenerNew : GamListener where
  subs := []
  requested := 0

/-- The requests as `gam_connection_request` serves them.  `taken` says of each subscription of
this listener in turn whether `gam_add_subscription` has a hook that puts it on the list. -/
def listenerHandlers (taken : Nat → Bool) : RequestHandlers GamListener where
  addSubscription := fun listener path reqno isDir options =>
    let sub := gamSubscriptionNew listener.requested path requestedEvents reqno isDir options
    { subs := if taken listener.requested then sub :: listener.subs else listener.subs
      requested := listener.requested + 1 }
  cancelSubscription := fun listener reqno =>
    (gamListenerGetSubscriptionByReqno listener.subs reqno).map fun sub =>
      { listener with subs := gamListenerRemoveSubscription listener.subs sub }
  debugRequest := fun listener _ _ => listener

/-! ## The numbers alone -/

/-- The numbers that are registered, and how many requests there have been. -/
structure RegisteredNumbers where
  numbers : List Nat
  requested : Nat
  deriving DecidableEq, Repr

def IsCancel (packet : GAMPacket) : Prop := packet.type &&& 0xF = gamReqCancel

instance : DecidablePred IsCancel := fun packet =>
  inferInstanceAs (Decidable (packet.type &&& 0xF = gamReqCancel))

/-- What a packet does to the numbers. -/
def registerStep (taken : Nat → Bool) (registered : RegisteredNumbers) (packet : GAMPacket) :
    RegisteredNumbers :=
  if IsCancel packet then { registered with numbers := registered.numbers.erase packet.seq }
  else
    { numbers := if taken registered.requested then packet.seq :: registered.numbers
        else registered.numbers
      requested := registered.requested + 1 }

/-- The numbers that are registered behind some packets. -/
def registeredBy (taken : Nat → Bool) (packets : List GAMPacket) : RegisteredNumbers :=
  run (registerStep taken) ⟨[], 0⟩ packets

/-- A cancel request finds its number. -/
def FindsNumber (registered : RegisteredNumbers) (packet : GAMPacket) : Prop :=
  IsCancel packet → packet.seq ∈ registered.numbers

/-- A packet as the library sends it: a request on a path that is not too long, or a cancel
request, which has no options. -/
structure LibraryPacket (packet : GAMPacket) : Prop where
  wellFormed : packet.WellFormed (· == gamReqCancel)
  short : packet.path.length < maxPathLen
  kind : packet.type &&& 0xF = gamReqFile ∨ packet.type &&& 0xF = gamReqDir ∨ IsCancel packet

/-! ## The listener refines the numbers -/

def GamListener.registered (listener : GamListener) : RegisteredNumbers where
  numbers := listener.subs.map (·.reqno)
  requested := listener.requested

/-- The subscription that is found is the first one with the number. -/
theorem removeSubscription_numbers {subs : List GamSubscription} {reqno : Nat} {sub : GamSubscription}
    (found : gamListenerGetSubscriptionByReqno subs reqno = some sub) :
    (gamListenerRemoveSubscription subs sub).map (·.reqno) = (subs.map (·.reqno)).erase reqno := by
  induction subs with
  | nil => contradiction
  | cons first subs inductionHypothesis =>
    simp only [gamListenerGetSubscriptionByReqno, gamListenerRemoveSubscription, List.find?_cons]
      at found inductionHypothesis ⊢
    by_cases here : first.reqno = reqno
    · simp only [here, decide_true, Option.some.injEq] at found
      simp [found, ← here]
    · simp only [here, decide_false] at found
      have number := (getSubscriptionByReqno_mem found).2
      have other : ¬ first == sub := by
        rw [beq_iff_eq]
        rintro rfl
        exact here number
      simp only [List.erase_cons_tail other, List.map_cons, inductionHypothesis found]
      rw [List.erase_cons_tail (by simpa using here)]

theorem serveRequest_cancel {taken : Nat → Bool} {listener : GamListener} {packet : GAMPacket}
    (short : packet.path.length < maxPathLen) (cancel : IsCancel packet) :
    serveRequest (listenerHandlers taken) listener packet =
      match gamListenerGetSubscriptionByReqno listener.subs packet.seq with
      | none => (listener, false)
      | some sub => ({ listener with subs := gamListenerRemoveSubscription listener.subs sub }, true) := by
  have masked : packet.type &&& 0xF = gamReqCancel := cancel
  have other : ¬ (gamReqCancel = gamReqFile ∨ gamReqCancel = gamReqDir) := by decide
  simp only [serveRequest, if_neg (Nat.not_le.mpr short), masked, if_neg other, if_true, listenerHandlers]
  cases gamListenerGetSubscriptionByReqno listener.subs packet.seq <;> rfl

/-- A packet of the library is accepted exactly if it finds its number, and then it does to
the listener what it does to the numbers. -/
theorem serveRequest_listener {taken : Nat → Bool} {listener : GamListener} {packet : GAMPacket}
    (library : LibraryPacket packet) :
    ((serveRequest (listenerHandlers taken) listener packet).2 = true ↔
        FindsNumber listener.registered packet) ∧
      (FindsNumber listener.registered packet →
        (serveRequest (listenerHandlers taken) listener packet).1.registered =
          registerStep taken listener.registered packet) := by
  by_cases cancel : IsCancel packet
  · rw [serveRequest_cancel library.short cancel, registerStep, if_pos cancel]
    simp only [FindsNumber, cancel, true_imp_iff]
    cases found : gamListenerGetSubscriptionByReqno listener.subs packet.seq with
    | none =>
      have absent : packet.seq ∉ listener.registered.numbers := by
        simpa [GamListener.registered] using getSubscriptionByReqno_eq_none.mp found
      refine ⟨⟨fun accepted => ?_, fun present => absurd present absent⟩,
        fun present => absurd present absent⟩
      exact absurd accepted Bool.false_ne_true
    | some sub =>
      obtain ⟨member, number⟩ := getSubscriptionByReqno_mem found
      have present : packet.seq ∈ listener.registered.numbers :=
        List.mem_map.mpr ⟨sub, member, number⟩
      refine ⟨⟨fun _ => present, fun _ => rfl⟩, fun _ => ?_⟩
      simp only [GamListener.registered, removeSubscription_numbers found]
  · -- what is no cancel request adds a subscription, if a hook takes it
    have monitor : packet.type &&& 0xF = gamReqFile ∨ packet.type &&& 0xF = gamReqDir := by
      rcases library.kind with file | dir | cancelled
      · exact .inl file
      · exact .inr dir
      · exact absurd cancelled cancel
    simp only [serveRequest, if_neg (Nat.not_le.mpr library.short), if_pos monitor]
    refine ⟨⟨fun _ isCancel => absurd isCancel cancel, fun _ => trivial⟩, fun _ => ?_⟩
    rw [registerStep, if_neg cancel]
    cases answer : taken listener.requested <;>
      simp [listenerHandlers, GamListener.registered, gamSubscriptionNew, answer]

/-! ## Streams of packets -/

/-- Of the packets on a connection some have been served, and the listener knows their numbers;
every cancel request among the others will find its number. -/
structure InStep (taken : Nat → Bool) (packets : List GAMPacket) (state : List GAMPacket × GamListener)
    (pending : List GAMPacket) : Prop where
  log : state.1 ++ pending = packets
  library : ∀ packet ∈ packets, LibraryPacket packet
  served : state.2.registered = registeredBy taken state.1
  found : Guarded (registerStep taken) FindsNumber state.2.registered pending

/-- A packet of the library at the front of a stream. -/
theorem LibraryPacket.scanned {packet : GAMPacket} (library : LibraryPacket packet) (rest : Bytes) :
    requestFraming.scan (packet.encode ++ rest) = .frame packet packet.encode.length :=
  scanPacket_encode library.wellFormed rest

variable {taken : Nat → Bool} {packets : List GAMPacket}

/-- While the server is in step, it accepts. -/
theorem inStep_accepts (taken : Nat → Bool) (packets : List GAMPacket) :
    requestFraming.Accepts (consumeRequest (listenerHandlers taken)) GAMPacket.encode
      (InStep taken packets) := by
  intro state packet pending inStep
  have library : LibraryPacket packet :=
    inStep.library packet (by rw [← inStep.log]; exact List.mem_append_right _ List.mem_cons_self)
  obtain ⟨finds, rest⟩ := inStep.found
  obtain ⟨accepted, registered⟩ := @serveRequest_listener taken state.2 packet library
  refine ⟨library.scanned, (state.1 ++ [packet], (serveRequest (listenerHandlers taken) state.2 packet).1),
    ?_, ?_, inStep.library, ?_, ?_⟩
  · rw [consumeRequest, accepted.mpr finds]
  · rw [List.append_assoc, List.singleton_append]
    exact inStep.log
  · rw [registered finds, inStep.served, registeredBy, registeredBy, run_append, run_cons, run_nil]
  · simp only [registered finds]
    exact rest

/-- A packet that is written behind the others keeps the server in step. -/
theorem InStep.append {state : List GAMPacket × GamListener} {pending : List GAMPacket}
    (inStep : InStep taken packets state pending) {packet : GAMPacket} (library : LibraryPacket packet)
    (finds : FindsNumber (registeredBy taken packets) packet) :
    InStep taken (packets ++ [packet]) state (pending ++ [packet]) where
  log := by rw [← List.append_assoc, inStep.log]
  library := by
    intro other member
    cases List.mem_append.mp member with
    | inl old => exact inStep.library other old
    | inr new => exact List.mem_singleton.mp new ▸ library
  served := inStep.served
  found := by
    rw [← inStep.log, registeredBy, run_append] at finds
    rw [guarded_append, inStep.served]
    exact ⟨inStep.served ▸ inStep.found, finds, trivial⟩

/-- The packets in the bytes that a client has written, and what is left behind them. -/
def sentPackets (sent : Bytes) : Decoder (List GAMPacket) UInt8 :=
  requestFraming.drain (fun packets packet => (packets ++ [packet], true)) [] sent

theorem sentPackets_encoded (library : ∀ packet ∈ packets, LibraryPacket packet) {torn : Bytes}
    (tears : requestFraming.Torn torn) :
    sentPackets (packets.flatMap GAMPacket.encode ++ torn) = .waiting packets torn := by
  have accepts : requestFraming.Accepts (fun packets packet => (packets ++ [packet], true))
      GAMPacket.encode fun before behind => before ++ behind = packets := by
    intro before packet behind log
    have member : packet ∈ packets := by
      rw [← log]
      exact List.mem_append_right _ List.mem_cons_self
    exact ⟨(library packet member).scanned, _, rfl, by simpa using log⟩
  obtain ⟨after, drained, log⟩ := Framing.drain_stream accepts tears (List.nil_append packets)
  rw [List.append_nil] at log
  rw [sentPackets, drained, log]

end Gamin.Server
