import Gamin.Link.Sending

/-! # One connection between the library and the server

The bytes written by the library arrive at the server in order, in pieces of any size.  As long
as nothing is written behind a packet that broke off, and a cancel request is only written while
its number is registered, the server accepts every packet, whenever it reads.
-/

namespace Gamin.Link

open Gamin Gamin.Library Gamin.Client Gamin.Server

/-- A connection: the bytes the library has written, those the server has not read yet, what
the backends do with the subscriptions of this connection, and its end in the server. -/
structure Wire where
  sent : Bytes
  inFlight : Bytes
  taken : Nat → Bool
  conn : GamConnData GamListener

/-- A connection behind the check of the credentials. -/
def openWire (taken : Nat → Bool) : Wire where
  sent := []
  inFlight := []
  taken := taken
  conn := gamConnectionNew gamListenerNew

def Wire.write (wire : Wire) (bytes : Bytes) : Wire :=
  { wire with sent := wire.sent ++ bytes, inFlight := wire.inFlight ++ bytes }

/-- `gamin_write_byte` for a packet. -/
def Wire.writePacket (wire : Wire) (write : GAMPacket × WriteAnswer) : Wire :=
  wire.write (gaminWriteByte write.1.encode write.2).2

/-- The server reads at most `length` bytes, as many as there are and as fit its buffer. -/
def Wire.read (variant : BuildVariant) (wire : Wire) (length : Nat) : Wire :=
  let chunk := wire.inFlight.take (min length (gamConnectionGetDataSize wire.conn).toNat)
  if chunk = [] then wire
  else
    { wire with
      inFlight := wire.inFlight.drop chunk.length
      conn := gamClientConnRead variant (listenerHandlers wire.taken) wire.conn chunk }

/-- The packets written so far. -/
def Wire.packets (wire : Wire) : List GAMPacket := (sentPackets wire.sent).state

/-- The last packet was written whole. -/
def Wire.Whole (wire : Wire) : Prop := (sentPackets wire.sent).leftover = []

instance (wire : Wire) : Decidable wire.Whole :=
  inferInstanceAs (Decidable ((sentPackets wire.sent).leftover = []))

/-- The numbers that are registered when the server has served everything written so far. -/
def Wire.registered (wire : Wire) : List Nat := (registeredBy wire.taken wire.packets).numbers

/-- The connection is open, and the requests served are the first of those sent. -/
structure Wire.Accepted (wire : Wire) : Prop where
  okay : wire.conn.state = .okay
  served : wire.conn.requests <+: wire.packets

/-! ## The invariant -/

/-- What the library has written and the server not served yet is a stream of packets that
the server will accept; the last one may have broken off. -/
structure Wire.Healthy (wire : Wire) (packets pending : List GAMPacket) (torn : Bytes) : Prop where
  okay : wire.conn.state = .okay
  tears : requestFraming.Torn torn
  sent : wire.sent = packets.flatMap GAMPacket.encode ++ torn
  waiting : window wire.conn.request 0 wire.conn.requestLen ++ wire.inFlight =
    pending.flatMap GAMPacket.encode ++ torn
  inStep : InStep wire.taken packets (wire.conn.requests, wire.conn.server) pending

def Wire.WillAccept (wire : Wire) : Prop := ∃ packets pending torn, wire.Healthy packets pending torn

section

variable {wire : Wire} {packets pending : List GAMPacket} {torn : Bytes}

theorem Wire.Healthy.decoded (healthy : wire.Healthy packets pending torn) :
    sentPackets wire.sent = .waiting packets torn := by
  rw [healthy.sent]
  exact sentPackets_encoded healthy.inStep.library healthy.tears

theorem Wire.Healthy.packets_eq (healthy : wire.Healthy packets pending torn) : wire.packets = packets := by
  rw [Wire.packets, healthy.decoded]
  rfl

theorem Wire.Healthy.whole (healthy : wire.Healthy packets pending torn) (whole : wire.Whole) :
    torn = [] := by
  rw [Wire.Whole, healthy.decoded] at whole
  exact whole

theorem Wire.WillAccept.accepted (accepts : wire.WillAccept) : wire.Accepted := by
  obtain ⟨packets, pending, torn, healthy⟩ := accepts
  refine ⟨healthy.okay, ?_⟩
  rw [healthy.packets_eq, ← healthy.inStep.log]
  exact List.prefix_append _ _

theorem openWire_healthy (taken : Nat → Bool) : (openWire taken).Healthy [] [] [] where
  okay := rfl
  tears := Framing.torn_nil
  sent := rfl
  waiting := rfl
  inStep := ⟨rfl, fun _ member => (nomatch member), rfl, trivial⟩

/-! ## Writing -/

/-- The packet goes through whole. -/
theorem Wire.Healthy.write_whole (healthy : wire.Healthy packets pending []) {packet : GAMPacket}
    (library : LibraryPacket packet) (finds : FindsNumber (registeredBy wire.taken packets) packet) :
    (wire.write packet.encode).Healthy (packets ++ [packet]) (pending ++ [packet]) [] where
  okay := healthy.okay
  tears := healthy.tears
  sent := by simp [Wire.write, healthy.sent]
  waiting := by
    have waiting := healthy.waiting
    simp only [List.append_nil] at waiting
    simp [Wire.write, ← List.append_assoc, waiting]
  inStep := healthy.inStep.append library finds

/-- The packet breaks off. -/
theorem Wire.Healthy.write_torn (healthy : wire.Healthy packets pending []) {packet : GAMPacket}
    (library : LibraryPacket packet) {front missing : Bytes} (encoded : packet.encode = front ++ missing)
    (some : missing ≠ []) : (wire.write front).Healthy packets pending front where
  okay := healthy.okay
  tears := by
    have scanned := library.scanned []
    rw [List.append_nil, encoded] at scanned
    exact Framing.torn_of_missing scanned some
  sent := by simp [Wire.write, healthy.sent]
  waiting := by
    have waiting := healthy.waiting
    simp only [List.append_nil] at waiting
    simp [Wire.write, ← List.append_assoc, waiting]
  inStep := healthy.inStep

/-- A packet is written as far as the socket takes it. -/
theorem Wire.WillAccept.writePacket (accepts : wire.WillAccept) {packet : GAMPacket}
    (library : LibraryPacket packet) (written : WriteAnswer)
    (whole : (gaminWriteByte packet.encode written).2 ≠ [] → wire.Whole)
    (finds : (gaminWriteByte packet.encode written).1 = 0 →
      FindsNumber (registeredBy wire.taken wire.packets) packet) :
    (wire.writePacket (packet, written)).WillAccept := by
  by_cases nothing : (gaminWriteByte packet.encode written).2 = []
  · have same : wire.writePacket (packet, written) = wire := by
      simp [Wire.writePacket, Wire.write, nothing]
    rw [same]
    exact accepts
  · obtain ⟨packets, pending, torn, healthy⟩ := accepts
    -- nothing may be torn before it, so it begins a packet
    obtain rfl := healthy.whole (whole nothing)
    simp only [Wire.writePacket]
    cases written with
    | complete =>
      have found := finds rfl
      rw [healthy.packets_eq] at found
      exact ⟨_, _, _, healthy.write_whole library found⟩
    | failedBehind bytes =>
      simp only [gaminWriteByte] at finds ⊢
      split at finds
      · rename_i short
        rw [if_pos short]
        have encoded := (List.take_append_drop bytes packet.encode).symm
        refine ⟨_, _, _, healthy.write_torn library encoded ?_⟩
        exact List.ne_nil_of_length_pos (by rw [List.length_drop]; omega)
      · rename_i enough
        have found := finds rfl
        rw [healthy.packets_eq] at found
        rw [if_neg enough]
        exact ⟨_, _, _, healthy.write_whole library found⟩

/-! ## Reading -/

/-- However much the server reads, it accepts what it gets. -/
theorem Wire.WillAccept.read (variant : BuildVariant) (accepts : wire.WillAccept) (length : Nat) :
    (wire.read variant length).WillAccept := by
  obtain ⟨packets, pending, torn, healthy⟩ := accepts
  simp only [Wire.read]
  split
  · exact ⟨packets, pending, torn, healthy⟩
  · rename_i some
    obtain ⟨size, same⟩ : ∃ size, size = min length (gamConnectionGetDataSize wire.conn).toNat := ⟨_, rfl⟩
    rw [← same] at some ⊢
    have stream : (window wire.conn.request 0 wire.conn.requestLen ++ wire.inFlight.take size) ++
        wire.inFlight.drop (wire.inFlight.take size).length =
        pending.flatMap GAMPacket.encode ++ torn := by
      rw [← healthy.waiting, List.append_assoc]
      congr 1
      have front := List.take_append_drop size wire.inFlight
      rcases Nat.le_total size wire.inFlight.length with inside | beyond
      · rw [List.length_take, Nat.min_eq_left inside, front]
      · rw [List.take_of_length_le beyond, List.drop_length, List.append_nil]
    obtain ⟨after, remaining, leftover, drained, inStep, rest⟩ :=
      Framing.drain_piece (inStep_accepts wire.taken packets) healthy.tears healthy.inStep stream
    -- the connection behind the read is the decoder that waits with the leftover
    have decodes := gamClientConnRead_decodes variant (listenerHandlers wire.taken) wire.conn
      (wire.inFlight.take size)
    have nonempty : ¬ (wire.inFlight.take size).length = 0 := by
      rw [List.length_eq_zero_iff]
      exact some
    rw [readDecoder, if_neg nonempty, connectionDecoder, connectionDecoder, if_pos healthy.okay,
      Framing.feed, drained] at decodes
    split at decodes
    · rename_i okay
      simp only [Decoder.waiting.injEq] at decodes
      refine ⟨packets, remaining, torn, okay, healthy.tears, healthy.sent, ?_, ?_⟩
      · simp only [decodes.2]
        exact rest
      · simp only [decodes.1]
        exact inStep
    · contradiction

end

end Gamin.Link
