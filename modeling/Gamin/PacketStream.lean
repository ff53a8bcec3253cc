import Gamin.Protocol
import Gamin.Library.Framing

/-! # Packets of a byte stream

Server and client make the same checks on the packet at the front of a stream, but for
the packets that may come without a path.  The checks are a framing: no bytes behind a
packet matter to it.
-/

namespace Gamin

open Gamin.Library

/-- The packet at the front of a stream. -/
def scanPacket (pathFree : Nat → Bool) (bytes : Bytes) : Scan GAMPacket :=
  if bytes.length < gamPacketHeaderLen then .incomplete
  else if shortAt bytes 0 > sizeofGAMPacket then .malformed
  else if shortAt bytes 2 ≠ gamProtoVersion then .malformed
  else if ¬ pathFree (shortAt bytes 6) ∧ (shortAt bytes 8 = 0 ∨ shortAt bytes 8 > maxPathLen) then
    .malformed
  else if shortAt bytes 8 + gamPacketHeaderLen ≠ shortAt bytes 0 then .malformed
  else if bytes.length < shortAt bytes 0 then .incomplete
  else
    .frame
      { version := shortAt bytes 2
        seq := shortAt bytes 4
        type := shortAt bytes 6
        path := (bytes.drop gamPacketHeaderLen).take (shortAt bytes 8) }
      (shortAt bytes 0)

variable {pathFree : Nat → Bool}

theorem scanPacket_short {bytes : Bytes} (short : bytes.length < gamPacketHeaderLen) :
    scanPacket pathFree bytes = .incomplete := by
  simp [scanPacket, short]

theorem scanPacket_append {bytes : Bytes} (more : Bytes)
    (found : scanPacket pathFree bytes ≠ .incomplete) :
    scanPacket pathFree (bytes ++ more) = scanPacket pathFree bytes := by
  have long : ¬ bytes.length < gamPacketHeaderLen := fun short => found (scanPacket_short short)
  have header (offset : Nat) (inside : offset < 9) : shortAt (bytes ++ more) offset = shortAt bytes offset :=
    shortAt_append bytes more offset (by simp only [gamPacketHeaderLen] at long; omega)
  have longer : ¬ (bytes ++ more).length < gamPacketHeaderLen := by
    rw [List.length_append]
    omega
  simp only [scanPacket, if_neg long, if_neg longer, header 0, header 2, header 4, header 6, header 8,
    Nat.reduceLT] at found ⊢
  by_cases fits : shortAt bytes 0 > sizeofGAMPacket
  · rw [if_pos fits, if_pos fits]
  rw [if_neg fits] at found ⊢
  rw [if_neg fits]
  by_cases version : shortAt bytes 2 ≠ gamProtoVersion
  · rw [if_pos version, if_pos version]
  rw [if_neg version] at found ⊢
  rw [if_neg version]
  by_cases path : ¬ pathFree (shortAt bytes 6) ∧ (shortAt bytes 8 = 0 ∨ shortAt bytes 8 > maxPathLen)
  · rw [if_pos path, if_pos path]
  rw [if_neg path] at found ⊢
  rw [if_neg path]
  by_cases sizes : shortAt bytes 8 + gamPacketHeaderLen ≠ shortAt bytes 0
  · rw [if_pos sizes, if_pos sizes]
  rw [if_neg sizes] at found ⊢
  rw [if_neg sizes]
  -- only the last check looks at how much there is
  by_cases missing : bytes.length < shortAt bytes 0
  · rw [if_pos missing] at found
    contradiction
  · have whole : ¬ (bytes ++ more).length < shortAt bytes 0 := by
      rw [List.length_append]
      omega
    rw [if_neg missing, if_neg whole, List.drop_append_of_le_length (by omega),
      List.take_append_of_le_length]
    rw [List.length_drop]
    omega

theorem scanPacket_frame {bytes : Bytes} {packet : GAMPacket} {length : Nat}
    (found : scanPacket pathFree bytes = .frame packet length) :
    gamPacketHeaderLen ≤ length ∧ length ≤ bytes.length := by
  unfold scanPacket at found
  split at found
  · contradiction
  split at found
  · contradiction
  split at found
  · contradiction
  split at found
  · contradiction
  split at found
  · contradiction
  split at found
  · contradiction
  · simp only [Scan.frame.injEq] at found
    omega

/-- The packets of a stream; `pathFree` are the types that may come without a path. -/
def packetFraming (pathFree : Nat → Bool) : Framing UInt8 GAMPacket where
  scan := scanPacket pathFree
  scan_nil := scanPacket_short (by decide)
  frame_positive := fun found =>
    Nat.lt_of_lt_of_le (by decide) (scanPacket_frame found).1
  frame_fits := fun found => (scanPacket_frame found).2
  frame_stable := fun more found => by rw [scanPacket_append more (by simp [found]), found]
  malformed_stable := fun more found => by rw [scanPacket_append more (by simp [found]), found]

/-! ## Packets in memory -/

/-- The fields at an address as the scanner sees them. -/
theorem window_fields (memory : Nat → UInt8) (packet length : Nat)
    (header : gamPacketHeaderLen ≤ length) :
    packetLen memory packet = shortAt (window memory packet length) 0 ∧
      packetVersion memory packet = shortAt (window memory packet length) 2 ∧
      packetSeq memory packet = shortAt (window memory packet length) 4 ∧
      packetType memory packet = shortAt (window memory packet length) 6 ∧
      packetPathlen memory packet = shortAt (window memory packet length) 8 := by
  simp only [gamPacketHeaderLen] at header
  refine ⟨?_, ?_, ?_, ?_, ?_⟩
  · exact readShort_window memory packet length 0 (by omega)
  · exact readShort_window memory packet length 2 (by omega)
  · exact readShort_window memory packet length 4 (by omega)
  · exact readShort_window memory packet length 6 (by omega)
  · exact readShort_window memory packet length 8 (by omega)

/-- The scanner on a block of memory makes the checks of the C code on the fields there. -/
theorem scanPacket_window (memory : Nat → UInt8) (packet length : Nat) :
    scanPacket pathFree (window memory packet length) =
      if length < gamPacketHeaderLen then .incomplete
      else if packetLen memory packet > sizeofGAMPacket then .malformed
      else if packetVersion memory packet ≠ gamProtoVersion then .malformed
      else if ¬ pathFree (packetType memory packet) ∧
          (packetPathlen memory packet ≤ 0 ∨ packetPathlen memory packet > maxPathLen) then .malformed
      else if packetPathlen memory packet + gamPacketHeaderLen ≠ packetLen memory packet then .malformed
      else if length < packetLen memory packet then .incomplete
      else .frame (packetAt memory packet) (packetLen memory packet) := by
  by_cases header : length < gamPacketHeaderLen
  · rw [scanPacket_short (by simpa using header), if_pos header]
  · obtain ⟨lenField, versionField, seqField, typeField, pathlenField⟩ :=
      window_fields memory packet length (by omega)
    simp only [scanPacket, window_length, if_neg header, packetAt, ← lenField, ← versionField,
      ← seqField, ← typeField, ← pathlenField, Nat.le_zero]
    by_cases sizes : packetPathlen memory packet + gamPacketHeaderLen = packetLen memory packet
    · by_cases whole : length < packetLen memory packet
      · simp only [if_pos whole]
      · rw [window_drop _ _ _ _ (by omega), window_take _ _ _ _ (by omega)]
        rfl
    · simp only [ne_eq, sizes, not_false_eq_true, if_true]

/-! ## Encoded packets -/

/-- A packet that the protocol can carry: the fields fit their 16 bits, and there is a
path where one is required. -/
structure GAMPacket.WellFormed (pathFree : Nat → Bool) (packet : GAMPacket) : Prop where
  version : packet.version = gamProtoVersion
  seq : packet.seq < 65536
  type : packet.type < 65536
  path : pathFree packet.type = true ∨ 0 < packet.path.length
  short : packet.path.length ≤ maxPathLen

theorem shortBytes_sum (number : Nat) (small : number < 65536) :
    (UInt8.ofNat (number % 65536)).toNat + 256 * (UInt8.ofNat (number % 65536 / 256)).toNat = number := by
  simp only [UInt8.toNat_ofNat']
  omega

theorem scanPacket_encode {packet : GAMPacket} (wellFormed : packet.WellFormed pathFree) (rest : Bytes) :
    scanPacket pathFree (packet.encode ++ rest) = .frame packet packet.encode.length := by
  obtain ⟨version, seq, type, path, short⟩ := wellFormed
  simp only [maxPathLen] at short
  -- the fields are read back
  have lenField : shortAt (packet.encode ++ rest) 0 = gamPacketHeaderLen + packet.path.length :=
    shortBytes_sum _ (by simp only [gamPacketHeaderLen]; omega)
  have versionField : shortAt (packet.encode ++ rest) 2 = packet.version :=
    shortBytes_sum _ (by rw [version]; decide)
  have seqField : shortAt (packet.encode ++ rest) 4 = packet.seq := shortBytes_sum _ seq
  have typeField : shortAt (packet.encode ++ rest) 6 = packet.type := shortBytes_sum _ type
  have pathlenField : shortAt (packet.encode ++ rest) 8 = packet.path.length :=
    shortBytes_sum _ (by omega)
  have pathBytes : ((packet.encode ++ rest).drop gamPacketHeaderLen).take packet.path.length =
      packet.path := by
    simp [GAMPacket.encode, shortBytes, gamPacketHeaderLen]
  -- and no check refuses them
  have header : ¬ (packet.encode ++ rest).length < gamPacketHeaderLen := by
    rw [List.length_append, packet.encode_length]
    omega
  have whole : ¬ (packet.encode ++ rest).length < gamPacketHeaderLen + packet.path.length := by
    rw [List.length_append, packet.encode_length]
    omega
  have fits : ¬ gamPacketHeaderLen + packet.path.length > sizeofGAMPacket := by
    simp only [sizeofGAMPacket, maxPathLen]
    omega
  have pathFits : ¬ (¬ pathFree packet.type = true ∧ (packet.path.length = 0 ∨ packet.path.length > maxPathLen)) := by
    rintro ⟨required, empty | long⟩
    · rcases path with free | some
      · contradiction
      · omega
    · simp only [maxPathLen] at long
      omega
  simp only [scanPacket, if_neg header, lenField, if_neg fits, versionField, version, ne_eq,
    not_true_eq_false, if_false, typeField, pathlenField, if_neg pathFits, if_neg whole, seqField,
    pathBytes, Nat.add_comm packet.path.length, packet.encode_length]
  rw [← version]

/-- What a consumer that accepts everything has of a sequence of packets: the first of them are
consumed, the others are still to come. -/
def Consumed {State : Type*} (consume : State → GAMPacket → State) (packets : List GAMPacket) (start : State)
    (state : State) (remaining : List GAMPacket) : Prop :=
  ∃ taken, packets = taken ++ remaining ∧ state = taken.foldl consume start

theorem accepts_consumed {State : Type*} (consume : State → GAMPacket → State) {packets : List GAMPacket}
    (wellFormed : ∀ packet ∈ packets, packet.WellFormed pathFree) (start : State) :
    (packetFraming pathFree).Accepts (fun state packet => (consume state packet, true)) GAMPacket.encode
      (Consumed consume packets start) := by
  intro state packet remaining consumed
  obtain ⟨taken, split, rfl⟩ := consumed
  have member : packet ∈ packets := by simp [split]
  refine ⟨scanPacket_encode (wellFormed packet member), _, rfl, taken ++ [packet], ?_, ?_⟩
  · simp [split]
  · simp [List.foldl_append]

/-- Decoding an encoded sequence of packets consumes them in order, and nothing is left. -/
theorem drain_encoded {State : Type*} (consume : State → GAMPacket → State) (packets : List GAMPacket)
    (wellFormed : ∀ packet ∈ packets, packet.WellFormed pathFree) (state : State) :
    (packetFraming pathFree).drain (fun state packet => (consume state packet, true)) state
        (packets.flatMap GAMPacket.encode) = .waiting (packets.foldl consume state) [] := by
  have start : Consumed consume packets state state packets := ⟨[], rfl, rfl⟩
  obtain ⟨after, drained, taken, split, rfl⟩ := Framing.drain_stream
    (accepts_consumed consume wellFormed state) Framing.torn_nil start
  rw [List.append_nil] at drained split
  rw [drained, split]

/-- A piece of an encoded sequence of packets decodes to the packets that are whole in it. -/
theorem drain_encoded_prefix {State : Type*} (consume : State → GAMPacket → State)
    (packets : List GAMPacket) (wellFormed : ∀ packet ∈ packets, packet.WellFormed pathFree)
    (state : State) {bytes rest : Bytes} (piece : bytes ++ rest = packets.flatMap GAMPacket.encode) :
    ∃ count leftover, bytes = (packets.take count).flatMap GAMPacket.encode ++ leftover ∧
      (packetFraming pathFree).drain (fun state packet => (consume state packet, true)) state bytes =
        .waiting ((packets.take count).foldl consume state) leftover := by
  have start : Consumed consume packets state state packets := ⟨[], rfl, rfl⟩
  obtain ⟨after, remaining, leftover, drained, ⟨taken, split, rfl⟩, left⟩ := Framing.drain_piece
    (accepts_consumed consume wellFormed state) Framing.torn_nil start (piece.trans (List.append_nil _).symm)
  have front : packets.take taken.length = taken := by rw [split, List.take_left]
  refine ⟨taken.length, leftover, ?_, by rw [front, drained]⟩
  -- the rest of the stream stands behind both
  apply (List.append_left_inj rest).mp
  rw [front, List.append_assoc, left, piece, split, List.flatMap_append, List.append_nil]

end Gamin
