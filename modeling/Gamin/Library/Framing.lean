import Mathlib.Data.List.Basic

/-! # Decoding a stream of self-delimiting packets

A scanner looks at the front of a byte stream and finds a whole packet, bytes that no
packet starts with, or too little to tell.  What it finds must not depend on the bytes
behind the packet.  Decoding packet by packet is then independent of how the stream is
cut into chunks.
-/

namespace Gamin.Library

variable {Byte Packet State : Type*}

/-- What a scanner finds at the front of a stream. -/
inductive Scan (Packet : Type*) where
  | incomplete
  | malformed
  | frame (packet : Packet) (length : Nat)

/-- A scanner whose findings are stable under more bytes. -/
structure Framing (Byte Packet : Type*) where
  scan : List Byte → Scan Packet
  scan_nil : scan [] = .incomplete
  frame_positive : ∀ {bytes packet length}, scan bytes = .frame packet length → 0 < length
  frame_fits : ∀ {bytes packet length}, scan bytes = .frame packet length → length ≤ bytes.length
  frame_stable : ∀ {bytes packet length} (more : List Byte),
    scan bytes = .frame packet length → scan (bytes ++ more) = .frame packet length
  malformed_stable : ∀ {bytes} (more : List Byte),
    scan bytes = .malformed → scan (bytes ++ more) = .malformed

/-- A decoder between two chunks: it waits with the bytes it could not use yet, or it has
rejected the stream. -/
inductive Decoder (State Byte : Type*) where
  | waiting (state : State) (leftover : List Byte)
  | rejected (state : State)

def Decoder.state : Decoder State Byte → State
  | .waiting state _ => state
  | .rejected state => state

def Decoder.leftover : Decoder State Byte → List Byte
  | .waiting _ leftover => leftover
  | .rejected _ => []

namespace Framing

variable (framing : Framing Byte Packet) (consume : State → Packet → State × Bool)

/-- Consumes the packets at the front of the stream one by one.  The consumer says
whether it accepts a packet. -/
def drain (state : State) (bytes : List Byte) : Decoder State Byte :=
  match _found : framing.scan bytes with
  | .incomplete => .waiting state bytes
  | .malformed => .rejected state
  | .frame packet length =>
    match consume state packet with
    | (state, true) => drain state (bytes.drop length)
    | (state, false) => .rejected state
termination_by bytes.length
decreasing_by
  have positive := framing.frame_positive _found
  have fits := framing.frame_fits _found
  simp only [List.length_drop]
  omega

/-- Hands the next chunk to a decoder. -/
def feed (decoder : Decoder State Byte) (chunk : List Byte) : Decoder State Byte :=
  match decoder with
  | .waiting state leftover => framing.drain consume state (leftover ++ chunk)
  | .rejected state => .rejected state

variable {framing consume} {state after : State} {bytes : List Byte} {packet : Packet} {length : Nat}

theorem drain_incomplete (found : framing.scan bytes = .incomplete) :
    framing.drain consume state bytes = .waiting state bytes := by
  rw [drain]
  split <;> simp_all

theorem drain_malformed (found : framing.scan bytes = .malformed) :
    framing.drain consume state bytes = .rejected state := by
  rw [drain]
  split <;> simp_all

theorem drain_accepted (found : framing.scan bytes = .frame packet length)
    (accepted : consume state packet = (after, true)) :
    framing.drain consume state bytes = framing.drain consume after (bytes.drop length) := by
  rw [drain]
  split <;> simp_all

theorem drain_refused (found : framing.scan bytes = .frame packet length)
    (refused : consume state packet = (after, false)) :
    framing.drain consume state bytes = .rejected after := by
  rw [drain]
  split <;> simp_all

theorem drain_nil : framing.drain consume state [] = .waiting state [] :=
  drain_incomplete framing.scan_nil

/-- What every packet keeps, decoding keeps. -/
theorem drain_keeps (property : State → Prop)
    (kept : ∀ state packet, property state → property (consume state packet).1)
    {state : State} (holds : property state) (bytes : List Byte) :
    property (framing.drain consume state bytes).state := by
  fun_induction framing.drain consume state bytes with
  | case1 => exact holds
  | case2 => exact holds
  | case3 state bytes packet length found after accepted inductionHypothesis =>
    have step := kept state packet holds
    rw [accepted] at step
    exact inductionHypothesis step
  | case4 state bytes packet length found after refused =>
    have step := kept state packet holds
    rw [refused] at step
    exact step

/-- Decoding two pieces at once is decoding the first and then feeding the second. -/
theorem drain_append (state : State) (first second : List Byte) :
    framing.drain consume state (first ++ second) =
      framing.feed consume (framing.drain consume state first) second := by
  fun_induction framing.drain consume state first with
  | case1 state bytes found => rfl
  | case2 state bytes found => exact drain_malformed (framing.malformed_stable second found)
  | case3 state bytes packet length found after accepted inductionHypothesis =>
    rw [drain_accepted (framing.frame_stable second found) accepted,
      List.drop_append_of_le_length (framing.frame_fits found), inductionHypothesis]
  | case4 state bytes packet length found after refused =>
    exact drain_refused (framing.frame_stable second found) refused

/-- Feeding chunks one by one behind a stretch of the stream is decoding it all. -/
theorem feed_behind (chunks : List (List Byte)) (state : State) (bytes : List Byte) :
    chunks.foldl (framing.feed consume) (framing.drain consume state bytes) =
      framing.drain consume state (bytes ++ chunks.flatten) := by
  induction chunks generalizing bytes with
  | nil => simp
  | cons chunk chunks inductionHypothesis =>
    rw [List.foldl_cons, ← drain_append, inductionHypothesis, List.flatten_cons, List.append_assoc]

/-- Chunk independence: feeding the chunks of a stream is decoding the stream. -/
theorem feed_chunks (chunks : List (List Byte)) (state : State) :
    chunks.foldl (framing.feed consume) (.waiting state []) =
      framing.drain consume state chunks.flatten := by
  have start : framing.drain consume state [] = .waiting state [] := drain_nil
  rw [← start, feed_behind, List.nil_append]

/-! ## Guarded decoding -/

/-- Every packet that is consumed meets the guard in the state that it finds. -/
def DrainGuarded (framing : Framing Byte Packet) (consume : State → Packet → State × Bool)
    (guard : State → Packet → Prop) (state : State) (bytes : List Byte) : Prop :=
  match _found : framing.scan bytes with
  | .incomplete => True
  | .malformed => True
  | .frame packet length =>
    guard state packet ∧
      ((consume state packet).2 = true →
        DrainGuarded framing consume guard (consume state packet).1 (bytes.drop length))
termination_by bytes.length
decreasing_by
  have positive := framing.frame_positive _found
  have fits := framing.frame_fits _found
  simp only [List.length_drop]
  omega

variable {guard : State → Packet → Prop}

theorem drainGuarded_incomplete (found : framing.scan bytes = .incomplete) :
    framing.DrainGuarded consume guard state bytes := by
  rw [DrainGuarded]
  split <;> simp_all

theorem drainGuarded_frame (found : framing.scan bytes = .frame packet length) :
    framing.DrainGuarded consume guard state bytes ↔
      guard state packet ∧ ((consume state packet).2 = true →
        framing.DrainGuarded consume guard (consume state packet).1 (bytes.drop length)) := by
  rw [DrainGuarded]
  split <;> simp_all

theorem drainGuarded_of_all (all : ∀ state packet, guard state packet) (state : State) (bytes : List Byte) :
    framing.DrainGuarded consume guard state bytes := by
  fun_induction framing.DrainGuarded consume guard state bytes with
  | case1 => trivial
  | case2 => trivial
  | case3 state bytes packet length found inductionHypothesis =>
    exact ⟨all state packet, fun _ => inductionHypothesis⟩

/-- What every packet that meets the guard keeps, guarded decoding keeps. -/
theorem drain_guarded (property : State → Prop)
    (kept : ∀ state packet, property state → guard state packet → property (consume state packet).1)
    {state : State} (holds : property state) {bytes : List Byte}
    (guarded : framing.DrainGuarded consume guard state bytes) :
    property (framing.drain consume state bytes).state := by
  fun_induction framing.drain consume state bytes with
  | case1 => exact holds
  | case2 => exact holds
  | case3 state bytes packet length found after accepted inductionHypothesis =>
    obtain ⟨meets, rest⟩ := (drainGuarded_frame found).mp guarded
    have step := kept state packet holds meets
    rw [accepted] at step rest
    exact inductionHypothesis step (rest rfl)
  | case4 state bytes packet length found after refused =>
    have step := kept state packet holds ((drainGuarded_frame found).mp guarded).1
    rw [refused] at step
    exact step

/-! ## Streams that may break off

A sender that writes packets one after the other may stop inside the last one.
-/

/-- Bytes that no packet ends in, however many of them have arrived. -/
def Torn (framing : Framing Byte Packet) (bytes : List Byte) : Prop :=
  ∀ front, front <+: bytes → framing.scan front = .incomplete

theorem torn_nil : framing.Torn [] := by
  intro front start
  rw [List.prefix_nil.mp start]
  exact framing.scan_nil

/-- A packet that is not whole. -/
theorem torn_of_missing {front missing : List Byte}
    (found : framing.scan (front ++ missing) = .frame packet (front ++ missing).length)
    (some : missing ≠ []) : framing.Torn front := by
  rintro start ⟨rest, rfl⟩
  have positive := List.length_pos_of_ne_nil some
  cases scanned : framing.scan start with
  | incomplete => rfl
  | malformed =>
    have stable := framing.malformed_stable (rest ++ missing) scanned
    rw [← List.append_assoc, found] at stable
    contradiction
  | frame other length =>
    have fits := framing.frame_fits scanned
    have stable := framing.frame_stable (rest ++ missing) scanned
    rw [← List.append_assoc, found] at stable
    obtain ⟨_, same⟩ := Scan.frame.inj stable
    simp only [List.length_append] at same
    omega

section Streams

variable {encode : Packet → List Byte} {invariant : State → List Packet → Prop}

/-- The packets are found one by one, and the consumer accepts each of them. -/
def Accepts (framing : Framing Byte Packet) (consume : State → Packet → State × Bool)
    (encode : Packet → List Byte) (invariant : State → List Packet → Prop) : Prop :=
  ∀ state packet packets, invariant state (packet :: packets) →
    (∀ rest, framing.scan (encode packet ++ rest) = .frame packet (encode packet).length) ∧
      ∃ after, consume state packet = (after, true) ∧ invariant after packets

/-- A piece of the stream: some packets are accepted, and the others are still to come. -/
theorem drain_piece (accepts : framing.Accepts consume encode invariant) {torn : List Byte}
    (tears : framing.Torn torn) {state : State} {packets : List Packet} (holds : invariant state packets)
    {bytes rest : List Byte} (piece : bytes ++ rest = packets.flatMap encode ++ torn) :
    ∃ after remaining leftover, framing.drain consume state bytes = .waiting after leftover ∧
      invariant after remaining ∧ leftover ++ rest = remaining.flatMap encode ++ torn := by
  induction packets generalizing state bytes with
  | nil => exact ⟨state, [], bytes, drain_incomplete (tears bytes ⟨rest, piece⟩), holds, piece⟩
  | cons packet packets inductionHypothesis =>
    obtain ⟨found, after, accepted, holdsAfter⟩ := accepts state packet packets holds
    rw [List.flatMap_cons, List.append_assoc] at piece
    rcases List.append_eq_append_iff.mp piece with ⟨missing, encoded, behind⟩ | ⟨behind, split, stream⟩
    · by_cases whole : missing = []
      · -- the piece ends with the first packet
        have ends : bytes = encode packet := by rw [encoded, whole, List.append_nil]
        refine ⟨after, packets, [], ?_, holdsAfter, ?_⟩
        · have scanned := found []
          rw [List.append_nil, ← ends] at scanned
          rw [drain_accepted scanned accepted, List.drop_length]
          exact drain_nil
        · rw [List.nil_append, behind, whole, List.nil_append]
      · have scanned := found []
        rw [List.append_nil, encoded] at scanned
        have waits := torn_of_missing scanned whole bytes List.prefix_rfl
        refine ⟨state, packet :: packets, bytes, drain_incomplete waits, holds, ?_⟩
        rw [List.flatMap_cons, List.append_assoc]
        exact piece
    · obtain ⟨last, remaining, leftover, drained, holdsLast, left⟩ :=
        inductionHypothesis holdsAfter stream.symm
      refine ⟨last, remaining, leftover, ?_, holdsLast, left⟩
      rw [split, drain_accepted (found behind) accepted, List.drop_left, drained]

/-- The whole stream: every packet is accepted, and what is torn is left over. -/
theorem drain_stream (accepts : framing.Accepts consume encode invariant) {torn : List Byte}
    (tears : framing.Torn torn) {state : State} {packets : List Packet} (holds : invariant state packets) :
    ∃ after, framing.drain consume state (packets.flatMap encode ++ torn) = .waiting after torn ∧
      invariant after [] := by
  induction packets generalizing state with
  | nil => exact ⟨state, drain_incomplete (tears torn List.prefix_rfl), holds⟩
  | cons packet packets inductionHypothesis =>
    obtain ⟨found, after, accepted, holdsAfter⟩ := accepts state packet packets holds
    obtain ⟨last, drained, holdsLast⟩ := inductionHypothesis holdsAfter
    refine ⟨last, ?_, holdsLast⟩
    rw [List.flatMap_cons, List.append_assoc, drain_accepted (found _) accepted, List.drop_left, drained]

end Streams

end Framing

end Gamin.Library
