import Gamin.Inotify.MoveHistory
import Mathlib.Algebra.GroupWithZero.Nat

/-! # Decoding the kernel's stream of events

`ik_read_events` and the loop of `ik_read_callback`.  A buffer of fixed size is cleared and
filled from the channel, and the records in it are taken one after the other.  Each record has a
name of its own length, and nothing is kept from one call to the next.
-/

namespace Gamin.Inotify

open Gamin Gamin.Library

/-! ## The stream -/

/-- `sizeof (struct inotify_event)`. -/
def sizeofInotifyEvent : Nat := 16

/-- The four bytes of a `guint32`, in the order of the host. -/
def wordBytes (number : Nat) : Bytes :=
  [UInt8.ofNat (number % 256), UInt8.ofNat (number / 256 % 256), UInt8.ofNat (number / 65536 % 256),
    UInt8.ofNat (number / 16777216 % 256)]

/-- The `guint32` at an address. -/
def readWord (memory : Nat → UInt8) (address : Nat) : Nat :=
  (memory address).toNat + 256 * (memory (address + 1)).toNat + 65536 * (memory (address + 2)).toNat +
    16777216 * (memory (address + 3)).toNat

/-- `struct inotify_event` as the kernel writes it: behind the numbers there may be a name,
which ends with a NUL byte and is padded with more of them.  A descriptor is given by its bits. -/
structure InotifyEvent where
  wd : Nat
  mask : Nat
  cookie : Nat
  name : Bytes
  padding : Nat
  wdFits : wd < 4294967296
  maskFits : mask < 4294967296
  cookieFits : cookie < 4294967296
  lenFits : name.length + padding < 4294967296
  nameFree : 0 ∉ name
  terminated : name ≠ [] → 0 < padding

def InotifyEvent.len (event : InotifyEvent) : Nat := event.name.length + event.padding

/-- The numbers of a record. -/
def InotifyEvent.header (event : InotifyEvent) : Bytes :=
  wordBytes event.wd ++ (wordBytes event.mask ++ (wordBytes event.cookie ++ wordBytes event.len))

/-- The name of a record and its padding. -/
def InotifyEvent.paddedName (event : InotifyEvent) : Bytes :=
  event.name ++ List.replicate event.padding 0

/-- The bytes of a record. -/
def InotifyEvent.encode (event : InotifyEvent) : Bytes := event.header ++ event.paddedName

/-- What `ik_event_new` takes from a record. -/
structure IkEventFields extends KernelEvent where
  len : Nat
  deriving DecidableEq, Repr

def InotifyEvent.fields (event : InotifyEvent) : IkEventFields where
  report := { wd := event.wd, mask := event.mask, name := event.name }
  cookie := event.cookie
  len := event.len

/-! ## The buffer -/

def maxQueuedEvents : Nat := 2048

/-- The size of the static buffer, `AVERAGE_EVENT_SIZE` for each event. -/
def ikBufferSize : Nat := (sizeofInotifyEvent + 16) * maxQueuedEvents

/-- What one call of `g_io_channel_read_chars` gives, and the memory behind the buffer as far as
it is mapped. -/
structure ChannelRead where
  bytes : Bytes
  behind : Bytes
  fits : bytes.length ≤ ikBufferSize

/-- `ik_read_events`: the memory from the buffer on, which has been cleared before the read. -/
def ChannelRead.memory (read : ChannelRead) (address : Nat) : UInt8 :=
  if address < ikBufferSize then (read.bytes[address]?).getD 0
  else (read.behind[address - ikBufferSize]?).getD 0

/-- Where the mapped memory ends. -/
def ChannelRead.mapped (read : ChannelRead) : Nat := ikBufferSize + read.behind.length

/-- `g_strdup` with so many bytes before the end of the memory; there is no result if the string
runs past it. -/
def gStrdup (memory : Nat → UInt8) : Nat → Nat → Option Bytes
  | 0, _ => none
  | left + 1, address =>
    if memory address = 0 then some []
    else (gStrdup memory left (address + 1)).map (memory address :: ·)

/-- `ik_event_new`: the event, and the end of the bytes that it was made of. -/
def ikEventNew (read : ChannelRead) (address : Nat) : Option (IkEventFields × Nat) :=
  let name := address + sizeofInotifyEvent
  if read.mapped < name then none
  else
    let fields := fun (text : Bytes) => {
      report := {
        wd := readWord read.memory address
        mask := readWord read.memory (address + 4)
        name := text }
      cookie := readWord read.memory (address + 8)
      len := readWord read.memory (address + 12) : IkEventFields }
    if readWord read.memory (address + 12) = 0 then some (fields [], name)
    else (gStrdup read.memory (read.mapped - name) name).map fun text =>
      (fields text, name + text.length + 1)

/-- The events that one call decodes, and the end of all the bytes that it used. -/
structure Decoded where
  events : List IkEventFields
  used : Nat
  deriving DecidableEq, Repr

/-- The loop of `ik_read_callback` from `buffer_i` on. -/
def decodeFrom (read : ChannelRead) (bufferI : Nat) : Option Decoded :=
  if bufferI < read.bytes.length then
    (ikEventNew read bufferI).bind fun (event, used) =>
      (decodeFrom read (bufferI + (sizeofInotifyEvent + event.len))).map fun decoded =>
        { events := event :: decoded.events, used := max used decoded.used }
  else some { events := [], used := 0 }
termination_by read.bytes.length - bufferI
decreasing_by
  simp only [sizeofInotifyEvent]
  omega

/-- What one call of `ik_read_callback` appends to `events_to_process`. -/
def ChannelRead.decode (read : ChannelRead) : Option Decoded := decodeFrom read 0

/-- What the calls append one after the other, and whether each of them used only bytes that it
had read. -/
def decodeReads : List ChannelRead → Option (List IkEventFields × Bool)
  | [] => some ([], true)
  | read :: reads =>
    read.decode.bind fun decoded =>
      (decodeReads reads).map fun (events, inside) =>
        (decoded.events ++ events, decide (decoded.used ≤ read.bytes.length) && inside)

/-- The events of one call with the times at which they are put on the queue. -/
def Decoded.buffer (decoded : Decoded) (clock : Nat → Nat) : List (KernelEvent × Nat) :=
  decoded.events.zipIdx.map fun (event, index) => (event.toKernelEvent, clock index)

/-- The whole callback; it does not return when a name runs past the end of the memory. -/
def ikReadCallbackOf (read : ChannelRead) (clock : Nat → Nat) (locked : Locked InotifyState) :
    Except Stuck (Locked InotifyState) :=
  match read.decode with
  | none => .error .noReturn
  | some decoded => ikReadCallback (decoded.buffer clock) locked

/-- A history takes from a call what it has decoded. -/
theorem Decoded.buffer_reads (decoded : Decoded) (clock : Nat → Nat) :
    (MoveStep.read (decoded.buffer clock)).reads = decoded.events.map IkEventFields.toKernelEvent := by
  have untimed : (fun entry : IkEventFields × Nat => entry.1.toKernelEvent) =
      IkEventFields.toKernelEvent ∘ Prod.fst := rfl
  simp only [MoveStep.reads, buffer, List.map_map, Function.comp_def]
  rw [untimed, ← List.map_map, List.zipIdx_map_fst]

/-! ## One record -/

theorem InotifyEvent.header_length (event : InotifyEvent) : event.header.length = sizeofInotifyEvent := rfl

theorem InotifyEvent.encode_length (event : InotifyEvent) :
    event.encode.length = sizeofInotifyEvent + event.len := by
  rw [encode, List.length_append, header_length, paddedName, List.length_append, List.length_replicate, len]

/-- A number survives being written and read. -/
theorem readWord_wordBytes {memory : Nat → UInt8} {address number : Nat} (fits : number < 4294967296)
    (written : window memory address 4 = wordBytes number) : readWord memory address = number := by
  have four : window memory address 4 =
      [memory address, memory (address + 1), memory (address + 2), memory (address + 3)] := rfl
  rw [four] at written
  simp only [wordBytes, List.cons.injEq, and_true] at written
  obtain ⟨first, second, third, fourth⟩ := written
  simp only [readWord, first, second, third, fourth, UInt8.toNat_ofNat']
  omega

/-- A string that ends before the memory does is copied. -/
theorem gStrdup_window {memory : Nat → UInt8} {text : Bytes} (textFree : 0 ∉ text) {left address : Nat}
    (written : window memory address text.length = text) (ends : memory (address + text.length) = 0)
    (room : text.length < left) : gStrdup memory left address = some text := by
  induction text generalizing left address with
  | nil =>
    obtain ⟨left, rfl⟩ := Nat.exists_eq_add_of_lt room
    exact if_pos ends
  | cons first text inductionHypothesis =>
    obtain ⟨left, rfl⟩ := Nat.exists_eq_add_of_lt room
    rw [List.length_cons, window_succ] at written
    obtain ⟨same, tail⟩ := List.cons.inj written
    have notNul : memory address ≠ 0 := by
      rintro isNul
      rw [← same, isNul] at textFree
      exact textFree List.mem_cons_self
    have end' : memory (address + 1 + text.length) = 0 := by
      rwa [List.length_cons, Nat.add_comm text.length 1, ← Nat.add_assoc] at ends
    have copied : gStrdup memory (text.length + 1 + left) (address + 1) = some text :=
      inductionHypothesis (fun member => textFree (List.mem_cons_of_mem _ member)) tail end' (by omega)
    rw [List.length_cons, gStrdup, if_neg notNul, copied, same]
    rfl

/-- The numbers of a record that stands at an address. -/
theorem readWord_header {memory : Nat → UInt8} {address : Nat} {event : InotifyEvent}
    (written : window memory address sizeofInotifyEvent = event.header) :
    readWord memory address = event.wd ∧ readWord memory (address + 4) = event.mask ∧
      readWord memory (address + 8) = event.cookie ∧ readWord memory (address + 12) = event.len := by
  rw [show sizeofInotifyEvent = 4 + (4 + (4 + 4)) from rfl, InotifyEvent.header] at written
  simp only [window_append, Nat.add_assoc] at written
  obtain ⟨wd, afterWd⟩ := List.append_inj written rfl
  obtain ⟨mask, afterMask⟩ := List.append_inj afterWd rfl
  obtain ⟨cookie, len⟩ := List.append_inj afterMask rfl
  exact ⟨readWord_wordBytes event.wdFits wd, readWord_wordBytes event.maskFits mask,
    readWord_wordBytes event.cookieFits cookie, readWord_wordBytes event.lenFits len⟩

/-- The name of a record is copied, since a NUL byte of its own ends it. -/
theorem gStrdup_record {memory : Nat → UInt8} {address left : Nat} {event : InotifyEvent}
    (named : event.len ≠ 0) (room : event.len ≤ left)
    (written : window memory address event.len = event.paddedName) :
    event.name.length < event.len ∧ gStrdup memory left address = some event.name := by
  have padded : 0 < event.padding := by
    by_cases noName : event.name = []
    · rw [InotifyEvent.len, noName, List.length_nil] at named
      omega
    · exact event.terminated noName
  have shorter : event.name.length < event.len := by
    rw [InotifyEvent.len]
    omega
  obtain ⟨padding, split⟩ := Nat.exists_eq_add_of_lt padded
  rw [InotifyEvent.len, InotifyEvent.paddedName, window_append] at written
  obtain ⟨name, zeros⟩ := List.append_inj written (by rw [window_length])
  rw [split, List.replicate_succ, window_succ] at zeros
  exact ⟨shorter, gStrdup_window event.nameFree name (List.cons.inj zeros).1 (by omega)⟩

/-- A whole record is decoded as it was written, and from its own bytes. -/
theorem ikEventNew_record {read : ChannelRead} {address : Nat} {event : InotifyEvent}
    (written : window read.memory address event.encode.length = event.encode)
    (fits : address + event.encode.length ≤ read.mapped) :
    ∃ used, used ≤ address + event.encode.length ∧ ikEventNew read address = some (event.fields, used) := by
  rw [event.encode_length, window_append, InotifyEvent.encode] at written
  obtain ⟨header, name⟩ := List.append_inj written rfl
  obtain ⟨wd, mask, cookie, len⟩ := readWord_header header
  rw [event.encode_length] at fits ⊢
  have inside : ¬ read.mapped < address + sizeofInotifyEvent := by omega
  simp only [ikEventNew, if_neg inside, wd, mask, cookie, len]
  by_cases nameless : event.len = 0
  · have noName : event.name = [] := List.length_eq_zero_iff.mp (by rw [InotifyEvent.len] at nameless; omega)
    refine ⟨address + sizeofInotifyEvent, by omega, ?_⟩
    rw [if_pos nameless, InotifyEvent.fields, noName]
  · obtain ⟨shorter, copied⟩ := gStrdup_record nameless
      (show event.len ≤ read.mapped - (address + sizeofInotifyEvent) by omega) name
    refine ⟨address + sizeofInotifyEvent + event.name.length + 1, by omega, ?_⟩
    rw [if_neg nameless, copied]
    rfl

/-! ## One read -/

theorem ChannelRead.memory_read (read : ChannelRead) (address : Nat) (inside : address < read.bytes.length) :
    read.memory address = read.bytes[address] := by
  have below := Nat.lt_of_lt_of_le inside read.fits
  rw [ChannelRead.memory, if_pos below, List.getElem?_eq_getElem inside, Option.getD_some]

/-- The bytes of the read stand in the memory. -/
theorem ChannelRead.window_memory {read : ChannelRead} {front middle rest : Bytes}
    (bytes : read.bytes = front ++ middle ++ rest) :
    window read.memory front.length middle.length = middle := by
  apply List.ext_getElem
  · rw [window_length]
  · intro offset inWindow inside
    have here : front.length + offset < read.bytes.length := by
      simp only [bytes, List.length_append]
      omega
    rw [window_getElem, read.memory_read _ here]
    simp only [bytes, List.append_assoc, List.getElem_append_right, Nat.le_add_right,
      Nat.add_sub_cancel_left, List.getElem_append_left, inside]

/-- One turn of the loop. -/
theorem decodeFrom_step {read : ChannelRead} {bufferI used : Nat} {event : IkEventFields}
    (inside : bufferI < read.bytes.length) (made : ikEventNew read bufferI = some (event, used)) :
    decodeFrom read bufferI =
      (decodeFrom read (bufferI + (sizeofInotifyEvent + event.len))).map fun decoded =>
        { events := event :: decoded.events, used := max used decoded.used } := by
  rw [decodeFrom, if_pos inside, made, Option.bind_some]

theorem decodeFrom_end {read : ChannelRead} {bufferI : Nat} (past : read.bytes.length ≤ bufferI) :
    decodeFrom read bufferI = some { events := [], used := 0 } := by
  rw [decodeFrom, if_neg (by omega)]

/-- Whole records are decoded one by one; then the loop goes on behind them. -/
theorem decodeFrom_records {read : ChannelRead} {front rest : Bytes} (events : List InotifyEvent)
    (bytes : read.bytes = front ++ events.flatMap InotifyEvent.encode ++ rest) :
    ∃ used, used ≤ front.length + (events.flatMap InotifyEvent.encode).length ∧
      decodeFrom read front.length =
        (decodeFrom read (front.length + (events.flatMap InotifyEvent.encode).length)).map fun decoded =>
          { events := events.map InotifyEvent.fields ++ decoded.events, used := max used decoded.used } := by
  induction events generalizing front with
  | nil =>
    refine ⟨0, Nat.zero_le _, ?_⟩
    simp
  -- the first record is whole, so the loop decodes it and goes on at its end
  | cons event events inductionHypothesis =>
    have behind : read.bytes = (front ++ event.encode) ++ events.flatMap InotifyEvent.encode ++ rest := by
      rw [bytes, List.flatMap_cons]
      simp only [List.append_assoc]
    obtain ⟨usedLater, insideLater, later⟩ := inductionHypothesis behind
    have first : read.bytes = front ++ event.encode ++ (events.flatMap InotifyEvent.encode ++ rest) := by
      rw [behind, List.append_assoc]
    have inside : front.length + event.encode.length ≤ read.bytes.length := by
      simp only [first, List.length_append]
      omega
    have positive : 0 < event.encode.length := by
      rw [event.encode_length, sizeofInotifyEvent]
      omega
    have mapped : read.bytes.length ≤ read.mapped := Nat.le_trans read.fits (Nat.le_add_right _ _)
    obtain ⟨used, own, decoded⟩ := ikEventNew_record (ChannelRead.window_memory first) (by omega)
    have length : (front ++ event.encode).length = front.length + (sizeofInotifyEvent + event.fields.len) := by
      rw [List.length_append, event.encode_length]
      rfl
    refine ⟨max used usedLater, ?_, ?_⟩
    · rw [List.flatMap_cons, List.length_append]
      rw [List.length_append] at insideLater
      omega
    · rw [decodeFrom_step (by omega) decoded, ← length, later, Option.map_map, List.flatMap_cons,
        List.length_append, List.length_append, Nat.add_assoc]
      congr 1
      funext rest
      simp only [Function.comp_apply, List.map_cons, List.cons_append, Nat.max_assoc]

/-- A read of whole records is decoded exactly. -/
theorem ChannelRead.decode_records {read : ChannelRead} {events : List InotifyEvent}
    (bytes : read.bytes = events.flatMap InotifyEvent.encode) :
    ∃ used, used ≤ read.bytes.length ∧
      read.decode = some { events := events.map InotifyEvent.fields, used := used } := by
  have whole : read.bytes = [] ++ events.flatMap InotifyEvent.encode ++ [] := by
    rw [bytes, List.nil_append, List.append_nil]
  obtain ⟨used, inside, decoded⟩ := decodeFrom_records events whole
  rw [List.length_nil, Nat.zero_add, ← bytes] at inside decoded
  refine ⟨used, inside, ?_⟩
  rw [ChannelRead.decode, decoded, decodeFrom_end (Nat.le_refl _), Option.map_some, List.append_nil,
    Nat.max_zero]

/-- A call that reads whole records puts their events on the queue. -/
theorem ikReadCallbackOf_records {read : ChannelRead} {events : List InotifyEvent}
    (bytes : read.bytes = events.flatMap InotifyEvent.encode) (clock : Nat → Nat) (state : InotifyState) :
    ∃ buffer, (MoveStep.read buffer).reads = events.map (fun event => event.fields.toKernelEvent) ∧
      ikReadCallbackOf read clock { held := false, state := state } =
        .ok { held := false, state := { state with queue := readEvents state.queue buffer } } := by
  obtain ⟨used, _, decoded⟩ := ChannelRead.decode_records bytes
  let found : Decoded := { events := events.map InotifyEvent.fields, used := used }
  refine ⟨found.buffer clock, ?_, ?_⟩
  · rw [Decoded.buffer_reads, List.map_map]
    rfl
  · rw [ikReadCallbackOf, decoded]
    rfl

/-- The bytes that a decoded event stands for. -/
def IkEventFields.size (event : IkEventFields) : Nat := sizeofInotifyEvent + event.len

/-- The loop only ends when the events that it has found cover the read. -/
theorem decodeFrom_covers {read : ChannelRead} {bufferI : Nat} {decoded : Decoded}
    (found : decodeFrom read bufferI = some decoded) :
    read.bytes.length ≤ bufferI + (decoded.events.map IkEventFields.size).sum := by
  fun_induction decodeFrom read bufferI generalizing decoded with
  | case1 bufferI inside inductionHypothesis =>
    obtain ⟨⟨event, used⟩, made, continued⟩ := Option.bind_eq_some_iff.mp found
    obtain ⟨later, rest, rfl⟩ := Option.map_eq_some_iff.mp continued
    have covered := inductionHypothesis event rest
    rw [List.map_cons, List.sum_cons, IkEventFields.size]
    omega
  | case2 bufferI past => omega

/-! ## All reads -/

/-- The bytes of the stream that some events are the decoding of. -/
theorem encode_size (events : List InotifyEvent) :
    ((events.map InotifyEvent.fields).map IkEventFields.size).sum =
      (events.flatMap InotifyEvent.encode).length := by
  rw [List.length_flatMap, List.map_map]
  congr 1
  apply List.map_congr_left
  intro event _
  exact event.encode_length.symm

theorem decodeReads_covers {reads : List ChannelRead} {events : List IkEventFields} {inside : Bool}
    (found : decodeReads reads = some (events, inside)) :
    (reads.flatMap ChannelRead.bytes).length ≤ (events.map IkEventFields.size).sum := by
  induction reads generalizing events inside with
  | nil => exact Nat.zero_le _
  | cons read reads inductionHypothesis =>
    obtain ⟨decoded, first, continued⟩ := Option.bind_eq_some_iff.mp found
    obtain ⟨⟨later, _⟩, rest, same⟩ := Option.map_eq_some_iff.mp continued
    obtain ⟨rfl, rfl⟩ := Prod.mk.inj same
    have covered := decodeFrom_covers first
    have coveredLater := inductionHypothesis rest
    rw [List.flatMap_cons, List.length_append, List.map_append, List.sum_append]
    omega

/-- Every read holds whole records: it ends where a record does. -/
def EndAtRecords (reads : List ChannelRead) (events : List InotifyEvent) : Prop :=
  ∃ parts : List (List InotifyEvent), parts.flatten = events ∧
    List.Forall₂ (fun read part => read.bytes = part.flatMap InotifyEvent.encode) reads parts

/-- The calls append exactly the events of the stream, and use only bytes that they have read. -/
def DecodeExactly (reads : List ChannelRead) (events : List InotifyEvent) : Prop :=
  decodeReads reads = some (events.map InotifyEvent.fields, true)

theorem decodeExactly_of_endAtRecords {reads : List ChannelRead} {parts : List (List InotifyEvent)}
    (whole : List.Forall₂ (fun read part => read.bytes = part.flatMap InotifyEvent.encode) reads parts) :
    DecodeExactly reads parts.flatten := by
  induction whole with
  | nil => rfl
  | cons bytes _ inductionHypothesis =>
    obtain ⟨used, inside, decoded⟩ := ChannelRead.decode_records bytes
    rw [DecodeExactly, decodeReads, decoded, Option.bind_some, inductionHypothesis, Option.map_some,
      List.flatten_cons, List.map_append, decide_eq_true inside]
    rfl

/-- The sizes leave no room for a record that is torn: what is decoded covers each read, and all of it
together is no longer than the stream. -/
theorem endAtRecords_of_decodeReads {reads : List ChannelRead} {events : List InotifyEvent} {inside : Bool}
    (stream : reads.flatMap ChannelRead.bytes = events.flatMap InotifyEvent.encode)
    (found : decodeReads reads = some (events.map InotifyEvent.fields, inside)) :
    EndAtRecords reads events := by
  induction reads generalizing events inside with
  | nil =>
    obtain ⟨none, _⟩ := Prod.mk.inj (Option.some.inj found)
    exact ⟨[], (List.map_eq_nil_iff.mp none.symm).symm, .nil⟩
  | cons read reads inductionHypothesis =>
    obtain ⟨decoded, first, continued⟩ := Option.bind_eq_some_iff.mp found
    obtain ⟨⟨later, _⟩, rest, same⟩ := Option.map_eq_some_iff.mp continued
    obtain ⟨split, rfl⟩ := Prod.mk.inj same
    obtain ⟨front, back, rfl, frontFields, backFields⟩ := List.map_eq_append_iff.mp split.symm
    rw [← frontFields] at split
    rw [← backFields] at rest
    have coveredFront := decodeFrom_covers first
    have coveredBack := decodeReads_covers rest
    rw [← frontFields, encode_size, Nat.zero_add] at coveredFront
    rw [encode_size] at coveredBack
    rw [List.flatMap_cons, List.flatMap_append] at stream
    have lengths := congrArg List.length stream
    rw [List.length_append, List.length_append] at lengths
    obtain ⟨bytes, streamBack⟩ := List.append_inj stream (by omega)
    obtain ⟨parts, rfl, whole⟩ := inductionHypothesis streamBack rest
    exact ⟨front :: parts, rfl, .cons bytes whole⟩

/-- The stream is decoded exactly if and only if every read ends where a record does. -/
theorem decodeExactly_iff (reads : List ChannelRead) (events : List InotifyEvent)
    (stream : reads.flatMap ChannelRead.bytes = events.flatMap InotifyEvent.encode) :
    DecodeExactly reads events ↔ EndAtRecords reads events := by
  constructor
  · intro exact
    exact endAtRecords_of_decodeReads stream exact
  · rintro ⟨parts, rfl, whole⟩
    exact decodeExactly_of_endAtRecords whole

def createdEvent : InotifyEvent where
  wd := 1
  mask := inCreate
  cookie := 0
  name := [97]
  padding := 15
  wdFits := by decide
  maskFits := by decide
  cookieFits := by decide
  lenFits := by decide
  nameFree := by decide
  terminated := by decide

def modifiedEvent : InotifyEvent where
  wd := 1
  mask := inModify
  cookie := 0
  name := []
  padding := 0
  wdFits := by decide
  maskFits := by decide
  cookieFits := by decide
  lenFits := by decide
  nameFree := by decide
  terminated := by decide

/-- A change of the directory itself, which has no name, and the creation of an entry. -/
def firstRead : ChannelRead where
  bytes := [modifiedEvent, createdEvent].flatMap InotifyEvent.encode
  behind := []
  fits := by decide

/-- What is in the memory behind the bytes of a read does not matter. -/
def secondRead : ChannelRead where
  bytes := [createdEvent, modifiedEvent, modifiedEvent].flatMap InotifyEvent.encode
  behind := [1, 2, 3]
  fits := by decide

/-- Two reads of several records, with names and without. -/
theorem decodeExactly_wholeReads : DecodeExactly [firstRead, secondRead]
    [modifiedEvent, createdEvent, createdEvent, modifiedEvent, modifiedEvent] :=
  (decodeExactly_iff _ _ rfl).mpr
    ⟨[[modifiedEvent, createdEvent], [createdEvent, modifiedEvent, modifiedEvent]], rfl,
      .cons rfl (.cons rfl .nil)⟩

/-! ## A full buffer

More events are waiting than the buffer holds, and its end falls behind the numbers of the last one.
-/

/-- The events that fill the buffer but for the space of one record. -/
def eventsBefore : List InotifyEvent := List.replicate 4095 modifiedEvent

theorem eventsBefore_length : (eventsBefore.flatMap InotifyEvent.encode).length = 65520 := by
  rw [eventsBefore, List.length_flatMap, List.map_replicate, List.sum_replicate_nat]
  rfl

def fullRead : ChannelRead where
  bytes := eventsBefore.flatMap InotifyEvent.encode ++ createdEvent.header
  behind := [0]
  fits := by
    rw [List.length_append, eventsBefore_length]
    decide

def nextRead : ChannelRead where
  bytes := createdEvent.paddedName
  behind := [0]
  fits := by decide

/-- The event of the torn record, whose name is taken from behind the buffer. -/
def nameLost : IkEventFields :=
  { createdEvent.fields with report := { createdEvent.fields.report with name := [] } }

/-- The event that the name of the torn record is taken for. -/
def nameMisread : IkEventFields where
  report := { wd := 97, mask := 0, name := [] }
  cookie := 0
  len := 0

theorem ikEventNew_fullRead : ikEventNew fullRead 65520 = some (nameLost, 65537) := by
  have written : window fullRead.memory 65520 sizeofInotifyEvent = createdEvent.header := by
    rw [← eventsBefore_length]
    exact ChannelRead.window_memory (List.append_nil fullRead.bytes).symm
  obtain ⟨wd, mask, cookie, len⟩ := readWord_header written
  have copied : gStrdup fullRead.memory (fullRead.mapped - (65520 + sizeofInotifyEvent))
      (65520 + sizeofInotifyEvent) = some [] := rfl
  have mapped : ¬ fullRead.mapped < 65520 + sizeofInotifyEvent := by decide
  have named : createdEvent.len ≠ 0 := by decide
  simp only [ikEventNew, if_neg mapped, wd, mask, cookie, len, if_neg named, copied, Option.map_some]
  rfl

theorem fullRead_length : fullRead.bytes.length = 65536 := by
  rw [fullRead, List.length_append, eventsBefore_length]
  rfl

theorem decode_fullRead : ∃ used, fullRead.bytes.length < used ∧
    fullRead.decode = some { events := eventsBefore.map InotifyEvent.fields ++ [nameLost], used := used } := by
  have bytes : fullRead.bytes = [] ++ eventsBefore.flatMap InotifyEvent.encode ++ createdEvent.header := by
    rw [List.nil_append, fullRead]
  obtain ⟨used, _, before⟩ := decodeFrom_records eventsBefore bytes
  rw [List.length_nil, Nat.zero_add, eventsBefore_length] at before
  have inside : 65520 < fullRead.bytes.length := by rw [fullRead_length]; decide
  have past : fullRead.bytes.length ≤ 65520 + (sizeofInotifyEvent + nameLost.len) := by
    rw [fullRead_length]
    decide
  refine ⟨max used (max 65537 0), ?_, ?_⟩
  · rw [fullRead_length]
    omega
  · rw [ChannelRead.decode, before, decodeFrom_step inside ikEventNew_fullRead, decodeFrom_end past,
      Option.map_some, Option.map_some]

theorem decode_nextRead : nextRead.decode = some { events := [nameMisread], used := 16 } := by
  have made : ikEventNew nextRead 0 = some (nameMisread, 16) := rfl
  rw [ChannelRead.decode, decodeFrom_step (by decide) made, decodeFrom_end (by decide)]
  rfl

/-- The name is lost, its bytes are taken for another event, and a byte behind the buffer is used. -/
theorem decodeReads_fullBuffer :
    [fullRead, nextRead].flatMap ChannelRead.bytes =
        (eventsBefore ++ [createdEvent]).flatMap InotifyEvent.encode ∧
      decodeReads [fullRead, nextRead] =
        some (eventsBefore.map InotifyEvent.fields ++ [nameLost] ++ [nameMisread], false) ∧
      ¬ DecodeExactly [fullRead, nextRead] (eventsBefore ++ [createdEvent]) := by
  have decoded : decodeReads [fullRead, nextRead] =
      some (eventsBefore.map InotifyEvent.fields ++ [nameLost] ++ [nameMisread], false) := by
    obtain ⟨used, beyond, first⟩ := decode_fullRead
    simp only [decodeReads, first, decode_nextRead, Option.bind_some, Option.map_some,
      decide_eq_false (Nat.not_le.mpr beyond), Bool.false_and, List.append_nil]
  refine ⟨?_, decoded, ?_⟩
  · rw [List.flatMap_append, List.flatMap_cons, List.flatMap_cons, List.flatMap_nil, List.append_nil]
    exact List.append_assoc _ _ _
  · rw [DecodeExactly, decoded]
    intro same
    cases (Prod.mk.inj (Option.some.inj same)).2

end Gamin.Inotify
