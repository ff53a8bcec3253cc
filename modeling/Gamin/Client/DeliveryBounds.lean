import Gamin.Client.Buffers

/-! # The memory that an event is delivered through

`gamin_data_read_event` copies the path of the packet into `FAMEvent`, ends it with a NUL byte, and moves
the bytes behind the packet to the front of the buffer.  What it touches is compared with the size of
`filename` and with the bytes that have been received.
-/

namespace Gamin.Client

open Gamin Gamin.Library

/-- `PATH_MAX`, the size of `filename` in `FAMEvent`. -/
def pathMax : Nat := 4096

/-- The places in `filename` that are written: `strncpy` fills as many as the path is long. -/
def filenameWrites (conn : GAMData) : List Nat :=
  List.range (packetPathlen conn.event 0) ++ [packetPathlen conn.event 0]

/-- The places in `conn->event` that are read: the header, the path, and what is moved to the front. -/
def eventReads (conn : GAMData) : List Nat :=
  List.range gamPacketHeaderLen ++
    (List.range (packetPathlen conn.event 0)).map (packetPath 0 + ·) ++
    (List.range (conn.evnRead - packetLen conn.event 0).toNat).map
      (packetPath 0 + packetPathlen conn.event 0 + ·)

/-- Only `filename` is written and only received bytes are read, the path is copied, and no negative number of
bytes is left. -/
structure DeliveredWithin (conn : GAMData) : Prop where
  writes : ∀ index ∈ filenameWrites conn, index < pathMax
  reads : ∀ index ∈ eventReads conn, (index : Int) < conn.evnRead
  copied : (gaminDataReadEvent conn).1.map (·.filename) =
    some ((packetAt conn.event 0).path.takeWhile (· ≠ 0))
  left : 0 ≤ (gaminDataReadEvent conn).2.evnRead

/-- The data that `FAMNextEvent` hands to `gamin_data_read_event`. -/
def handedOut (fc : FAMConnection) (answers : ReadAnswers) : Option GAMData :=
  match fc.client with
  | none => none
  | some conn =>
    if fc.fd < 0 then none
    else
      match gaminDataEventReady conn with
      | (ready, conn) =>
        match if ready then ((0 : Int), conn, []) else gaminReadData conn answers true with
        | (result, conn, _) => if result < 0 then none else some conn

theorem handedOut_sound {fc : FAMConnection} (sound : OfClient BufferSound fc) {answers : ReadAnswers}
    {conn : GAMData} (handed : handedOut fc answers = some conn) : BufferSound conn := by
  unfold handedOut at handed
  cases client : fc.client with
  | none => simp [client] at handed
  | some before =>
    have filled := bufferSound_passes.filled (sound before client) answers
    simp only [client] at handed
    generalize (if (gaminDataEventReady before).1 = true then
      ((0 : Int), (gaminDataEventReady before).2, ([] : Bytes))
      else gaminReadData (gaminDataEventReady before).2 answers true) = outcome at filled handed
    split at handed
    · contradiction
    · split at handed
      · contradiction
      · cases handed
        exact filled

/-- `FAMNextEvent` returns what is read from there. -/
theorem famNextEvent_handedOut {fc : FAMConnection} {answers : ReadAnswers} {conn : GAMData}
    (handed : handedOut fc answers = some conn) (reconnect : ReconnectAnswers) :
    (famNextEvent fc answers reconnect).1 = (gaminDataReadEvent conn).1 := by
  unfold handedOut at handed
  cases client : fc.client with
  | none => simp [client] at handed
  | some before =>
    simp only [client] at handed
    simp only [famNextEvent, client]
    generalize (if (gaminDataEventReady before).1 = true then
      ((0 : Int), (gaminDataEventReady before).2, ([] : Bytes))
      else gaminReadData (gaminDataEventReady before).2 answers true) = outcome at handed ⊢
    split at handed
    · contradiction
    case isFalse connected =>
      split at handed
      · contradiction
      case isFalse succeeded =>
        cases handed
        rw [if_neg connected, if_neg succeeded]

/-- Of a packet that has been accepted, only the NUL byte can go too far. -/
theorem deliveredWithin_iff {conn : GAMData} (sound : BufferSound conn) (ready : conn.evnReady = true) :
    DeliveredWithin conn ↔ packetPathlen conn.event 0 < pathMax := by
  obtain ⟨whole, sizes⟩ := sound.whole ready
  have fits := sound.fits
  constructor
  · exact fun within => within.writes _ (List.mem_append_right _ List.mem_cons_self)
  · intro short
    refine ⟨fun index written => ?_, fun index isRead => ?_, ?_, ?_⟩
    · cases List.mem_append.mp written with
      | inl copied => exact (List.mem_range.mp copied).trans short
      | inr terminated => exact List.mem_singleton.mp terminated ▸ short
    · simp only [eventReads, List.mem_append, List.mem_map, List.mem_range, packetPath, gamPacketHeaderLen] at *
      omega
    · unfold gaminDataReadEvent
      rw [if_neg (not_not.mpr ready)]
      dsimp only
      split
      · split <;> rfl
      · split <;> rfl
    · exact (gaminDataReadEvent_sound sound).nonnegative

/-- Whatever the server sends and however it is read: an event is delivered within bounds exactly if its path
is shorter than `filename`. -/
theorem events_delivered_within (calls : List ApiCall) :
    Throughout (partialStep apiStep)
      (IfAny fun fc => ∀ answers conn, handedOut fc answers = some conn → conn.evnReady = true →
        (DeliveredWithin conn ↔ packetPathlen conn.event 0 < pathMax))
      (some openedConnection) calls := by
  have start : OfClient BufferSound openedConnection :=
    .of_some rfl ⟨Int.le_refl 0, Int.natCast_nonneg _, nofun⟩
  refine (calls_keep_buffer_sound start calls).imp (IfAny.imp fun fc sound answers conn handed ready => ?_)
  exact deliveredWithin_iff (handedOut_sound sound handed) ready

/-! ## A path that fills the packet -/

/-- An event of the request 1 whose path is as long as a packet can hold. -/
def fullPacket : GAMPacket where
  version := gamProtoVersion
  seq := 1
  type := famChanged
  path := List.replicate maxPathLen 97

/-- The answers of the system calls when the packet arrives as a whole. -/
def fullAnswers : ReadAnswers :=
  { credential := some 0, sameUid := true, available := 1, read := .data fullPacket.encode }

def fileMonitored : List ApiCall :=
  [.monitorFile (some ⟨[47, 97], by decide⟩) (some 0) 9 ⟨true, true, true⟩ .complete]

/-- The NUL byte is written behind `filename`. -/
theorem not_delivered_within : ¬ ∀ calls, Throughout (partialStep apiStep)
    (IfAny fun fc => ∀ answers conn, handedOut fc answers = some conn → conn.evnReady = true → DeliveredWithin conn)
    (some openedConnection) calls := by
  intro within
  have accepted : ((run (partialStep apiStep) (some openedConnection) fileMonitored).bind
      (handedOut · fullAnswers)).map (fun conn => (conn.evnReady, packetPathlen conn.event 0)) =
      some (true, 4096) := by
    decide +kernel
  obtain ⟨conn, found, ready⟩ := Option.map_eq_some_iff.mp accepted
  obtain ⟨fc, reached, handed⟩ := Option.bind_eq_some_iff.mp found
  obtain ⟨isReady, long⟩ := Prod.mk.inj ready
  have last := (within fileMonitored).last
  rw [reached] at last
  have written := (last fullAnswers conn handed isReady).writes (packetPathlen conn.event 0)
    (List.mem_append_right _ List.mem_cons_self)
  rw [long] at written
  exact Nat.lt_irrefl _ written

end Gamin.Client
