import Mathlib.Logic.Function.Basic
import Gamin.Library.Coalescing
import Gamin.Library.Runs
import Gamin.Server.EventQueue

/-! # The timers of the event queues

While inotify is running, an event waits in the queue of its connection until a timer of the
main loop expires, or until the connection is closed.  The queue is in `gam_eq.c`, the timer and
the life of the connection in `gam_connection.c`.  The timer goes when it finds nothing to do,
and the next event installs another one.
-/

namespace Gamin.Server

open Gamin Gamin.Library

/-! ## The queue -/

/-- `gam_eq_event_t`, with the length that is passed along with the path. -/
structure QueuedEvent where
  reqno : Int
  event : Int
  path : Bytes
  len : Int
  deriving DecidableEq, Repr

/-- `gam_eq_queue`, which compares all four members with the tail of the queue. -/
def eqQueue (queue : List QueuedEvent) (event : QueuedEvent) : List QueuedEvent :=
  if queue.getLast? = some event then queue else queue ++ [event]

/-- The loop of `gam_eq_flush`: the arguments of the calls of `gam_send_event`.  There is no result
when the assertion there fails that the path ends at the length. -/
def eqFlush : List QueuedEvent → Option (List QueuedEvent)
  | [] => some []
  | event :: queue => if event.len = event.path.length then (eqFlush queue).map (event :: ·) else none

theorem eqQueue_eq_coalesce (queue : List QueuedEvent) (event : QueuedEvent) :
    eqQueue queue event = coalesce queue event := rfl

/-- Everything that is queued is passed on, in order. -/
theorem eqFlush_eq {queue sent : List QueuedEvent} (flushed : eqFlush queue = some sent) : sent = queue := by
  induction queue generalizing sent with
  | nil => exact (Option.some.inj flushed).symm
  | cons event queue inductionHypothesis =>
    unfold eqFlush at flushed
    split at flushed
    · obtain ⟨rest, returned, rfl⟩ := Option.map_eq_some_iff.mp flushed
      rw [inductionHypothesis returned]
    · contradiction

/-- An event as `gam_server_emit_one_event` queues it, with the length of the path. -/
def GamEqEvent.queued (event : GamEqEvent) : QueuedEvent where
  reqno := event.reqno
  event := event.event.code
  path := event.path
  len := event.path.length

theorem GamEqEvent.queued_injective : Function.Injective GamEqEvent.queued := by
  rintro ⟨reqno, event, path⟩ ⟨otherReqno, otherEvent, otherPath⟩ same
  simp only [GamEqEvent.queued, QueuedEvent.mk.injEq, Int.natCast_inj] at same
  obtain ⟨rfl, code, rfl, -⟩ := same
  have sameEvent : event = otherEvent := by
    cases event <;> cases otherEvent <;> first | rfl | exact absurd code (by decide)
  rw [sameEvent]

/-- With lengths that match, `gamEqQueue` is the same queue. -/
theorem eqQueue_queued (queue : List GamEqEvent) (event : GamEqEvent) :
    eqQueue (queue.map GamEqEvent.queued) event.queued =
      (gamEqQueue queue event.reqno event.event event.path).map GamEqEvent.queued :=
  coalesce_map GamEqEvent.queued_injective queue event

/-! ## The main loop -/

/-- The members of `GamConnData` that have to do with the queue.  `eqSource` is the handle of the
timer, or 0. -/
structure TimedConnection where
  eq : List QueuedEvent
  eqSource : Nat
  deriving DecidableEq, Repr

/-- The connections of `gamConnList`, the timers with `gam_connection_eq_flush` as their callback
and a connection as its argument, and the arguments of the calls of `gam_send_event` so far. -/
structure MainLoop where
  conns : Pointer → Option TimedConnection
  timers : List (Nat × Pointer)
  sends : List (Pointer × QueuedEvent)

def mainLoopNew : MainLoop where
  conns := fun _ => none
  timers := []
  sends := []

namespace MainLoop

def set (loop : MainLoop) (conn : Pointer) (data : Option TimedConnection) : MainLoop :=
  { loop with conns := Function.update loop.conns conn data }

theorem set_self (loop : MainLoop) (conn : Pointer) (data : Option TimedConnection) :
    (loop.set conn data).conns conn = data :=
  Function.update_self ..

theorem set_other (loop : MainLoop) {conn other : Pointer} (different : other ≠ conn)
    (data : Option TimedConnection) : (loop.set conn data).conns other = loop.conns other :=
  Function.update_of_ne different ..

/-- A connection that is open afterwards is the one that was written, or it was open before. -/
theorem set_known {loop : MainLoop} {conn other : Pointer} {data : Option TimedConnection}
    {found : TimedConnection} (known : (loop.set conn data).conns other = some found) :
    other = conn ∧ data = some found ∨ other ≠ conn ∧ loop.conns other = some found := by
  by_cases same : other = conn
  · subst same
    exact .inl ⟨rfl, (loop.set_self other data).symm.trans known⟩
  · exact .inr ⟨same, (loop.set_other same data).symm.trans known⟩

/-- What GLib promises of the handle of a new timer. -/
def Fresh (loop : MainLoop) (source : Nat) : Prop :=
  source ≠ 0 ∧ ∀ timer ∈ loop.timers, timer.1 ≠ source

instance (loop : MainLoop) (source : Nat) : Decidable (loop.Fresh source) :=
  inferInstanceAs (Decidable (_ ∧ _))

/-- `g_timeout_add` with `gam_connection_eq_flush` and a connection. -/
def timeoutAdd (loop : MainLoop) (source : Nat) (conn : Pointer) : MainLoop :=
  { loop with timers := (source, conn) :: loop.timers }

/-- `g_source_remove`, also what GLib does when a callback returns `FALSE`. -/
def sourceRemove (loop : MainLoop) (source : Nat) : MainLoop :=
  { loop with timers := loop.timers.filter (·.1 ≠ source) }

/-- `gam_eq_flush` on the queue of a connection. -/
def flush (loop : MainLoop) (conn : Pointer) (queue : List QueuedEvent) : Option MainLoop :=
  (eqFlush queue).map fun sent => { loop with sends := loop.sends ++ sent.map (conn, ·) }

end MainLoop

/-- `gam_connection_new`, in memory that no connection takes up. -/
def connectionNew (loop : MainLoop) (conn : Pointer) (source : Nat) : Option MainLoop :=
  if loop.conns conn = none ∧ loop.Fresh source then
    some ((loop.set conn (some ⟨[], source⟩)).timeoutAdd source conn)
  else none

/-- `gam_queue_event`, on a connection that is open. -/
def queueEvent (loop : MainLoop) (conn : Pointer) (event : QueuedEvent) (source : Nat) : Option MainLoop :=
  match loop.conns conn with
  | none => none
  | some data =>
    let data := { data with eq := eqQueue data.eq event }
    if data.eqSource = 0 then
      if loop.Fresh source then
        some ((loop.set conn (some { data with eqSource := source })).timeoutAdd source conn)
      else none
    else some (loop.set conn (some data))

/-- `gam_connection_eq_flush`.  There is no result when the connection has been freed. -/
def connectionEqFlush (loop : MainLoop) (source : Nat) (conn : Pointer) : Option MainLoop :=
  match loop.conns conn with
  | none => none
  | some data => do
    let loop ← loop.flush conn data.eq
    if data.eq = [] then some ((loop.set conn (some ⟨[], 0⟩)).sourceRemove source)
    else some (loop.set conn (some { data with eq := [] }))

/-- `gam_connection_close`, which asserts that the connection is open. -/
def connectionClose (loop : MainLoop) (conn : Pointer) : Option MainLoop :=
  match loop.conns conn with
  | none => none
  | some data => do
    let loop := if data.eqSource ≠ 0 then loop.sourceRemove data.eqSource else loop
    let loop ← loop.flush conn data.eq
    some (loop.set conn none)

/-- What happens in the main loop.  A handle is the one that `g_timeout_add` returns, should it be
called.  A timer that expires is one that is installed. -/
inductive LoopInput where
  | connect (conn : Pointer) (source : Nat)
  | queue (conn : Pointer) (event : QueuedEvent) (source : Nat)
  | expire (source : Nat) (conn : Pointer)
  | close (conn : Pointer)
  deriving DecidableEq, Repr

def loopStep (loop : MainLoop) : LoopInput → Option MainLoop
  | .connect conn source => connectionNew loop conn source
  | .queue conn event source => queueEvent loop conn event source
  | .expire source conn => if (source, conn) ∈ loop.timers then connectionEqFlush loop source conn else none
  | .close conn => connectionClose loop conn

/-! ## What should hold -/

/-- The windows of a connection in a run: what is queued up to each time that its timer expires or
that it is closed. -/
def windowsStep (conn : Pointer) (windows : Windows QueuedEvent) : LoopInput → Windows QueuedEvent
  | .connect _ _ => windows
  | .queue other event _ => if other = conn then windows.put event else windows
  | .expire _ other | .close other => if other = conn then windows.close else windows

def queueWindows (inputs : List LoopInput) (conn : Pointer) : Windows QueuedEvent :=
  run (windowsStep conn) .empty inputs

namespace MainLoop

/-- The arguments of `gam_send_event` for a connection, in order. -/
def sent (loop : MainLoop) (conn : Pointer) : List QueuedEvent :=
  loop.sends.filterMap fun send => if send.1 = conn then some send.2 else none

/-- The queue of a connection, which is gone when it is closed. -/
def waiting (loop : MainLoop) (conn : Pointer) : List QueuedEvent :=
  ((loop.conns conn).map (·.eq)).getD []

end MainLoop

/-- What can happen: a connection is new in memory that none takes up, and the others are about one
that is open.  A path that is sent ends at its length. -/
def Possible (loop : MainLoop) : LoopInput → Prop
  | .connect conn source => loop.conns conn = none ∧ loop.Fresh source
  | .queue conn _ source => ∃ data, loop.conns conn = some data ∧ (data.eqSource = 0 → loop.Fresh source)
  | .expire source conn => (source, conn) ∈ loop.timers ∧ ∀ event ∈ loop.waiting conn, event.len = event.path.length
  | .close conn => (∃ data, loop.conns conn = some data) ∧
      ∀ event ∈ loop.waiting conn, event.len = event.path.length

/-- Nothing is lost or reordered: what is sent is what was queued up to the last time the queue was
flushed, with each run of equal events of a window as one, and the rest is waiting.  A timer is
installed for what is waiting, and none for a connection that is closed.  So what can happen next
finds its connection. -/
structure QueuesKept (inputs : List LoopInput) (loop : MainLoop) : Prop where
  sent : ∀ conn, loop.sent conn = (queueWindows inputs conn).delivered
  waiting : ∀ conn, loop.waiting conn = (queueWindows inputs conn).waiting
  armed : ∀ conn, loop.waiting conn ≠ [] →
    ∃ data, loop.conns conn = some data ∧ (data.eqSource, conn) ∈ loop.timers
  closed : ∀ conn, loop.conns conn = none → ∀ timer ∈ loop.timers, timer.2 ≠ conn
  returns : ∀ input, Possible loop input → ∃ after, loopStep loop input = some after

/-! ## What is sent -/

/-- The part of `QueuesKept` about the events, for the windows that a run leads to. -/
structure Recorded (windows : Pointer → Windows QueuedEvent) (loop : MainLoop) : Prop where
  sent : ∀ conn, loop.sent conn = (windows conn).delivered
  waiting : ∀ conn, loop.waiting conn = (windows conn).waiting

namespace Recorded

variable {windows next : Pointer → Windows QueuedEvent} {loop after : MainLoop} {conn : Pointer}

theorem unchanged (recorded : Recorded windows loop) (sends : after.sends = loop.sends)
    (waiting : ∀ other, after.waiting other = loop.waiting other) : Recorded windows after where
  sent := by
    intro other
    rw [MainLoop.sent, sends]
    exact recorded.sent other
  waiting := by
    intro other
    rw [waiting, recorded.waiting]

/-- `gam_eq_queue` puts the event into the open window of the connection. -/
theorem queued (recorded : Recorded windows loop) {event : QueuedEvent} (sends : after.sends = loop.sends)
    (here : after.waiting conn = eqQueue (loop.waiting conn) event)
    (others : ∀ other, other ≠ conn → after.waiting other = loop.waiting other)
    (put : ∀ other, next other = if conn = other then (windows other).put event else windows other) :
    Recorded next after := by
  constructor
  · intro other
    rw [MainLoop.sent, sends, put]
    refine (recorded.sent other).trans ?_
    split <;> rfl
  · intro other
    rw [put]
    split
    · rename_i same
      rw [← same, here, eqQueue_eq_coalesce, recorded.waiting, Windows.waiting_put]
    · rename_i different
      rw [others other (Ne.symm different), recorded.waiting]

/-- The calls of `gam_send_event` of one flush. -/
theorem filterMap_sent (conn other : Pointer) (queue : List QueuedEvent) :
    (queue.map (conn, ·)).filterMap (fun send => if send.1 = other then some send.2 else none) =
      if conn = other then queue else [] := by
  rw [List.filterMap_map]
  split
  · rename_i same
    subst same
    have every : (fun send : Pointer × QueuedEvent => if send.1 = conn then some send.2 else none) ∘ (conn, ·) =
        some := by
      funext event
      exact if_pos rfl
    rw [every, List.filterMap_some]
  · rename_i different
    rw [List.filterMap_eq_nil_iff]
    exact fun event _ => if_neg different

/-- `gam_eq_flush` closes the window of the connection, and sends what was waiting. -/
theorem flushed (recorded : Recorded windows loop)
    (sends : after.sends = loop.sends ++ (loop.waiting conn).map (conn, ·)) (here : after.waiting conn = [])
    (others : ∀ other, other ≠ conn → after.waiting other = loop.waiting other)
    (close : ∀ other, next other = if conn = other then (windows other).close else windows other) :
    Recorded next after := by
  have sent (other : Pointer) : after.sent other =
      loop.sent other ++ if conn = other then loop.waiting conn else [] := by
    rw [MainLoop.sent, sends, List.filterMap_append, filterMap_sent]
    rfl
  constructor
  · intro other
    rw [sent, close, recorded.sent]
    split
    · rename_i same
      rw [Windows.delivered_close, ← same, recorded.waiting]
    · exact List.append_nil _
  · intro other
    rw [close]
    split
    · rename_i same
      rw [← same, here, Windows.waiting_close]
    · rename_i different
      rw [others other (Ne.symm different), recorded.waiting]

end Recorded

/-! ## The timers -/

/-- A timer and the handle in its connection stand for each other. -/
structure Timed (loop : MainLoop) : Prop where
  single : ∀ timer ∈ loop.timers, ∀ other ∈ loop.timers, timer.1 = other.1 → timer = other
  refers : ∀ timer ∈ loop.timers, timer.1 ≠ 0 ∧
    ∃ data, loop.conns timer.2 = some data ∧ data.eqSource = timer.1
  idle : ∀ conn data, loop.conns conn = some data → data.eqSource = 0 → data.eq = []
  installed : ∀ conn data, loop.conns conn = some data → data.eqSource ≠ 0 →
    (data.eqSource, conn) ∈ loop.timers

namespace Timed

variable {loop : MainLoop} {conn : Pointer} {data : TimedConnection}

/-- A timer that is installed for a connection without one. -/
theorem arm (timed : Timed loop) (data : TimedConnection) (free : ∀ timer ∈ loop.timers, timer.2 ≠ conn)
    (fresh : loop.Fresh data.eqSource) :
    Timed ((loop.set conn (some data)).timeoutAdd data.eqSource conn) where
  single := by
    intro timer member other otherMember same
    rcases List.mem_cons.mp member with rfl | older <;>
      rcases List.mem_cons.mp otherMember with rfl | otherOlder
    · rfl
    · exact absurd same.symm (fresh.2 other otherOlder)
    · exact absurd same (fresh.2 timer older)
    · exact timed.single timer older other otherOlder same
  refers := by
    intro timer member
    rcases List.mem_cons.mp member with rfl | older
    · exact ⟨fresh.1, data, loop.set_self conn (some data), rfl⟩
    · obtain ⟨nonzero, found, known, same⟩ := timed.refers timer older
      exact ⟨nonzero, found, (loop.set_other (free timer older) (some data)).trans known, same⟩
  idle := by
    intro other found known zero
    obtain ⟨rfl, written⟩ | ⟨_, older⟩ := MainLoop.set_known known
    · cases written
      exact absurd zero fresh.1
    · exact timed.idle other found older zero
  installed := by
    intro other found known nonzero
    obtain ⟨rfl, written⟩ | ⟨_, older⟩ := MainLoop.set_known known
    · cases written
      exact List.mem_cons_self
    · exact List.mem_cons_of_mem _ (timed.installed other found older nonzero)

/-- The queue of a connection changes while its timer stays. -/
theorem keep (timed : Timed loop) (known : loop.conns conn = some data) {queue : List QueuedEvent}
    (nonzero : data.eqSource ≠ 0) : Timed (loop.set conn (some { data with eq := queue })) where
  single := timed.single
  refers := by
    intro timer member
    obtain ⟨timerNonzero, found, foundKnown, same⟩ := timed.refers timer member
    refine ⟨timerNonzero, ?_⟩
    by_cases here : timer.2 = conn
    · rw [here, known] at foundKnown
      cases foundKnown
      rw [here]
      exact ⟨_, loop.set_self conn (some { data with eq := queue }), same⟩
    · exact ⟨found, (loop.set_other here _).trans foundKnown, same⟩
  idle := by
    intro other found foundKnown zero
    obtain ⟨rfl, written⟩ | ⟨_, older⟩ := MainLoop.set_known foundKnown
    · cases written
      exact absurd zero nonzero
    · exact timed.idle other found older zero
  installed := by
    intro other found foundKnown foundNonzero
    obtain ⟨rfl, written⟩ | ⟨_, older⟩ := MainLoop.set_known foundKnown
    · cases written
      exact timed.installed other data known nonzero
    · exact timed.installed other found older foundNonzero

/-- The timer of a connection goes, and with it the connection or its handle. -/
theorem disarm (timed : Timed loop) (known : loop.conns conn = some data)
    (next : Option TimedConnection) (idle : ∀ left, next = some left → left = ⟨[], 0⟩) :
    Timed ((loop.set conn next).sourceRemove data.eqSource) where
  single := by
    intro timer member other otherMember
    exact timed.single timer (List.mem_filter.mp member).1 other (List.mem_filter.mp otherMember).1
  refers := by
    intro timer member
    obtain ⟨older, kept⟩ := List.mem_filter.mp member
    obtain ⟨nonzero, found, foundKnown, same⟩ := timed.refers timer older
    -- a timer of this connection has its handle, and went
    have elsewhere : timer.2 ≠ conn := by
      intro here
      rw [here, known] at foundKnown
      cases foundKnown
      simp [same] at kept
    exact ⟨nonzero, found, (loop.set_other elsewhere next).trans foundKnown, same⟩
  idle := by
    intro other found foundKnown zero
    obtain ⟨rfl, written⟩ | ⟨_, older⟩ := MainLoop.set_known foundKnown
    · rw [idle found written]
    · exact timed.idle other found older zero
  installed := by
    intro other found foundKnown nonzero
    obtain ⟨rfl, written⟩ | ⟨same, older⟩ := MainLoop.set_known foundKnown
    · rw [idle found written] at nonzero
      exact absurd rfl nonzero
    · have member := timed.installed other found older nonzero
      refine List.mem_filter.mpr ⟨member, ?_⟩
      -- handles are not shared, so what goes is the timer of this connection only
      have kept : found.eqSource ≠ data.eqSource := by
        intro shared
        have here := timed.installed conn data known (shared ▸ nonzero)
        have equal := timed.single _ member _ here shared
        exact same (congrArg Prod.snd equal)
      simpa using kept

/-- No timer has the handle 0. -/
theorem sourceRemove_zero (timed : Timed loop) : loop.sourceRemove 0 = loop := by
  have all : loop.timers.filter (·.1 ≠ 0) = loop.timers := by
    rw [List.filter_eq_self]
    intro timer member
    simpa using (timed.refers timer member).1
  rw [MainLoop.sourceRemove, all]

/-- A connection without a handle has no timer. -/
theorem free (timed : Timed loop) (none : ∀ data, loop.conns conn = some data → data.eqSource = 0) :
    ∀ timer ∈ loop.timers, timer.2 ≠ conn := by
  rintro timer member rfl
  obtain ⟨nonzero, data, known, same⟩ := timed.refers timer member
  exact nonzero (same.symm.trans (none data known))

end Timed

/-! ## One step -/

section

variable {loop after : MainLoop} {conn : Pointer}

theorem waiting_of_known {data : TimedConnection} (known : loop.conns conn = some data) :
    loop.waiting conn = data.eq := by
  rw [MainLoop.waiting, known]
  rfl

theorem waiting_of_none (gone : loop.conns conn = none) : loop.waiting conn = [] := by
  rw [MainLoop.waiting, gone]
  rfl

theorem waiting_set_self (data : Option TimedConnection) :
    (loop.set conn data).waiting conn = (data.map (·.eq)).getD [] := by
  rw [MainLoop.waiting, loop.set_self]

theorem waiting_set_other {other : Pointer} (different : other ≠ conn) (data : Option TimedConnection) :
    (loop.set conn data).waiting other = loop.waiting other := by
  rw [MainLoop.waiting, loop.set_other different, MainLoop.waiting]

theorem flush_eq {queue : List QueuedEvent} (flushed : loop.flush conn queue = some after) :
    after = { loop with sends := loop.sends ++ queue.map (conn, ·) } := by
  obtain ⟨sent, returned, rfl⟩ := Option.map_eq_some_iff.mp flushed
  rw [eqFlush_eq returned]

theorem eqFlush_returns {queue : List QueuedEvent} (ends : ∀ event ∈ queue, event.len = event.path.length) :
    eqFlush queue = some queue := by
  induction queue with
  | nil => rfl
  | cons event queue inductionHypothesis =>
    rw [eqFlush, if_pos (ends event List.mem_cons_self),
      inductionHypothesis fun other member => ends other (List.mem_cons_of_mem _ member)]
    rfl

/-- The callback of a timer finds the connection that it was installed for. -/
theorem Timed.returns (timed : Timed loop) {input : LoopInput} (possible : Possible loop input) :
    ∃ after, loopStep loop input = some after := by
  cases input with
  | connect conn source => exact ⟨_, if_pos possible⟩
  | queue conn event source =>
    obtain ⟨data, known, fresh⟩ := possible
    simp only [loopStep, queueEvent, known]
    split
    case isTrue idle => exact ⟨_, if_pos (fresh idle)⟩
    case isFalse => exact ⟨_, rfl⟩
  | expire source conn =>
    obtain ⟨member, ends⟩ := possible
    obtain ⟨-, data, known, -⟩ := timed.refers _ member
    rw [waiting_of_known known] at ends
    simp only [loopStep, if_pos member, connectionEqFlush, known, MainLoop.flush, eqFlush_returns ends]
    split
    case isTrue => exact ⟨_, rfl⟩
    case isFalse => exact ⟨_, rfl⟩
  | close conn =>
    obtain ⟨⟨data, known⟩, ends⟩ := possible
    rw [waiting_of_known known] at ends
    simp only [loopStep, connectionClose, known, MainLoop.flush, eqFlush_returns ends]
    exact ⟨_, rfl⟩

/-- What is sent is of no matter to the timers. -/
theorem Timed.called (timed : Timed loop) (sends : List (Pointer × QueuedEvent)) :
    Timed { loop with sends := sends } where
  single := timed.single
  refers := timed.refers
  idle := timed.idle
  installed := timed.installed

/-- Both parts of the invariant. -/
abbrev Sound (windows : Pointer → Windows QueuedEvent) (loop : MainLoop) : Prop := Recorded windows loop ∧ Timed loop

variable {windows : Pointer → Windows QueuedEvent}

theorem connectionNew_sound (sound : Sound windows loop) {source : Nat}
    (returned : connectionNew loop conn source = some after) : Sound windows after := by
  obtain ⟨recorded, timed⟩ := sound
  unfold connectionNew at returned
  split at returned
  · rename_i allowed
    cases returned
    obtain ⟨closed, fresh⟩ := allowed
    have free := timed.free fun data known => absurd (closed.symm.trans known) (by simp)
    refine ⟨recorded.unchanged rfl fun other => ?_, timed.arm ⟨[], source⟩ free fresh⟩
    by_cases same : other = conn
    · subst same
      rw [waiting_of_none closed]
      exact waiting_set_self (some ⟨[], source⟩)
    · exact waiting_set_other same (some ⟨[], source⟩)
  · contradiction

theorem queueEvent_sound (sound : Sound windows loop) {event : QueuedEvent} {source : Nat}
    (returned : queueEvent loop conn event source = some after) :
    Sound (fun other => windowsStep other (windows other) (.queue conn event source)) after := by
  obtain ⟨recorded, timed⟩ := sound
  unfold queueEvent at returned
  split at returned
  · contradiction
  · rename_i data known
    dsimp only at returned
    split at returned
    · rename_i idle
      split at returned
      · rename_i fresh
        cases returned
        have free := timed.free fun found foundKnown => by
          cases known.symm.trans foundKnown
          exact idle
        refine ⟨recorded.queued rfl ?_ (fun other different => ?_) fun _ => rfl, ?_⟩
        · rw [waiting_of_known known]
          exact waiting_set_self (some _)
        · exact waiting_set_other different (some _)
        · exact timed.arm ⟨eqQueue data.eq event, source⟩ free fresh
      · contradiction
    · rename_i running
      cases returned
      refine ⟨recorded.queued rfl ?_ (fun other different => ?_) fun _ => rfl, timed.keep known running⟩
      · rw [waiting_of_known known]
        exact waiting_set_self (some _)
      · exact waiting_set_other different (some _)

/-- The callback of a timer that belongs to the connection. -/
theorem connectionEqFlush_sound (sound : Sound windows loop) {source : Nat} (member : (source, conn) ∈ loop.timers)
    (returned : connectionEqFlush loop source conn = some after) :
    Sound (fun other => windowsStep other (windows other) (.expire source conn)) after := by
  obtain ⟨recorded, timed⟩ := sound
  obtain ⟨nonzero, found, foundKnown, handle⟩ := timed.refers _ member
  unfold connectionEqFlush at returned
  split at returned
  · contradiction
  · rename_i data known
    have same : found = data := Option.some.inj (foundKnown.symm.trans known)
    subst same
    obtain ⟨flushed, isFlushed, returned⟩ := Option.bind_eq_some_iff.mp returned
    rw [flush_eq isFlushed] at returned
    have timedCalls := timed.called (loop.sends ++ found.eq.map (conn, ·))
    rw [← waiting_of_known known] at timedCalls returned
    split at returned
    · cases returned
      refine ⟨recorded.flushed rfl ?_ (fun other different => ?_) fun _ => rfl, ?_⟩
      · exact waiting_set_self (some ⟨[], 0⟩)
      · exact waiting_set_other different (some ⟨[], 0⟩)
      · -- nothing was waiting, and the timer goes with the handle
        rw [← show found.eqSource = source from handle]
        exact timedCalls.disarm known _ fun left written => (Option.some.inj written).symm
    · cases returned
      refine ⟨recorded.flushed rfl ?_ (fun other different => ?_) fun _ => rfl, ?_⟩
      · exact waiting_set_self (some { found with eq := [] })
      · exact waiting_set_other different (some { found with eq := [] })
      · exact timedCalls.keep known (handle ▸ nonzero)

theorem connectionClose_sound (sound : Sound windows loop) (returned : connectionClose loop conn = some after) :
    Sound (fun other => windowsStep other (windows other) (.close conn)) after := by
  obtain ⟨recorded, timed⟩ := sound
  unfold connectionClose at returned
  split at returned
  · contradiction
  · rename_i data known
    -- without a handle there is nothing to remove
    have removed : (if data.eqSource ≠ 0 then loop.sourceRemove data.eqSource else loop) =
        loop.sourceRemove data.eqSource := by
      split
      · rfl
      · rename_i zero
        rw [not_not.mp zero, timed.sourceRemove_zero]
    rw [removed] at returned
    obtain ⟨flushed, isFlushed, returned⟩ := Option.bind_eq_some_iff.mp returned
    rw [flush_eq isFlushed] at returned
    cases returned
    refine ⟨recorded.flushed ?_ ?_ (fun other different => ?_) fun _ => rfl, ?_⟩
    · rw [waiting_of_known known]
      rfl
    · exact waiting_set_self none
    · exact waiting_set_other different none
    · exact (timed.disarm known none (fun left written => nomatch written)).called _

theorem loopStep_sound (sound : Sound windows loop) {input : LoopInput} (returned : loopStep loop input = some after) :
    Sound (fun conn => windowsStep conn (windows conn) input) after := by
  cases input with
  | connect conn source => exact connectionNew_sound sound returned
  | queue conn event source => exact queueEvent_sound sound returned
  | expire source conn =>
    rw [loopStep] at returned
    split at returned
    · rename_i member
      exact connectionEqFlush_sound sound member returned
    · contradiction
  | close conn => exact connectionClose_sound sound returned

/-! ## Every run -/

/-- By induction on the inputs, along with the windows that they make. -/
theorem run_sound {inputs : List LoopInput} (sound : Sound windows loop)
    (ran : run (partialStep loopStep) (some loop) inputs = some after) :
    Sound (fun conn => run (windowsStep conn) (windows conn) inputs) after := by
  induction inputs generalizing loop windows with
  | nil =>
    cases ran
    exact sound
  | cons input inputs inductionHypothesis =>
    rw [run_cons, partialStep, Option.bind_some] at ran
    cases returned : loopStep loop input with
    | none =>
      rw [returned, run_none] at ran
      contradiction
    | some next =>
      rw [returned] at ran
      exact inductionHypothesis (loopStep_sound sound returned) ran

theorem mainLoopNew_sound : Sound (fun _ => .empty) mainLoopNew where
  left := ⟨fun _ => rfl, fun _ => rfl⟩
  right := ⟨fun _ member => (nomatch member), fun _ member => (nomatch member),
    fun _ _ known => (nomatch known), fun _ _ known => (nomatch known)⟩

end

/-- In every order of events, expiring timers and connections that open and close, the queues
lose and reorder nothing, what waits has a timer, and a closed connection has none. -/
theorem queues_kept (inputs : List LoopInput) :
    ∀ loop, run (partialStep loopStep) (some mainLoopNew) inputs = some loop → QueuesKept inputs loop := by
  intro loop ran
  obtain ⟨recorded, timed⟩ := run_sound mainLoopNew_sound ran
  refine ⟨recorded.sent, recorded.waiting, fun conn nonempty => ?_, fun conn closed => ?_, fun _ => timed.returns⟩
  · cases known : loop.conns conn with
    | none => exact absurd (waiting_of_none known) nonempty
    | some data =>
      rw [waiting_of_known known] at nonempty
      exact ⟨data, rfl, timed.installed conn data known fun zero => nonempty (timed.idle conn data known zero)⟩
  · exact timed.free fun data known => absurd (closed.symm.trans known) (by simp)

/-- An event is queued twice and sent, and again; then the timer finds nothing to do, and another
event waits when the connection is closed. -/
def threeWindows : List LoopInput :=
  [.connect 1 7, .queue 1 ⟨1, 2, [47], 1⟩ 8, .queue 1 ⟨1, 2, [47], 1⟩ 8, .expire 7 1, .queue 1 ⟨1, 2, [47], 1⟩ 8,
    .expire 7 1, .expire 7 1, .queue 1 ⟨2, 2, [47], 1⟩ 8, .close 1]

theorem threeWindows_kept :
    ∃ loop, run (partialStep loopStep) (some mainLoopNew) threeWindows = some loop ∧
      loop.sent 1 = [⟨1, 2, [47], 1⟩, ⟨1, 2, [47], 1⟩, ⟨2, 2, [47], 1⟩] :=
  ⟨_, rfl, ((queues_kept threeWindows _ rfl).sent 1).trans (by decide)⟩

end Gamin.Server
