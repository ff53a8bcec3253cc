import Gamin.Inotify.Kernel
import Mathlib.Logic.Function.Basic

/-! # Events between reading and dispatch

The queue of `inotify-kernel.c`.  `ik_read_callback` appends the events that it has read;
`ik_process_eq_callback` pairs the two halves of a move by their cookie, and hands out the
events from the front as long as they are ready.  Time is in microseconds.
-/

namespace Gamin.Inotify

open Gamin

/-! ## State -/

/-- An event as the kernel reports it. -/
structure KernelEvent where
  report : IkReport
  cookie : Nat
  deriving DecidableEq, Repr

/-- `ik_event_internal_t` together with its `ik_event_t`; the pair of both is that of the
first. -/
structure IkEventInternal extends KernelEvent where
  seen : Bool
  sent : Bool
  holdUntil : Nat
  pair : Option Pointer
  deriving DecidableEq, Repr

/-- The allocated events, the queue `events_to_process`, and the other static variables.
`event_queue` is empty between two callbacks. -/
structure MoveQueue where
  events : Pointer → Option IkEventInternal
  nextEvent : Pointer
  eventsToProcess : List Pointer
  cookieHash : Nat → Option Pointer
  processEqRunning : Bool
  ikMoveMatches : Nat
  ikMoveMisses : Nat

def MoveQueue.new : MoveQueue where
  events := fun _ => none
  nextEvent := 0
  eventsToProcess := []
  cookieHash := fun _ => none
  processEqRunning := false
  ikMoveMatches := 0
  ikMoveMisses := 0

/-- `DEFAULT_HOLD_UNTIL_TIME`. -/
def defaultHoldUntilTime : Nat := 0

/-- `MOVE_HOLD_UNTIL_TIME`. -/
def moveHoldUntilTime : Nat := 0

def MoveQueue.setEvent (queue : MoveQueue) (address : Pointer) (event : IkEventInternal) :
    MoveQueue :=
  { queue with events := Function.update queue.events address (some event) }

def MoveQueue.freeEvent (queue : MoveQueue) (address : Pointer) : MoveQueue :=
  { queue with events := Function.update queue.events address none }

/-! ## Reading -/

/-- `ik_event_internal_new` at the end of `events_to_process`. -/
def queueEvent (queue : MoveQueue) (read : KernelEvent × Nat) : MoveQueue :=
  let event : IkEventInternal := {
    toKernelEvent := read.1
    seen := false
    sent := false
    holdUntil := read.2 + defaultHoldUntilTime
    pair := none }
  { queue.setEvent queue.nextEvent event with
    nextEvent := queue.nextEvent + 1
    eventsToProcess := queue.eventsToProcess ++ [queue.nextEvent] }

/-- `ik_read_callback` inside its lock, for the events in the buffer and the time at which each
is taken from it. -/
def readEvents (queue : MoveQueue) (buffer : List (KernelEvent × Nat)) : MoveQueue :=
  let queue := buffer.foldl queueEvent queue
  { queue with processEqRunning := queue.processEqRunning ∨ buffer ≠ [] }

/-! ## Pairing -/

/-- `ik_pair_events`; there is no result if an assertion fails. -/
def ikPairEvents (queue : MoveQueue) (address1 address2 : Pointer) : Option MoveQueue :=
  match queue.events address1, queue.events address2 with
  | some event1, some event2 =>
    if event1.cookie ≠ event2.cookie ∨ event1.pair ≠ none ∨ event2.pair ≠ none then none
    else
      let holdUntil := max event1.holdUntil event2.holdUntil
      some ((queue.setEvent address1 { event1 with pair := some address2, holdUntil := holdUntil
        }).setEvent address2 { event2 with holdUntil := holdUntil })
  | _, _ => none

/-- The part of `ik_pair_moves` for an event with a cookie. -/
def pairByCookie (queue : MoveQueue) (address : Pointer) (event : IkEventInternal) :
    Option MoveQueue :=
  if event.report.has inMovedFrom then
    some { queue.setEvent address { event with holdUntil := event.holdUntil + moveHoldUntilTime } with
      cookieHash := Function.update queue.cookieHash event.cookie (some address) }
  else if event.report.has inMovedTo then
    match queue.cookieHash event.cookie with
    | none => some queue
    | some found =>
      ikPairEvents { queue with cookieHash := Function.update queue.cookieHash event.cookie none }
        found address
  else some queue

/-- `ik_pair_moves`. -/
def ikPairMoves (queue : MoveQueue) (address : Pointer) : Option MoveQueue :=
  (queue.events address).bind fun event =>
    if event.seen ∨ event.sent then some queue
    else
      (if event.cookie ≠ 0 then pairByCookie queue address event else some queue).bind fun queue =>
        (queue.events address).map fun event => queue.setEvent address { event with seen := true }

/-! ## Handing out -/

/-- `ik_event_ready`. -/
def ikEventReady (event : IkEventInternal) (now : Nat) : Bool :=
  event.cookie = 0 ∨ event.pair ≠ none ∨ event.holdUntil ≤ now

/-- Half of a move without the other half becomes a deletion or a creation. -/
def unpairedReport (report : IkReport) : IkReport :=
  let report :=
    if report.has inMovedFrom then { report with mask := inDelete ||| (report.mask &&& inIsdir) }
    else report
  if report.has inMovedTo then { report with mask := inCreate ||| (report.mask &&& inIsdir) }
  else report

/-- An event that is taken from the front, and what becomes of it. -/
def takeEvent (queue : MoveQueue) (address : Pointer) (event : IkEventInternal) :
    Option (MoveQueue × IkEvent) :=
  let queue :=
    if event.cookie ≠ 0 ∧ event.pair = none ∧ queue.cookieHash event.cookie ≠ none then
      { queue with cookieHash := Function.update queue.cookieHash event.cookie none }
    else queue
  match event.pair with
  | some pairAddress =>
    (queue.events pairAddress).map fun pair =>
      let queue := { queue.setEvent pairAddress { pair with sent := true } with
        ikMoveMatches := queue.ikMoveMatches + 1 }
      (queue.freeEvent address, { toIkReport := event.report, pair := some pair.report })
  | none =>
    if event.cookie ≠ 0 then
      let missed := if event.report.has inMovedFrom then 1 else 0
      some ({ queue.freeEvent address with ikMoveMisses := queue.ikMoveMisses + missed },
        { toIkReport := unpairedReport event.report, pair := none })
    else some (queue.freeEvent address, { toIkReport := event.report, pair := none })

/-- The loop of `ik_process_events` over `events_to_process`, with the readings of the clock:
the queue, and what has been put on `event_queue`. -/
def takeEvents : (Nat → Nat) → MoveQueue → List Pointer → Option (MoveQueue × List IkEvent)
  | _, queue, [] => some ({ queue with eventsToProcess := [] }, [])
  | clock, queue, address :: rest =>
    match queue.events address with
    | none => none
    | some event =>
      if event.sent then takeEvents clock (queue.freeEvent address) rest
      else if ¬ ikEventReady event (clock 0) then
        some ({ queue with eventsToProcess := address :: rest }, [])
      else
        (takeEvent queue address event).bind fun (queue, taken) =>
          (takeEvents (fun call => clock (call + 1)) queue rest).map fun (queue, events) =>
            (queue, taken :: events)

/-- `ik_process_events`. -/
def ikProcessEvents (clock : Nat → Nat) (queue : MoveQueue) : Option (MoveQueue × List IkEvent) :=
  (queue.eventsToProcess.foldlM ikPairMoves queue).bind fun queue =>
    takeEvents clock queue queue.eventsToProcess

end Gamin.Inotify
