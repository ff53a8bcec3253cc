import Gamin.Inotify.Locks
import Mathlib.Data.List.Perm.Basic
import Mathlib.Data.List.Range

/-! # What becomes of the events of a run

A run is an interleaving of batches that `ik_read_callback` reads and calls of
`ik_process_eq_callback`.  Events are allocated one after the other, so that the address of an
event is its position among all events read; the history keeps, beside the queue, what has been
read and what has been handed to the user callback, and for which of the events read.
-/

namespace Gamin.Inotify

open Gamin Gamin.Library

/-! ## Handing out with labels -/

/-- One call of the user callback: the event, its pair if it has one, the number of events that
had been read by then, and what the callback gets. -/
structure Handed where
  event : Nat
  pair : Option Nat
  readSoFar : Nat
  given : IkEvent

/-- The events that a call hands over. -/
def Handed.members (handed : Handed) : List Nat := handed.event :: handed.pair.toList

/-- `takeEvents`, which keeps from which event each call comes. -/
def takeLabelled : (Nat → Nat) → MoveQueue → List Pointer → Option (MoveQueue × List Handed)
  | _, queue, [] => some ({ queue with eventsToProcess := [] }, [])
  | clock, queue, address :: rest =>
    match queue.events address with
    | none => none
    | some event =>
      if event.sent then takeLabelled clock (queue.freeEvent address) rest
      else if ¬ ikEventReady event (clock 0) then
        some ({ queue with eventsToProcess := address :: rest }, [])
      else
        (takeEvent queue address event).bind fun (next, taken) =>
          (takeLabelled (fun call => clock (call + 1)) next rest).map fun (last, handed) =>
            (last, ⟨address, event.pair, queue.nextEvent, taken⟩ :: handed)

/-- The labels change nothing. -/
theorem takeEvents_labelled (clock : Nat → Nat) (queue : MoveQueue) (addresses : List Pointer) :
    takeEvents clock queue addresses =
      (takeLabelled clock queue addresses).map fun (queue, handed) =>
        (queue, handed.map Handed.given) := by
  induction addresses generalizing clock queue with
  | nil => rfl
  | cons address rest inductionHypothesis =>
    simp only [takeEvents, takeLabelled]
    cases queue.events address with
    | none => rfl
    | some event =>
      by_cases sent : event.sent
      · simp only [sent, if_true, inductionHypothesis]
      · by_cases ready : ikEventReady event (clock 0)
        · simp only [sent, ready, inductionHypothesis, Option.map_bind, Option.map_map,
            Function.comp_def, not_true, if_false, Bool.false_eq_true]
          rfl
        · simp [sent, ready]

/-! ## Histories -/

/-- The queue, the number of installed timers, and what has been read and handed out. -/
structure MoveHistory where
  queue : MoveQueue
  timers : Nat
  reads : List KernelEvent
  handed : List Handed

def MoveHistory.new : MoveHistory := { queue := .new, timers := 0, reads := [], handed := [] }

inductive MoveStep where
  | read (buffer : List (KernelEvent × Nat))
  | tick (clock : Nat → Nat)

/-- What a step reads from the kernel. -/
def MoveStep.reads : MoveStep → List KernelEvent
  | .read buffer => buffer.map Prod.fst
  | .tick _ => []

/-- `ik_process_eq_callback` on the queue; the timer is removed when the callback returns
`FALSE`. -/
def MoveHistory.tick (history : MoveHistory) (clock : Nat → Nat) : Option MoveHistory :=
  (history.queue.eventsToProcess.foldlM ikPairMoves history.queue).bind fun queue =>
    (takeLabelled clock queue queue.eventsToProcess).map fun (queue, handed) =>
      { history with
        queue := { queue with
          processEqRunning := if queue.eventsToProcess = [] then false else queue.processEqRunning }
        timers := if queue.eventsToProcess = [] then history.timers - 1 else history.timers
        handed := history.handed ++ handed }

def MoveHistory.step (history : MoveHistory) : MoveStep → Option MoveHistory
  | .read buffer => some {
      history with
      queue := readEvents history.queue buffer
      timers :=
        if ¬ history.queue.processEqRunning ∧ buffer ≠ [] then history.timers + 1
        else history.timers
      reads := history.reads ++ buffer.map Prod.fst }
  | .tick clock => history.tick clock

/-- The history after some steps; there is none if an assertion fails. -/
def MoveHistory.after (steps : List MoveStep) : Option MoveHistory :=
  steps.foldlM MoveHistory.step MoveHistory.new

/-- The steps are those of the entry points: a tick leaves the queue, and gives the user
callback the events, of `ik_process_eq_callback`. -/
theorem ikProcessEqCallback_tick (history : MoveHistory) (clock : Nat → Nat)
    (answers : Nat → IhSub → Bytes → WatchAnswer) (backend : Backend) :
    ikProcessEqCallback clock answers { held := false, state := ⟨backend, history.queue⟩ } =
      match history.tick clock with
      | none => .error .noReturn
      | some after =>
        match dispatchEvents answers backend
            ((after.handed.drop history.handed.length).map Handed.given) with
        | none => .error .noReturn
        | some backend => .ok { held := false, state := ⟨backend, after.queue⟩ } := by
  simp only [ikProcessEqCallback, withLock_free, ikProcessEvents, MoveHistory.tick]
  cases history.queue.eventsToProcess.foldlM ikPairMoves history.queue with
  | none => rfl
  | some paired =>
    simp only [Option.bind_some, takeEvents_labelled]
    cases takeLabelled clock paired paired.eventsToProcess with
    | none => rfl
    | some taken =>
      simp only [Option.map_some, Option.bind_some, List.drop_left]
      cases dispatchEvents answers backend (taken.2.map Handed.given) with
      | none => rfl
      | some after => rfl

end Gamin.Inotify
