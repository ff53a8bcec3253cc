import Gamin.Inotify.ReadSource

/-! # The events of a run are given away

Behind the read, events wait for the timer of the queue.  A tick whose clock is not behind the clock of the reads leaves
none of them, so that after three rounds of the main loop and a tick all that had arrived has been given to the user
callback.
-/

namespace Gamin.Inotify

open Gamin Gamin.Library

/-! ## How long events are held -/

/-- No event is held any longer at this time. -/
def MoveQueue.HeldUntil (queue : MoveQueue) (time : Nat) : Prop :=
  ∀ address event, queue.events address = some event → event.holdUntil ≤ time

theorem MoveQueue.HeldUntil.setEvent {queue : MoveQueue} {time : Nat} (held : queue.HeldUntil time)
    {event : IkEventInternal} (ready : event.holdUntil ≤ time) (address : Pointer) :
    (queue.setEvent address event).HeldUntil time := by
  intro found stored present
  simp only [MoveQueue.setEvent, Function.update_apply] at present
  split at present
  · obtain rfl := Option.some.inj present
    exact ready
  · exact held found stored present

theorem MoveQueue.HeldUntil.freeEvent {queue : MoveQueue} {time : Nat} (held : queue.HeldUntil time)
    (address : Pointer) : (queue.freeEvent address).HeldUntil time := by
  intro found stored present
  simp only [MoveQueue.freeEvent, Function.update_apply] at present
  split at present
  · cases present
  · exact held found stored present

theorem ikPairEvents_held {queue next : MoveQueue} {time : Nat} (held : queue.HeldUntil time)
    {first second : Pointer} (paired : ikPairEvents queue first second = some next) : next.HeldUntil time := by
  unfold ikPairEvents at paired
  split at paired
  · rename_i event event' present present'
    split at paired
    · cases paired
    · obtain rfl := Option.some.inj paired
      have latest := max_le (held first event present) (held second event' present')
      exact (held.setEvent latest first).setEvent latest second
  · cases paired

theorem ikPairMoves_held {queue next : MoveQueue} {time : Nat} (held : queue.HeldUntil time) {address : Pointer}
    (paired : ikPairMoves queue address = some next) : next.HeldUntil time := by
  obtain ⟨event, present, paired⟩ := Option.bind_eq_some_iff.mp paired
  split at paired
  · obtain rfl := Option.some.inj paired
    exact held
  · obtain ⟨middle, matched, paired⟩ := Option.bind_eq_some_iff.mp paired
    obtain ⟨stored, present', rfl⟩ := Option.map_eq_some_iff.mp paired
    have heldMiddle : middle.HeldUntil time := by
      split at matched
      · unfold pairByCookie at matched
        split at matched
        · obtain rfl := Option.some.inj matched
          exact held.setEvent (held address event present) address
        · split at matched
          · split at matched
            · obtain rfl := Option.some.inj matched
              exact held
            · exact @ikPairEvents_held
                { queue with cookieHash := Function.update queue.cookieHash event.cookie none } _ _ held _ _ matched
          · obtain rfl := Option.some.inj matched
            exact held
      · obtain rfl := Option.some.inj matched
        exact held
    refine heldMiddle.setEvent ?_ address
    exact heldMiddle address stored present'

theorem takeEvent_held {queue next : MoveQueue} {time : Nat} (held : queue.HeldUntil time) {address : Pointer}
    {event : IkEventInternal} {given : IkEvent} (taken : takeEvent queue address event = some (next, given)) :
    next.HeldUntil time := by
  unfold takeEvent at taken
  have heldTable : MoveQueue.HeldUntil (if event.cookie ≠ 0 ∧ event.pair = none ∧ queue.cookieHash event.cookie ≠ none
      then { queue with cookieHash := Function.update queue.cookieHash event.cookie none } else queue) time := by
    split
    · exact held
    · exact held
  revert taken heldTable
  generalize (if event.cookie ≠ 0 ∧ event.pair = none ∧ queue.cookieHash event.cookie ≠ none
    then { queue with cookieHash := Function.update queue.cookieHash event.cookie none } else queue) = table
  intro taken heldTable
  dsimp only at taken
  split at taken
  · rename_i pairAddress isPair
    obtain ⟨pair, present, same⟩ := Option.map_eq_some_iff.mp taken
    cases same
    refine MoveQueue.HeldUntil.freeEvent ?_ address
    have sent := @MoveQueue.HeldUntil.setEvent table time heldTable { pair with sent := true }
      (heldTable pairAddress pair present) pairAddress
    exact sent
  · split at taken
    · cases taken
      exact heldTable.freeEvent address
    · cases taken
      exact heldTable.freeEvent address

/-- All of the queue is handed out if nothing is held any longer. -/
theorem takeLabelled_drained {clock : Nat → Nat} {queue next : MoveQueue} {time : Nat} (held : queue.HeldUntil time)
    (late : ∀ call, time ≤ clock call) {addresses : List Pointer} {handed : List Handed}
    (taken : takeLabelled clock queue addresses = some (next, handed)) : next.eventsToProcess = [] := by
  induction addresses generalizing clock queue handed with
  | nil =>
    cases taken
    rfl
  | cons address rest inductionHypothesis =>
    rw [takeLabelled] at taken
    split at taken
    · cases taken
    · rename_i event present
      have ready : ikEventReady event (clock 0) = true := by
        have before := (held address event present).trans (late 0)
        simp [ikEventReady, before]
      simp only [ready, not_true, if_false] at taken
      split at taken
      · exact inductionHypothesis (held.freeEvent address) late taken
      · obtain ⟨⟨middle, given⟩, first, later⟩ := Option.bind_eq_some_iff.mp taken
        obtain ⟨⟨last, more⟩, found, same⟩ := Option.map_eq_some_iff.mp later
        cases same
        exact inductionHypothesis (takeEvent_held held first) (fun call => late (call + 1)) found

theorem pairMoves_held {addresses : List Pointer} {queue next : MoveQueue} {time : Nat} (held : queue.HeldUntil time)
    (paired : addresses.foldlM ikPairMoves queue = some next) : next.HeldUntil time := by
  induction addresses generalizing queue with
  | nil =>
    cases paired
    exact held
  | cons address rest inductionHypothesis =>
    rw [List.foldlM_cons] at paired
    obtain ⟨middle, first, later⟩ := Option.bind_eq_some_iff.mp paired
    exact inductionHypothesis (ikPairMoves_held held first) later

/-- A tick with a clock that is not behind hands out all that has been read. -/
theorem MoveHistory.tick_drains {history next : MoveHistory} {time : Nat} (held : history.queue.HeldUntil time)
    {clock : Nat → Nat} (late : ∀ call, time ≤ clock call) (ticked : history.tick clock = some next) :
    next.queue.eventsToProcess = [] := by
  obtain ⟨paired, pass, later⟩ := Option.bind_eq_some_iff.mp ticked
  obtain ⟨⟨queue, handed⟩, taken, rfl⟩ := Option.map_eq_some_iff.mp later
  have drained := takeLabelled_drained (pairMoves_held held pass) late taken
  exact drained

theorem MoveHistory.Regular.handed_of_empty {history : MoveHistory} (regular : history.Regular)
    (empty : history.queue.eventsToProcess = []) :
    (history.handed.flatMap Handed.members).Perm (List.range history.reads.length) := by
  have once := regular.accounts.onceEach
  rwa [empty, List.filter_nil, List.append_nil] at once

/-- The clock readings with which a step puts events on the queue. -/
def LoopStep.ReadBy (time : Nat) : LoopStep → Prop
  | .round _ _ clock => ∀ call, clock call ≤ time
  | .arrive _ | .timeout | .tick _ => True

theorem queueEvents_held {buffer : List (KernelEvent × Nat)} {queue : MoveQueue} {time : Nat}
    (held : queue.HeldUntil time) (times : ∀ read ∈ buffer, read.2 ≤ time) :
    (buffer.foldl queueEvent queue).HeldUntil time := by
  induction buffer generalizing queue with
  | nil => exact held
  | cons read buffer inductionHypothesis =>
    refine inductionHypothesis ?_ fun later member => times later (List.mem_cons_of_mem _ member)
    have ready : read.2 + defaultHoldUntilTime ≤ time := times read List.mem_cons_self
    exact held.setEvent ready queue.nextEvent

theorem takeLabelled_held {clock : Nat → Nat} {queue next : MoveQueue} {time : Nat} (held : queue.HeldUntil time)
    {addresses : List Pointer} {handed : List Handed}
    (taken : takeLabelled clock queue addresses = some (next, handed)) : next.HeldUntil time := by
  induction addresses generalizing clock queue handed with
  | nil =>
    cases taken
    exact held
  | cons address rest inductionHypothesis =>
    rw [takeLabelled] at taken
    split at taken
    · cases taken
    · split at taken
      · exact inductionHypothesis (held.freeEvent address) taken
      · split at taken
        · cases taken
          exact held
        · obtain ⟨⟨middle, given⟩, first, later⟩ := Option.bind_eq_some_iff.mp taken
          obtain ⟨⟨last, more⟩, found, same⟩ := Option.map_eq_some_iff.mp later
          cases same
          exact inductionHypothesis (takeEvent_held held first) found

theorem InotifyLoop.step_held {loop next : InotifyLoop} {step : LoopStep} {time : Nat}
    (held : loop.history.queue.HeldUntil time) (times : step.ReadBy time) (stepped : loop.step step = some next) :
    next.history.queue.HeldUntil time := by
  cases step with
  | arrive events =>
    cases stepped
    exact held
  | timeout =>
    cases stepped
    split <;> exact held
  | tick clock =>
    rw [InotifyLoop.step] at stepped
    split at stepped
    · cases stepped
      exact held
    · obtain ⟨history, ticked, rfl⟩ := Option.map_eq_some_iff.mp stepped
      obtain ⟨paired, pass, later⟩ := Option.bind_eq_some_iff.mp ticked
      obtain ⟨⟨queue, handed⟩, taken, rfl⟩ := Option.map_eq_some_iff.mp later
      have after := takeLabelled_held (pairMoves_held held pass) taken
      exact after
  | round late answers clock =>
    rw [InotifyLoop.step] at stepped
    dsimp only at stepped
    split at stepped
    · rw [InotifyLoop.read] at stepped
      split at stepped
      · obtain ⟨decoded, -, later⟩ := Option.bind_eq_some_iff.mp stepped
        obtain ⟨history, read, rfl⟩ := Option.map_eq_some_iff.mp later
        cases read
        refine queueEvents_held held fun event member => ?_
        obtain ⟨⟨fields, index⟩, -, rfl⟩ := List.mem_map.mp member
        exact times index
      · cases stepped
    · cases stepped
      exact held

theorem InotifyLoop.run_held {loop last : InotifyLoop} {steps : List LoopStep} {time : Nat}
    (held : loop.history.queue.HeldUntil time) (times : ∀ step ∈ steps, step.ReadBy time)
    (ran : steps.foldlM InotifyLoop.step loop = some last) : last.history.queue.HeldUntil time := by
  induction steps generalizing loop with
  | nil =>
    cases ran
    exact held
  | cons step steps inductionHypothesis =>
    rw [List.foldlM_cons] at ran
    obtain ⟨next, stepped, later⟩ := Option.bind_eq_some_iff.mp ran
    exact inductionHypothesis (InotifyLoop.step_held held (times step List.mem_cons_self) stepped)
      (fun other member => times other (List.mem_cons_of_mem _ member)) later

theorem InotifyLoop.AllFit.split {loop : InotifyLoop} {first second : List LoopStep}
    (fits : loop.AllFit (first ++ second)) :
    loop.AllFit first ∧ ∀ middle, first.foldlM InotifyLoop.step loop = some middle → middle.AllFit second := by
  induction first generalizing loop with
  | nil =>
    refine ⟨trivial, fun middle reached => ?_⟩
    cases reached
    exact fits
  | cons step steps inductionHypothesis =>
    have rest := fits.2
    simp only [InotifyLoop.AllFit, List.foldlM_cons]
    cases stepped : loop.step step with
    | none => exact ⟨⟨fits.1, trivial⟩, fun middle reached => nomatch reached⟩
    | some next =>
      rw [stepped] at rest
      obtain ⟨fitsFirst, fitsSecond⟩ := inductionHypothesis rest
      exact ⟨⟨fits.1, fitsFirst⟩, fitsSecond⟩

/-! ## Nothing stays behind -/

/-- What has arrived by some time has been given to the user callback, each event once, after three rounds with the
descriptor in the poll and then a tick of the timer whose clock is not behind the reads. -/
theorem arrived_handed {before after : List LoopStep} {clock : Nat → Nat} {time : Nat}
    (cookies : ∀ event ∈ kernelEvents ((before ++ after).flatMap LoopStep.arrivals), CookieGiven event)
    (fits : InotifyLoop.new.AllFit (before ++ after)) (times : ∀ step ∈ before ++ after, step.ReadBy time)
    (polled : ∀ loop, InotifyLoop.after before = some loop → 3 ≤ loop.polls after)
    (late : ∀ call, time ≤ clock call) :
    ∃ last, InotifyLoop.after (before ++ after ++ [.tick clock]) = some last ∧
      kernelEvents (before.flatMap LoopStep.arrivals) <+: last.history.reads ∧
      (last.history.handed.flatMap Handed.members).Perm (List.range last.history.reads.length) := by
  rw [List.flatMap_append, kernelEvents_append] at cookies
  obtain ⟨fitsBefore, fitsAfter⟩ := fits.split
  obtain ⟨loop, reached, armed, arrived⟩ :=
    InotifyLoop.new_armed.run (fun event member => cookies event (List.mem_append_left _ member)) fitsBefore
  have cookiesAfter : ∀ event ∈ kernelEvents (after.flatMap LoopStep.arrivals), CookieGiven event :=
    fun event member => cookies event (List.mem_append_right _ member)
  obtain ⟨idle, ran, armedIdle, -⟩ := armed.run cookiesAfter (fitsAfter loop reached)
  have read : kernelEvents (before.flatMap LoopStep.arrivals) <+: idle.history.reads := by
    refine armed.read_within ⟨[], by rw [arrived, List.append_nil]; rfl⟩ cookiesAfter (fitsAfter loop reached) ran ?_
    exact .inr ((Nat.sub_le ..).trans (polled loop reached))
  have all : (before ++ after).foldlM InotifyLoop.step .new = some idle := by
    rw [List.foldlM_append, reached]
    exact ran
  have held : idle.history.queue.HeldUntil time :=
    InotifyLoop.run_held (fun _ _ present => by cases present) times all
  have ticks (last : InotifyLoop) (ticked : idle.step (.tick clock) = some last) :
      InotifyLoop.after (before ++ after ++ [.tick clock]) = some last := by
    rw [InotifyLoop.after, List.foldlM_append, all]
    exact (congrArg (Option.bind · _) ticked)
  by_cases quiet : idle.history.timers = 0
  · have timer := armedIdle.regular.timer
    have empty : idle.history.queue.eventsToProcess = [] := by
      by_contra nonempty
      rw [quiet, if_pos (armedIdle.regular.busy nonempty)] at timer
      cases timer
    exact ⟨idle, ticks idle (if_pos quiet), read, armedIdle.regular.handed_of_empty empty⟩
  · obtain ⟨history, ticked, regular, reads⟩ :=
      @MoveHistory.Regular.step idle.history armedIdle.regular (.tick clock)
        fun _ member => absurd member List.not_mem_nil
    refine ⟨{ idle with history := history }, ticks _ ?_, ?_, ?_⟩
    · exact (if_neg quiet).trans (congrArg (Option.map _) ticked)
    · exact read.trans ⟨_, reads.symm⟩
    · exact regular.handed_of_empty (MoveHistory.tick_drains held late ticked)

/-- The loop with one event in the kernel, in a delay. -/
def oneDelayed : InotifyLoop := { oneWaits with source := ReadSource.new.postpone 1 }

/-- The second round reads the event, since no more have come. -/
theorem oneDelayed_read (clock : Nat → Nat) :
    ∃ history, InotifyLoop.step { oneDelayed with source := ikSourceTimeout oneDelayed.source } (.round [] true clock) =
      some { waiting := [], source := .new, history := history } := by
  obtain ⟨history, taken, -, -⟩ :=
    @InotifyLoop.read_all { oneWaits with source := .new } MoveHistory.new_regular (by decide) (by decide) clock
  exact ⟨history, taken⟩

/-- Three rounds, of which the first puts the read off. -/
def threeRounds : List LoopStep :=
  [.round [] true fun _ => 5, .timeout, .round [] true fun _ => 6, .round [] false fun _ => 7]

theorem oneWaits_steps : oneWaits.AllFit threeRounds ∧ oneWaits.polls threeRounds = 3 := by
  obtain ⟨history, read⟩ := oneDelayed_read fun _ => 6
  have first : oneWaits.step (.round [] true fun _ => 5) = some oneDelayed := rfl
  have second : oneDelayed.step .timeout = some { oneDelayed with source := ikSourceTimeout oneDelayed.source } := rfl
  simp only [threeRounds, InotifyLoop.AllFit, InotifyLoop.polls, first, second, read]
  exact ⟨⟨by decide, trivial, by decide, Nat.zero_le _, trivial⟩, rfl⟩

/-- An event arrives, and the main loop goes round three times. -/
theorem oneEvent_handed :
    ∃ last, InotifyLoop.after ([.arrive [createdEvent]] ++ threeRounds ++ [.tick fun _ => 8]) = some last ∧
      kernelEvents ([.arrive [createdEvent]].flatMap LoopStep.arrivals) <+: last.history.reads ∧
      (last.history.handed.flatMap Handed.members).Perm (List.range last.history.reads.length) := by
  refine @arrived_handed [.arrive [createdEvent]] threeRounds (fun _ => 8) 8 (by decide) ⟨trivial, oneWaits_steps.1⟩ ?_
    ?_ fun _ => Nat.le_refl 8
  · simp [threeRounds, LoopStep.ReadBy]
  · intro loop reached
    cases reached
    exact oneWaits_steps.2.ge

end Gamin.Inotify
