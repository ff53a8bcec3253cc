import Gamin.Inotify.EventStream
import Gamin.Inotify.MovePairing

/-! # When events are read

The event source of `inotify-kernel.c`.  While events come fast `ik_source_check` takes the descriptor of the kernel's
queue out of the poll, and a timeout puts it back.  A loop is the source together with the events that wait in the
kernel and with the queue behind it.
-/

namespace Gamin.Inotify

open Gamin Gamin.Library

/-! ## The source -/

/-- The references to the source, the calls of `ik_source_timeout` that are to come, and the static variables. -/
structure ReadSource where
  ikPollFdEnabled : Bool
  prevPending : UInt32
  pendingCount : Nat
  timeouts : Nat
  references : Nat
  deriving DecidableEq, Repr

/-- What `ik_startup` leaves: the main context holds the source. -/
def ReadSource.new : ReadSource where
  ikPollFdEnabled := true
  prevPending := 0
  pendingCount := 0
  timeouts := 0
  references := 1

def maxPendingCount : Nat := 2

/-- `PENDING_THRESHOLD`. -/
def pendingThreshold (qsize : Nat) : UInt32 := UInt32.ofNat qsize >>> 1

/-- `PENDING_MARGINAL_COST`. -/
def pendingMarginalCost (count : Nat) : UInt32 := UInt32.ofNat (1 <<< count)

/-- `AVERAGE_EVENT_SIZE`. -/
def averageEventSize : UInt32 := UInt32.ofNat (sizeofInotifyEvent + 16)

/-- Behind `do_read`. -/
def ReadSource.doRead (source : ReadSource) : ReadSource := { source with prevPending := 0, pendingCount := 0 }

/-- The read is put off until the timeout. -/
def ReadSource.postpone (source : ReadSource) (pending : UInt32) : ReadSource where
  ikPollFdEnabled := false
  prevPending := pending
  pendingCount := source.pendingCount + 1
  timeouts := source.timeouts + 1
  references := source.references + 1

/-- `ik_source_check`, with `G_IO_IN` of the poll and the answer of `FIONREAD`. -/
def ikSourceCheck (source : ReadSource) (readable : Bool) (fionread : Option UInt32) : ReadSource × Bool :=
  if ¬ source.ikPollFdEnabled ∨ ¬ readable then (source, false)
  else if source.pendingCount < maxPendingCount then
    match fionread with
    | none => (source.doRead, true)
    | some available =>
      let pending := available / averageEventSize
      if pendingThreshold maxQueuedEvents < pending then (source.doRead, true)
      else if pending - source.prevPending < pendingMarginalCost source.pendingCount then (source.doRead, true)
      else (source.postpone pending, false)
  else (source.doRead, true)

/-- `ik_source_timeout`. -/
def ikSourceTimeout (source : ReadSource) : ReadSource :=
  { source with
    ikPollFdEnabled := true
    timeouts := source.timeouts - 1
    references := source.references - 1 }

/-! ## The loop -/

/-- The bytes that some events take in the kernel. -/
def streamSize (events : List InotifyEvent) : Nat := (events.flatMap InotifyEvent.encode).length

def kernelEvents (events : List InotifyEvent) : List KernelEvent :=
  events.map fun event => event.fields.toKernelEvent

structure InotifyLoop where
  waiting : List InotifyEvent
  source : ReadSource
  history : MoveHistory

def InotifyLoop.new : InotifyLoop := { waiting := [], source := .new, history := .new }

/-- Events arrive in the kernel; the main loop goes round once, whether or not `FIONREAD` answers, while more events
arrive before the read; a timeout of the source fires; the timer of the queue fires. -/
inductive LoopStep where
  | arrive (events : List InotifyEvent)
  | round (late : List InotifyEvent) (answers : Bool) (clock : Nat → Nat)
  | timeout
  | tick (clock : Nat → Nat)

/-- What a step brings into the kernel. -/
def LoopStep.arrivals : LoopStep → List InotifyEvent
  | .arrive events => events
  | .round late _ _ => late
  | .timeout | .tick _ => []

/-- The answer of `FIONREAD`. -/
def InotifyLoop.fionread (loop : InotifyLoop) (answers : Bool) : Option UInt32 :=
  if answers then some (UInt32.ofNat (streamSize loop.waiting)) else none

/-- `ik_source_check` in a round. -/
def InotifyLoop.check (loop : InotifyLoop) (answers : Bool) : ReadSource × Bool :=
  ikSourceCheck loop.source (loop.waiting ≠ []) (loop.fionread answers)

/-- `ik_read_callback`, which gets all that waits if the buffer has room for it.  Else the read may end within an
event, and nothing is said. -/
def InotifyLoop.read (loop : InotifyLoop) (clock : Nat → Nat) : Option InotifyLoop :=
  if fits : streamSize loop.waiting ≤ ikBufferSize then
    let read : ChannelRead := { bytes := loop.waiting.flatMap InotifyEvent.encode, behind := [], fits := fits }
    read.decode.bind fun decoded =>
      (loop.history.step (.read (decoded.buffer clock))).map fun history =>
        { loop with waiting := [], history := history }
  else none

/-- A timeout or a timer fires only if it is installed. -/
def InotifyLoop.step (loop : InotifyLoop) : LoopStep → Option InotifyLoop
  | .arrive events => some { loop with waiting := loop.waiting ++ events }
  | .round late answers clock =>
    let (source, ready) := loop.check answers
    let polled := { loop with waiting := loop.waiting ++ late, source := source }
    if ready then polled.read clock else some polled
  | .timeout => some (if loop.source.timeouts = 0 then loop else { loop with source := ikSourceTimeout loop.source })
  | .tick clock =>
    if loop.history.timers = 0 then some loop
    else (loop.history.tick clock).map fun history => { loop with history := history }

def InotifyLoop.after (steps : List LoopStep) : Option InotifyLoop := steps.foldlM InotifyLoop.step .new

/-! ## What the check does -/

/-- The events that wait are few enough, and more than before by what another delay costs. -/
def ReadSource.Defers (source : ReadSource) (available : UInt32) : Prop :=
  source.pendingCount < maxPendingCount ∧ available / averageEventSize ≤ pendingThreshold maxQueuedEvents ∧
    pendingMarginalCost source.pendingCount ≤ available / averageEventSize - source.prevPending

/-- The check finds nothing to do, puts the read off, or asks for it. -/
theorem ikSourceCheck_cases (source : ReadSource) (readable : Bool) (fionread : Option UInt32) :
    ((source.ikPollFdEnabled = false ∨ readable = false) ∧
        ikSourceCheck source readable fionread = (source, false)) ∨
      source.ikPollFdEnabled = true ∧ readable = true ∧
        ((∃ available, fionread = some available ∧ source.Defers available ∧
            ikSourceCheck source readable fionread = (source.postpone (available / averageEventSize), false)) ∨
          (∀ available, fionread = some available → ¬ source.Defers available) ∧
            ikSourceCheck source readable fionread = (source.doRead, true)) := by
  unfold ikSourceCheck
  by_cases idle : ¬ source.ikPollFdEnabled = true ∨ ¬ readable = true
  · simp only [Bool.not_eq_true] at idle
    exact .inl ⟨idle, by simp [idle]⟩
  · rw [if_neg idle]
    simp only [not_or, not_not] at idle
    refine .inr ⟨idle.1, idle.2, ?_⟩
    by_cases few : source.pendingCount < maxPendingCount
    · rw [if_pos few]
      cases fionread with
      | none => exact .inr ⟨fun _ answer => (nomatch answer), rfl⟩
      | some available =>
        simp only [Option.some.injEq, exists_eq_left', forall_eq']
        by_cases many : pendingThreshold maxQueuedEvents < available / averageEventSize
        · exact .inr ⟨fun defers => absurd many (UInt32.not_lt.mpr defers.2.1), if_pos many⟩
        · rw [if_neg many]
          by_cases slow : available / averageEventSize - source.prevPending <
              pendingMarginalCost source.pendingCount
          · exact .inr ⟨fun defers => absurd slow (UInt32.not_lt.mpr defers.2.2), if_pos slow⟩
          · exact .inl ⟨⟨few, UInt32.not_lt.mp many, UInt32.not_lt.mp slow⟩, if_neg slow⟩
    · rw [if_neg few]
      exact .inr ⟨fun _ _ defers => few defers.1, rfl⟩

/-! ## What the loop keeps -/

/-- The poll has the descriptor, or one timeout is to come that puts it back; a delay is counted, and what waited then
still waits. -/
structure InotifyLoop.Paced (loop : InotifyLoop) : Prop where
  timeouts : loop.source.timeouts = if loop.source.ikPollFdEnabled then 0 else 1
  references : loop.source.references = 1 + loop.source.timeouts
  few : loop.source.pendingCount ≤ maxPendingCount
  counted : loop.source.ikPollFdEnabled = false → 0 < loop.source.pendingCount
  fresh : loop.source.pendingCount = 0 → loop.source.prevPending = 0
  below : loop.source.prevPending.toNat * 32 ≤ streamSize loop.waiting

/-- Besides, the queue behind the source is in order. -/
structure InotifyLoop.Armed (loop : InotifyLoop) : Prop extends loop.Paced where
  cookies : ∀ event ∈ kernelEvents loop.waiting, CookieGiven event
  regular : loop.history.Regular

theorem InotifyLoop.new_armed : InotifyLoop.new.Armed where
  timeouts := rfl
  references := rfl
  few := Nat.zero_le _
  counted enabled := nomatch enabled
  fresh _ := rfl
  below := Nat.zero_le _
  cookies _ member := absurd member List.not_mem_nil
  regular := MoveHistory.new_regular

theorem streamSize_append (first second : List InotifyEvent) :
    streamSize (first ++ second) = streamSize first + streamSize second := by
  rw [streamSize, List.flatMap_append, List.length_append]
  rfl

/-- The numbers of the check, in so far as they fit. -/
theorem pending_toNat (size : Nat) : (UInt32.ofNat size / averageEventSize).toNat = size % 4294967296 / 32 := by
  rw [UInt32.toNat_div, UInt32.toNat_ofNat']
  rfl

theorem pending_below (size : Nat) : (UInt32.ofNat size / averageEventSize).toNat * 32 ≤ size := by
  rw [pending_toNat]
  omega

theorem kernelEvents_append (first second : List InotifyEvent) :
    kernelEvents (first ++ second) = kernelEvents first ++ kernelEvents second := List.map_append

theorem InotifyLoop.Paced.grow {loop : InotifyLoop} (paced : loop.Paced) (more : List InotifyEvent) :
    InotifyLoop.Paced { loop with waiting := loop.waiting ++ more } :=
  { paced with below := paced.below.trans (by rw [streamSize_append]; omega) }

/-- More events wait. -/
theorem InotifyLoop.Armed.grow {loop : InotifyLoop} (armed : loop.Armed) {more : List InotifyEvent}
    (cookies : ∀ event ∈ kernelEvents more, CookieGiven event) :
    InotifyLoop.Armed { loop with waiting := loop.waiting ++ more } where
  toPaced := armed.toPaced.grow more
  cookies := by
    rw [kernelEvents_append]
    exact fun event member => (List.mem_append.mp member).elim (armed.cookies event) (cookies event)
  regular := armed.regular

/-- A delay begins. -/
theorem InotifyLoop.Paced.postpone {loop : InotifyLoop} (paced : loop.Paced) (late : List InotifyEvent)
    (enabled : loop.source.ikPollFdEnabled = true)
    (defers : loop.source.Defers (UInt32.ofNat (streamSize loop.waiting))) :
    InotifyLoop.Paced {
      loop with
      waiting := loop.waiting ++ late
      source := loop.source.postpone (UInt32.ofNat (streamSize loop.waiting) / averageEventSize) } := by
  have timeouts := paced.timeouts
  have references := paced.references
  simp only [enabled, if_true] at timeouts
  exact {
    timeouts := congrArg (· + 1) timeouts
    references := by simp only [ReadSource.postpone, references]; omega
    few := defers.1
    counted := fun _ => Nat.succ_pos _
    fresh := fun zero => absurd zero (Nat.succ_ne_zero _)
    below := by
      have size := pending_below (streamSize loop.waiting)
      simp only [ReadSource.postpone, streamSize_append]
      omega }

/-- Nothing waits behind a read. -/
theorem InotifyLoop.Paced.read {loop : InotifyLoop} (paced : loop.Paced)
    (enabled : loop.source.ikPollFdEnabled = true) (history : MoveHistory) :
    InotifyLoop.Paced { waiting := [], source := loop.source.doRead, history := history } where
  timeouts := paced.timeouts
  references := paced.references
  few := Nat.zero_le _
  counted disabled := absurd (disabled.symm.trans enabled) Bool.false_ne_true
  fresh _ := rfl
  below := Nat.zero_le _

theorem InotifyLoop.Paced.timeout {loop : InotifyLoop} (paced : loop.Paced) (pending : loop.source.timeouts ≠ 0) :
    InotifyLoop.Paced { loop with source := ikSourceTimeout loop.source } := by
  have timeouts := paced.timeouts
  have references := paced.references
  have one : loop.source.timeouts = 1 := by
    split at timeouts
    · exact absurd timeouts pending
    · exact timeouts
  exact {
    timeouts := by simp [ikSourceTimeout, one]
    references := by simp only [ikSourceTimeout, references, one]
    few := paced.few
    counted := fun disabled => nomatch disabled
    fresh := paced.fresh
    below := paced.below }

/-- The source stays in order in every step that returns, whatever is read. -/
theorem InotifyLoop.Paced.step {loop next : InotifyLoop} (paced : loop.Paced) {step : LoopStep}
    (stepped : loop.step step = some next) : next.Paced := by
  cases step with
  | arrive events =>
    cases stepped
    exact paced.grow events
  | round late answers clock =>
    -- not in the poll or nothing there; put off; or read
    obtain ⟨-, checked⟩ | ⟨enabled, -, ⟨available, answer, defers, checked⟩ | ⟨-, checked⟩⟩ :=
      ikSourceCheck_cases loop.source (loop.waiting ≠ []) (loop.fionread answers)
    · rw [InotifyLoop.step, InotifyLoop.check, checked] at stepped
      cases stepped
      exact paced.grow late
    · obtain rfl : UInt32.ofNat (streamSize loop.waiting) = available := by
        cases answers with
        | false => cases answer
        | true => exact Option.some.inj answer
      rw [InotifyLoop.step, InotifyLoop.check, checked] at stepped
      cases stepped
      exact paced.postpone late enabled defers
    · rw [InotifyLoop.step, InotifyLoop.check, checked] at stepped
      simp only [if_true, InotifyLoop.read] at stepped
      split at stepped
      case isFalse => contradiction
      case isTrue =>
        obtain ⟨decoded, -, taken⟩ := Option.bind_eq_some_iff.mp stepped
        obtain ⟨history, -, rfl⟩ := Option.map_eq_some_iff.mp taken
        exact paced.read enabled history
  | timeout =>
    cases stepped
    split
    case isTrue => exact paced
    case isFalse pending => exact paced.timeout pending
  | tick clock =>
    rw [InotifyLoop.step] at stepped
    split at stepped
    · cases stepped
      exact paced
    · obtain ⟨history, -, rfl⟩ := Option.map_eq_some_iff.mp stepped
      exact { paced with }

theorem InotifyLoop.Paced.run {loop last : InotifyLoop} (paced : loop.Paced) {steps : List LoopStep}
    (ran : steps.foldlM InotifyLoop.step loop = some last) : last.Paced := by
  induction steps generalizing loop with
  | nil =>
    cases ran
    exact paced
  | cons step steps inductionHypothesis =>
    rw [List.foldlM_cons] at ran
    obtain ⟨next, stepped, rest⟩ := Option.bind_eq_some_iff.mp ran
    exact inductionHypothesis (paced.step stepped) rest

/-- A read takes all that waits. -/
theorem InotifyLoop.read_all {loop : InotifyLoop} (regular : loop.history.Regular)
    (cookies : ∀ event ∈ kernelEvents loop.waiting, CookieGiven event)
    (fits : streamSize loop.waiting ≤ ikBufferSize) (clock : Nat → Nat) :
    ∃ history, loop.read clock = some { loop with waiting := [], history := history } ∧ history.Regular ∧
      history.reads = loop.history.reads ++ kernelEvents loop.waiting := by
  let read : ChannelRead := { bytes := loop.waiting.flatMap InotifyEvent.encode, behind := [], fits := fits }
  obtain ⟨used, -, decoded⟩ := @ChannelRead.decode_records read loop.waiting rfl
  let found : Decoded := { events := loop.waiting.map InotifyEvent.fields, used := used }
  have taken : (MoveStep.read (found.buffer clock)).reads = kernelEvents loop.waiting := by
    rw [Decoded.buffer_reads, List.map_map]
    rfl
  obtain ⟨history, stepped, regularNext, reads⟩ := regular.step (taken ▸ cookies)
  refine ⟨history, ?_, regularNext, reads.trans (congrArg _ taken)⟩
  rw [InotifyLoop.read, dif_pos fits]
  exact (congrArg (Option.bind · _) decoded).trans (congrArg (Option.map _) stepped)

/-- What one round comes to. -/
inductive RoundEnds (loop : InotifyLoop) (late : List InotifyEvent) (answers : Bool) : InotifyLoop → Prop where
  | idle (nothing : loop.source.ikPollFdEnabled = false ∨ loop.waiting = []) :
      RoundEnds loop late answers { loop with waiting := loop.waiting ++ late }
  | postponed (enabled : loop.source.ikPollFdEnabled = true) (waits : loop.waiting ≠ []) (answered : answers = true)
      (defers : loop.source.Defers (UInt32.ofNat (streamSize loop.waiting))) :
      RoundEnds loop late answers {
        loop with
        waiting := loop.waiting ++ late
        source := loop.source.postpone (UInt32.ofNat (streamSize loop.waiting) / averageEventSize) }
  | read (enabled : loop.source.ikPollFdEnabled = true) (waits : loop.waiting ≠ [])
      (due : answers = true → ¬ loop.source.Defers (UInt32.ofNat (streamSize loop.waiting)))
      (history : MoveHistory) (regular : history.Regular)
      (reads : history.reads = loop.history.reads ++ kernelEvents (loop.waiting ++ late)) :
      RoundEnds loop late answers { waiting := [], source := loop.source.doRead, history := history }

theorem InotifyLoop.Armed.round {loop : InotifyLoop} (armed : loop.Armed) {late : List InotifyEvent}
    (cookies : ∀ event ∈ kernelEvents late, CookieGiven event)
    (fits : streamSize (loop.waiting ++ late) ≤ ikBufferSize) (answers : Bool) (clock : Nat → Nat) :
    ∃ next, loop.step (.round late answers clock) = some next ∧ RoundEnds loop late answers next := by
  obtain ⟨idle, checked⟩ | ⟨enabled, readable, ⟨available, answer, defers, checked⟩ | ⟨due, checked⟩⟩ :=
    ikSourceCheck_cases loop.source (loop.waiting ≠ []) (loop.fionread answers)
  · refine ⟨_, ?_, .idle (idle.imp_right fun nothing => ?_)⟩
    · rw [InotifyLoop.step, InotifyLoop.check, checked]
      rfl
    · simpa using nothing
  · obtain ⟨answered, rfl⟩ : answers = true ∧ UInt32.ofNat (streamSize loop.waiting) = available := by
      cases answers with
      | false => cases answer
      | true => exact ⟨rfl, Option.some.inj answer⟩
    refine ⟨_, ?_, .postponed enabled (of_decide_eq_true readable) answered defers⟩
    rw [InotifyLoop.step, InotifyLoop.check, checked]
    rfl
  · obtain ⟨history, taken, regular, reads⟩ :=
      @InotifyLoop.read_all { loop with waiting := loop.waiting ++ late, source := loop.source.doRead } armed.regular
        (armed.grow cookies).cookies fits clock
    refine ⟨_, ?_, .read enabled (of_decide_eq_true readable) (fun answered => due _ (if_pos answered)) history regular
      reads⟩
    rw [InotifyLoop.step, InotifyLoop.check, checked]
    exact taken

/-- All that has arrived: what has been read and what waits. -/
def InotifyLoop.arrived (loop : InotifyLoop) : List KernelEvent := loop.history.reads ++ kernelEvents loop.waiting

theorem RoundEnds.arrived {loop next : InotifyLoop} {late : List InotifyEvent} {answers : Bool}
    (ends : RoundEnds loop late answers next) : next.arrived = loop.arrived ++ kernelEvents late := by
  cases ends with
  | idle => simp only [InotifyLoop.arrived, kernelEvents_append, List.append_assoc]
  | postponed => simp only [InotifyLoop.arrived, kernelEvents_append, List.append_assoc]
  | read _ _ _ history _ reads =>
    simp only [InotifyLoop.arrived, reads, kernelEvents_append, List.append_assoc]
    simp [kernelEvents]

theorem RoundEnds.armed {loop next : InotifyLoop} (armed : loop.Armed) {late : List InotifyEvent}
    (cookies : ∀ event ∈ kernelEvents late, CookieGiven event) {answers : Bool}
    (ends : RoundEnds loop late answers next) : next.Armed := by
  have grown := armed.grow cookies
  cases ends with
  | idle => exact grown
  | postponed enabled _ _ defers =>
    exact { armed.toPaced.postpone late enabled defers with cookies := grown.cookies, regular := armed.regular }
  | read enabled _ _ history regular =>
    exact { armed.toPaced.read enabled history with
      cookies := fun _ member => absurd member List.not_mem_nil
      regular := regular }

/-! ## Runs -/

/-- A read that the step makes has room for all that waits. -/
def InotifyLoop.Fits (loop : InotifyLoop) : LoopStep → Prop
  | .round late _ _ => streamSize (loop.waiting ++ late) ≤ ikBufferSize
  | .arrive _ | .timeout | .tick _ => True

instance (loop : InotifyLoop) : DecidablePred loop.Fits
  | .round late _ _ => inferInstanceAs (Decidable (streamSize (loop.waiting ++ late) ≤ ikBufferSize))
  | .arrive _ | .timeout | .tick _ => .isTrue trivial

/-- A step returns, and keeps all of this. -/
theorem InotifyLoop.Armed.step {loop : InotifyLoop} (armed : loop.Armed) {step : LoopStep}
    (cookies : ∀ event ∈ kernelEvents step.arrivals, CookieGiven event) (fits : loop.Fits step) :
    ∃ next, loop.step step = some next ∧ next.Armed ∧ next.arrived = loop.arrived ++ kernelEvents step.arrivals := by
  cases step with
  | arrive events =>
    refine ⟨_, rfl, armed.grow cookies, ?_⟩
    simp only [InotifyLoop.arrived, kernelEvents_append, List.append_assoc]
    rfl
  | round late answers clock =>
    obtain ⟨next, stepped, ends⟩ := armed.round cookies fits answers clock
    exact ⟨next, stepped, ends.armed armed cookies, ends.arrived⟩
  | timeout =>
    refine ⟨_, rfl, ?_, ?_⟩
    · split
      · exact armed
      · rename_i pending
        exact { armed.toPaced.timeout pending with cookies := armed.cookies, regular := armed.regular }
    · split <;> exact (List.append_nil _).symm
  | tick clock =>
    by_cases none : loop.history.timers = 0
    · exact ⟨loop, if_pos none, armed, (List.append_nil _).symm⟩
    · obtain ⟨history, ticked, regular, reads⟩ :=
        @MoveHistory.Regular.step loop.history armed.regular (.tick clock) cookies
      have stepped : loop.step (.tick clock) = some { loop with history := history } :=
        (if_neg none).trans (congrArg (Option.map _) ticked)
      refine ⟨_, stepped, { armed with regular := regular }, ?_⟩
      have same : history.reads = loop.history.reads := reads.trans (List.append_nil _)
      simp only [InotifyLoop.arrived, same]
      exact (List.append_nil _).symm

/-- The main loop goes round, and the poll has the descriptor. -/
def InotifyLoop.polled (loop : InotifyLoop) : LoopStep → Nat
  | .round .. => if loop.source.ikPollFdEnabled then 1 else 0
  | .arrive _ | .timeout | .tick _ => 0

/-- How often it does in a run. -/
def InotifyLoop.polls (loop : InotifyLoop) : List LoopStep → Nat
  | [] => 0
  | step :: steps => loop.polled step + match loop.step step with
    | none => 0
    | some next => next.polls steps

/-- Every read of a run fits. -/
def InotifyLoop.AllFit (loop : InotifyLoop) : List LoopStep → Prop
  | [] => True
  | step :: steps => loop.Fits step ∧ match loop.step step with
      | none => True
      | some next => next.AllFit steps

/-- A run returns; all that arrives is read or waits, in its order. -/
theorem InotifyLoop.Armed.run {loop : InotifyLoop} (armed : loop.Armed) {steps : List LoopStep}
    (cookies : ∀ event ∈ kernelEvents (steps.flatMap LoopStep.arrivals), CookieGiven event)
    (fits : loop.AllFit steps) :
    ∃ last, steps.foldlM InotifyLoop.step loop = some last ∧ last.Armed ∧
      last.arrived = loop.arrived ++ kernelEvents (steps.flatMap LoopStep.arrivals) := by
  induction steps generalizing loop with
  | nil => exact ⟨loop, rfl, armed, (List.append_nil _).symm⟩
  | cons step steps inductionHypothesis =>
    rw [List.flatMap_cons, kernelEvents_append] at cookies ⊢
    obtain ⟨next, stepped, armedNext, arrived⟩ :=
      armed.step (fun event member => cookies event (List.mem_append_left _ member)) fits.1
    have rest := fits.2
    rw [stepped] at rest
    obtain ⟨last, ran, armedLast, arrivedLast⟩ :=
      inductionHypothesis armedNext (fun event member => cookies event (List.mem_append_right _ member)) rest
    refine ⟨last, ?_, armedLast, by rw [arrivedLast, arrived, List.append_assoc]⟩
    rw [List.foldlM_cons, stepped]
    exact ran

/-- What has been read stays read. -/
theorem InotifyLoop.step_reads {loop next : InotifyLoop} {step : LoopStep} (armed : loop.Armed)
    (cookies : ∀ event ∈ kernelEvents step.arrivals, CookieGiven event) (fits : loop.Fits step)
    (stepped : loop.step step = some next) : loop.history.reads <+: next.history.reads := by
  cases step with
  | arrive events =>
    cases stepped
    exact List.prefix_rfl
  | round late answers clock =>
    obtain ⟨found, stepped', ends⟩ := armed.round cookies fits answers clock
    obtain rfl := Option.some.inj (stepped.symm.trans stepped')
    cases ends with
    | idle => exact List.prefix_rfl
    | postponed => exact List.prefix_rfl
    | read _ _ _ history _ reads => exact ⟨_, reads.symm⟩
  | timeout =>
    cases stepped
    split <;> exact List.prefix_rfl
  | tick clock =>
    have ticked := stepped
    rw [InotifyLoop.step] at ticked
    split at ticked
    · cases ticked
      exact List.prefix_rfl
    · obtain ⟨history, found, rfl⟩ := Option.map_eq_some_iff.mp ticked
      obtain ⟨same, found', -, reads⟩ := @MoveHistory.Regular.step loop.history armed.regular (.tick clock) cookies
      obtain rfl := Option.some.inj (found.symm.trans found')
      exact ⟨_, reads.symm⟩

/-! ## Delays -/

theorem ReadSource.defers_iff {source : ReadSource} {size : Nat} (small : size < 4294967296)
    (below : source.prevPending.toNat * 32 ≤ size) :
    source.Defers (UInt32.ofNat size) ↔ source.pendingCount < maxPendingCount ∧ size / 32 ≤ 1024 ∧
      source.prevPending.toNat + 2 ^ source.pendingCount ≤ size / 32 := by
  have pending : (UInt32.ofNat size / averageEventSize).toNat = size / 32 := by
    rw [pending_toNat, Nat.mod_eq_of_lt small]
  have grown : source.prevPending ≤ UInt32.ofNat size / averageEventSize := by
    rw [UInt32.le_iff_toNat_le, pending]
    omega
  have cost (few : source.pendingCount < maxPendingCount) :
      (pendingMarginalCost source.pendingCount).toNat = 2 ^ source.pendingCount := by
    obtain zero | one : source.pendingCount = 0 ∨ source.pendingCount = 1 := by
      rw [maxPendingCount] at few
      omega
    · rw [zero]
      rfl
    · rw [one]
      rfl
  refine and_congr_right fun few => and_congr ?_ ?_
  · rw [UInt32.le_iff_toNat_le, pending]
    exact Iff.rfl
  · rw [UInt32.le_iff_toNat_le, UInt32.toNat_sub_of_le _ _ grown, pending, cost few]
    have before := below
    omega

theorem InotifyLoop.Paced.postpones_iff {loop : InotifyLoop} (paced : loop.Paced)
    (small : streamSize loop.waiting < 4294967296) (answers : Bool) :
    (loop.check answers).1.timeouts = loop.source.timeouts + 1 ↔
      loop.source.ikPollFdEnabled = true ∧ loop.waiting ≠ [] ∧ answers = true ∧
        loop.source.pendingCount < maxPendingCount ∧ streamSize loop.waiting / 32 ≤ 1024 ∧
        loop.source.prevPending.toNat + 2 ^ loop.source.pendingCount ≤ streamSize loop.waiting / 32 := by
  rw [← ReadSource.defers_iff small paced.below]
  have answered (available : UInt32) : loop.fionread answers = some available ↔
      answers = true ∧ UInt32.ofNat (streamSize loop.waiting) = available := by
    cases answers <;> simp [InotifyLoop.fionread]
  rw [InotifyLoop.check]
  obtain ⟨idle, checked⟩ | ⟨enabled, readable, ⟨available, answer, defers, checked⟩ | ⟨due, checked⟩⟩ :=
    ikSourceCheck_cases loop.source (loop.waiting ≠ []) (loop.fionread answers)
  · rw [checked]
    refine iff_of_false (Nat.ne_of_lt (Nat.lt_succ_self _)) ?_
    rintro ⟨enabled, waits, -⟩
    cases idle with
    | inl disabled => exact Bool.false_ne_true (disabled.symm.trans enabled)
    | inr nothing => exact absurd waits (by simpa using nothing)
  · rw [checked]
    obtain ⟨isAnswer, rfl⟩ := (answered available).mp answer
    exact iff_of_true rfl ⟨enabled, of_decide_eq_true readable, isAnswer, defers⟩
  · rw [checked]
    refine iff_of_false (Nat.ne_of_lt (Nat.lt_succ_self _)) ?_
    rintro ⟨-, -, isAnswer, defers⟩
    exact due _ ((answered _).mpr ⟨isAnswer, rfl⟩) defers

/-- In every run that returns a round puts the read off if and only if the poll has the descriptor and something waits,
no more than 1024 events of the average size, and by one of them more than none, or by two more than at the delay
before.  A third delay there is not.  While the poll does not have the descriptor, exactly one timeout is to come. -/
theorem postponed_iff {steps : List LoopStep} {loop : InotifyLoop} (reached : InotifyLoop.after steps = some loop)
    (small : streamSize loop.waiting < 4294967296) (answers : Bool) :
    ((loop.check answers).1.timeouts = loop.source.timeouts + 1 ↔
      loop.source.ikPollFdEnabled = true ∧ loop.waiting ≠ [] ∧ answers = true ∧
        loop.source.pendingCount < maxPendingCount ∧ streamSize loop.waiting / 32 ≤ 1024 ∧
        loop.source.prevPending.toNat + 2 ^ loop.source.pendingCount ≤ streamSize loop.waiting / 32) ∧
      loop.source.timeouts = (if loop.source.ikPollFdEnabled then 0 else 1) := by
  have paced := InotifyLoop.new_armed.toPaced.run reached
  exact ⟨paced.postpones_iff small answers, paced.timeouts⟩

/-- The loop with one event in the kernel. -/
def oneWaits : InotifyLoop := { InotifyLoop.new with waiting := [createdEvent] }

theorem oneWaits_postponed :
    ((oneWaits.check true).1.timeouts = oneWaits.source.timeouts + 1 ↔
      oneWaits.source.ikPollFdEnabled = true ∧ oneWaits.waiting ≠ [] ∧ true = true ∧
        oneWaits.source.pendingCount < maxPendingCount ∧ streamSize oneWaits.waiting / 32 ≤ 1024 ∧
        oneWaits.source.prevPending.toNat + 2 ^ oneWaits.source.pendingCount ≤ streamSize oneWaits.waiting / 32) ∧
      oneWaits.source.timeouts = (if oneWaits.source.ikPollFdEnabled then 0 else 1) :=
  @postponed_iff [.arrive [createdEvent]] oneWaits rfl (by decide) true

/-! ## The third round -/

/-- What has arrived is read by the third round with the descriptor in the poll, or by fewer after delays.  By
induction on the steps: a round with something to read takes it all, or is one more delay. -/
theorem InotifyLoop.Armed.read_within {loop last : InotifyLoop} (armed : loop.Armed) {front : List KernelEvent}
    (within : front <+: loop.arrived) {steps : List LoopStep}
    (cookies : ∀ event ∈ kernelEvents (steps.flatMap LoopStep.arrivals), CookieGiven event)
    (fits : loop.AllFit steps) (ran : steps.foldlM InotifyLoop.step loop = some last)
    (enough : front <+: loop.history.reads ∨
      maxPendingCount + 1 - loop.source.pendingCount ≤ loop.polls steps) :
    front <+: last.history.reads := by
  induction steps generalizing loop with
  | nil =>
    cases ran
    refine enough.elim id fun few => ?_
    have bound := armed.few
    rw [InotifyLoop.polls] at few
    omega
  | cons step steps inductionHypothesis =>
    rw [List.flatMap_cons, kernelEvents_append] at cookies
    have cookiesStep : ∀ event ∈ kernelEvents step.arrivals, CookieGiven event :=
      fun event member => cookies event (List.mem_append_left _ member)
    obtain ⟨next, stepped, armedNext, arrived⟩ := armed.step cookiesStep fits.1
    have rest := fits.2
    rw [stepped] at rest
    rw [List.foldlM_cons, stepped] at ran
    refine inductionHypothesis armedNext (within.trans ⟨_, arrived.symm⟩)
      (fun event member => cookies event (List.mem_append_right _ member)) rest ran ?_
    by_cases read : front <+: loop.history.reads
    · exact .inl (read.trans (InotifyLoop.step_reads armed cookiesStep fits.1 stepped))
    · -- each round in the poll uses up one of the delays that are left, or reads
      replace enough := enough.resolve_left read
      rw [InotifyLoop.polls, stepped] at enough
      cases step with
      | arrive events =>
        cases stepped
        exact .inr (by simpa [InotifyLoop.polled] using enough)
      | timeout =>
        have same : next.source.pendingCount = loop.source.pendingCount := by
          cases stepped
          split <;> rfl
        exact .inr (by simpa [InotifyLoop.polled, same] using enough)
      | tick clock =>
        have same : next.source = loop.source := by
          rw [InotifyLoop.step] at stepped
          split at stepped
          · cases stepped
            rfl
          · obtain ⟨history, -, rfl⟩ := Option.map_eq_some_iff.mp stepped
            rfl
        exact .inr (by simpa [InotifyLoop.polled, same] using enough)
      | round late answers clock =>
        obtain ⟨found, stepped', ends⟩ := armed.round cookiesStep fits.1 answers clock
        obtain rfl := Option.some.inj (stepped.symm.trans stepped')
        cases ends with
        | idle nothing =>
          cases nothing with
          | inl disabled => exact .inr (by simpa [InotifyLoop.polled, disabled] using enough)
          | inr empty =>
            rw [InotifyLoop.arrived, empty] at within
            exact absurd (within.trans (List.append_nil _ ▸ List.prefix_rfl)) read
        | postponed enabled =>
          right
          have count (pending : UInt32) :
              (loop.source.postpone pending).pendingCount = loop.source.pendingCount + 1 := rfl
          simp only [InotifyLoop.polled, enabled, if_true] at enough
          simp only [count]
          omega
        | read _ _ _ history _ reads =>
          rw [kernelEvents_append, ← List.append_assoc] at reads
          exact .inl (within.trans ⟨_, reads.symm⟩)

end Gamin.Inotify
