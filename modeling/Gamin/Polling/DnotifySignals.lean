import Gamin.Polling.DescriptorTables

/-! # The signals of dnotify

A signal handler puts the descriptor of the directory into a queue and writes into a pipe; the main loop reads from the
pipe and takes the queue apart.  The handler may run between any two steps of the main loop, and the scans change the
tables of the descriptors.
-/

namespace Gamin.Polling

open Gamin Gamin.Server Gamin.Inotify Gamin.Library DescriptorTables

/-! ## The model -/

/-- `MAX_QUEUE_SIZE`. -/
def maxQueueSize : Nat := 500

/-- What fits into a pipe. -/
def pipeCapacity : Nat := 65536

/-- `changes` from its tail on, the bytes that wait in `pipe_write_ioc` and in the pipe, and whether the
loop of `gam_dnotify_pipe_handler` is under way.  `queued` and `handled` keep what has gone into the
queue and what has come out, with the directory that was scanned. -/
structure SignalQueue where
  tables : DescriptorTables
  changes : List Int
  buffered : Nat
  pipe : Nat
  handling : Bool
  queued : List Int
  handled : List (Int × Option Bytes)

/-- What `gam_dnotify_init` leaves. -/
def SignalQueue.new : SignalQueue where
  tables := .init
  changes := []
  buffered := 0
  pipe := 0
  handling := false
  queued := []
  handled := []

/-- `dnotify_signal_handler` for the descriptor `si_fd`. -/
def SignalQueue.signal (queue : SignalQueue) (fd : Int) : SignalQueue :=
  if queue.changes.length > maxQueueSize then queue
  else
    let flushed := min (queue.buffered + 5) (pipeCapacity - queue.pipe)
    { queue with
      changes := queue.changes ++ [fd]
      buffered := queue.buffered + 5 - flushed
      pipe := queue.pipe + flushed
      queued := queue.queued ++ [fd] }

/-- The main loop calls `gam_dnotify_pipe_handler`, which reads.  The bytes come straight from the pipe: what the
channel of `pipe_read_ioc` reads ahead into a buffer of its own is left out. -/
def SignalQueue.dispatch (queue : SignalQueue) : SignalQueue :=
  if queue.handling ∨ queue.pipe = 0 then queue
  else { queue with pipe := queue.pipe - 5000, handling := true }

/-- The path of the record that `fd_hash` has for the descriptor. -/
def SignalQueue.directory (queue : SignalQueue) (fd : Int) : Option Bytes :=
  (queue.tables.fdHash fd).bind fun data => (queue.tables.records data).map (·.path)

/-- A round of the loop of `gam_dnotify_pipe_handler`. -/
def SignalQueue.pop (queue : SignalQueue) : SignalQueue :=
  if queue.handling then
    match queue.changes with
    | [] => { queue with handling := false }
    | fd :: changes =>
      -- this descriptor is the NULL that ends the loop
      if fd = 0 then
        { queue with changes := changes, handling := false, handled := queue.handled ++ [(fd, none)] }
      else
        { queue with changes := changes, handled := queue.handled ++ [(fd, queue.directory fd)] }
  else queue

inductive SignalInput where
  | request (request : DescriptorTables.Request)
  | signal (fd : Int)
  | dispatch
  | pop

def signalStep (queue : SignalQueue) : SignalInput → SignalQueue
  | .request request => { queue with tables := queue.tables.directoryHandler request }
  | .signal fd => queue.signal fd
  | .dispatch => queue.dispatch
  | .pop => queue.pop

/-! ## Waking up -/

/-- While changes wait, the loop of the handler is under way, or the main loop is going to call it. -/
def Awake (queue : SignalQueue) : Prop := queue.changes ≠ [] → queue.handling = true ∨ 0 < queue.pipe

/-- The step does not take the descriptor 0 with others behind it after the pipe has been emptied. -/
def GoesOn (queue : SignalQueue) : SignalInput → Prop
  | .pop => queue.handling = true → queue.changes.head? = some 0 → queue.changes.tail ≠ [] → 0 < queue.pipe
  | .request _ | .signal _ | .dispatch => True

instance (queue : SignalQueue) : (input : SignalInput) → Decidable (GoesOn queue input)
  | .pop => inferInstanceAs (Decidable (_ → _ → _ → _))
  | .request _ | .signal _ | .dispatch => .isTrue trivial

theorem signal_awake {queue : SignalQueue} (awake : Awake queue) (fd : Int) : Awake (queue.signal fd) := by
  unfold SignalQueue.signal
  split
  · exact awake
  · intro _
    by_cases empty : queue.pipe = 0
    · right
      simp only [empty, pipeCapacity]
      omega
    · right
      show 0 < queue.pipe + _
      omega

theorem dispatch_awake {queue : SignalQueue} (awake : Awake queue) : Awake queue.dispatch := by
  unfold SignalQueue.dispatch
  split
  · exact awake
  · exact fun _ => .inl rfl

/-- Only the end of the loop can leave changes behind. -/
theorem pop_awake_iff {queue : SignalQueue} (awake : Awake queue) : Awake queue.pop ↔ GoesOn queue .pop := by
  unfold SignalQueue.pop
  by_cases handling : queue.handling = true
  case neg => exact iff_of_true (by rwa [if_neg handling]) fun isHandling => absurd isHandling handling
  rw [if_pos handling]
  cases waiting : queue.changes with
  | nil =>
    dsimp only
    refine iff_of_true (fun more => absurd rfl more) fun _ first => ?_
    rw [waiting] at first
    cases first
  | cons fd changes =>
    dsimp only
    by_cases zero : fd = 0
    · subst zero
      rw [if_pos rfl]
      simp only [Awake, GoesOn, handling, waiting, List.head?_cons, List.tail_cons, Bool.false_eq_true, false_or,
        true_implies]
    · rw [if_neg zero]
      refine iff_of_true (fun _ => .inl handling) fun _ first => ?_
      rw [waiting, List.head?_cons, Option.some.injEq] at first
      exact absurd first zero

/-- In every run the main loop never goes to sleep on changes that wait, exactly as long as no loop of the handler ends
at the descriptor 0 with others behind it and nothing left in the pipe. -/
theorem awake_iff_goesOn (inputs : List SignalInput) :
    Throughout signalStep Awake .new inputs ↔ Guarded signalStep GoesOn .new inputs := by
  refine throughout_iff_guarded (fun _ => True) (fun _ _ _ => trivial) ?_ ?_ trivial
    (fun more => absurd rfl more) inputs
  · intro queue input _ awake goesOn
    cases input with
    | request request => exact awake
    | signal fd => exact signal_awake awake fd
    | dispatch => exact dispatch_awake awake
    | pop => exact (pop_awake_iff awake).mpr goesOn
  · intro queue input _ awake awakeAfter
    cases input with
    | request | signal | dispatch => trivial
    | pop => exact (pop_awake_iff awake).mp awakeAfter

/-- Where the descriptor 0 belongs to a directory, a change is left behind. -/
theorem not_awake_zero : ¬ Throughout signalStep Awake .new [.signal 0, .signal 3, .dispatch, .pop] := by
  intro awake
  have last := awake.last
  revert last
  unfold Awake
  decide

/-! ## Scanning -/

/-- What has gone into the queue comes out in this order, and at most 501 changes wait. -/
structure Ordered (queue : SignalQueue) : Prop where
  consistent : queue.tables.Consistent
  order : queue.queued = queue.handled.map Prod.fst ++ queue.changes
  bounded : queue.changes.length ≤ maxQueueSize + 1

theorem Ordered.step {queue : SignalQueue} (ordered : Ordered queue) (input : SignalInput) :
    Ordered (signalStep queue input) := by
  cases input with
  | request request => exact { ordered with
      consistent := (ordered.consistent.handled request).consistent ordered.consistent }
  | signal fd =>
    unfold signalStep SignalQueue.signal
    dsimp only
    split
    · exact ordered
    · rename_i room
      refine { ordered with order := ?_, bounded := ?_ }
      · rw [ordered.order, List.append_assoc]
      · rw [List.length_append, List.length_singleton]
        omega
  | dispatch =>
    unfold signalStep SignalQueue.dispatch
    dsimp only
    split
    · exact ordered
    · exact ⟨ordered.consistent, ordered.order, ordered.bounded⟩
  | pop =>
    unfold signalStep SignalQueue.pop
    dsimp only
    split
    · have order := ordered.order
      have bounded := ordered.bounded
      split
      · exact { ordered with }
      · -- what is taken from the waiting ones goes to the end of those that were handled
        rename_i fd changes waiting
        rw [waiting] at order bounded
        have shorter : changes.length ≤ maxQueueSize + 1 := (Nat.le_succ _).trans bounded
        split
        · refine { ordered with order := ?_, bounded := shorter }
          rw [order, List.map_append, List.append_assoc]
          rfl
        · refine { ordered with order := ?_, bounded := shorter }
          rw [order, List.map_append, List.append_assoc]
          rfl
    · exact ordered

theorem ordered_new : Ordered .new where
  consistent := consistent_init
  order := rfl
  bounded := Nat.zero_le _

theorem run_ordered (inputs : List SignalInput) : Ordered (run signalStep .new inputs) :=
  (Throughout.of_kept (fun _ input ordered => ordered.step input) ordered_new inputs).last

/-- The directory of a descriptor is the one with the record that has it open. -/
theorem Ordered.directory_eq {queue : SignalQueue} (ordered : Ordered queue) (fd : Int) (path : Bytes) :
    queue.directory fd = some path ↔
      ∃ data record, queue.tables.Entry path data record ∧ record.fd = fd ∧ fd ∈ queue.tables.openFds := by
  unfold SignalQueue.directory
  constructor
  · intro found
    obtain ⟨data, hashed, found⟩ := Option.bind_eq_some_iff.mp found
    obtain ⟨record, held, rfl⟩ := Option.map_eq_some_iff.mp found
    obtain ⟨path, stored, entry, same, opened⟩ := (ordered.consistent.registered fd data).mp hashed
    obtain rfl := Option.some.inj (held.symm.trans entry.2)
    rw [ordered.consistent.path_eq entry]
    exact ⟨data, record, entry, same, opened⟩
  · rintro ⟨data, record, entry, same, opened⟩
    rw [(ordered.consistent.registered fd data).mpr ⟨path, record, entry, same, opened⟩, Option.bind_some, entry.2]
    exact congrArg some (ordered.consistent.path_eq entry)

/-- In every run the signals are handled in the order in which they came.  When one is, its directory is scanned if and
only if a directory has the descriptor open then, which is not 0, and it is this one.  When the main loop has nothing to
do, every signal that was queued has been handled, if no loop of the handler has ended at the descriptor 0 as above. -/
theorem signals_handled (inputs : List SignalInput) :
    (∃ waiting, (run signalStep .new inputs).queued = (run signalStep .new inputs).handled.map Prod.fst ++ waiting ∧
        waiting.length ≤ maxQueueSize + 1 ∧
        (Guarded signalStep GoesOn .new inputs → (run signalStep .new inputs).handling = false →
          (run signalStep .new inputs).pipe = 0 → waiting = [])) ∧
      ∀ fd changes, (run signalStep .new inputs).handling = true →
        (run signalStep .new inputs).changes = fd :: changes →
        ∃ scanned, (run signalStep .new (inputs ++ [.pop])).handled =
            (run signalStep .new inputs).handled ++ [(fd, scanned)] ∧
          ∀ path, scanned = some path ↔ fd ≠ 0 ∧
            ∃ data record, (run signalStep .new inputs).tables.Entry path data record ∧
              record.fd = fd ∧ fd ∈ (run signalStep .new inputs).tables.openFds := by
  have ordered := run_ordered inputs
  have awake (goesOn : Guarded signalStep GoesOn .new inputs) := ((awake_iff_goesOn inputs).mpr goesOn).last
  rw [run_append, run_cons, run_nil]
  generalize run signalStep .new inputs = queue at ordered awake ⊢
  refine ⟨⟨queue.changes, ordered.order, ordered.bounded, fun goesOn resting drained => ?_⟩, ?_⟩
  · by_contra waiting
    obtain handling | more := awake goesOn waiting
    · rw [resting] at handling
      cases handling
    · exact absurd drained (Nat.ne_of_gt more)
  · intro fd changes handling waiting
    simp only [signalStep, SignalQueue.pop, handling, if_true, waiting]
    by_cases zero : fd = 0
    · rw [if_pos zero]
      exact ⟨none, rfl, fun path => iff_of_false nofun fun scanned => scanned.1 zero⟩
    · rw [if_neg zero]
      refine ⟨queue.directory fd, rfl, fun path => (ordered.directory_eq fd path).trans ?_⟩
      exact (and_iff_right zero).symm

/-- A directory is watched, and two signals come for it. -/
def twoSignals : List SignalInput :=
  [.request ⟨[slash], .activate, ⟨true, [0, 1, 2]⟩⟩, .signal 3, .dispatch, .signal 3, .pop]

theorem twoSignals_handled :
    (run signalStep .new (twoSignals ++ [.pop])).handled =
        (run signalStep .new twoSignals).handled ++ [(3, some [slash])] ∧
      (run signalStep .new (twoSignals ++ [.pop, .pop, .dispatch, .pop])).queued =
        (run signalStep .new (twoSignals ++ [.pop, .pop, .dispatch, .pop])).handled.map Prod.fst := by
  constructor
  · obtain ⟨-, scans⟩ := signals_handled twoSignals
    obtain ⟨scanned, handled, directory⟩ := scans 3 [] rfl rfl
    rw [handled, (directory [slash]).mpr
      ⟨by decide, 0, ⟨[slash], 3, 1, 0⟩, ⟨by decide, by decide⟩, rfl, by decide⟩]
  · obtain ⟨⟨waiting, order, -, done⟩, -⟩ := signals_handled (twoSignals ++ [.pop, .pop, .dispatch, .pop])
    rw [order, done (by decide) (by decide) (by decide), List.append_nil]

end Gamin.Polling
