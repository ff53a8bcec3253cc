import Gamin.Inotify.Backend
import Gamin.Inotify.MoveQueue
import Gamin.Library.Mutex
import Gamin.Library.Runs

/-! # Who takes the inotify lock

All entry points of the inotify backend run their work between `G_LOCK (inotify_lock)` and
`G_UNLOCK (inotify_lock)`.  The functions below them, down to the callbacks that emit events,
take no lock, with one exception: `ih_sub_foreach_worker` calls the public `ih_sub_cancel` for
every subscription that its predicate selects.
-/

namespace Gamin.Inotify

open Gamin Gamin.Server Gamin.Library

/-- What the lock guards. -/
structure InotifyState where
  backend : Backend
  queue : MoveQueue

def InotifyState.new : InotifyState := { backend := .new, queue := .new }

/-- Work on the backend alone. -/
def InotifyState.onBackend (body : Backend → Option Backend) (state : InotifyState) :
    Option InotifyState :=
  (body state.backend).map fun backend => { state with backend := backend }

/-! ## Entry points -/

/-- `ih_sub_add`. -/
def lockedSubAdd (sub : IhSub) (watch : Bytes → WatchAnswer) (locked : Locked InotifyState) :
    Except Stuck (Locked InotifyState) :=
  withLock (·.onBackend (ihSubAdd · sub watch)) locked

/-- `ih_sub_cancel`. -/
def lockedSubCancel (sub : IhSub) (locked : Locked InotifyState) :
    Except Stuck (Locked InotifyState) :=
  withLock (·.onBackend fun backend => some (ihSubCancel backend sub)) locked

/-- The loop of `ih_sub_foreach_worker`, which has taken the next link of `sub_list` before a
subscription is cancelled. -/
def cancelSelected (selects : IhSub → Bool) :
    List IhSub → Locked InotifyState → Except Stuck (Locked InotifyState)
  | [], locked => .ok locked
  | sub :: subs, locked =>
    if selects sub then (lockedSubCancel sub locked).bind (cancelSelected selects subs)
    else cancelSelected selects subs locked

/-- `ih_sub_foreach_worker`. -/
def ihSubForeachWorker (selects : IhSub → Bool) (locked : Locked InotifyState) :
    Except Stuck (Locked InotifyState) :=
  (acquire locked).bind fun locked =>
    (cancelSelected selects locked.state.backend.subList locked).map release

/-- `gam_inotify_add_subscription`; the initial events are sent without the lock. -/
def lockedAddSubscription (address : Pointer) (sub : GamSubscription)
    (watch : Bytes → WatchAnswer) (view : FsView) (locked : Locked InotifyState) :
    Except Stuck (Locked InotifyState) :=
  (lockedSubAdd (ihSubNew address sub.path sub.isDir sub) watch locked).map fun locked =>
    let backend := locked.state.backend
    { locked with
      state := { locked.state with
        backend := { backend with
          sent := backend.sent ++
            (gamInotifySendInitialEvents view sub.path sub sub.isDir false).map
              (Report.mk .initial) } } }

/-- `gam_inotify_remove_subscription`. -/
def gamInotifyRemoveSubscription (sub : GamSubscription) :
    Locked InotifyState → Except Stuck (Locked InotifyState) :=
  ihSubForeachWorker fun isub => isub.usersubdata = sub

/-- `gam_inotify_remove_all_for`, for the subscriptions that belong to a listener. -/
def gamInotifyRemoveAllFor (belongs : GamSubscription → Bool) :
    Locked InotifyState → Except Stuck (Locked InotifyState) :=
  ihSubForeachWorker fun isub => belongs isub.usersubdata

/-- `ik_read_callback`. -/
def ikReadCallback (buffer : List (KernelEvent × Nat)) :
    Locked InotifyState → Except Stuck (Locked InotifyState) :=
  withLock fun state => some { state with queue := Inotify.readEvents state.queue buffer }

/-- The loop of `ik_process_eq_callback` over `event_queue`, with the answers of the file
system to each event. -/
def dispatchEvents : (Nat → IhSub → Bytes → WatchAnswer) → Backend → List IkEvent → Option Backend
  | _, backend, [] => some backend
  | answers, backend, event :: events =>
    (step backend (.event event (answers 0))).bind fun backend =>
      dispatchEvents (fun call => answers (call + 1)) backend events

/-- `ik_process_eq_callback`. -/
def ikProcessEqCallback (clock : Nat → Nat) (answers : Nat → IhSub → Bytes → WatchAnswer) :
    Locked InotifyState → Except Stuck (Locked InotifyState) :=
  withLock fun state =>
    (ikProcessEvents clock state.queue).bind fun (queue, events) =>
      (dispatchEvents answers state.backend events).map fun backend =>
        { backend := backend
          queue := { queue with
            processEqRunning :=
              if queue.eventsToProcess = [] then false else queue.processEqRunning } }

/-- `im_scan_missing`. -/
def lockedScanMissing (answers : IhSub → Bytes → WatchAnswer) (view : IhSub → FsView) :
    Locked InotifyState → Except Stuck (Locked InotifyState) :=
  withLock (·.onBackend (imScanMissing · answers view))

/-- `im_diag_dump`: the path names that it writes. -/
def imDiagDump (backend : Backend) : List Bytes := backend.missingSubList.map (·.pathname)

/-- `id_dump`, with whether its file can be opened, and what is written to it. -/
def idDump (opened : Bool) (locked : Locked InotifyState) :
    Except Stuck (Locked InotifyState × List Bytes) :=
  (acquire locked).map fun locked =>
    if ¬ opened then (release locked, [])
    else (release locked, imDiagDump locked.state.backend)

/-! ## Calls -/

inductive Entry where
  | addSubscription (address : Pointer) (sub : GamSubscription) (watch : Bytes → WatchAnswer)
      (view : FsView)
  | removeSubscription (sub : GamSubscription)
  | removeAllFor (belongs : GamSubscription → Bool)
  | subForeach (selects : IhSub → Bool)
  | readEvents (buffer : List (KernelEvent × Nat))
  | processEvents (clock : Nat → Nat) (answers : Nat → IhSub → Bytes → WatchAnswer)
  | scanMissing (answers : IhSub → Bytes → WatchAnswer) (view : IhSub → FsView)
  | dump (opened : Bool)

def Entry.call (locked : Locked InotifyState) : Entry → Except Stuck (Locked InotifyState)
  | .addSubscription address sub watch view => lockedAddSubscription address sub watch view locked
  | .removeSubscription sub => gamInotifyRemoveSubscription sub locked
  | .removeAllFor belongs => gamInotifyRemoveAllFor belongs locked
  | .subForeach selects => ihSubForeachWorker selects locked
  | .readEvents buffer => ikReadCallback buffer locked
  | .processEvents clock answers => ikProcessEqCallback clock answers locked
  | .scanMissing answers view => lockedScanMissing answers view locked
  | .dump opened => (idDump opened locked).map Prod.fst

/-- The predicate of an entry that removes subscriptions. -/
def Entry.selection : Entry → Option (IhSub → Bool)
  | .removeSubscription sub => some fun isub => isub.usersubdata = sub
  | .removeAllFor belongs => some fun isub => belongs isub.usersubdata
  | .subForeach selects => some selects
  | _ => none

/-- A removal returns, has cancelled the selected subscriptions, and has left the others in
their order on the list. -/
def RemovesExactly (selects : IhSub → Bool) (before : Backend)
    (outcome : Except Stuck (Locked InotifyState)) : Prop :=
  ∃ after, outcome = .ok { held := false, state := after } ∧
    after.backend.subList = before.subList.filter (fun sub => ¬ selects sub) ∧
    ∀ sub ∈ before.subList, selects sub = true →
      after.backend.subDirHash sub = none ∧ sub ∉ after.backend.missingSubList

/-- What a call should do. -/
def Proper (locked : Locked InotifyState) (entry : Entry) : Prop :=
  LockSafe (entry.call locked) ∧
    ∀ selects ∈ entry.selection, RemovesExactly selects locked.state.backend (entry.call locked)

/-- No subscription is selected for removal. -/
def SelectsNobody (locked : Locked InotifyState) (entry : Entry) : Prop :=
  ∀ selects ∈ entry.selection, ∀ sub ∈ locked.state.backend.subList, selects sub = false

/-! ## One call -/

theorem cancelSelected_nobody {selects : IhSub → Bool} {subs : List IhSub}
    (nobody : ∀ sub ∈ subs, selects sub = false) (locked : Locked InotifyState) :
    cancelSelected selects subs locked = .ok locked := by
  induction subs with
  | nil => rfl
  | cons first subs inductionHypothesis =>
    simp only [cancelSelected, nobody first List.mem_cons_self, Bool.false_eq_true, if_false]
    exact inductionHypothesis fun sub member => nobody sub (List.mem_cons_of_mem first member)

/-- The first subscription that is selected finds the lock taken. -/
theorem cancelSelected_deadlock {selects : IhSub → Bool} {subs : List IhSub} {sub : IhSub}
    (member : sub ∈ subs) (selected : selects sub = true) (state : InotifyState) :
    cancelSelected selects subs { held := true, state := state } = .error .deadlock := by
  induction subs with
  | nil => contradiction
  | cons first subs inductionHypothesis =>
    by_cases selectsFirst : selects first = true
    · simp only [cancelSelected, selectsFirst, if_true, lockedSubCancel, withLock_held]
      rfl
    · simp only [cancelSelected, selectsFirst, Bool.false_eq_true, if_false]
      cases List.mem_cons.mp member with
      | inl same => exact absurd (same ▸ selected) selectsFirst
      | inr later => exact inductionHypothesis later

theorem ihSubForeachWorker_nobody {selects : IhSub → Bool} {state : InotifyState}
    (nobody : ∀ sub ∈ state.backend.subList, selects sub = false) :
    ihSubForeachWorker selects { held := false, state := state } =
      .ok { held := false, state := state } := by
  simp only [ihSubForeachWorker, acquire_free]
  have unchanged := cancelSelected_nobody nobody { held := true, state := state }
  simp only [Except.bind, unchanged]
  rfl

theorem ihSubForeachWorker_deadlock {selects : IhSub → Bool} {state : InotifyState} {sub : IhSub}
    (member : sub ∈ state.backend.subList) (selected : selects sub = true) :
    ihSubForeachWorker selects { held := false, state := state } = .error .deadlock := by
  simp only [ihSubForeachWorker, acquire_free]
  have stuck := cancelSelected_deadlock member selected state
  simp only [Except.bind, stuck]
  rfl

/-- The other entry points take the lock once and give it back. -/
theorem Entry.call_lockSafe {entry : Entry} (noRemoval : entry.selection = none)
    (state : InotifyState) : LockSafe (entry.call { held := false, state := state }) := by
  cases entry with
  | addSubscription address sub watch view =>
    simp only [Entry.call, lockedAddSubscription, lockedSubAdd, withLock_free]
    cases state.onBackend (ihSubAdd · (ihSubNew address sub.path sub.isDir sub) watch) with
    | none => trivial
    | some after => rfl
  | removeSubscription sub => contradiction
  | removeAllFor belongs => contradiction
  | subForeach selects => contradiction
  | readEvents buffer =>
    simp only [Entry.call, ikReadCallback]
    exact withLock_lockSafe _ state
  | processEvents clock answers =>
    simp only [Entry.call, ikProcessEqCallback]
    exact withLock_lockSafe _ state
  | scanMissing answers view =>
    simp only [Entry.call, lockedScanMissing]
    exact withLock_lockSafe _ state
  | dump opened => cases opened <;> rfl

/-- The entry points that remove call the worker with their predicate. -/
theorem Entry.call_removal {entry : Entry} {selects : IhSub → Bool}
    (removal : entry.selection = some selects) (locked : Locked InotifyState) :
    entry.call locked = ihSubForeachWorker selects locked := by
  cases entry with
  | removeSubscription sub =>
    cases removal
    rfl
  | removeAllFor belongs =>
    cases removal
    rfl
  | subForeach selects =>
    cases removal
    rfl
  | _ => contradiction

/-- A call does what it should exactly when it selects nobody for removal. -/
theorem Entry.proper_iff (entry : Entry) (state : InotifyState) :
    Proper { held := false, state := state } entry ↔
      SelectsNobody { held := false, state := state } entry := by
  simp only [Proper, SelectsNobody]
  cases removal : entry.selection with
  | none =>
    have safe := Entry.call_lockSafe removal state
    simp [safe]
  | some selects =>
    rw [Entry.call_removal removal]
    simp only [Option.mem_def, Option.some.injEq, forall_eq']
    constructor
    · rintro ⟨safe, _⟩ sub member
      by_contra selected
      have stuck := ihSubForeachWorker_deadlock member (by simpa using selected)
      rw [stuck] at safe
      exact safe
    · intro nobody
      rw [ihSubForeachWorker_nobody nobody]
      refine ⟨rfl, state, rfl, ?_, ?_⟩
      · rw [List.filter_eq_self.mpr]
        intro sub member
        simp [nobody sub member]
      · intro sub member selected
        rw [nobody sub member] at selected
        contradiction

theorem Entry.call_released {entry : Entry} {state : InotifyState} {after : Locked InotifyState}
    (returned : entry.call { held := false, state := state } = .ok after) :
    after.held = false := by
  cases removal : entry.selection with
  | none =>
    have safe := Entry.call_lockSafe removal state
    rw [returned] at safe
    exact safe
  | some selects =>
    rw [Entry.call_removal removal] at returned
    by_cases nobody : ∀ sub ∈ state.backend.subList, selects sub = false
    · rw [ihSubForeachWorker_nobody nobody] at returned
      cases returned
      rfl
    · push Not at nobody
      obtain ⟨sub, member, selected⟩ := nobody
      rw [ihSubForeachWorker_deadlock member (by simpa using selected)] at returned
      contradiction

/-! ## Runs -/

/-- The server after a call; there is none after a call that has not returned. -/
def callStep (locked : Locked InotifyState) (entry : Entry) : Option (Locked InotifyState) :=
  (entry.call locked).toOption

theorem callStep_released {locked after : Locked InotifyState} {entry : Entry}
    (free : LockFree locked) (returned : callStep locked entry = some after) : LockFree after := by
  obtain ⟨held, state⟩ := locked
  cases free
  simp only [callStep] at returned
  cases outcome : entry.call { held := false, state := state } with
  | error stuck =>
    rw [outcome] at returned
    contradiction
  | ok next =>
    rw [outcome] at returned
    cases returned
    exact Entry.call_released outcome

/-- In every run from any state in which the lock is free, all calls take and release the lock
once and remove exactly what they should, if and only if no call selects a subscription that
is on the list. -/
theorem calls_proper_iff (state : InotifyState) (entries : List Entry) :
    Guarded (partialStep callStep) (GuardIfAny Proper) (some { held := false, state := state }) entries ↔
      Guarded (partialStep callStep) (GuardIfAny SelectsNobody)
        (some { held := false, state := state }) entries := by
  have same : ∀ (locked : Locked InotifyState) (entry : Entry), LockFree locked →
      (Proper locked entry ↔ SelectsNobody locked entry) := by
    rintro ⟨held, state⟩ entry rfl
    exact entry.proper_iff state
  have free : LockFree { held := false, state := state } := rfl
  constructor
  · apply guarded_of_returns _ free
    intro locked entry free proper
    exact ⟨(same locked entry free).mp proper, fun after => callStep_released free⟩
  · apply guarded_of_returns _ free
    intro locked entry free nobody
    exact ⟨(same locked entry free).mpr nobody, fun after => callStep_released free⟩

/-! ## A removal -/

/-- `/a` is monitored, and the subscription is removed. -/
def removedAgain : List Entry :=
  let sub := directorySubscription 1 [47, 97] 1
  [.addSubscription 2 sub (watchIn [([47, 97], 1)]) emptyView, .removeSubscription sub]

/-- `ih_sub_cancel` waits for the lock that `ih_sub_foreach_worker` holds. -/
theorem removedAgain_deadlocks :
    ¬ Guarded (partialStep callStep) (GuardIfAny Proper)
      (some { held := false, state := .new }) removedAgain := by
  intro guarded
  obtain ⟨_, removal, _⟩ := guarded
  let sub := directorySubscription 1 [47, 97] 1
  let isub := ihSubNew 2 sub.path true sub
  have added : (partialStep callStep (some { held := false, state := .new })
      (.addSubscription 2 sub (watchIn [([47, 97], 1)]) emptyView)).map
      (fun locked => (locked.held, locked.state.backend.subList)) = some (false, [isub]) := by
    decide +kernel
  obtain ⟨⟨held, state⟩, reached, parts⟩ := Option.map_eq_some_iff.mp added
  simp only [Prod.mk.injEq] at parts
  obtain ⟨rfl, subList⟩ := parts
  have proper : Proper { held := false, state := state } (.removeSubscription sub) := by
    have there := removal
    rwa [reached] at there
  have nobody := (Entry.proper_iff _ state).mp proper _ rfl isub (by
    simp only [subList]
    exact List.mem_singleton_self isub)
  revert nobody
  decide

end Gamin.Inotify
