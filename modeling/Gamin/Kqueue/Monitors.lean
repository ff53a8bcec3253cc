import Mathlib.Data.List.AList
import Gamin.Inotify.Names
import Gamin.Library.DeferredSet

/-! # Monitors and their descriptors

The state of `gam_kqueue.c` and its functions on the base class `Monitor`.  Monitors are known by
their addresses, which are not given out twice, and a monitor that has been freed is not found.

The answers of the system are a sequence: each call takes the next ones.
-/

namespace Gamin.Kqueue

open Gamin Gamin.Server Gamin.Library

/-! ## What the system answers -/

/-- The fields of `struct stat` that the backend reads. -/
structure Stat where
  ino : Nat
  mode : Nat
  uid : Nat
  gid : Nat
  mtime : Nat
  ctime : Nat
  size : Nat
  deriving DecidableEq, Repr

def Stat.zero : Stat := { ino := 0, mode := 0, uid := 0, gid := 0, mtime := 0, ctime := 0, size := 0 }

/-- `S_IFDIR`. -/
def sIfdir : Nat := 0x4000

def Stat.isDir (sb : Stat) : Bool := sb.mode &&& sIfdir ≠ 0

/-- `MiniStat`, all zero for a file that does not exist; its field `exists` is `present` here. -/
structure MiniStat extends Stat where
  present : Bool
  deriving DecidableEq, Repr

def MiniStat.zero : MiniStat := { toStat := .zero, present := false }

/-- `gam_kqueue_differs`. -/
def gamKqueueDiffers (sb1 sb2 : MiniStat) : Bool :=
  sb1.toStat ≠ sb2.toStat

/-- The names in a directory, without the two that stand for itself and its parent. -/
structure DirListing where
  names : List Bytes
  nodup : names.Nodup

/-- What a system call answers: `lstat`, `open` with the number the kernel would like to give out,
`kevent`, and the listing of a directory; `order` is the order in which a hash table is walked. -/
structure Answers where
  lstat : Bytes → Option Stat
  opens : Bytes → Option Nat
  kevent : Bool
  listing : Bytes → Option DirListing
  order : List Nat

/-! ## The state -/

/-- `Monitor`; no `fd` stands for -1. -/
structure Monitor where
  pathname : Bytes
  fd : Option Nat
  sb : MiniStat
  pollCount : Nat
  deriving DecidableEq, Repr

/-- What `SubMonitor` adds to `Monitor`.  The entries of `fmons` are file names with the addresses of
the monitors. -/
structure SubMonitor where
  subs : List GamSubscription
  fmons : DeferredSet (Bytes × Pointer)
  unsupportedFmons : DeferredSet Pointer
  isdir : Bool
  deriving DecidableEq, Repr

/-- What `FileMonitor` adds to `Monitor`. -/
structure FileMonitor where
  smon : Pointer
  filename : Bytes
  deriving DecidableEq, Repr

/-- The three pollers. -/
inductive PollerKind where
  | missingSmon
  | unsupportedSmon
  | unsupportedFmon
  deriving DecidableEq, Repr

/-- `Poller`, with whether it has a timeout. -/
structure Poller where
  timeout : Bool
  smons : DeferredSet Pointer
  deriving DecidableEq, Repr

/-- The static variables of `gam_kqueue.c`, the descriptors that are open for monitors with the
monitor each was registered with, the monitors, the next address and the events sent. -/
structure Backend where
  openFiles : Nat
  maxOpenFiles : Nat
  descriptors : List (Nat × Pointer)
  monitors : AList fun _ : Pointer => Monitor
  subMonitors : Pointer → Option SubMonitor
  fileMonitors : Pointer → Option FileMonitor
  dirHash : Bytes → Option Pointer
  fileHash : Bytes → Option Pointer
  pollers : PollerKind → Poller
  nextPointer : Pointer
  answers : Nat → Answers
  sent : List Emission

/-- The state after `gam_kqueue_init`. -/
def Backend.new (maxOpenFiles : Nat) (answers : Nat → Answers) : Backend where
  openFiles := 0
  maxOpenFiles := maxOpenFiles
  descriptors := []
  monitors := ∅
  subMonitors := fun _ => none
  fileMonitors := fun _ => none
  dirHash := fun _ => none
  fileHash := fun _ => none
  pollers := fun _ => { timeout := false, smons := .new }
  nextPointer := 0
  answers := answers
  sent := []

namespace Backend

/-- What the next call answers. -/
def answer (state : Backend) : Answers := state.answers 0

/-- The state after a call. -/
def called (state : Backend) : Backend := { state with answers := fun call => state.answers (call + 1) }

def monitor (state : Backend) (mon : Pointer) : Option Monitor := state.monitors.lookup mon

def setMonitor (state : Backend) (mon : Pointer) (monitor : Monitor) : Backend :=
  { state with monitors := state.monitors.insert mon monitor }

/-- The descriptor of a monitor. -/
def fdOf (state : Backend) (mon : Pointer) : Option Nat := (state.monitor mon).bind (·.fd)

/-- A descriptor that is not open: the one the kernel would like, if it can be had. -/
def freshDescriptor (state : Backend) (hint : Nat) : Nat :=
  if hint ∈ state.descriptors.map Prod.fst then (state.descriptors.map Prod.fst).foldr max 0 + 1
  else hint

def close (state : Backend) (fd : Nat) : Backend :=
  { state with descriptors := state.descriptors.filter (·.1 ≠ fd) }

end Backend

/-! ## Functions on monitors -/

/-- `gam_kqueue_mini_lstat`. -/
def gamKqueueMiniLstat (state : Backend) (pathname : Bytes) : Backend × MiniStat :=
  match state.answer.lstat pathname with
  | some sb => (state.called, { toStat := sb, present := true })
  | none => (state.called, .zero)

/-- `gam_kqueue_monitor_enable_kqueue`.  It does not look at the descriptor that the monitor has. -/
def gamKqueueMonitorEnableKqueue (state : Backend) (mon : Pointer) : Backend × Bool :=
  match state.monitor mon with
  | none => (state, false)
  | some monitor =>
    if state.openFiles = state.maxOpenFiles then (state, false)
    else
      match state.answer.opens monitor.pathname with
      | none => (state.called.setMonitor mon { monitor with fd := none }, false)
      | some hint =>
        let fd := state.freshDescriptor hint
        if state.called.answer.kevent then
          ({ state.called.called.setMonitor mon { monitor with fd := some fd } with
              openFiles := state.openFiles + 1
              descriptors := (fd, mon) :: state.descriptors }, true)
        -- The new descriptor is closed again.
        else (state.called.called.setMonitor mon { monitor with fd := none }, false)

/-- What `gam_kqueue_monitor_set_unsupported` and `gam_kqueue_sub_monitor_set_missing` begin with. -/
def closeMonitor (state : Backend) (mon : Pointer) : Backend :=
  match state.monitor mon with
  | none => state
  | some monitor =>
    match monitor.fd with
    | none => state
    | some fd =>
      { (state.close fd).setMonitor mon { monitor with fd := none } with
        openFiles := state.openFiles - 1 }

/-- `gam_kqueue_monitor_set_unsupported`. -/
def gamKqueueMonitorSetUnsupported (state : Backend) (mon : Pointer) : Backend :=
  let state := closeMonitor state mon
  match state.monitor mon with
  | none => state
  | some monitor =>
    match gamKqueueMiniLstat state monitor.pathname with
    | (state, sb) => state.setMonitor mon { monitor with sb := sb }

/-- `gam_kqueue_monitor_free`. -/
def gamKqueueMonitorFree (state : Backend) (mon : Pointer) : Backend :=
  let state := closeMonitor state mon
  { state with monitors := state.monitors.erase mon }

/-- The first half of a constructor: the memory of a monitor without a descriptor. -/
def monitorNew (state : Backend) (pathname : Bytes) : Backend × Pointer :=
  ({ state.setMonitor state.nextPointer
        { pathname := pathname, fd := none, sb := .zero, pollCount := 0 } with
      nextPointer := state.nextPointer + 1 }, state.nextPointer)

/-! ## Who holds which descriptor -/

/-- How many monitors have a descriptor. -/
def Backend.watchingMonitors (state : Backend) : Nat :=
  (state.monitors.entries.filter fun entry => entry.2.fd.isSome).length

/-- Every open descriptor is counted, and is that of the monitor it was opened for. -/
structure Held (state : Backend) : Prop where
  counted : state.openFiles = state.descriptors.length
  bounded : state.openFiles ≤ state.maxOpenFiles
  distinct : (state.descriptors.map Prod.fst).Nodup
  owned : ∀ fd mon, (fd, mon) ∈ state.descriptors ↔ state.fdOf mon = some fd
  fresh : ∀ mon, state.nextPointer ≤ mon → state.monitor mon = none

namespace Backend

@[simp] theorem monitor_setMonitor_same (state : Backend) (mon : Pointer) (monitor : Monitor) :
    (state.setMonitor mon monitor).monitor mon = some monitor :=
  AList.lookup_insert _

theorem monitor_setMonitor_other (state : Backend) {mon other : Pointer} (monitor : Monitor)
    (different : other ≠ mon) : (state.setMonitor mon monitor).monitor other = state.monitor other :=
  AList.lookup_insert_ne different

theorem fdOf_setMonitor (state : Backend) (mon : Pointer) (monitor : Monitor) (other : Pointer) :
    (state.setMonitor mon monitor).fdOf other = if other = mon then monitor.fd else state.fdOf other := by
  unfold fdOf
  split
  case isTrue same => rw [same, monitor_setMonitor_same, Option.bind_some]
  case isFalse different => rw [monitor_setMonitor_other _ _ different]

theorem le_foldr_max {fd : Nat} {used : List Nat} (member : fd ∈ used) : fd ≤ used.foldr max 0 := by
  induction member with
  | head => exact Nat.le_max_left _ _
  | tail _ _ inductionHypothesis => exact inductionHypothesis.trans (Nat.le_max_right _ _)

theorem freshDescriptor_unused (state : Backend) (hint : Nat) :
    state.freshDescriptor hint ∉ state.descriptors.map Prod.fst := by
  unfold freshDescriptor
  generalize state.descriptors.map Prod.fst = used
  split
  case isTrue =>
    intro member
    have below := le_foldr_max member
    omega
  case isFalse unused => exact unused

theorem fdOf_of_monitor {state : Backend} {mon : Pointer} {monitor : Monitor}
    (found : state.monitor mon = some monitor) : state.fdOf mon = monitor.fd := by
  rw [fdOf, found, Option.bind_some]

theorem fdOf_congr {before after : Backend} {mon : Pointer}
    (same : after.monitor mon = before.monitor mon) : after.fdOf mon = before.fdOf mon := by
  rw [fdOf, fdOf, same]

end Backend

/-! ## What a function on a monitor leaves alone -/

/-- At most one monitor differs, and it is there as before. -/
structure Touches (mon : Pointer) (before after : Backend) : Prop where
  maxOpenFiles : after.maxOpenFiles = before.maxOpenFiles
  subMonitors : after.subMonitors = before.subMonitors
  fileMonitors : after.fileMonitors = before.fileMonitors
  dirHash : after.dirHash = before.dirHash
  fileHash : after.fileHash = before.fileHash
  pollers : after.pollers = before.pollers
  nextPointer : after.nextPointer = before.nextPointer
  others : ∀ other, other ≠ mon → after.monitor other = before.monitor other
  alive : (after.monitor mon).isSome = (before.monitor mon).isSome

theorem Touches.refl (mon : Pointer) (state : Backend) : Touches mon state state :=
  ⟨rfl, rfl, rfl, rfl, rfl, rfl, rfl, fun _ _ => rfl, rfl⟩

theorem Touches.trans {mon : Pointer} {first second third : Backend}
    (before : Touches mon first second) (after : Touches mon second third) : Touches mon first third where
  maxOpenFiles := after.maxOpenFiles.trans before.maxOpenFiles
  subMonitors := after.subMonitors.trans before.subMonitors
  fileMonitors := after.fileMonitors.trans before.fileMonitors
  dirHash := after.dirHash.trans before.dirHash
  fileHash := after.fileHash.trans before.fileHash
  pollers := after.pollers.trans before.pollers
  nextPointer := after.nextPointer.trans before.nextPointer
  others other different := (after.others other different).trans (before.others other different)
  alive := after.alive.trans before.alive

theorem touches_called (mon : Pointer) (state : Backend) : Touches mon state state.called :=
  ⟨rfl, rfl, rfl, rfl, rfl, rfl, rfl, fun _ _ => rfl, rfl⟩

theorem touches_setMonitor {mon : Pointer} {state : Backend} (alive : (state.monitor mon).isSome)
    (monitor : Monitor) : Touches mon state (state.setMonitor mon monitor) where
  maxOpenFiles := rfl
  subMonitors := rfl
  fileMonitors := rfl
  dirHash := rfl
  fileHash := rfl
  pollers := rfl
  nextPointer := rfl
  others _ different := Backend.monitor_setMonitor_other _ _ different
  alive := by rw [alive, Backend.monitor_setMonitor_same, Option.isSome_some]

theorem touches_miniLstat (mon : Pointer) (state : Backend) (pathname : Bytes) :
    Touches mon state (gamKqueueMiniLstat state pathname).1 := by
  unfold gamKqueueMiniLstat
  split <;> exact touches_called mon state

theorem touches_enableKqueue (state : Backend) (mon : Pointer) :
    Touches mon state (gamKqueueMonitorEnableKqueue state mon).1 := by
  unfold gamKqueueMonitorEnableKqueue
  cases found : state.monitor mon with
  | none => exact .refl mon state
  | some monitor =>
    have alive : (state.monitor mon).isSome := by rw [found]; rfl
    dsimp only
    split
    case isTrue => exact .refl mon state
    case isFalse =>
      cases state.answer.opens monitor.pathname with
      | none => exact (touches_called mon state).trans (@touches_setMonitor mon state.called alive _)
      | some hint =>
        have touches := fun next : Monitor =>
          ((touches_called mon state).trans (touches_called mon _)).trans
            (@touches_setMonitor mon state.called.called alive next)
        dsimp only
        split
        case isTrue => exact { touches _ with }
        case isFalse => exact touches _

theorem touches_closeMonitor (state : Backend) (mon : Pointer) :
    Touches mon state (closeMonitor state mon) := by
  unfold closeMonitor
  cases found : state.monitor mon with
  | none => exact .refl mon state
  | some monitor =>
    have alive : (state.monitor mon).isSome := by rw [found]; rfl
    dsimp only
    cases monitor.fd with
    | none => exact .refl mon state
    | some fd => exact { touches_setMonitor alive { monitor with fd := none } with }

theorem touches_setUnsupported (state : Backend) (mon : Pointer) :
    Touches mon state (gamKqueueMonitorSetUnsupported state mon) := by
  unfold gamKqueueMonitorSetUnsupported
  have closed := touches_closeMonitor state mon
  generalize closeMonitor state mon = next at closed ⊢
  dsimp only
  cases found : next.monitor mon with
  | none => exact closed
  | some monitor =>
    have alive : (next.monitor mon).isSome := by rw [found]; rfl
    have statted := touches_miniLstat mon next monitor.pathname
    obtain ⟨last, sb⟩ := gamKqueueMiniLstat next monitor.pathname
    exact (closed.trans statted).trans (touches_setMonitor (statted.alive.trans alive) _)

/-! ## Descriptors are kept in order -/

/-- Nothing has changed about descriptors. -/
theorem Held.congr {before after : Backend} (held : Held before)
    (descriptors : after.descriptors = before.descriptors) (openFiles : after.openFiles = before.openFiles)
    (maxOpenFiles : after.maxOpenFiles = before.maxOpenFiles)
    (fdOf : ∀ mon, after.fdOf mon = before.fdOf mon)
    (fresh : ∀ mon, after.nextPointer ≤ mon → after.monitor mon = none) : Held after where
  counted := by rw [openFiles, descriptors, held.counted]
  bounded := by rw [openFiles, maxOpenFiles]; exact held.bounded
  distinct := by rw [descriptors]; exact held.distinct
  owned fd mon := by rw [descriptors, fdOf, held.owned]
  fresh := fresh

theorem Held.called {state : Backend} (held : Held state) : Held state.called :=
  held.congr rfl rfl rfl (fun _ => rfl) held.fresh

theorem Held.below {state : Backend} (held : Held state) {mon : Pointer}
    (alive : (state.monitor mon).isSome) : mon < state.nextPointer := by
  refine Nat.lt_of_not_le fun beyond => ?_
  rw [held.fresh mon beyond] at alive
  contradiction

theorem Held.fresh_setMonitor {state : Backend} (held : Held state) {mon : Pointer}
    (alive : (state.monitor mon).isSome) (monitor : Monitor) (other : Pointer)
    (beyond : state.nextPointer ≤ other) : (state.setMonitor mon monitor).monitor other = none := by
  have different : other ≠ mon := (Nat.lt_of_lt_of_le (held.below alive) beyond).ne'
  rw [Backend.monitor_setMonitor_other _ _ different]
  exact held.fresh other beyond

theorem Held.setMonitor {state : Backend} (held : Held state) {mon : Pointer} {monitor next : Monitor}
    (found : state.monitor mon = some monitor) (same : next.fd = monitor.fd) :
    Held (state.setMonitor mon next) := by
  refine held.congr rfl rfl rfl (fun other => ?_)
    (held.fresh_setMonitor (by rw [found]; rfl) next)
  rw [Backend.fdOf_setMonitor]
  split
  case isTrue sameMonitor => rw [sameMonitor, Backend.fdOf_of_monitor found, same]
  case isFalse => rfl

theorem Held.miniLstat {state : Backend} (held : Held state) (pathname : Bytes) :
    Held (gamKqueueMiniLstat state pathname).1 := by
  unfold gamKqueueMiniLstat
  split <;> exact held.called

/-- A descriptor is only opened for a monitor that has none. -/
theorem Held.enableKqueue {state : Backend} (held : Held state) {mon : Pointer}
    (without : state.fdOf mon = none) : Held (gamKqueueMonitorEnableKqueue state mon).1 := by
  unfold gamKqueueMonitorEnableKqueue
  cases found : state.monitor mon with
  | none => exact held
  | some monitor =>
    have alive : (state.monitor mon).isSome := by rw [found]; rfl
    have noFd : monitor.fd = none := (Backend.fdOf_of_monitor found).symm.trans without
    dsimp only
    split
    case isTrue => exact held
    case isFalse below =>
      cases state.answer.opens monitor.pathname with
      | none => exact held.called.setMonitor found noFd.symm
      | some hint =>
        -- it is opened, and nobody else has the number
        have unused := state.freshDescriptor_unused hint
        dsimp only
        split
        case isFalse => exact held.called.called.setMonitor found noFd.symm
        case isTrue =>
          generalize state.freshDescriptor hint = fd at unused ⊢
          have bounded := held.bounded
          constructor
          case counted => exact congrArg (· + 1) held.counted
          case bounded => exact Nat.lt_of_le_of_ne bounded below
          case distinct => exact List.nodup_cons.mpr ⟨unused, held.distinct⟩
          case fresh => exact held.called.called.fresh_setMonitor alive _
          case owned =>
            intro other owner
            have opened := Backend.fdOf_setMonitor state mon { monitor with fd := some fd } owner
            refine Iff.trans ?_ (Eq.congr_left opened).symm
            rw [List.mem_cons, Prod.mk.injEq, held.owned]
            split
            case isTrue same =>
              subst same
              simp [without, eq_comm]
            case isFalse different => simp [different]

theorem length_filter_fst {descriptors : List (Nat × Pointer)} {fd : Nat} {mon : Pointer}
    (distinct : (descriptors.map Prod.fst).Nodup) (member : (fd, mon) ∈ descriptors) :
    (descriptors.filter (·.1 ≠ fd)).length + 1 = descriptors.length := by
  induction descriptors with
  | nil => exact (nomatch member)
  | cons first rest inductionHypothesis =>
    obtain ⟨absent, restDistinct⟩ := List.nodup_cons.mp distinct
    cases member with
    | head =>
      have kept : rest.filter (·.1 ≠ fd) = rest := by
        refine List.filter_eq_self.mpr fun entry inRest => decide_eq_true fun same => absent ?_
        exact List.mem_map.mpr ⟨entry, inRest, same⟩
      rw [List.filter_cons_of_neg (by simp), kept, List.length_cons]
    | tail _ inRest =>
      have different : first.1 ≠ fd := fun same => absent (same ▸ List.mem_map_of_mem inRest)
      rw [List.filter_cons_of_pos (by simpa using different), List.length_cons, List.length_cons,
        inductionHypothesis restDistinct inRest]

theorem closeMonitor_without {state : Backend} {mon : Pointer} (without : state.fdOf mon = none) :
    closeMonitor state mon = state := by
  unfold closeMonitor
  cases found : state.monitor mon with
  | none => rfl
  | some monitor =>
    rw [Backend.fdOf_of_monitor found] at without
    simp only [without]

theorem closeMonitor_with {state : Backend} {mon : Pointer} {monitor : Monitor} {fd : Nat}
    (found : state.monitor mon = some monitor) (hasFd : monitor.fd = some fd) :
    closeMonitor state mon =
      { (state.close fd).setMonitor mon { monitor with fd := none } with
        openFiles := state.openFiles - 1 } := by
  simp only [closeMonitor, found, hasFd]

theorem fdOf_closeMonitor (state : Backend) (mon other : Pointer) :
    (closeMonitor state mon).fdOf other = if other = mon then none else state.fdOf other := by
  cases has : state.fdOf mon with
  | none =>
    rw [closeMonitor_without has]
    split
    case isTrue same => rw [same, has]
    case isFalse => rfl
  | some fd =>
    obtain ⟨monitor, found, hasFd⟩ := Option.bind_eq_some_iff.mp has
    rw [closeMonitor_with found hasFd]
    exact Backend.fdOf_setMonitor _ mon _ other

theorem Held.closeMonitor {state : Backend} (held : Held state) (mon : Pointer) :
    Held (closeMonitor state mon) := by
  have fds := fdOf_closeMonitor state mon
  cases has : state.fdOf mon with
  | none =>
    rw [closeMonitor_without has]
    exact held
  | some fd =>
    obtain ⟨monitor, found, hasFd⟩ := Option.bind_eq_some_iff.mp has
    rw [closeMonitor_with found hasFd] at fds ⊢
    have member := (held.owned fd mon).mpr has
    constructor
    case counted =>
      refine Nat.sub_eq_of_eq_add ?_
      exact held.counted.trans (length_filter_fst held.distinct member).symm
    case bounded => exact (Nat.sub_le _ _).trans held.bounded
    case distinct => exact held.distinct.sublist (List.filter_sublist.map _)
    case fresh => exact held.fresh_setMonitor (by rw [found]; rfl) _
    case owned =>
      intro other owner
      rw [fds]
      refine Iff.trans List.mem_filter ?_
      rw [held.owned, decide_eq_true_eq]
      split
      case isTrue same => simp [same, has, eq_comm]
      case isFalse different =>
        refine and_iff_left_of_imp fun owned same => different ?_
        -- The descriptor has one owner.
        have both := (held.owned other owner).mpr owned
        exact congrArg Prod.snd (List.inj_on_of_nodup_map held.distinct both member same)

theorem fdOf_setUnsupported (state : Backend) (mon other : Pointer) :
    (gamKqueueMonitorSetUnsupported state mon).fdOf other =
      if other = mon then none else state.fdOf other := by
  rw [← fdOf_closeMonitor]
  unfold gamKqueueMonitorSetUnsupported
  dsimp only
  generalize closeMonitor state mon = next
  cases found : next.monitor mon with
  | none => rfl
  | some monitor =>
    have statted := touches_miniLstat mon next monitor.pathname
    obtain ⟨last, sb⟩ := gamKqueueMiniLstat next monitor.pathname
    rw [Backend.fdOf_setMonitor]
    split
    case isTrue same => rw [same, Backend.fdOf_of_monitor found]
    case isFalse different => exact Backend.fdOf_congr (statted.others other different)

theorem Held.setUnsupported {state : Backend} (held : Held state) (mon : Pointer) :
    Held (gamKqueueMonitorSetUnsupported state mon) := by
  unfold gamKqueueMonitorSetUnsupported
  have closed := held.closeMonitor mon
  dsimp only
  generalize Kqueue.closeMonitor state mon = next at closed ⊢
  cases found : next.monitor mon with
  | none => exact closed
  | some monitor =>
    have statted := closed.miniLstat monitor.pathname
    have same : (gamKqueueMiniLstat next monitor.pathname).1.monitor mon = some monitor := by
      unfold gamKqueueMiniLstat
      split <;> exact found
    dsimp only
    generalize gamKqueueMiniLstat next monitor.pathname = answered at statted same
    exact statted.setMonitor same rfl

theorem monitor_free_same (state : Backend) (mon : Pointer) :
    (gamKqueueMonitorFree state mon).monitor mon = none := by
  exact AList.lookup_erase _ _

theorem monitor_free_other (state : Backend) {mon other : Pointer} (different : other ≠ mon) :
    (gamKqueueMonitorFree state mon).monitor other = state.monitor other := by
  refine (AList.lookup_erase_ne different).trans ?_
  exact (touches_closeMonitor state mon).others other different

theorem Held.free {state : Backend} (held : Held state) (mon : Pointer) :
    Held (gamKqueueMonitorFree state mon) := by
  have closed := held.closeMonitor mon
  have fds := fdOf_closeMonitor state mon
  refine closed.congr rfl rfl rfl (fun other => ?_) fun other beyond => ?_
  · rw [fds]
    split
    case isTrue same => rw [same, Backend.fdOf, monitor_free_same, Option.bind_none]
    case isFalse different => exact Backend.fdOf_congr (monitor_free_other state different)
  · by_cases same : other = mon
    · rw [same, monitor_free_same]
    · refine (AList.lookup_erase_ne same).trans ?_
      exact closed.fresh other beyond

theorem Held.monitorNew {state : Backend} (held : Held state) (pathname : Bytes) :
    Held (monitorNew state pathname).1 := by
  have unused := held.fresh state.nextPointer (Nat.le_refl _)
  refine held.congr rfl rfl rfl (fun other => ?_) fun other beyond => ?_
  · refine (Backend.fdOf_setMonitor _ _ _ _).trans ?_
    split
    case isTrue same => rw [same, Backend.fdOf, unused, Option.bind_none]
    case isFalse => rfl
  · have beyond' : state.nextPointer < other := beyond
    refine (Backend.monitor_setMonitor_other _ _ beyond'.ne').trans ?_
    exact held.fresh other beyond'.le

/-! ## The count -/

/-- The descriptors of the monitors with their owners. -/
def Backend.watches (state : Backend) : List (Nat × Pointer) :=
  state.monitors.entries.filterMap fun entry => entry.2.fd.map (·, entry.1)

theorem mem_watches {state : Backend} {fd : Nat} {mon : Pointer} :
    (fd, mon) ∈ state.watches ↔ state.fdOf mon = some fd := by
  simp only [Backend.watches, List.mem_filterMap, Option.map_eq_some_iff, Prod.mk.injEq]
  constructor
  · rintro ⟨⟨owner, monitor⟩, member, _, hasFd, rfl, rfl⟩
    have found : state.monitor owner = some monitor := AList.mem_lookup_iff.mpr member
    rw [Backend.fdOf_of_monitor found, hasFd]
  · intro has
    obtain ⟨monitor, found, hasFd⟩ := Option.bind_eq_some_iff.mp has
    exact ⟨⟨mon, monitor⟩, AList.mem_lookup_iff.mp found, fd, hasFd, rfl, rfl⟩

theorem length_watches (state : Backend) : state.watches.length = state.watchingMonitors := by
  unfold Backend.watches Backend.watchingMonitors
  generalize state.monitors.entries = entries
  induction entries with
  | nil => rfl
  | cons first rest inductionHypothesis =>
    cases hasFd : first.2.fd with
    | none => simp [hasFd, inductionHypothesis]
    | some fd => simp [hasFd, inductionHypothesis]

theorem nodup_watches (state : Backend) : state.watches.Nodup := by
  have keys : state.monitors.entries.Pairwise (fun first second => first.1 ≠ second.1) :=
    List.pairwise_map.mp state.monitors.keys_nodup
  refine keys.filterMap _ fun first second different watch isFirst other isSecond same => different ?_
  obtain ⟨_, _, rfl⟩ := Option.map_eq_some_iff.mp isFirst
  obtain ⟨_, _, rfl⟩ := Option.map_eq_some_iff.mp isSecond
  exact congrArg Prod.snd same

/-- The counter is the number of monitors with a descriptor. -/
theorem Held.watchingMonitors {state : Backend} (held : Held state) :
    state.openFiles = state.watchingMonitors := by
  have descriptors : state.descriptors.Nodup := .of_map _ held.distinct
  have same : state.descriptors.Perm state.watches := by
    refine (List.perm_ext_iff_of_nodup descriptors (nodup_watches state)).mpr fun ⟨fd, mon⟩ => ?_
    rw [held.owned, mem_watches]
  rw [held.counted, same.length_eq, length_watches]

end Gamin.Kqueue
