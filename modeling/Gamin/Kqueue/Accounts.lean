import Gamin.Kqueue.Transitions

/-! # Descriptors and modes over whole runs

After every call the counter is the number of descriptors that are held, each by one monitor, and each
subscribed path is in one mode, as long as no attempt to enable a polled path succeeds.
-/

namespace Gamin.Kqueue

open Gamin Gamin.Server Gamin.Inotify Gamin.Library

variable {state before middle after : Backend} {smon fmon : Pointer} {sub : SubMonitor}

/-! ## Enabling notification -/

/-- No table is being walked but that of one poller, if any. -/
structure Calm (walked : Option PollerKind) (state : Backend) : Prop where
  pollers : ∀ kind, walked ≠ some kind → (state.pollers kind).smons.iterating = false
  tables : ∀ smon, Resting state smon

theorem Leaves.calm {walked : Option PollerKind} (leaves : Leaves smon before after)
    (calm : Calm walked before) : Calm walked after where
  pollers kind different := (leaves.walking kind).trans (calm.pollers kind different)
  tables other := leaves.resting other (calm.tables other)

theorem listNames_kept (filed : Filed state) (known : (state.subMonitors smon).isSome)
    (resting : Resting state smon) (bare : fileNames state smon = []) (pathname : Bytes)
    (event : GaminEventType) : Kept smon state (listNames state smon pathname event) := by
  unfold listNames
  have called := answered_kept smon filed state.called.answers state.sent
  cases state.answer.listing pathname with
  | none => exact called
  | some listing =>
    refine called.trans (newFiles_kept event listing.nodup called.filed ((called.only.isSome smon).trans known)
      (called.only.resting resting) fun name _ member => ?_)
    have member : name ∈ fileNames state smon := member
    rw [bare] at member
    exact (nomatch member)

theorem announceExisting_kept (filed : Filed state) (known : (state.subMonitors smon).isSome)
    (resting : Resting state smon) (bare : fileNames state smon = []) (mon : Monitor) (sub : SubMonitor)
    (wasMissing isdir : Bool) :
    Kept smon state (announceExisting state smon mon sub wasMissing isdir) := by
  unfold announceExisting
  dsimp only
  generalize isEvent : (if wasMissing then GaminEventType.created else GaminEventType.exists) = event
  have plain : event ≠ .changed ∧ event ≠ .deleted ∧ event ≠ .moved := by
    subst isEvent
    cases wasMissing <;> decide
  obtain ⟨answers, sent, same⟩ := subMonitorEmitEvent_plain state smon (some isdir) plain
  rw [same]
  have first := answered_kept smon filed answers sent
  have second : Kept smon state
      (if sub.isdir ∧ isdir then
        listNames { state with answers := answers, sent := sent } smon mon.pathname event
      else { state with answers := answers, sent := sent }) := by
    split
    · exact first.trans (listNames_kept first.filed known (first.only.resting resting) bare _ event)
    · exact first
  split
  · exact second
  · exact second.trans (subMonitorEmitEvent_kept second.filed (second.only.resting resting) (some isdir)
      (by decide))

/-- A path is there that was not, or that has not been looked at yet. -/
theorem enableExisting_moded (moded : ModedBut (some smon) state) (mon : Monitor)
    (found : state.subMonitors smon = some sub) (without : state.fdOf smon = none)
    (unpolled : ¬ state.polledBy .unsupportedSmon smon) (present : ¬ state.polledBy .missingSmon smon)
    (bare : fileNames state smon = []) {walked : Option PollerKind} (calm : Calm walked state)
    (other : walked ≠ some .unsupportedSmon) (wasMissing isdir : Bool) :
    Moded (enableOrPoll (announceExisting state smon mon sub wasMissing isdir) smon) ∧
      Leaves smon state (enableOrPoll (announceExisting state smon mon sub wasMissing isdir) smon) := by
  have known : (state.subMonitors smon).isSome := by rw [found]; rfl
  have told := announceExisting_kept moded.filed known (calm.tables smon) bare mon sub wasMissing isdir
  generalize announceExisting state smon mon sub wasMissing isdir = next at told ⊢
  have leaves := told.only.leaves
  obtain ⟨done, leavesLast⟩ := enableOrPoll_moded (told.modedBut moded) ((told.only.isSome smon).trans known)
    ((Backend.fdOf_congr (told.only.monitors smon known)).trans without)
    (by rw [Backend.polledBy, told.only.unsupported]; exact unpolled)
    (by rw [Backend.polledBy, told.only.missing]; exact present)
    ((leaves.walking _).trans (calm.pollers _ other))
  exact ⟨done, leaves.trans leavesLast⟩

theorem enableNotification_moded (moded : ModedBut (some smon) state)
    (known : (state.subMonitors smon).isSome) (without : state.fdOf smon = none)
    (unpolled : ¬ state.polledBy .unsupportedSmon smon) (present : ¬ state.polledBy .missingSmon smon)
    (bare : fileNames state smon = []) {walked : Option PollerKind} (calm : Calm walked state)
    (other : walked ≠ some .unsupportedSmon) (wasMissing : Option Bool)
    (otherToo : wasMissing = none → walked ≠ some .missingSmon) :
    Moded (gamKqueueSubMonitorEnableNotification state smon wasMissing) ∧
      Leaves smon state (gamKqueueSubMonitorEnableNotification state smon wasMissing) := by
  obtain ⟨sub, found⟩ := Option.isSome_iff_exists.mp known
  obtain ⟨mon, foundMonitor⟩ := Option.isSome_iff_exists.mp (moded.filed.subKnown smon sub found)
  unfold gamKqueueSubMonitorEnableNotification
  rw [foundMonitor, found]
  cases wasMissing with
  | some isdir => exact enableExisting_moded moded mon found without unpolled present bare calm other true isdir
  | none =>
    have called := answered_kept smon moded.filed state.called.answers state.sent
    have modedNext := called.modedBut moded
    have calmNext := called.only.leaves.calm calm
    dsimp only
    cases state.answer.lstat mon.pathname with
    | some sb =>
      obtain ⟨done, leaves⟩ := enableExisting_moded modedNext mon found without unpolled present bare calmNext
        other false sb.isDir
      exact ⟨done, called.only.leaves.trans leaves⟩
    | none =>
      obtain ⟨gone, leaves⟩ := subMonitorEmitEvent_gone modedNext known (calmNext.tables smon)
        (calmNext.pollers _ (otherToo rfl)) (some false) (.inl rfl)
      obtain ⟨answers, sent, same⟩ := @subMonitorEmitEvent_plain
        (gamKqueueSubMonitorEmitEvent state.called smon .deleted (some false)) smon .endexists (some false)
        (by decide)
      dsimp only
      rw [same]
      have told := answered_kept smon gone.filed answers sent
      exact ⟨{ gone with filed := told.filed }, (called.only.leaves.trans leaves).trans told.only.leaves⟩

/-! ## Monitors that are polled -/

theorem mode_of_polledBy_missing (moded : Moded state) (polled : state.polledBy .missingSmon smon) :
    InMode state smon .missing := by
  obtain ⟨mode, inMode⟩ := moded.moded smon (moded.known _ (by decide) smon polled) nofun
  cases mode with
  | kqueue => exact absurd polled inMode.2.2
  | unsupported => exact absurd polled inMode.2.2
  | missing => exact inMode

theorem mode_of_polledBy_unsupported (moded : Moded state) (polled : state.polledBy .unsupportedSmon smon) :
    InMode state smon .unsupported := by
  obtain ⟨mode, inMode⟩ := moded.moded smon (moded.known _ (by decide) smon polled) nofun
  cases mode with
  | kqueue => exact absurd polled inMode.2.1
  | unsupported => exact inMode
  | missing => exact absurd polled inMode.2.1

theorem mode_of_fdOf (moded : Moded state) (known : (state.subMonitors smon).isSome) {fd : Nat}
    (has : state.fdOf smon = some fd) : InMode state smon .kqueue := by
  obtain ⟨mode, inMode⟩ := moded.moded smon known nofun
  cases mode with
  | kqueue => exact inMode
  | unsupported => exact nomatch has.symm.trans inMode.1
  | missing => exact nomatch has.symm.trans inMode.1

theorem missingSmonPoll_moded (moded : Moded state) (polled : state.polledBy .missingSmon smon)
    (calm : Calm (some .missingSmon) state) :
    Moded (gamKqueueMissingSmonPoll state smon) ∧
      Leaves smon state (gamKqueueMissingSmonPoll state smon) := by
  have known := moded.known _ (by decide) smon polled
  obtain ⟨sub, found⟩ := Option.isSome_iff_exists.mp known
  obtain ⟨mon, foundMonitor⟩ := Option.isSome_iff_exists.mp (moded.filed.subKnown smon sub found)
  obtain ⟨without, unpolled, _⟩ := mode_of_polledBy_missing moded polled
  have called := answered_kept smon moded.filed state.called.answers state.sent
  unfold gamKqueueMissingSmonPoll
  rw [foundMonitor]
  dsimp only
  cases state.answer.lstat mon.pathname with
  | none => exact ⟨{ moded with filed := called.filed }, called.only.leaves⟩
  | some sb =>
    have isSmon : PollerKind.missingSmon ≠ .unsupportedFmon := by decide
    have modedNext := called.modedBut (moded.weaken (some smon))
    have removed := modedNext.pollerRemove isSmon
    have leaves := called.only.leaves.trans (.pollerRemove modedNext isSmon)
    obtain ⟨done, leavesLast⟩ := enableNotification_moded removed known without
      (mt (pollerRemove_other _ (by decide) smon smon).mp unpolled)
      (pollerRemove_unpolled modedNext isSmon) (moded.bare smon polled nofun) (leaves.calm calm)
      (by decide) (some sb.isDir) nofun
    exact ⟨done, leaves.trans leavesLast⟩

/-- An attempt to enable kqueue notification for the path would succeed. -/
def Backend.Enables (state : Backend) (pathname : Bytes) : Prop :=
  state.openFiles ≠ state.maxOpenFiles ∧ (state.answer.opens pathname).isSome ∧
    state.called.answer.kevent = true

instance (state : Backend) (pathname : Bytes) : Decidable (state.Enables pathname) :=
  inferInstanceAs (Decidable (_ ∧ _))

theorem enables_of_succeeded {mon : Pointer} {monitor : Monitor} (found : state.monitor mon = some monitor)
    (succeeded : (gamKqueueMonitorEnableKqueue state mon).2 = true) : state.Enables monitor.pathname := by
  simp only [gamKqueueMonitorEnableKqueue, found] at succeeded
  split at succeeded
  case isTrue => contradiction
  case isFalse below =>
    refine ⟨below, ?_⟩
    cases opened : state.answer.opens monitor.pathname with
    | none =>
      rw [opened] at succeeded
      contradiction
    | some hint =>
      rw [opened] at succeeded
      dsimp only at succeeded
      split at succeeded
      case isTrue registered => exact ⟨rfl, registered⟩
      case isFalse => contradiction

/-- A path that is polled as unsupported is not to be enabled: it is not the turn for that, or it will fail. -/
def RetryFails (state : Backend) (smon : Pointer) : Prop :=
  match state.monitor smon with
  | none => True
  | some mon => mon.pollCount + 1 = cfgUnsupportedSmonKqueueRetryFrequency → ¬ state.Enables mon.pathname

instance (state : Backend) (smon : Pointer) : Decidable (RetryFails state smon) := by
  unfold RetryFails
  split <;> infer_instance

theorem subMonitorRetry_touches (held : Held state) {mon : Monitor}
    (found : state.monitor smon = some mon) (without : state.fdOf smon = none)
    (fails : RetryFails state smon) :
    Touches smon state (subMonitorRetry state smon mon) ∧ Held (subMonitorRetry state smon mon) ∧
      (subMonitorRetry state smon mon).fdOf smon = none := by
  have alive : (state.monitor smon).isSome := by rw [found]; rfl
  have noFd : mon.fd = none := (Backend.fdOf_of_monitor found).symm.trans without
  unfold subMonitorRetry
  split
  case isTrue turn =>
    have touches := touches_setMonitor alive { mon with pollCount := 0 }
    have heldNext := held.setMonitor found (by rfl : ({ mon with pollCount := 0 } : Monitor).fd = mon.fd)
    have isNext := Backend.monitor_setMonitor_same state smon { mon with pollCount := 0 }
    have withoutNext := (Backend.fdOf_of_monitor isNext).trans noFd
    have failed : (gamKqueueMonitorEnableKqueue
        (state.setMonitor smon { mon with pollCount := 0 }) smon).2 = false := by
      refine eq_false_of_ne_true fun succeeded => ?_
      rw [RetryFails, found] at fails
      have enables := enables_of_succeeded isNext succeeded
      exact fails turn enables
    generalize state.setMonitor smon { mon with pollCount := 0 } = next
      at touches heldNext withoutNext failed ⊢
    have tried := touches_enableKqueue next smon
    have heldLast := heldNext.enableKqueue withoutNext
    have withoutLast := fdOf_enableKqueue_failed withoutNext failed
    generalize gamKqueueMonitorEnableKqueue next smon = result at failed tried heldLast withoutLast ⊢
    obtain ⟨last, succeeded⟩ := result
    cases failed
    exact ⟨touches.trans tried, heldLast, withoutLast⟩
  case isFalse =>
    refine ⟨touches_setMonitor alive _, held.setMonitor found rfl, ?_⟩
    rw [Backend.fdOf_setMonitor, if_pos rfl]
    exact noFd

theorem polledEvent_cases {before after : MiniStat} {event : GaminEventType}
    (polled : polledEvent before after = some event) : event = .deleted ∨ event = .changed := by
  unfold polledEvent at polled
  split at polled
  case isTrue => exact .inl (Option.some.inj polled).symm
  case isFalse =>
    split at polled
    case isTrue => exact .inr (Option.some.inj polled).symm
    case isFalse => contradiction

theorem unsupportedSmonPoll_moded (moded : Moded state) (polled : state.polledBy .unsupportedSmon smon)
    (calm : Calm (some .unsupportedSmon) state) (fails : RetryFails state smon) :
    Moded (gamKqueueUnsupportedSmonPoll state smon) ∧
      Leaves smon state (gamKqueueUnsupportedSmonPoll state smon) := by
  have known := moded.known _ (by decide) smon polled
  obtain ⟨sub, found⟩ := Option.isSome_iff_exists.mp known
  obtain ⟨mon, foundMonitor⟩ := Option.isSome_iff_exists.mp (moded.filed.subKnown smon sub found)
  have inMode := mode_of_polledBy_unsupported moded polled
  obtain ⟨tried, heldTried, withoutTried⟩ :=
    subMonitorRetry_touches moded.filed.held foundMonitor inMode.1 fails
  unfold gamKqueueUnsupportedSmonPoll
  rw [foundMonitor]
  dsimp only
  generalize subMonitorRetry state smon mon = next at tried heldTried withoutTried ⊢
  have statted := tried.trans (touches_miniLstat smon next mon.pathname)
  have heldStatted := heldTried.miniLstat mon.pathname
  have withoutStatted : (gamKqueueMiniLstat next mon.pathname).1.fdOf smon = none := by
    obtain ⟨answers, same⟩ := miniLstat_eq next mon.pathname
    rw [same]
    exact withoutTried
  generalize gamKqueueMiniLstat next mon.pathname = result at statted heldStatted withoutStatted ⊢
  obtain ⟨last, sb⟩ := result
  -- The monitor is still polled as unsupported when the event is sent.
  have still {ready : Backend} (touches : Touches smon state ready) (held : Held ready)
      (without : ready.fdOf smon = none) : Moded ready := by
    refine @ModedBut.close _ smon (touches.modedBut (moded.weaken _) known held) .unsupported
      (inMode.congr (without.trans inMode.1.symm) fun kind _ => ?_) nofun
    rw [Backend.polledBy, touches.pollers, Backend.polledBy]
  dsimp only at statted heldStatted withoutStatted ⊢
  split
  case h_2 => exact ⟨still statted heldStatted withoutStatted, statted.leaves⟩
  case h_1 event now isEvent foundNow =>
    have touches := touches_setMonitor (by rw [foundNow]; rfl) { now with sb := sb }
    have held := heldStatted.setMonitor foundNow (by rfl : ({ now with sb := sb } : Monitor).fd = now.fd)
    have without : (last.setMonitor smon { now with sb := sb }).fdOf smon = none := by
      rw [Backend.fdOf_setMonitor, if_pos rfl]
      exact (Backend.fdOf_of_monitor foundNow).symm.trans withoutStatted
    have all := statted.trans touches
    generalize last.setMonitor smon { now with sb := sb } = ready at all held without ⊢
    have modedReady := still all held without
    have leaves := @Touches.leaves _ _ smon _ all
    have knownReady : (ready.subMonitors smon).isSome := by
      rw [all.subMonitors]
      exact known
    have restingReady := leaves.resting smon (calm.tables smon)
    cases polledEvent_cases isEvent with
    | inl isDeleted =>
      obtain ⟨done, leavesLast⟩ := subMonitorEmitEvent_gone (modedReady.weaken _) knownReady restingReady
        ((leaves.walking _).trans (calm.pollers _ (by decide))) (some sb.isDir) (.inl isDeleted)
      exact ⟨done, leaves.trans leavesLast⟩
    | inr isChanged =>
      have kept := subMonitorEmitEvent_kept modedReady.filed restingReady (some sb.isDir)
        (by rw [isChanged]; decide : ¬ (event = .deleted ∨ event = .moved))
      refine ⟨kept.moded modedReady fun missing => ?_, leaves.trans kept.only.leaves⟩
      rw [Backend.polledBy, all.pollers] at missing
      exact absurd missing inMode.2.2

theorem finishUnsupportedFmons_files (state : Backend) (smon other : Pointer) :
    fileNames (finishUnsupportedFmons state smon) other = fileNames state other := by
  unfold finishUnsupportedFmons
  cases found : state.subMonitors smon with
  | none => rfl
  | some sub =>
    have same : fileNames (state.setSub smon { sub with unsupportedFmons := sub.unsupportedFmons.finish })
        other = fileNames state other := by
      rw [fileNames, subMonitors_setSub, fileNames]
      split
      case isTrue here => rw [here, found, Option.map_some, Option.map_some]
      case isFalse => rfl
    dsimp only
    split
    all_goals split
    all_goals exact same

theorem unsupportedFmonPoll_moded (moded : Moded state) (calm : Calm (some .unsupportedFmon) state) :
    Moded (gamKqueueUnsupportedFmonPoll state smon) ∧
      Leaves smon state (gamKqueueUnsupportedFmonPoll state smon) := by
  have kept := unsupportedFmonPoll_kept moded.filed (calm.tables smon)
  refine ⟨kept.moded moded fun missing => ?_, kept.only.leaves⟩
  have bare := moded.bare smon missing nofun
  unfold gamKqueueUnsupportedFmonPoll
  cases found : state.subMonitors smon with
  | none => exact bare
  | some sub =>
    -- A path that is missing has no files to poll.
    have old := moded.filed.tables smon sub found
    have none : sub.unsupportedFmons.main = [] := by
      refine List.eq_nil_iff_forall_not_mem.mpr fun fmon member => ?_
      have holds := (old.orderlyPolled.holds (calm.tables smon sub found).2).mpr member
      obtain ⟨filename, inMain⟩ := old.polled fmon holds
      rw [fileNames_found found, List.map_eq_nil_iff] at bare
      rw [bare] at inMain
      contradiction
    have walk : shuffle state.answer.order ([] : List Pointer) = [] := (shuffle_perm _ _).eq_nil
    dsimp only
    rw [none, walk, List.foldl_nil, finishUnsupportedFmons_files, fileNames, subMonitors_setSub,
      if_pos rfl]
    rw [fileNames_found found] at bare
    exact bare

/-! ## Events of the kernel -/

theorem subMonitorHandleKevent_moded (moded : Moded state) (calm : Calm none state)
    (known : (state.subMonitors smon).isSome) {fd : Nat} (has : state.fdOf smon = some fd)
    (event : Kevent) :
    Moded (gamKqueueSubMonitorHandleKevent state smon event) ∧
      Leaves smon state (gamKqueueSubMonitorHandleKevent state smon event) := by
  have inMode := mode_of_fdOf moded known has
  unfold gamKqueueSubMonitorHandleKevent
  split
  case isTrue =>
    exact setUnsupported_moded (moded.weaken _) known inMode.2.2 (calm.pollers _ nofun)
  case isFalse =>
    have changed : Kept smon state (if event.changed then
        gamKqueueSubMonitorEmitEvent state smon .changed none else state) := by
      split
      · exact subMonitorEmitEvent_kept moded.filed (calm.tables smon) none (by decide)
      · exact ⟨moded.filed, .refl smon state⟩
    dsimp only
    generalize (if event.changed then gamKqueueSubMonitorEmitEvent state smon .changed none else state) =
      next at changed ⊢
    have modedNext := changed.moded moded fun missing => absurd missing inMode.2.2
    have leaves := changed.only.leaves
    have knownNext := (changed.only.isSome smon).trans known
    have gone (kind : GaminEventType) (isGone : kind = .deleted ∨ kind = .moved) :
        Moded (gamKqueueSubMonitorEmitEvent next smon kind (some false)) ∧
          Leaves smon state (gamKqueueSubMonitorEmitEvent next smon kind (some false)) := by
      obtain ⟨done, leavesLast⟩ := subMonitorEmitEvent_gone (modedNext.weaken _) knownNext
        (leaves.resting smon (calm.tables smon)) ((leaves.walking _).trans (calm.pollers _ nofun))
        (some false) isGone
      exact ⟨done, leaves.trans leavesLast⟩
    split
    · exact gone .deleted (.inl rfl)
    · split
      · exact gone .moved (.inr rfl)
      · exact ⟨modedNext, leaves⟩

theorem fileMonitorHandleKevent_kept (filed : Filed state) {file : FileMonitor}
    (foundFile : state.fileMonitors fmon = some file) (resting : Resting state file.smon) (event : Kevent) :
    Kept file.smon state (gamKqueueFileMonitorHandleKevent state fmon event) := by
  have own (other : FileMonitor) (isFile : state.fileMonitors fmon = some other) :
      other.smon = file.smon := by
    rw [foundFile] at isFile
    cases isFile
    rfl
  unfold gamKqueueFileMonitorHandleKevent
  split
  case isTrue => exact setUnsupported_kept filed foundFile resting
  case isFalse =>
    have changed : Kept file.smon state (if event.changed then
        gamKqueueFileMonitorEmitEvent state fmon .changed none false else state) := by
      split
      · exact fileMonitorEmitEvent_kept filed fmon .changed none own nofun
      · exact ⟨filed, .refl file.smon state⟩
    dsimp only
    generalize (if event.changed then gamKqueueFileMonitorEmitEvent state fmon .changed none false
      else state) = next at changed ⊢
    have ownNext (other : FileMonitor) (isFile : next.fileMonitors fmon = some other) :
        other.smon = file.smon := by
      by_contra different
      exact different (own other (changed.only.owners fmon other isFile different))
    have gone (kind : GaminEventType) :
        Kept file.smon state (gamKqueueFileMonitorEmitEvent next fmon kind (some false) true) :=
      changed.trans (fileMonitorEmitEvent_kept changed.filed fmon kind (some false) ownNext
        fun _ => changed.only.resting resting)
    split
    · exact gone .deleted
    · split
      · exact gone .moved
      · exact changed

/-- A monitor of which nothing is known any more. -/
theorem unknownHandleKevent_kept (filed : Filed state) (noSub : state.subMonitors fmon = none)
    (noFile : state.fileMonitors fmon = none) (event : Kevent) :
    Kept fmon state (gamKqueueFileMonitorHandleKevent state fmon event) := by
  have silent (kind : GaminEventType) (isDir : Option Bool) (again : Bool) :
      gamKqueueFileMonitorEmitEvent state fmon kind isDir again = state := by
    unfold gamKqueueFileMonitorEmitEvent
    split
    case h_1 isFile =>
      rw [noFile] at isFile
      contradiction
    case h_2 => rfl
  unfold gamKqueueFileMonitorHandleKevent
  simp only [silent, ite_self]
  split
  case isTrue =>
    have touches := touches_setUnsupported state fmon
    have bare := (congrFun touches.fileMonitors fmon).trans noFile
    unfold gamKqueueFileMonitorSetUnsupported
    dsimp only
    rw [bare]
    exact ⟨filed.touchWithout touches (filed.held.setUnsupported fmon)
      (.inl (by rw [fdOf_setUnsupported, if_pos rfl])), touches.filesOnly noSub⟩
  case isFalse => exact ⟨filed, .refl fmon state⟩

theorem keventCb_moded (moded : Moded state) (calm : Calm none state) (fd : Nat) (event : Kevent) :
    Moded (gamKqueueKeventCb state fd event) ∧ Calm none (gamKqueueKeventCb state fd event) := by
  unfold gamKqueueKeventCb
  cases registered : state.descriptors.lookup fd with
  | none => exact ⟨moded, calm⟩
  | some mon =>
    obtain ⟨before, rest, split, _⟩ := List.lookup_eq_some_iff.mp registered
    have member : (fd, mon) ∈ state.descriptors := by simp [split]
    have has := (moded.filed.held.owned fd mon).mp member
    dsimp only
    split
    case isTrue known =>
      obtain ⟨done, leaves⟩ := subMonitorHandleKevent_moded moded calm known has event
      exact ⟨done, leaves.calm calm⟩
    case isFalse unknown =>
      cases isFile : state.fileMonitors mon with
      | some file =>
        have kept := fileMonitorHandleKevent_kept moded.filed isFile (calm.tables _) event
        refine ⟨kept.moded moded fun missing => ?_, kept.only.leaves.calm calm⟩
        -- A path that is missing has no files.
        obtain ⟨_, _, sub, found, inTable⟩ := moded.filed.fileKnown mon file isFile
        have bare := moded.bare file.smon missing nofun
        rw [fileNames_found found, List.map_eq_nil_iff] at bare
        rw [bare] at inTable
        contradiction
      | none =>
        have noSub := Option.not_isSome_iff_eq_none.mp unknown
        have kept := unknownHandleKevent_kept moded.filed noSub isFile event
        refine ⟨kept.moded moded fun missing => ?_, kept.only.leaves.calm calm⟩
        exact absurd (moded.known _ (by decide) mon missing) unknown

/-! ## Ticks of the pollers -/

theorem polledBy_setPoller {kind : PollerKind} {poller : Poller}
    (holds : ∀ smon, poller.smons.Holds smon ↔ (state.pollers kind).smons.Holds smon)
    (other : PollerKind) (smon : Pointer) :
    (state.setPoller kind poller).polledBy other smon ↔ state.polledBy other smon := by
  unfold Backend.polledBy
  by_cases isKind : other = kind
  · subst isKind
    rw [pollers_setPoller_same]
    exact holds smon
  · rw [pollers_setPoller_other _ isKind]

/-- A poller that comes to hold the same monitors in another way. -/
theorem Moded.setPoller (moded : Moded state) (kind : PollerKind) (poller : Poller)
    (holds : ∀ smon, poller.smons.Holds smon ↔ (state.pollers kind).smons.Holds smon)
    (orderly : poller.smons.Orderly) (distinct : kind ≠ .unsupportedFmon → poller.smons.main.Nodup) :
    Moded (state.setPoller kind poller) where
  filed := moded.filed.setPoller kind poller
  orderly other isSmon := by
    by_cases isKind : other = kind
    · subst isKind
      rw [pollers_setPoller_same]
      exact orderly
    · rw [pollers_setPoller_other _ isKind]
      exact moded.orderly other isSmon
  distinct other isSmon := by
    by_cases isKind : other = kind
    · subst isKind
      rw [pollers_setPoller_same]
      exact distinct isSmon
    · rw [pollers_setPoller_other _ isKind]
      exact moded.distinct other isSmon
  known other isSmon smon polled :=
    moded.known other isSmon smon ((polledBy_setPoller holds other smon).mp polled)
  moded smon isKnown different := by
    obtain ⟨mode, inMode⟩ := moded.moded smon isKnown different
    exact ⟨mode, inMode.congr rfl fun other _ => polledBy_setPoller holds other smon⟩
  bare smon polled different :=
    moded.bare smon ((polledBy_setPoller holds _ smon).mp polled) different

theorem Moded.called (moded : Moded state) : Moded state.called :=
  { moded with filed := moded.filed.called }

theorem pollerWalk_moded (moded : Moded state) (calm : Calm none state) (kind : PollerKind) :
    Moded (pollerWalk state kind).1 ∧ Calm (some kind) (pollerWalk state kind).1 := by
  refine ⟨moded.called.setPoller kind _ (fun smon => DeferredSet.walked_holds)
    (DeferredSet.orderly_walked _) fun isSmon => moded.distinct kind isSmon, ?_, fun smon => calm.tables smon⟩
  intro other different
  exact (congrArg (·.smons.iterating)
    (pollers_setPoller_other _ (fun same => different (congrArg some same.symm)) _)).trans
      (calm.pollers other nofun)

/-- A walk comes to the monitors that are on the poller, each once. -/
theorem pollerWalk_polled (moded : Moded state) (calm : Calm none state) {kind : PollerKind}
    (isSmon : kind ≠ .unsupportedFmon) :
    (pollerWalk state kind).2.Nodup ∧
      ∀ smon ∈ (pollerWalk state kind).2, (pollerWalk state kind).1.polledBy kind smon := by
  refine ⟨nodup_shuffle.mpr (moded.distinct kind isSmon), fun smon member => ?_⟩
  refine (@polledBy_setPoller state.called kind (state.pollers kind).walked
    (fun smon => DeferredSet.walked_holds) kind smon).mpr ?_
  exact ((moded.orderly kind isSmon).holds (calm.pollers kind nofun)).mpr (mem_shuffle.mp member)

theorem finishPoller_moded (moded : Moded state) {kind : PollerKind} (calm : Calm (some kind) state) :
    Moded (state.setPoller kind (state.pollers kind).finish) ∧
      Calm none (state.setPoller kind (state.pollers kind).finish) := by
  refine ⟨moded.setPoller kind _ (fun smon => DeferredSet.finish_holds) (DeferredSet.orderly_finish _)
    fun isSmon => DeferredSet.nodup_finish (moded.distinct kind isSmon), fun other _ => ?_,
    fun smon => calm.tables smon⟩
  by_cases isKind : other = kind
  · subst isKind
    rw [pollers_setPoller_same]
    rfl
  · rw [pollers_setPoller_other _ isKind]
    exact calm.pollers other fun same => isKind (Option.some.inj same).symm

/-- A walk over monitors that are on the poller: each of them is still on it when its turn comes. -/
theorem walk_moded {kind : PollerKind} (isSmon : kind ≠ .unsupportedFmon)
    {guard : Backend → Pointer → Prop}
    (callback : ∀ {state smon}, Moded state → state.polledBy kind smon → Calm (some kind) state →
      guard state smon → Moded (pollerFunc kind state smon) ∧ Leaves smon state (pollerFunc kind state smon))
    (walk : List Pointer) (nodup : walk.Nodup) (moded : Moded state) (calm : Calm (some kind) state)
    (polled : ∀ smon ∈ walk, state.polledBy kind smon)
    (guarded : Guarded (pollerFunc kind) guard state walk) :
    Moded (walk.foldl (pollerFunc kind) state) ∧
      Calm (some kind) (walk.foldl (pollerFunc kind) state) := by
  induction walk generalizing state with
  | nil => exact ⟨moded, calm⟩
  | cons first walk inductionHypothesis =>
    obtain ⟨absent, restNodup⟩ := List.nodup_cons.mp nodup
    obtain ⟨allowed, restGuarded⟩ := guarded
    obtain ⟨next, leaves⟩ := callback moded (polled first List.mem_cons_self) calm allowed
    refine inductionHypothesis restNodup next (leaves.calm calm) (fun smon member => ?_) restGuarded
    refine (leaves.polled kind isSmon smon fun same => absent (same ▸ member)).mpr ?_
    exact polled smon (List.mem_cons_of_mem _ member)

theorem walkFiles_moded (walk : List Pointer) (moded : Moded state)
    (calm : Calm (some .unsupportedFmon) state) :
    Moded (walk.foldl gamKqueueUnsupportedFmonPoll state) ∧
      Calm (some .unsupportedFmon) (walk.foldl gamKqueueUnsupportedFmonPoll state) := by
  induction walk generalizing state with
  | nil => exact ⟨moded, calm⟩
  | cons first walk inductionHypothesis =>
    obtain ⟨next, leaves⟩ := @unsupportedFmonPoll_moded state first moded calm
    exact inductionHypothesis next (leaves.calm calm)

/-- In the walk of a tick no attempt to enable a path that is polled as unsupported succeeds. -/
def RetriesFail (state : Backend) (kind : PollerKind) : Prop :=
  kind = .unsupportedSmon →
    Guarded gamKqueueUnsupportedSmonPoll RetryFails (pollerWalk state kind).1 (pollerWalk state kind).2

instance (state : Backend) (kind : PollerKind) : Decidable (RetriesFail state kind) :=
  inferInstanceAs (Decidable (_ → _))

theorem guarded_free (step : Backend → Pointer → Backend) (state : Backend) (walk : List Pointer) :
    Guarded step (fun _ _ => True) state walk := by
  induction walk generalizing state with
  | nil => trivial
  | cons first walk inductionHypothesis => exact ⟨trivial, inductionHypothesis _⟩

theorem pollerTimeoutCb_moded (moded : Moded state) (calm : Calm none state) {kind : PollerKind}
    (fails : RetriesFail state kind) :
    Moded (gamKqueuePollerTimeoutCb state kind) ∧ Calm none (gamKqueuePollerTimeoutCb state kind) := by
  obtain ⟨start, calmStart⟩ := pollerWalk_moded moded calm kind
  have walked : Moded ((pollerWalk state kind).2.foldl (pollerFunc kind) (pollerWalk state kind).1) ∧
      Calm (some kind) ((pollerWalk state kind).2.foldl (pollerFunc kind) (pollerWalk state kind).1) := by
    cases kind with
    | missingSmon =>
      obtain ⟨nodup, polled⟩ := pollerWalk_polled moded calm (by decide : PollerKind.missingSmon ≠ _)
      exact walk_moded (by decide) (fun moded polled calm _ => missingSmonPoll_moded moded polled calm) _
        nodup start calmStart polled (guarded_free _ _ _)
    | unsupportedSmon =>
      obtain ⟨nodup, polled⟩ := pollerWalk_polled moded calm (by decide : PollerKind.unsupportedSmon ≠ _)
      exact walk_moded (by decide) unsupportedSmonPoll_moded _ nodup start calmStart polled (fails rfl)
    | unsupportedFmon => exact walkFiles_moded _ start calmStart
  exact finishPoller_moded walked.1 walked.2

/-! ## Subscriptions -/

theorem Moded.setSubs (moded : Moded state) (found : state.subMonitors smon = some sub)
    (subs : List GamSubscription) : Moded (state.setSub smon { sub with subs := subs }) := by
  have old := moded.filed.tables smon sub found
  have kept : Kept smon state (state.setSub smon { sub with subs := subs }) :=
    ⟨moded.filed.setSub found _ rfl { old with }, .setSub found _ rfl⟩
  refine kept.moded moded fun missing => ?_
  have bare := moded.bare smon missing nofun
  rw [fileNames_found found] at bare
  rw [fileNames, subMonitors_setSub, if_pos rfl]
  exact bare

theorem Calm.setSubs (calm : Calm none state) (found : state.subMonitors smon = some sub)
    (subs : List GamSubscription) : Calm none (state.setSub smon { sub with subs := subs }) :=
  (@FilesOnly.setSub state smon sub found { sub with subs := subs } rfl).leaves.calm calm

theorem ModedBut.setHash {but : Option Pointer} (moded : ModedBut but state) (isdir : Bool) (path : Bytes)
    (entry : Option Pointer) : ModedBut but (state.setHash isdir path entry) := by
  have filed := moded.filed.setHash isdir path entry
  unfold Backend.setHash at filed ⊢
  cases isdir with
  | true => exact { moded with filed := filed }
  | false => exact { moded with filed := filed }

theorem Calm.setHash {walked : Option PollerKind} (calm : Calm walked state) (isdir : Bool) (path : Bytes)
    (entry : Option Pointer) : Calm walked (state.setHash isdir path entry) := by
  unfold Backend.setHash
  cases isdir with
  | true => exact { calm with }
  | false => exact { calm with }

/-- A monitor that has just been made: no table knows it. -/
theorem subMonitorNew_filed (filed : Filed state) (sub : GamSubscription) :
    Filed (gamKqueueSubMonitorNew state sub).1 := by
  -- nobody knows the address of the new monitor, and what is there has another one
  have fresh := filed.fresh_not_sub
  have old {mon : Pointer} (alive : (state.monitor mon).isSome) : mon ≠ state.nextPointer :=
    (filed.held.below alive).ne
  have sameMonitor {mon : Pointer} (alive : (state.monitor mon).isSome) :
      (gamKqueueSubMonitorNew state sub).1.monitor mon = state.monitor mon :=
    Backend.monitor_setMonitor_other _ _ (old alive)
  have sameSub {other : Pointer} (different : other ≠ state.nextPointer) :
      (gamKqueueSubMonitorNew state sub).1.subMonitors other = state.subMonitors other :=
    Function.update_of_ne different _ _
  have held := (filed.held.monitorNew sub.path)
  constructor
  case held => exact held.congr rfl rfl rfl (fun _ => rfl) held.fresh
  case subKnown =>
    intro other otherSub found
    by_cases isFresh : other = state.nextPointer
    · subst isFresh
      exact Option.isSome_iff_exists.mpr ⟨_, Backend.monitor_setMonitor_same _ _ _⟩
    · rw [sameSub isFresh] at found
      have alive := filed.subKnown other otherSub found
      rw [sameMonitor alive]
      exact alive
  case fileKnown =>
    intro fmon file isFile
    obtain ⟨alive, bare, table, found, member⟩ := filed.fileKnown fmon file isFile
    refine ⟨by rw [sameMonitor alive]; exact alive, by rw [sameSub (old alive)]; exact bare, table, ?_, member⟩
    rw [sameSub fun isFresh => by
      rw [isFresh, fresh] at found
      contradiction]
    exact found
  case tables =>
    intro other otherSub found
    by_cases isFresh : other = state.nextPointer
    · subst isFresh
      have made : (gamKqueueSubMonitorNew state sub).1.subMonitors state.nextPointer = some _ :=
        Function.update_self _ _ _
      rw [made] at found
      cases found
      exact .unpolled_new _ _
    · rw [sameSub isFresh] at found
      have tables := filed.tables other otherSub found
      exact {
        tables with
        without := fun fmon holds allowed => by
          obtain ⟨filename, member⟩ := tables.polled fmon holds
          rw [Backend.fdOf_congr (sameMonitor (filed.fileKnown _ _ (tables.listed _ member)).1)]
          exact tables.without fmon holds allowed }

theorem subMonitorNew_moded (moded : Moded state) (sub : GamSubscription) :
    ModedBut (some state.nextPointer) (gamKqueueSubMonitorNew state sub).1 := by
  have fresh := moded.filed.fresh_not_sub
  have sameSub {other : Pointer} (different : other ≠ state.nextPointer) :
      (gamKqueueSubMonitorNew state sub).1.subMonitors other = state.subMonitors other :=
    Function.update_of_ne different _ _
  refine (moded.weaken (some state.nextPointer)).step (subMonitorNew_filed moded.filed sub)
    ⟨fun _ _ _ _ => .rfl, fun _ => rfl, fun other resting otherSub found => ?_⟩
    (fun kind isSmon => ⟨moded.orderly kind isSmon, moded.distinct kind isSmon⟩) (fun _ _ _ => ?_)
    (fun other different => sameSub different) fun other different known => ?_
  · by_cases isFresh : other = state.nextPointer
    · subst isFresh
      have made : (gamKqueueSubMonitorNew state sub).1.subMonitors state.nextPointer = some _ :=
        Function.update_self _ _ _
      rw [made] at found
      cases found
      exact ⟨rfl, rfl⟩
    · exact resting otherSub ((sameSub isFresh).symm.trans found)
  · exact Option.isSome_iff_exists.mpr ⟨_, Function.update_self _ _ _⟩
  · exact Backend.fdOf_congr (Backend.monitor_setMonitor_other _ _ different)

theorem Calm.subMonitorNew (calm : Calm none state) (sub : GamSubscription) :
    Calm none (gamKqueueSubMonitorNew state sub).1 := by
  refine ⟨calm.pollers, fun other otherSub found => ?_⟩
  by_cases isFresh : other = state.nextPointer
  · subst isFresh
    have made : (gamKqueueSubMonitorNew state sub).1.subMonitors state.nextPointer = some _ :=
      Function.update_self _ _ _
    rw [made] at found
    cases found
    exact ⟨rfl, rfl⟩
  · exact calm.tables other otherSub ((Function.update_of_ne isFresh _ _).symm.trans found)

theorem addSubscription_moded (moded : Moded state) (calm : Calm none state) (sub : GamSubscription) :
    Moded (gamKqueueAddSubscription state sub) ∧ Calm none (gamKqueueAddSubscription state sub) := by
  unfold gamKqueueAddSubscription
  cases state.hash sub.isDir sub.path with
  | some smon =>
    dsimp only
    cases found : state.subMonitors smon with
    | some monitor => exact ⟨moded.setSubs found _, calm.setSubs found _⟩
    | none => exact ⟨moded, calm⟩
  | none =>
    -- a new monitor: it has no descriptor and is on no poller until it is enabled
    have made := (subMonitorNew_moded moded sub).setHash sub.isDir sub.path (some state.nextPointer)
    have calmNew := (calm.subMonitorNew sub).setHash sub.isDir sub.path (some state.nextPointer)
    have same : (state : Backend) → (isdir : Bool) → (path : Bytes) → (entry : Option Pointer) →
        (state.setHash isdir path entry).subMonitors = state.subMonitors ∧
          (state.setHash isdir path entry).monitors = state.monitors ∧
            (state.setHash isdir path entry).pollers = state.pollers := by
      intro state isdir path entry
      cases isdir <;> exact ⟨rfl, rfl, rfl⟩
    obtain ⟨sameSubs, sameMonitors, samePollers⟩ := same (gamKqueueSubMonitorNew state sub).1 sub.isDir
      sub.path (some state.nextPointer)
    have found : (gamKqueueSubMonitorNew state sub).1.subMonitors state.nextPointer =
        some { subs := [sub], fmons := .new, unsupportedFmons := .new, isdir := sub.isDir } :=
      Function.update_self _ _ _
    rw [← sameSubs] at found
    have without : (gamKqueueSubMonitorNew state sub).1.fdOf state.nextPointer = none :=
      (Backend.fdOf_setMonitor _ _ _ _).trans (if_pos rfl)
    rw [Backend.fdOf, Backend.monitor, ← sameMonitors] at without
    have unpolled (kind : PollerKind) (isSmon : kind ≠ .unsupportedFmon) :
        ¬ ((gamKqueueSubMonitorNew state sub).1.setHash sub.isDir sub.path
          (some state.nextPointer)).polledBy kind state.nextPointer := fun polled => by
      rw [Backend.polledBy, samePollers] at polled
      have isKnown := moded.known kind isSmon _ polled
      rw [moded.filed.fresh_not_sub] at isKnown
      contradiction
    obtain ⟨done, leaves⟩ := enableNotification_moded made (by rw [found]; rfl) without
      (unpolled _ (by decide)) (unpolled _ (by decide)) (fileNames_found found) calmNew (by decide) none
      (by decide)
    exact ⟨done, leaves.calm calmNew⟩

/-- The last of a monitor: its files, itself and its tables go. -/
theorem freed_filed (filed : Filed state) (found : state.subMonitors smon = some sub) :
    Filed { gamKqueueMonitorFree (freeEntries state sub.fmons.main) smon with
      subMonitors := Function.update
        (gamKqueueMonitorFree (freeEntries state sub.fmons.main) smon).subMonitors smon none } := by
  have same := sameTables_freeEntries state sub.fmons.main
  have files := freed_freeEntries state sub.fmons.main
  have held := (filed.held.freeEntries sub.fmons.main).free smon
  have closed := touches_closeMonitor (freeEntries state sub.fmons.main) smon
  have notFile : (freeEntries state sub.fmons.main).fileMonitors smon = none := by
    by_cases inFiles : smon ∈ sub.fmons.main.map Prod.snd
    · exact (files.gone smon inFiles).2
    · rw [(files.kept smon inFiles).2]
      refine Option.eq_none_iff_forall_ne_some.mpr fun file isFile => ?_
      rw [(filed.fileKnown smon file isFile).2.1] at found
      contradiction
  have freed : Freed [smon] (freeEntries state sub.fmons.main)
      { gamKqueueMonitorFree (freeEntries state sub.fmons.main) smon with
        subMonitors := Function.update
          (gamKqueueMonitorFree (freeEntries state sub.fmons.main) smon).subMonitors smon none } := by
    refine ⟨fun other different => ⟨?_, congrFun closed.fileMonitors other⟩, fun other member => ?_⟩
    · exact monitor_free_other _ (by simpa using different)
    · rw [List.mem_singleton.mp member]
      exact ⟨monitor_free_same _ smon, (congrFun closed.fileMonitors smon).trans notFile⟩
  refine @Filed.drop state _ smon sub none filed (held.congr rfl rfl rfl (fun _ => rfl) held.fresh) found
    (fun _ => true) ?_ (fun _ _ leaves => nomatch leaves) ?_ nofun
  · exact congrArg (Function.update · smon none) (closed.subMonitors.trans same.subMonitors)
  · rw [List.filter_eq_self.mpr fun _ _ => rfl]
    exact files.trans freed

/-- A monitor is freed with its files. -/
theorem subMonitorFree_moded (moded : Moded state) (calm : Calm none state) (smon : Pointer) :
    Moded (gamKqueueSubMonitorFree state smon) ∧ Calm none (gamKqueueSubMonitorFree state smon) := by
  unfold gamKqueueSubMonitorFree
  cases found : state.subMonitors smon with
  | none => exact ⟨moded, calm⟩
  | some sub =>
    have isMissing : PollerKind.missingSmon ≠ .unsupportedFmon := by decide
    have isUnsupported : PollerKind.unsupportedSmon ≠ .unsupportedFmon := by decide
    have start := moded.weaken (some smon)
    have first := start.pollerRemove isMissing
    have second := first.pollerRemove isUnsupported
    have leaves := (Leaves.pollerRemove start isMissing).trans (.pollerRemove first isUnsupported)
    have unpolled (kind : PollerKind) (isSmon : kind ≠ .unsupportedFmon) :
        ¬ (gamKqueuePollerRemoveSubMonitor (gamKqueuePollerRemoveSubMonitor state .missingSmon smon)
          .unsupportedSmon smon).polledBy kind smon := by
      cases kind with
      | missingSmon =>
        rw [pollerRemove_other _ (by decide)]
        exact pollerRemove_unpolled start isMissing
      | unsupportedSmon => exact pollerRemove_unpolled first isUnsupported
      | unsupportedFmon => contradiction
    have foundNext : (gamKqueuePollerRemoveSubMonitor (gamKqueuePollerRemoveSubMonitor state .missingSmon smon)
        .unsupportedSmon smon).subMonitors smon = some sub := found
    dsimp only
    generalize gamKqueuePollerRemoveSubMonitor (gamKqueuePollerRemoveSubMonitor state .missingSmon smon)
      .unsupportedSmon smon = next at second leaves unpolled foundNext ⊢
    unfold gamKqueueSubMonitorClearFmons
    have cleared : ∃ last, (if sub.unsupportedFmons.main ≠ [] then
        gamKqueuePollerRemoveSubMonitor next .unsupportedFmon smon else next) = last ∧
        Kept smon next last ∧ last.subMonitors = next.subMonitors := by
      refine ⟨_, rfl, ?_⟩
      split
      · exact ⟨⟨second.filed.setPoller _ _, .pollerRemove next smon⟩, rfl⟩
      · exact ⟨⟨second.filed, .refl smon next⟩, rfl⟩
    obtain ⟨last, isLast, kept, sameSubs⟩ := cleared
    dsimp only
    rw [isLast]
    have foundLast : last.subMonitors smon = some sub := (congrFun sameSubs smon).trans foundNext
    have third := kept.modedBut second
    have filed := freed_filed third.filed foundLast
    have same := sameTables_freeEntries last sub.fmons.main
    have files := freed_freeEntries last sub.fmons.main
    have closed := touches_closeMonitor (freeEntries last sub.fmons.main) smon
    have pollers : (gamKqueueMonitorFree (freeEntries last sub.fmons.main) smon).pollers = last.pollers :=
      closed.pollers.trans same.pollers
    have elsewhere (other : Pointer) (different : other ≠ smon) :
        Function.update (gamKqueueMonitorFree (freeEntries last sub.fmons.main) smon).subMonitors smon none
          other = last.subMonitors other := by
      rw [Function.update_of_ne different]
      exact congrFun (closed.subMonitors.trans same.subMonitors) other
    have leavesLast : Leaves smon last { gamKqueueMonitorFree (freeEntries last sub.fmons.main) smon with
        subMonitors := Function.update
          (gamKqueueMonitorFree (freeEntries last sub.fmons.main) smon).subMonitors smon none } := by
      refine ⟨fun kind _ other _ => ?_, fun kind => ?_, fun other resting otherSub isSub => ?_⟩
      · rw [Backend.polledBy, pollers, Backend.polledBy]
      · exact congrArg (fun pollers => (pollers kind).smons.iterating) pollers
      · by_cases isSmon : other = smon
        · subst isSmon
          exact (Option.some_ne_none _ (isSub.symm.trans (Function.update_self ..))).elim
        · exact resting otherSub ((elsewhere other isSmon).symm.trans isSub)
    have last := third.step filed leavesLast (fun kind isSmon => ?_) (fun kind isSmon polled => ?_)
      elsewhere fun other different known => ?_
    · refine ⟨last.forget ?_, ((leaves.trans kept.only.leaves).trans leavesLast).calm calm⟩
      dsimp only
      rw [Function.update_self]
      rfl
    · rw [pollers]
      exact ⟨third.orderly kind isSmon, third.distinct kind isSmon⟩
    · rw [Backend.polledBy, pollers, kept.only.pollers isSmon] at polled
      exact absurd polled (unpolled kind isSmon)
    · refine Backend.fdOf_congr ((monitor_free_other _ different).trans (files.kept other fun inFiles => ?_).1)
      -- A monitor of a directory or file that is subscribed to is not a file of a directory.
      obtain ⟨entry, inMain, rfl⟩ := List.mem_map.mp inFiles
      rw [third.filed.entry_file foundLast inMain] at known
      contradiction

theorem removeSubscription_moded (moded : Moded state) (calm : Calm none state) (sub : GamSubscription) :
    Moded (gamKqueueRemoveSubscription state sub).1 ∧
      Calm none (gamKqueueRemoveSubscription state sub).1 := by
  unfold gamKqueueRemoveSubscription
  cases state.hash sub.isDir sub.path with
  | none => exact ⟨moded, calm⟩
  | some smon =>
    dsimp only
    cases found : state.subMonitors smon with
    | none => exact ⟨moded, calm⟩
    | some monitor =>
      have next := moded.setSubs found (monitor.subs.filter (·.address ≠ sub.address))
      have calmNext := calm.setSubs found (monitor.subs.filter (·.address ≠ sub.address))
      dsimp only
      split
      · exact ⟨next, calmNext⟩
      · exact subMonitorFree_moded (next.setHash sub.isDir sub.path none)
          (calmNext.setHash sub.isDir sub.path none) smon

theorem removeAllFor_moded (subs : List GamSubscription) (moded : Moded state) (calm : Calm none state) :
    Moded (gamKqueueRemoveAllFor state subs).1 ∧ Calm none (gamKqueueRemoveAllFor state subs).1 := by
  unfold gamKqueueRemoveAllFor
  generalize true = success
  induction subs generalizing state success with
  | nil => exact ⟨moded, calm⟩
  | cons sub subs inductionHypothesis =>
    obtain ⟨next, calmNext⟩ := removeSubscription_moded moded calm sub
    exact inductionHypothesis next calmNext _

/-! ## Runs -/

/-- A call in which no attempt to enable a path that is polled as unsupported succeeds. -/
def RetriesMeet (state : Backend) : Input → Prop
  | .poll kind => (state.pollers kind).timeout → RetriesFail state kind
  | _ => True

instance (state : Backend) : (input : Input) → Decidable (RetriesMeet state input)
  | .poll _ => inferInstanceAs (Decidable (_ → _))
  | .addSubscription _ => .isTrue trivial
  | .removeSubscription _ => .isTrue trivial
  | .removeAllFor _ => .isTrue trivial
  | .kevent _ _ => .isTrue trivial

theorem step_moded (moded : Moded state) (calm : Calm none state) {input : Input}
    (fails : RetriesMeet state input) : Moded (step state input) ∧ Calm none (step state input) := by
  cases input with
  | addSubscription sub => exact addSubscription_moded moded calm sub
  | removeSubscription sub => exact removeSubscription_moded moded calm sub
  | removeAllFor subs => exact removeAllFor_moded subs moded calm
  | kevent fd event => exact keventCb_moded moded calm fd event
  | poll kind =>
    unfold step
    dsimp only
    split
    case isTrue timeout => exact pollerTimeoutCb_moded moded calm (fails timeout)
    case isFalse => exact ⟨moded, calm⟩

end Gamin.Kqueue
