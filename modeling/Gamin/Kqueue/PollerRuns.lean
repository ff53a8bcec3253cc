import Gamin.Kqueue.Pollers

/-! # The pollers over whole runs

Each function of `gam_kqueue.c` leaves the pollers in order, and so does every call.
-/

namespace Gamin.Kqueue

open Gamin Gamin.Server Gamin.Inotify Gamin.Library

variable {state before middle after : Backend} {kind : PollerKind} {smon : Pointer} {adds : Bool}

/-! ## Files -/

theorem addUnsupportedFmon_timers (state : Backend) (smon fmon : Pointer) :
    TimersKept state (addUnsupportedFmon state smon fmon) := by
  unfold addUnsupportedFmon
  split
  · exact .of_pollers rfl
  · dsimp only
    split
    · exact .of_pollers rfl
    · exact .behind (.pollerAdd _ _ smon) rfl

theorem removeUnsupportedFmon_timers (state : Backend) (smon fmon : Pointer) :
    TimersKept state (removeUnsupportedFmon state smon fmon) := by
  unfold removeUnsupportedFmon
  split
  · exact .of_pollers rfl
  · dsimp only
    split
    · exact .of_pollers rfl
    · exact .behind (.pollerRemove _ _ smon) rfl

theorem finishUnsupportedFmons_timers (state : Backend) (smon : Pointer) :
    TimersKept state (finishUnsupportedFmons state smon) := by
  unfold finishUnsupportedFmons
  split
  · exact .of_pollers rfl
  · rename_i sub _
    dsimp only
    have added : TimersKept state
        (if sub.unsupportedFmons.pendingAdditions = [] then
          state.setSub smon { sub with unsupportedFmons := sub.unsupportedFmons.finish }
        else gamKqueuePollerAddSubMonitor
          (state.setSub smon { sub with unsupportedFmons := sub.unsupportedFmons.finish }) .unsupportedFmon smon) := by
      split
      · exact .of_pollers rfl
      · exact .behind (.pollerAdd _ _ smon) rfl
    split
    · exact added
    · exact added.trans (.pollerRemove _ _ smon)

theorem addUnsupportedFmon_pollers (state : Backend) (smon fmon : Pointer) :
    PollersKept true state (addUnsupportedFmon state smon fmon) where
  toTimersKept := addUnsupportedFmon_timers state smon fmon
  listed resting listed := addUnsupportedFmon_listed listed (resting rfl) smon fmon

theorem removeUnsupportedFmon_pollers (state : Backend) (smon fmon : Pointer) :
    PollersKept adds state (removeUnsupportedFmon state smon fmon) where
  toTimersKept := removeUnsupportedFmon_timers state smon fmon
  listed _ listed := removeUnsupportedFmon_listed listed smon fmon

theorem finishUnsupportedFmons_pollers (state : Backend) (smon : Pointer) :
    PollersKept adds state (finishUnsupportedFmons state smon) where
  toTimersKept := finishUnsupportedFmons_timers state smon
  listed _ listed := finishUnsupportedFmons_listed listed smon

theorem addFmon_pollers (state : Backend) (smon : Pointer) (entry : Bytes × Pointer) :
    PollersKept adds state (addFmon state smon entry) := by
  unfold addFmon
  split
  · exact .refl state
  · rename_i sub found
    split
    · exact .of_same (.setSub found rfl)
    · exact .of_same (.behind (.freeEntries _ _) (.setSub found rfl))

theorem removeFmon_pollers (state : Backend) (smon : Pointer) (entry : Bytes × Pointer) :
    PollersKept adds state (removeFmon state smon entry) := by
  unfold removeFmon
  split
  · exact .refl state
  · rename_i sub found
    split
    · exact .of_same (.setSub found rfl)
    · exact .of_same (.behind (.freeEntries _ _) (.setSub found rfl))

theorem finishFmons_pollers (state : Backend) (smon : Pointer) : PollersKept adds state (finishFmons state smon) := by
  unfold finishFmons
  split
  · exact .refl state
  · rename_i sub found
    exact .behind (.trans (.foldl (addFmon_pollers · smon ·) _ _) (.foldl (removeFmon_pollers · smon ·) _ _))
      (.setSub found rfl)

theorem fileMonitorSetUnsupported_pollers (state : Backend) (fmon : Pointer) :
    PollersKept true state (gamKqueueFileMonitorSetUnsupported state fmon) := by
  have closed : PollersKept true state (gamKqueueMonitorSetUnsupported state fmon) :=
    .of_same (.touches (touches_setUnsupported state fmon))
  unfold gamKqueueFileMonitorSetUnsupported
  dsimp only
  split
  · exact closed
  · exact closed.trans (addUnsupportedFmon_pollers _ _ _)

theorem fileMonitorNew_pollers (state : Backend) (smon : Pointer) (filename : Bytes) :
    PollersKept true state (gamKqueueFileMonitorNew state smon filename).1 := by
  have entered : PollersKept true state (fileMonitorEnter state smon filename) :=
    .behind (addFmon_pollers (fileMonitorMade state smon filename) _ _)
      ⟨rfl, fun _ => rfl, Nat.le_succ _⟩
  have enabled : PollersKept true (fileMonitorEnter state smon filename) (gamKqueueMonitorEnableKqueue _ _).1 :=
    .of_same (.touches (touches_enableKqueue _ state.nextPointer))
  unfold gamKqueueFileMonitorNew
  dsimp only
  split
  · rename_i next enable
    rw [enable] at enabled
    exact entered.trans enabled
  · rename_i next enable
    rw [enable] at enabled
    exact (entered.trans enabled).trans (fileMonitorSetUnsupported_pollers _ _)

theorem fileMonitorSend_pollers (state : Backend) (fmon : Pointer) (event : GaminEventType) (isdir : Option Bool) :
    PollersKept adds state (fileMonitorSend state fmon event isdir).1 := by
  obtain ⟨answers, sent, same⟩ := fileMonitorSend_eq state fmon event isdir
  rw [same]
  exact .of_same (.of_eq rfl rfl rfl)

theorem newFile_pollers (smon : Pointer) (event : GaminEventType) (state : Backend) (filename : Bytes) :
    PollersKept true state (newFile smon event state filename) :=
  (fileMonitorNew_pollers state smon filename).trans (fileMonitorSend_pollers _ _ _ _)

theorem fileMonitorGone_pollers (state : Backend) (fmon : Pointer) (file : FileMonitor) (mon : Monitor)
    (possiblyRecreated : Bool) (statted : Option Bool) :
    PollersKept possiblyRecreated state (fileMonitorGone state fmon file mon possiblyRecreated statted) := by
  have first : PollersKept possiblyRecreated state
      (if mon.fd = none then removeUnsupportedFmon state file.smon fmon else state) := by
    split
    · exact removeUnsupportedFmon_pollers state file.smon fmon
    · exact .refl state
  unfold fileMonitorGone
  dsimp only
  generalize (if mon.fd = none then removeUnsupportedFmon state file.smon fmon else state) = next at first ⊢
  refine first.trans ?_
  have removed (answers : Nat → Answers) : PollersKept possiblyRecreated next
      (removeFmon { next with answers := answers } file.smon (file.filename, fmon)) :=
    .behind (removeFmon_pollers _ file.smon _) (.of_eq rfl rfl rfl)
  -- only a file that comes back can be put on a poller
  have recreated (answers : Nat → Answers) : PollersKept true next
      (newFile file.smon .created { next with answers := answers } file.filename) :=
    .behind (newFile_pollers file.smon .created _ file.filename) (.of_eq rfl rfl rfl)
  cases possiblyRecreated with
  | false => exact removed next.answers
  | true =>
    cases statted with
    | some succeeded =>
      cases succeeded with
      | true => exact recreated next.answers
      | false => exact removed next.answers
    | none =>
      rw [if_pos rfl]
      dsimp only
      cases (next.answer.lstat mon.pathname).isSome with
      | true => exact recreated next.called.answers
      | false => exact removed next.called.answers

theorem fileMonitorEmitEvent_pollers (state : Backend) (fmon : Pointer) (event : GaminEventType)
    (isdir : Option Bool) (possiblyRecreated : Bool) :
    PollersKept possiblyRecreated state (gamKqueueFileMonitorEmitEvent state fmon event isdir possiblyRecreated) := by
  have sent : PollersKept possiblyRecreated state (fileMonitorSend state fmon event isdir).1 :=
    fileMonitorSend_pollers state fmon event isdir
  unfold gamKqueueFileMonitorEmitEvent
  split
  · dsimp only
    split
    · exact sent.trans (fileMonitorGone_pollers _ _ _ _ _ _)
    · exact sent
  · exact .refl state

/-! ## Directories -/

theorem clearFmons_timers (state : Backend) (smon : Pointer) (sub : SubMonitor) :
    TimersKept state (gamKqueueSubMonitorClearFmons state smon sub) := by
  unfold gamKqueueSubMonitorClearFmons
  dsimp only
  split
  · exact (TimersKept.pollerRemove _ _ smon).trans (.of_pollers (sameTables_freeEntries _ _).pollers)
  · exact .of_pollers (sameTables_freeEntries _ _).pollers

/-- The directory leaves the poller of files, if it is on it. -/
theorem clearFmons_listed {sub : SubMonitor} (listed : Listed state) (found : state.subMonitors smon = some sub) :
    ListedBut (some smon) (gamKqueueSubMonitorClearFmons state smon sub) ∧
      ¬ (gamKqueueSubMonitorClearFmons state smon sub).polledBy .unsupportedFmon smon ∧
      (gamKqueueSubMonitorClearFmons state smon sub).subMonitors = state.subMonitors := by
  have files : state.polledFiles smon = some sub.unsupportedFmons := by rw [Backend.polledFiles, found]; rfl
  have freed (next : Backend) (listed : ListedBut (some smon) next)
      (unpolled : ¬ next.polledBy .unsupportedFmon smon) :
      ListedBut (some smon) (freeEntries next sub.fmons.main) ∧
        ¬ (freeEntries next sub.fmons.main).polledBy .unsupportedFmon smon := by
    have same := SamePollers.freeEntries next sub.fmons.main
    refine ⟨listed.congr (congrFun same.pollers _) same.files same.pointer, ?_⟩
    rw [Backend.polledBy, same.pollers]
    exact unpolled
  unfold gamKqueueSubMonitorClearFmons
  dsimp only
  split
  case isTrue =>
    obtain ⟨next, unpolled⟩ := freed _ (listed.weaken _).pollerRemove (listed.weaken _).removed
    exact ⟨next, unpolled, (sameTables_freeEntries _ _).subMonitors⟩
  case isFalse none =>
    obtain ⟨next, unpolled⟩ := freed state (listed.weaken _) (mt (listed.polled_iff files).mp none)
    exact ⟨next, unpolled, (sameTables_freeEntries _ _).subMonitors⟩

theorem setMissing_pollers (state : Backend) (smon : Pointer) :
    PollersKept adds state (gamKqueueSubMonitorSetMissing state smon) := by
  have closed : PollersKept adds state (closeMonitor state smon) :=
    .of_same (.touches (touches_closeMonitor state smon))
  unfold gamKqueueSubMonitorSetMissing
  dsimp only
  generalize closeMonitor state smon = next at closed ⊢
  refine closed.trans (.trans ?_ (.trans (.pollerRemove _ (by decide : _ ≠ PollerKind.unsupportedSmon) smon)
    (.pollerAdd _ (by decide : _ ≠ PollerKind.missingSmon) smon)))
  cases found : next.subMonitors smon with
  | none => exact .refl _
  | some sub =>
    dsimp only
    split
    case isFalse => exact .refl _
    case isTrue =>
      refine ⟨(clearFmons_timers next smon sub).trans (.of_pollers rfl), fun _ listed => ?_⟩
      obtain ⟨cleared, unpolled, same⟩ := clearFmons_listed listed found
      have files : (gamKqueueSubMonitorClearFmons next smon sub).polledFiles smon = some sub.unsupportedFmons := by
        rw [Backend.polledFiles, same, found]
        rfl
      have set := cleared.setTable (cleared.known files) { sub with fmons := .new, unsupportedFmons := .new }
        DeferredSet.orderly_new fun walked => absurd walked Bool.false_ne_true
      exact set.close ((polledFiles_setSub _ _ _ _).trans (if_pos rfl))
        (iff_of_false unpolled fun more => more rfl)

theorem subMonitorSetUnsupported_pollers (state : Backend) (smon : Pointer) :
    PollersKept adds state (gamKqueueSubMonitorSetUnsupported state smon) :=
  .trans (.of_same (.touches (touches_setUnsupported state smon)))
    (.pollerAdd _ (by decide : _ ≠ PollerKind.unsupportedSmon) smon)

theorem changedName_pollers (smon : Pointer) (state : Backend) (filename : Bytes) :
    PollersKept true state (changedName smon state filename) := by
  unfold changedName
  split
  · exact .refl state
  · split
    · exact .refl state
    · exact newFile_pollers smon .created state filename

theorem changeRemoval_pollers (names : List Bytes) (state : Backend) (entry : Bytes × Pointer) :
    PollersKept adds state (changeRemoval names state entry) := by
  unfold changeRemoval
  split
  · exact .refl state
  · exact (fileMonitorEmitEvent_pollers state entry.2 .deleted (some false) false).weaken

theorem directoryChange_pollers (state : Backend) (smon : Pointer) (pathname : Bytes) (isdir : Bool) :
    PollersKept true state (gamKqueueSubMonitorHandleDirectoryChange state smon pathname isdir) := by
  unfold gamKqueueSubMonitorHandleDirectoryChange
  dsimp only
  generalize (if isdir then ((state.answer.listing pathname).map (·.names)).getD [] else []) = names
  have first : PollersKept true state (if isdir then names.foldl (changedName smon) state.called else state) := by
    split
    · exact .behind (.foldl (changedName_pollers smon) _ names) (.of_eq rfl rfl rfl)
    · exact .refl state
  generalize (if isdir then names.foldl (changedName smon) state.called else state) = next at first ⊢
  refine first.trans ?_
  split
  · exact .refl next
  · rename_i sub found
    exact .behind (.trans (.foldl (changeRemoval_pollers names) _ _) (finishFmons_pollers _ smon))
      (.behind (.setSub (found : next.called.subMonitors smon = some sub) rfl) (.of_eq rfl rfl rfl))

theorem subMonitorEmitEvent_pollers (state : Backend) (smon : Pointer) (event : GaminEventType)
    (isdir : Option Bool) : PollersKept true state (gamKqueueSubMonitorEmitEvent state smon event isdir) := by
  unfold gamKqueueSubMonitorEmitEvent
  split
  case h_2 => exact .refl state
  case h_1 mon sub _ _ =>
    obtain ⟨answers, asked⟩ := isdir_eq state mon.pathname isdir
    have first : PollersKept true state (gamKqueueIsdir state mon.pathname isdir).1 := by
      rw [asked]
      exact .of_same (.of_eq rfl rfl rfl)
    dsimp only
    generalize gamKqueueIsdir state mon.pathname isdir = result at first ⊢
    refine first.trans ?_
    split
    · exact directoryChange_pollers _ _ _ _
    · split
      · exact (setMissing_pollers _ smon).followed (.of_eq rfl rfl rfl)
      · exact .of_same (.of_eq rfl rfl rfl)

theorem listNames_pollers (state : Backend) (smon : Pointer) (pathname : Bytes) (event : GaminEventType) :
    PollersKept true state (listNames state smon pathname event) := by
  unfold listNames
  split
  · exact .behind (.foldl (newFile_pollers smon event) _ _) (.of_eq rfl rfl rfl)
  · exact .of_same (.of_eq rfl rfl rfl)

theorem announceExisting_pollers (state : Backend) (smon : Pointer) (mon : Monitor) (sub : SubMonitor)
    (wasMissing isdir : Bool) : PollersKept true state (announceExisting state smon mon sub wasMissing isdir) := by
  unfold announceExisting
  dsimp only
  generalize (if wasMissing then GaminEventType.created else .exists) = event
  have first := subMonitorEmitEvent_pollers state smon event (some isdir)
  generalize gamKqueueSubMonitorEmitEvent state smon event (some isdir) = next at first ⊢
  have second : PollersKept true state
      (if sub.isdir ∧ isdir then listNames next smon mon.pathname event else next) := by
    split
    · exact first.trans (listNames_pollers _ _ _ _)
    · exact first
  split
  · exact second
  · exact second.trans (subMonitorEmitEvent_pollers _ _ _ _)

theorem enableOrPoll_pollers (state : Backend) (smon : Pointer) : PollersKept adds state (enableOrPoll state smon) := by
  have enabled : PollersKept adds state (gamKqueueMonitorEnableKqueue state smon).1 :=
    .of_same (.touches (touches_enableKqueue state smon))
  unfold enableOrPoll
  split
  · rename_i next enable
    rw [enable] at enabled
    exact enabled
  · rename_i next enable
    rw [enable] at enabled
    exact enabled.trans (subMonitorSetUnsupported_pollers _ _)

theorem enableNotification_pollers (state : Backend) (smon : Pointer) (wasMissing : Option Bool) :
    PollersKept true state (gamKqueueSubMonitorEnableNotification state smon wasMissing) := by
  unfold gamKqueueSubMonitorEnableNotification
  split
  case h_2 => exact .refl state
  case h_1 mon sub _ _ =>
    have announced (wasMissing isdir : Bool) (next : Backend) (same : SamePollers state next) :
        PollersKept true state (enableOrPoll (announceExisting next smon mon sub wasMissing isdir) smon) :=
      .behind (.trans (announceExisting_pollers _ _ _ _ _ _) (enableOrPoll_pollers _ _)) same
    split
    · exact announced true _ state (.of_eq rfl rfl rfl)
    · split
      · exact announced false _ state.called (.of_eq rfl rfl rfl)
      · exact .behind (.trans (subMonitorEmitEvent_pollers state.called _ _ _) (subMonitorEmitEvent_pollers _ _ _ _))
          (.of_eq rfl rfl rfl)

theorem subMonitorFree_pollers (state : Backend) (smon : Pointer) :
    PollersKept adds state (gamKqueueSubMonitorFree state smon) := by
  unfold gamKqueueSubMonitorFree
  cases found : state.subMonitors smon with
  | none => exact .refl state
  | some sub =>
    dsimp only
    refine .trans (.trans (.pollerRemove state (by decide : _ ≠ PollerKind.missingSmon) smon)
      (.pollerRemove _ (by decide : _ ≠ PollerKind.unsupportedSmon) smon)) ?_
    have foundNext : (gamKqueuePollerRemoveSubMonitor (gamKqueuePollerRemoveSubMonitor state .missingSmon smon)
      .unsupportedSmon smon).subMonitors smon = some sub := found
    generalize gamKqueuePollerRemoveSubMonitor (gamKqueuePollerRemoveSubMonitor state .missingSmon smon)
      .unsupportedSmon smon = next at foundNext ⊢
    have cleared := clearFmons_timers next smon sub
    have closed := touches_closeMonitor (gamKqueueSubMonitorClearFmons next smon sub) smon
    refine ⟨cleared.trans (.of_pollers closed.pollers), fun _ listed => ?_⟩
    obtain ⟨left, unpolled, _⟩ := clearFmons_listed listed foundNext
    have subs : Function.update (gamKqueueMonitorFree (gamKqueueSubMonitorClearFmons next smon sub) smon).subMonitors
        smon none = Function.update (gamKqueueSubMonitorClearFmons next smon sub).subMonitors smon none := by
      rw [← closed.subMonitors]
      rfl
    exact left.drop (congrFun closed.pollers _) subs closed.nextPointer unpolled

theorem subMonitorNew_pollers (state : Backend) (sub : GamSubscription) :
    PollersKept adds state (gamKqueueSubMonitorNew state sub).1 := by
  refine ⟨.of_pollers rfl, fun _ listed => ?_⟩
  have unknown := listed.fresh state.nextPointer (Nat.le_refl _)
  have unpolled : ¬ state.polledBy .unsupportedFmon state.nextPointer := fun polled => by
    obtain ⟨_, isTable, _⟩ := (listed.polled _ nofun).mp polled
    exact absurd (isTable.symm.trans unknown) (Option.some_ne_none _)
  have made : Listed (monitorNew state sub.path).1 := listed.congr rfl (fun _ => rfl) (Nat.le_succ _)
  have set := (made.weaken (some state.nextPointer)).setTable (Nat.lt_succ_self _)
    { subs := [sub], fmons := .new, unsupportedFmons := .new, isdir := sub.isDir } DeferredSet.orderly_new
    fun walked => absurd walked Bool.false_ne_true
  exact set.close ((polledFiles_setSub _ _ _ _).trans (if_pos rfl)) (iff_of_false unpolled fun more => more rfl)

/-! ## What the backend is called for -/

theorem subMonitorHandleKevent_pollers (state : Backend) (smon : Pointer) (event : Kevent) :
    PollersKept true state (gamKqueueSubMonitorHandleKevent state smon event) := by
  unfold gamKqueueSubMonitorHandleKevent
  split
  · exact subMonitorSetUnsupported_pollers state smon
  · have changed : PollersKept true state
        (if event.changed then gamKqueueSubMonitorEmitEvent state smon .changed none else state) := by
      split
      · exact subMonitorEmitEvent_pollers _ _ _ _
      · exact .refl state
    dsimp only
    generalize (if event.changed then gamKqueueSubMonitorEmitEvent state smon .changed none else state) = next
      at changed ⊢
    refine changed.trans ?_
    split
    · exact subMonitorEmitEvent_pollers _ _ _ _
    · split
      · exact subMonitorEmitEvent_pollers _ _ _ _
      · exact .refl _

theorem fileMonitorHandleKevent_pollers (state : Backend) (fmon : Pointer) (event : Kevent) :
    PollersKept true state (gamKqueueFileMonitorHandleKevent state fmon event) := by
  unfold gamKqueueFileMonitorHandleKevent
  split
  · exact fileMonitorSetUnsupported_pollers state fmon
  · have changed : PollersKept true state
        (if event.changed then gamKqueueFileMonitorEmitEvent state fmon .changed none false else state) := by
      split
      · exact (fileMonitorEmitEvent_pollers _ _ _ _ _).weaken
      · exact .refl state
    dsimp only
    generalize (if event.changed then gamKqueueFileMonitorEmitEvent state fmon .changed none false else state) = next
      at changed ⊢
    refine changed.trans ?_
    split
    · exact fileMonitorEmitEvent_pollers _ _ _ _ _
    · split
      · exact fileMonitorEmitEvent_pollers _ _ _ _ _
      · exact .refl _

theorem keventCb_pollers (state : Backend) (fd : Nat) (event : Kevent) :
    PollersKept true state (gamKqueueKeventCb state fd event) := by
  unfold gamKqueueKeventCb
  split
  · exact .refl state
  · split
    · exact subMonitorHandleKevent_pollers _ _ _
    · exact fileMonitorHandleKevent_pollers _ _ _

theorem missingSmonPoll_pollers (state : Backend) (smon : Pointer) :
    PollersKept true state (gamKqueueMissingSmonPoll state smon) := by
  unfold gamKqueueMissingSmonPoll
  split
  · exact .refl state
  · split
    · exact .of_same (.of_eq rfl rfl rfl)
    · exact .behind (.trans (.pollerRemove state.called (by decide : _ ≠ PollerKind.missingSmon) smon)
        (enableNotification_pollers _ _ _)) (.of_eq rfl rfl rfl)

theorem subMonitorRetry_pollers (state : Backend) (smon : Pointer) (mon : Monitor) :
    PollersKept adds state (subMonitorRetry state smon mon) := by
  unfold subMonitorRetry
  split
  · have enabled : PollersKept adds state
        (gamKqueueMonitorEnableKqueue (state.setMonitor smon { mon with pollCount := 0 }) smon).1 :=
      .behind (.of_same (.touches (touches_enableKqueue _ smon))) (.of_eq rfl rfl rfl)
    split
    · rename_i next enable
      rw [enable] at enabled
      exact enabled.trans (.pollerRemove _ (by decide : _ ≠ PollerKind.missingSmon) smon)
    · rename_i next enable
      rw [enable] at enabled
      exact enabled
  · exact .of_same (.of_eq rfl rfl rfl)

theorem miniLstat_pollers (state : Backend) (pathname : Bytes) :
    PollersKept adds state (gamKqueueMiniLstat state pathname).1 := by
  obtain ⟨answers, same⟩ := miniLstat_eq state pathname
  rw [same]
  exact .of_same (.of_eq rfl rfl rfl)

theorem unsupportedSmonPoll_pollers (state : Backend) (smon : Pointer) :
    PollersKept true state (gamKqueueUnsupportedSmonPoll state smon) := by
  unfold gamKqueueUnsupportedSmonPoll
  split
  · exact .refl state
  · rename_i mon _
    have polled : PollersKept true state (gamKqueueMiniLstat (subMonitorRetry state smon mon) mon.pathname).1 :=
      (subMonitorRetry_pollers state smon mon).trans (miniLstat_pollers _ _)
    refine polled.trans ?_
    dsimp only
    split
    · exact .behind (subMonitorEmitEvent_pollers _ _ _ _) (.of_eq rfl rfl rfl)
    · exact .refl _

theorem fileMonitorRetry_pollers (state : Backend) (fmon : Pointer) (mon : Monitor) (file : FileMonitor) :
    PollersKept adds state (fileMonitorRetry state fmon mon file) := by
  unfold fileMonitorRetry
  split
  · have enabled : PollersKept adds state
        (gamKqueueMonitorEnableKqueue (state.setMonitor fmon { mon with pollCount := 0 }) fmon).1 :=
      .behind (.of_same (.touches (touches_enableKqueue _ fmon))) (.of_eq rfl rfl rfl)
    split
    · rename_i next enable
      rw [enable] at enabled
      exact enabled.trans (removeUnsupportedFmon_pollers _ _ _)
    · rename_i next enable
      rw [enable] at enabled
      exact enabled
  · exact .of_same (.of_eq rfl rfl rfl)

theorem unsupportedFmonPollForeachCb_pollers (state : Backend) (fmon : Pointer) :
    PollersKept adds state (gamKqueueUnsupportedFmonPollForeachCb state fmon) := by
  unfold gamKqueueUnsupportedFmonPollForeachCb
  split
  · rename_i mon file _ _
    have polled :
        PollersKept adds state (gamKqueueMiniLstat (fileMonitorRetry state fmon mon file) mon.pathname).1 :=
      (fileMonitorRetry_pollers state fmon mon file).trans (miniLstat_pollers _ _)
    refine polled.trans ?_
    dsimp only
    split
    · exact .behind (fileMonitorEmitEvent_pollers _ _ _ _ _).weaken (.of_eq rfl rfl rfl)
    · exact .refl _
  · exact .refl state

theorem unsupportedFmonPoll_pollers (state : Backend) (smon : Pointer) :
    PollersKept adds state (gamKqueueUnsupportedFmonPoll state smon) := by
  unfold gamKqueueUnsupportedFmonPoll
  cases found : state.subMonitors smon with
  | none => exact .refl state
  | some sub =>
    have foundCalled : state.called.subMonitors smon = some sub := found
    have files : state.called.polledFiles smon = some sub.unsupportedFmons := by
      rw [Backend.polledFiles, foundCalled]
      rfl
    have foundWalked := (polledFiles_setSub state.called smon
      { sub with unsupportedFmons := sub.unsupportedFmons.walked } smon).trans (if_pos rfl)
    have rest := PollersKept.trans
      (.foldl unsupportedFmonPollForeachCb_pollers
        (state.called.setSub smon { sub with unsupportedFmons := sub.unsupportedFmons.walked })
        (shuffle state.answer.order sub.unsupportedFmons.main))
      (@finishUnsupportedFmons_pollers adds _ smon)
    dsimp only
    refine ⟨.behind rest.toTimersKept rfl, fun resting listed => ?_⟩
    have called : Listed state.called := listed.congr rfl (fun _ => rfl) (Nat.le_refl _)
    obtain ⟨orderly, walked⟩ := called.tables smon _ files
    by_cases more : sub.unsupportedFmons.main = []
    case neg =>
      have set := (called.weaken _).setTable (called.known files)
        { sub with unsupportedFmons := sub.unsupportedFmons.walked } (DeferredSet.orderly_walked _) fun _ => more
      have polled : state.called.polledBy .unsupportedFmon smon ↔ sub.unsupportedFmons.walked.main ≠ [] := by
        rw [called.polled_iff files]
        rfl
      exact rest.listed resting (set.close foundWalked polled)
    case pos =>
      -- nothing is walked, and nothing has changed when that is over
      have still : sub.unsupportedFmons.iterating = false := by
        by_contra walking
        exact walked (Bool.not_eq_false _ ▸ walking) more
      have additions : sub.unsupportedFmons.walked.pendingAdditions = [] := (orderly still).1
      have removals : sub.unsupportedFmons.walked.pendingRemovals = [] := (orderly still).2
      have walk : shuffle state.answer.order sub.unsupportedFmons.main = [] := by
        rw [more]
        exact (shuffle_perm _ _).eq_nil
      have foundSub := (subMonitors_setSub state.called smon
        { sub with unsupportedFmons := sub.unsupportedFmons.walked } smon).trans (if_pos rfl)
      rw [walk, List.foldl_nil, finishUnsupportedFmons, foundSub]
      dsimp only
      rw [if_pos (.inl removals), if_pos additions]
      refine called.congr rfl (fun other => ?_) (Nat.le_refl _)
      rw [polledFiles_setSub, polledFiles_setSub]
      split
      case isTrue same =>
        rw [same, files]
        exact congrArg some (orderly.finish_walked still)
      case isFalse => rfl

theorem pollerFunc_pollers (kind : PollerKind) (state : Backend) (smon : Pointer) :
    PollersKept (decide (kind ≠ .unsupportedFmon)) state (pollerFunc kind state smon) := by
  cases kind with
  | missingSmon => exact missingSmonPoll_pollers state smon
  | unsupportedSmon => exact unsupportedSmonPoll_pollers state smon
  | unsupportedFmon => exact unsupportedFmonPoll_pollers state smon

theorem SamePollers.setHash (state : Backend) (isdir : Bool) (path : Bytes) (entry : Option Pointer) :
    SamePollers state (state.setHash isdir path entry) := by
  unfold Backend.setHash
  split <;> exact .of_eq rfl rfl rfl

theorem addSubscription_pollers (state : Backend) (sub : GamSubscription) :
    PollersKept true state (gamKqueueAddSubscription state sub) := by
  unfold gamKqueueAddSubscription
  split
  · split
    · rename_i found
      exact .of_same (.setSub found rfl)
    · exact .refl state
  · exact ((subMonitorNew_pollers state sub).followed (.setHash _ _ _ _)).trans (enableNotification_pollers _ _ none)

theorem removeSubscription_pollers (state : Backend) (sub : GamSubscription) :
    PollersKept adds state (gamKqueueRemoveSubscription state sub).1 := by
  unfold gamKqueueRemoveSubscription
  split
  · exact .refl state
  · split
    · exact .refl state
    · rename_i found
      dsimp only
      split
      · exact .of_same (.setSub found rfl)
      · exact .behind (subMonitorFree_pollers _ _) (.behind (.setHash _ _ _ _) (.setSub found rfl))

theorem removeAllFor_pollers (state : Backend) (subs : List GamSubscription) :
    PollersKept adds state (gamKqueueRemoveAllFor state subs).1 := by
  unfold gamKqueueRemoveAllFor
  generalize true = success
  induction subs generalizing state success with
  | nil => exact .refl state
  | cons sub subs inductionHypothesis =>
    exact (removeSubscription_pollers state sub).trans (inductionHypothesis _ _)

/-! ## Runs -/

/-- What holds between calls. -/
structure PollersInOrder (state : Backend) : Prop where
  resting : ∀ kind, (state.pollers kind).smons.iterating = false
  timed : ∀ kind, (state.pollers kind).Timed
  listed : Listed state

theorem PollersKept.inOrder (kept : PollersKept adds before after) (inOrder : PollersInOrder before) :
    PollersInOrder after where
  resting kind := (kept.walking kind).trans (inOrder.resting kind)
  timed kind := kept.timed kind (inOrder.timed kind)
  listed := kept.listed (fun _ => inOrder.resting _) inOrder.listed

/-- A poller that is walked, or has been, holds what it held. -/
theorem Listed.setPoller (listed : Listed state) {poller : Poller}
    (holds : ∀ smon, poller.smons.Holds smon ↔ (state.pollers kind).smons.Holds smon)
    (orderly : poller.smons.Orderly) : Listed (state.setPoller kind poller) :=
  { listed with
    orderly := by
      by_cases same : PollerKind.unsupportedFmon = kind
      · subst same
        rw [pollers_setPoller_same]
        exact orderly
      · rw [pollers_setPoller_other state same]
        exact listed.orderly
    polled := fun smon _ => (polledBy_setPoller holds _ smon).trans (listed.polled smon nofun) }

theorem pollerTimeoutCb_inOrder (inOrder : PollersInOrder state) (timeout : (state.pollers kind).timeout = true) :
    PollersInOrder (gamKqueuePollerTimeoutCb state kind) := by
  unfold gamKqueuePollerTimeoutCb pollerWalk
  dsimp only
  have listed : Listed state.called := inOrder.listed.congr rfl (fun _ => rfl) (Nat.le_refl _)
  have begun : Listed (state.called.setPoller kind (state.pollers kind).walked) :=
    listed.setPoller (fun _ => DeferredSet.walked_holds) (DeferredSet.orderly_walked _)
  -- the walk adds to no poller but those that are not being walked
  have kept := PollersKept.foldl (pollerFunc_pollers kind) (state.called.setPoller kind (state.pollers kind).walked)
    (shuffle state.answer.order (state.pollers kind).smons.main)
  have listedLast := kept.listed (fun adds => by
    rw [pollers_setPoller_other _ (of_decide_eq_true adds).symm]
    exact inOrder.resting _) begun
  have timedOwn := kept.timed kind
  have walkingOwn := kept.walking kind
  rw [pollers_setPoller_same] at timedOwn walkingOwn
  have timedOther {other : PollerKind} (different : other ≠ kind) := kept.timed other
  have walkingOther {other : PollerKind} (different : other ≠ kind) := kept.walking other
  generalize (shuffle state.answer.order (state.pollers kind).smons.main).foldl (pollerFunc kind)
    (state.called.setPoller kind (state.pollers kind).walked) = last
    at listedLast timedOwn walkingOwn timedOther walkingOther ⊢
  refine ⟨fun other => ?_, fun other => ?_, listedLast.setPoller (fun _ => DeferredSet.finish_holds)
    (DeferredSet.orderly_finish _)⟩
  · by_cases same : other = kind
    · subst same
      rw [pollers_setPoller_same]
      rfl
    · have walking := walkingOther same
      rw [pollers_setPoller_other _ same] at walking ⊢
      exact walking.trans (inOrder.resting other)
  · by_cases same : other = kind
    · subst same
      rw [pollers_setPoller_same]
      exact (timedOwn ((inOrder.timed other).walked (inOrder.resting other) timeout)).finish walkingOwn
    · have timed := timedOther same
      rw [pollers_setPoller_other _ same] at timed ⊢
      exact timed (inOrder.timed other)

theorem step_inOrder (inOrder : PollersInOrder state) (input : Input) : PollersInOrder (step state input) := by
  cases input with
  | addSubscription sub => exact (addSubscription_pollers state sub).inOrder inOrder
  | removeSubscription sub => exact (@removeSubscription_pollers true state sub).inOrder inOrder
  | removeAllFor subs => exact (@removeAllFor_pollers true state subs).inOrder inOrder
  | kevent fd event => exact (keventCb_pollers state fd event).inOrder inOrder
  | poll kind =>
    unfold step
    dsimp only
    split
    · rename_i timeout
      exact pollerTimeoutCb_inOrder inOrder timeout
    · exact inOrder

theorem inOrder_new (maxOpenFiles : Nat) (answers : Nat → Answers) : PollersInOrder (.new maxOpenFiles answers) where
  resting _ := rfl
  timed _ := (Poller.timed_resting rfl).mpr (iff_of_false Bool.false_ne_true fun more => more rfl)
  listed := {
    fresh := fun _ _ => rfl
    orderly := DeferredSet.orderly_new
    tables := fun _ _ found => absurd found.symm (Option.some_ne_none _)
    polled := fun _ _ => iff_of_false (DeferredSet.not_holds_new _) fun ⟨_, found, _⟩ =>
      absurd found.symm (Option.some_ne_none _) }

/-- No poller is being walked, each has its timer exactly if there is something on it, and on the poller of files are
exactly the directories with files that cannot be watched. -/
structure PollersRight (state : Backend) : Prop where
  resting : ∀ kind, (state.pollers kind).smons.iterating = false
  timers : ∀ kind, (state.pollers kind).timeout = true ↔ (state.pollers kind).smons.main ≠ []
  files : ∀ smon, smon ∈ (state.pollers .unsupportedFmon).smons.main ↔
    ∃ sub, state.subMonitors smon = some sub ∧ sub.unsupportedFmons.main ≠ []

theorem PollersInOrder.right (inOrder : PollersInOrder state) : PollersRight state where
  resting := inOrder.resting
  timers kind := (Poller.timed_resting (inOrder.resting kind)).mp (inOrder.timed kind)
  files smon := by
    rw [← inOrder.listed.orderly.holds (inOrder.resting _)]
    refine (inOrder.listed.polled smon nofun).trans ?_
    unfold Backend.polledFiles
    constructor
    · rintro ⟨table, found, more⟩
      obtain ⟨sub, isSub, rfl⟩ := Option.map_eq_some_iff.mp found
      exact ⟨sub, isSub, more⟩
    · rintro ⟨sub, isSub, more⟩
      exact ⟨_, by rw [isSub, Option.map_some], more⟩

end Gamin.Kqueue
