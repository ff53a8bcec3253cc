import Gamin.Kqueue.Modes

/-! # From mode to mode

What each function of `gam_kqueue.c` does to the mode of the monitor it is called for.
-/

namespace Gamin.Kqueue

open Gamin Gamin.Server Gamin.Inotify Gamin.Library

variable {state before middle after : Backend} {smon : Pointer} {sub : SubMonitor}

/-! ## Missing -/

theorem clearFmons_kept (filed : Filed state) (found : state.subMonitors smon = some sub)
    (resting : Resting state smon) :
    Kept smon state ((gamKqueueSubMonitorClearFmons state smon sub).setSub smon
      { sub with fmons := .new, unsupportedFmons := .new }) := by
  unfold gamKqueueSubMonitorClearFmons
  have first : Kept smon state (if sub.unsupportedFmons.main ≠ [] then
      gamKqueuePollerRemoveSubMonitor state .unsupportedFmon smon else state) := by
    split
    · exact ⟨filed.setPoller _ _, .pollerRemove state smon⟩
    · exact ⟨filed, .refl smon state⟩
  have foundNext : (if sub.unsupportedFmons.main ≠ [] then
      gamKqueuePollerRemoveSubMonitor state .unsupportedFmon smon else state).subMonitors smon =
        some sub := by
    split <;> exact found
  dsimp only
  generalize (if sub.unsupportedFmons.main ≠ [] then
    gamKqueuePollerRemoveSubMonitor state .unsupportedFmon smon else state) = next at first foundNext ⊢
  -- all files are freed, and nothing else
  have same := sameTables_freeEntries next sub.fmons.main
  have freed := freed_freeEntries next sub.fmons.main
  have held := first.filed.held.freeEntries sub.fmons.main
  have files (fmon : Pointer) (member : fmon ∈ sub.fmons.main.map Prod.snd) :
      next.subMonitors fmon = none := by
    obtain ⟨entry, inMain, rfl⟩ := List.mem_map.mp member
    exact first.filed.entry_file foundNext inMain
  have only := @Freed.filesOnly _ _ smon _ freed same files
  generalize freeEntries next sub.fmons.main = last at same freed held only ⊢
  obtain ⟨restingFiles, restingPolled⟩ := resting sub found
  have foundLast := (congrFun same.subMonitors smon).trans foundNext
  have shape : SubMonitor.shape { sub with fmons := .new, unsupportedFmons := .new } = sub.shape := by
    simp [SubMonitor.shape, restingFiles, restingPolled, DeferredSet.new]
  refine ⟨?_, (first.only.trans only).trans (.setSub foundLast _ shape)⟩
  refine @Filed.drop next _ smon sub (some { sub with fmons := .new, unsupportedFmons := .new })
    first.filed (held.congr rfl rfl rfl (fun _ => rfl) held.fresh) foundNext (fun _ => true) ?_
    (fun _ _ leaves => absurd leaves.symm Bool.false_ne_true) ?_ fun table isNext => ?_
  · exact congrArg (Function.update · smon _) same.subMonitors
  · rw [Option.isSome_some, if_pos rfl, List.append_nil, List.filter_eq_self.mpr fun _ _ => rfl]
    exact ⟨freed.kept, freed.gone⟩
  · cases isNext
    exact .unpolled_new _ _

theorem setMissing_moded (moded : ModedBut (some smon) state) (known : (state.subMonitors smon).isSome)
    (resting : Resting state smon)
    (restingMissing : (state.pollers .missingSmon).smons.iterating = false) :
    Moded (gamKqueueSubMonitorSetMissing state smon) ∧
      Leaves smon state (gamKqueueSubMonitorSetMissing state smon) := by
  unfold gamKqueueSubMonitorSetMissing
  have touches := touches_closeMonitor state smon
  have closed := touches.modedBut moded known (moded.filed.held.closeMonitor smon)
  have without : (closeMonitor state smon).fdOf smon = none := by rw [fdOf_closeMonitor, if_pos rfl]
  have leaves := @Touches.leaves _ _ smon _ touches
  have knownNext : ((closeMonitor state smon).subMonitors smon).isSome := by
    rw [touches.subMonitors]
    exact known
  have restingNext := leaves.resting smon resting
  generalize closeMonitor state smon = next at closed without leaves knownNext restingNext ⊢
  obtain ⟨sub, found⟩ := Option.isSome_iff_exists.mp knownNext
  dsimp only
  rw [found]
  -- the descriptor is closed; then the files go, if there are any
  have cleared : ∃ last, (if sub.fmons.main ≠ [] then
      (gamKqueueSubMonitorClearFmons next smon sub).setSub smon
        { sub with fmons := .new, unsupportedFmons := .new } else next) = last ∧
      Kept smon next last ∧ fileNames last smon = [] := by
    refine ⟨_, rfl, ?_⟩
    split
    case isTrue =>
      refine ⟨clearFmons_kept closed.filed found restingNext, ?_⟩
      rw [fileNames, subMonitors_setSub, if_pos rfl]
      rfl
    case isFalse bare =>
      refine ⟨⟨closed.filed, .refl smon next⟩, ?_⟩
      rw [fileNames_found found, not_not.mp bare]
      rfl
  obtain ⟨last, isLast, kept, bare⟩ := cleared
  dsimp only
  rw [isLast]
  -- and it moves to the poller of those that are missing
  have cleared := kept.modedBut closed
  have removed := cleared.pollerRemove (by decide : PollerKind.unsupportedSmon ≠ .unsupportedFmon)
  have leavesRemoved := (leaves.trans kept.only.leaves).trans
    (.pollerRemove cleared (by decide : PollerKind.unsupportedSmon ≠ .unsupportedFmon))
  have restingLast := (leavesRemoved.walking .missingSmon).trans restingMissing
  have knownLast : ((gamKqueuePollerRemoveSubMonitor last .unsupportedSmon smon).subMonitors smon).isSome :=
    (kept.only.isSome smon).trans knownNext
  have added := removed.pollerAdd (by decide : PollerKind.missingSmon ≠ .unsupportedFmon) restingLast
    knownLast
  refine ⟨@ModedBut.close _ smon added .missing ⟨?_, ?_, ?_⟩ fun _ => bare,
    leavesRemoved.trans (.pollerAdd removed (by decide) restingLast)⟩
  · exact (Backend.fdOf_congr (kept.only.monitors smon knownNext)).trans without
  · rw [pollerAdd_other _ (by decide)]
    exact pollerRemove_unpolled cleared (by decide)
  · exact pollerAdd_polled removed (by decide) restingLast

/-! ## Unsupported -/

theorem setUnsupported_moded (moded : ModedBut (some smon) state)
    (known : (state.subMonitors smon).isSome) (present : ¬ state.polledBy .missingSmon smon)
    (resting : (state.pollers .unsupportedSmon).smons.iterating = false) :
    Moded (gamKqueueSubMonitorSetUnsupported state smon) ∧
      Leaves smon state (gamKqueueSubMonitorSetUnsupported state smon) := by
  unfold gamKqueueSubMonitorSetUnsupported
  have touches := touches_setUnsupported state smon
  have closed := touches.modedBut moded known (moded.filed.held.setUnsupported smon)
  have without : (gamKqueueMonitorSetUnsupported state smon).fdOf smon = none := by
    rw [fdOf_setUnsupported, if_pos rfl]
  have leaves := @Touches.leaves _ _ smon _ touches
  have absent : ¬ (gamKqueueMonitorSetUnsupported state smon).polledBy .missingSmon smon := by
    rw [Backend.polledBy, touches.pollers]
    exact present
  have knownNext : ((gamKqueueMonitorSetUnsupported state smon).subMonitors smon).isSome := by
    rw [touches.subMonitors]
    exact known
  have restingNext := (leaves.walking .unsupportedSmon).trans resting
  generalize gamKqueueMonitorSetUnsupported state smon = next
    at closed without leaves absent knownNext restingNext ⊢
  have isSmon : PollerKind.unsupportedSmon ≠ .unsupportedFmon := by decide
  have added := closed.pollerAdd isSmon restingNext knownNext
  refine ⟨@ModedBut.close _ smon added .unsupported ⟨without, ?_, ?_⟩ (by intro; contradiction),
    leaves.trans (.pollerAdd closed isSmon restingNext)⟩
  · exact pollerAdd_polled closed isSmon restingNext
  · rw [pollerAdd_other _ (by decide)]
    exact absent

/-! ## Watched -/

theorem fdOf_enableKqueue_succeeded {mon : Pointer}
    (succeeded : (gamKqueueMonitorEnableKqueue state mon).2 = true) :
    (gamKqueueMonitorEnableKqueue state mon).1.fdOf mon ≠ none := by
  unfold gamKqueueMonitorEnableKqueue at succeeded ⊢
  cases found : state.monitor mon with
  | none => simp [found] at succeeded
  | some monitor =>
    simp only [found] at succeeded
    dsimp only
    split
    case isTrue full => simp [full] at succeeded
    case isFalse full =>
      rw [if_neg full] at succeeded
      cases opened : state.answer.opens monitor.pathname with
      | none => simp [opened] at succeeded
      | some hint =>
        simp only [opened] at succeeded
        dsimp only
        split
        case isTrue =>
          have opened := Backend.fdOf_setMonitor state.called.called mon
            { monitor with fd := some (state.freshDescriptor hint) } mon
          exact fun none => nomatch (opened.trans (if_pos rfl)).symm.trans none
        case isFalse refused => simp [refused] at succeeded

/-- A monitor without a mode is enabled, or polled as unsupported. -/
theorem enableOrPoll_moded (moded : ModedBut (some smon) state) (known : (state.subMonitors smon).isSome)
    (without : state.fdOf smon = none) (unpolled : ¬ state.polledBy .unsupportedSmon smon)
    (present : ¬ state.polledBy .missingSmon smon)
    (resting : (state.pollers .unsupportedSmon).smons.iterating = false) :
    Moded (enableOrPoll state smon) ∧ Leaves smon state (enableOrPoll state smon) := by
  unfold enableOrPoll
  have touches := touches_enableKqueue state smon
  have after := touches.modedBut moded known (moded.filed.held.enableKqueue without)
  have leaves := @Touches.leaves _ _ smon _ touches
  have watched := @fdOf_enableKqueue_succeeded state smon
  have knownNext : ((gamKqueueMonitorEnableKqueue state smon).1.subMonitors smon).isSome := by
    rw [touches.subMonitors]
    exact known
  have unpolledNext : ¬ (gamKqueueMonitorEnableKqueue state smon).1.polledBy .unsupportedSmon smon := by
    rw [Backend.polledBy, touches.pollers]
    exact unpolled
  have presentNext : ¬ (gamKqueueMonitorEnableKqueue state smon).1.polledBy .missingSmon smon := by
    rw [Backend.polledBy, touches.pollers]
    exact present
  have restingNext := (leaves.walking .unsupportedSmon).trans resting
  generalize gamKqueueMonitorEnableKqueue state smon = result
    at after leaves watched knownNext unpolledNext presentNext restingNext ⊢
  obtain ⟨last, succeeded⟩ := result
  cases succeeded with
  | true =>
    exact ⟨@ModedBut.close _ smon after .kqueue ⟨watched rfl, unpolledNext, presentNext⟩ (by intro; contradiction),
      leaves⟩
  | false =>
    obtain ⟨done, leavesNext⟩ := setUnsupported_moded after knownNext presentNext restingNext
    exact ⟨done, leaves.trans leavesNext⟩

/-! ## Events -/

/-- An event that is only sent. -/
theorem subMonitorEmitEvent_plain (state : Backend) (smon : Pointer) {event : GaminEventType}
    (kind : Option Bool) (plain : event ≠ .changed ∧ event ≠ .deleted ∧ event ≠ .moved) :
    ∃ answers sent, gamKqueueSubMonitorEmitEvent state smon event kind =
      { state with answers := answers, sent := sent } := by
  unfold gamKqueueSubMonitorEmitEvent
  split
  case h_1 mon sub _ _ =>
    have notChanged : ¬ (event = .changed ∧ sub.isdir = true) := fun changed => plain.1 changed.1
    have notGone : ¬ (event = .deleted ∨ event = .moved) := not_or.mpr plain.2
    cases kind with
    | some isdir =>
      simp only [gamKqueueIsdir, if_neg notChanged, if_neg notGone]
      exact ⟨_, _, rfl⟩
    | none =>
      simp only [gamKqueueIsdir, if_neg notChanged, if_neg notGone]
      exact ⟨_, _, rfl⟩
  case h_2 => exact ⟨_, _, rfl⟩

theorem isdir_eq (state : Backend) (pathname : Bytes) (kind : Option Bool) :
    ∃ answers, (gamKqueueIsdir state pathname kind).1 = { state with answers := answers } := by
  cases kind with
  | some isdir => exact ⟨_, rfl⟩
  | none => exact ⟨_, rfl⟩

theorem subMonitorEmitEvent_kept (filed : Filed state) (resting : Resting state smon)
    {event : GaminEventType} (kind : Option Bool) (stays : ¬ (event = .deleted ∨ event = .moved)) :
    Kept smon state (gamKqueueSubMonitorEmitEvent state smon event kind) := by
  unfold gamKqueueSubMonitorEmitEvent
  split
  case h_2 => exact ⟨filed, .refl smon state⟩
  case h_1 mon sub _ _ =>
    obtain ⟨answers, asked⟩ := isdir_eq state mon.pathname kind
    have first := answered_kept smon filed answers state.sent
    rw [← asked] at first
    dsimp only
    generalize gamKqueueIsdir state mon.pathname kind = result at first ⊢
    obtain ⟨next, isdir⟩ := result
    dsimp only
    split
    case isTrue =>
      exact first.trans (directoryChange_kept first.filed (first.only.resting resting) _ _)
    case isFalse => exact first.trans (answered_kept smon first.filed next.answers _)

/-- A deletion or a move makes the monitor a missing one. -/
theorem subMonitorEmitEvent_gone (moded : ModedBut (some smon) state)
    (known : (state.subMonitors smon).isSome) (resting : Resting state smon)
    (restingMissing : (state.pollers .missingSmon).smons.iterating = false)
    {event : GaminEventType} (kind : Option Bool) (gone : event = .deleted ∨ event = .moved) :
    Moded (gamKqueueSubMonitorEmitEvent state smon event kind) ∧
      Leaves smon state (gamKqueueSubMonitorEmitEvent state smon event kind) := by
  obtain ⟨sub, found⟩ := Option.isSome_iff_exists.mp known
  obtain ⟨mon, foundMonitor⟩ := Option.isSome_iff_exists.mp (moded.filed.subKnown smon sub found)
  unfold gamKqueueSubMonitorEmitEvent
  rw [foundMonitor, found]
  obtain ⟨answers, asked⟩ := isdir_eq state mon.pathname kind
  have first := answered_kept smon moded.filed answers state.sent
  rw [← asked] at first
  dsimp only
  generalize gamKqueueIsdir state mon.pathname kind = result at first ⊢
  obtain ⟨next, isdir⟩ := result
  have notChanged : ¬ (event = .changed ∧ sub.isdir = true) := by
    rintro ⟨rfl, _⟩
    exact absurd gone (by decide)
  dsimp only
  rw [if_neg notChanged, if_pos gone]
  have leaves := first.only.leaves
  obtain ⟨missing, leavesNext⟩ := setMissing_moded (first.modedBut moded)
    ((first.only.isSome smon).trans known) (leaves.resting smon resting)
    ((leaves.walking .missingSmon).trans restingMissing)
  generalize gamKqueueSubMonitorSetMissing next smon = last at missing leavesNext ⊢
  have sent := answered_kept smon missing.filed last.answers
    (last.sent ++ sub.subs.flatMap fun sub => gamServerEmitOneEvent mon.pathname isdir event sub true)
  refine ⟨?_, (leaves.trans leavesNext).trans sent.only.leaves⟩
  exact { missing with filed := sent.filed }

end Gamin.Kqueue
