import Gamin.Kqueue.Tables

/-! # What concerns files only

The functions on file monitors keep the tables in order and leave alone what decides about the mode of
a directory: the monitors of the directories and the two pollers they may be on.
-/

namespace Gamin.Kqueue

open Gamin Gamin.Server Gamin.Inotify Gamin.Library

/-! ## The frame -/

/-- What of a directory does not depend on its files: its kind, and which of its tables is being walked. -/
def SubMonitor.shape (sub : SubMonitor) : Bool × Bool × Bool :=
  (sub.isdir, sub.fmons.iterating, sub.unsupportedFmons.iterating)

/-- Only files of one directory are concerned. -/
structure FilesOnly (smon : Pointer) (before after : Backend) : Prop where
  maxOpenFiles : after.maxOpenFiles = before.maxOpenFiles
  dirHash : after.dirHash = before.dirHash
  fileHash : after.fileHash = before.fileHash
  missing : after.pollers .missingSmon = before.pollers .missingSmon
  unsupported : after.pollers .unsupportedSmon = before.pollers .unsupportedSmon
  walking : (after.pollers .unsupportedFmon).smons.iterating =
    (before.pollers .unsupportedFmon).smons.iterating
  shapes : ∀ other, (after.subMonitors other).map SubMonitor.shape =
    (before.subMonitors other).map SubMonitor.shape
  monitors : ∀ other, (before.subMonitors other).isSome → after.monitor other = before.monitor other
  elsewhere : ∀ other, other ≠ smon → after.subMonitors other = before.subMonitors other
  owners : ∀ fmon file, after.fileMonitors fmon = some file → file.smon ≠ smon →
    before.fileMonitors fmon = some file

variable {state before middle after : Backend} {smon fmon : Pointer} {sub : SubMonitor}

theorem FilesOnly.refl (smon : Pointer) (state : Backend) : FilesOnly smon state state :=
  ⟨rfl, rfl, rfl, rfl, rfl, rfl, fun _ => rfl, fun _ _ => rfl, fun _ _ => rfl, fun _ _ found _ => found⟩

theorem FilesOnly.isSome (only : FilesOnly smon before after) (other : Pointer) :
    (after.subMonitors other).isSome = (before.subMonitors other).isSome := by
  rw [← Option.isSome_map, only.shapes, Option.isSome_map]

theorem FilesOnly.trans (first : FilesOnly smon before middle) (second : FilesOnly smon middle after) :
    FilesOnly smon before after where
  maxOpenFiles := second.maxOpenFiles.trans first.maxOpenFiles
  dirHash := second.dirHash.trans first.dirHash
  fileHash := second.fileHash.trans first.fileHash
  missing := second.missing.trans first.missing
  unsupported := second.unsupported.trans first.unsupported
  walking := second.walking.trans first.walking
  shapes other := (second.shapes other).trans (first.shapes other)
  monitors other known :=
    (second.monitors other ((first.isSome other).trans known)).trans (first.monitors other known)
  elsewhere other different := (second.elsewhere other different).trans (first.elsewhere other different)
  owners fmon file found different :=
    first.owners fmon file (second.owners fmon file found different) different

/-- No table of the directory is being walked. -/
def Resting (state : Backend) (smon : Pointer) : Prop :=
  ∀ sub, state.subMonitors smon = some sub →
    sub.fmons.iterating = false ∧ sub.unsupportedFmons.iterating = false

theorem FilesOnly.shape {other : Pointer} {next : SubMonitor} (only : FilesOnly smon before after)
    (found : before.subMonitors other = some sub) (foundNext : after.subMonitors other = some next) :
    next.shape = sub.shape := by
  have same := only.shapes other
  rw [found, foundNext] at same
  exact Option.some.inj same

theorem FilesOnly.resting {other : Pointer} (only : FilesOnly smon before after)
    (resting : Resting before other) : Resting after other := by
  intro next foundNext
  obtain ⟨sub, found⟩ := Option.isSome_iff_exists.mp
    ((only.isSome other).symm.trans (by rw [foundNext]; rfl))
  obtain ⟨files, polled⟩ := resting sub found
  have same := only.shape found foundNext
  exact ⟨(congrArg (·.2.1) same).trans files, (congrArg (·.2.2) same).trans polled⟩

/-- The tables stay in order, and only files of one directory are concerned. -/
structure Kept (smon : Pointer) (before after : Backend) : Prop where
  filed : Filed after
  only : FilesOnly smon before after

theorem Kept.trans (first : Kept smon before middle) (second : Kept smon middle after) :
    Kept smon before after :=
  ⟨second.filed, first.only.trans second.only⟩

/-! ## Single steps -/

theorem Touches.filesOnly {mon : Pointer} (touches : Touches mon before after)
    (file : before.subMonitors mon = none) : FilesOnly smon before after where
  maxOpenFiles := touches.maxOpenFiles
  dirHash := touches.dirHash
  fileHash := touches.fileHash
  missing := congrFun touches.pollers _
  unsupported := congrFun touches.pollers _
  walking := by rw [touches.pollers]
  shapes other := by rw [touches.subMonitors]
  monitors other known := touches.others other fun same => by
    rw [same, file] at known
    contradiction
  elsewhere other _ := by rw [touches.subMonitors]
  owners fmon file found _ := touches.fileMonitors ▸ found

theorem FilesOnly.setSub (found : state.subMonitors smon = some sub) (next : SubMonitor)
    (same : next.shape = sub.shape) : FilesOnly smon state (state.setSub smon next) where
  maxOpenFiles := rfl
  dirHash := rfl
  fileHash := rfl
  missing := rfl
  unsupported := rfl
  walking := rfl
  shapes other := by
    rw [subMonitors_setSub]
    split
    case isTrue here => rw [here, found, Option.map_some, Option.map_some, same]
    case isFalse => rfl
  monitors _ _ := rfl
  elsewhere other different := by rw [subMonitors_setSub, if_neg different]
  owners _ _ found _ := found

theorem Poller.iterating_add (poller : Poller) (smon : Pointer) :
    (poller.add smon).smons.iterating = poller.smons.iterating :=
  DeferredSet.iterating_add poller.smons smon

theorem Poller.iterating_remove (poller : Poller) (smon : Pointer) :
    (poller.remove smon).smons.iterating = poller.smons.iterating :=
  DeferredSet.iterating_remove poller.smons smon

theorem pollers_setPoller_same (state : Backend) (kind : PollerKind) (poller : Poller) :
    (state.setPoller kind poller).pollers kind = poller :=
  Function.update_self _ _ _

theorem pollers_setPoller_other (state : Backend) {kind other : PollerKind} (different : other ≠ kind)
    (poller : Poller) : (state.setPoller kind poller).pollers other = state.pollers other :=
  Function.update_of_ne different _ _

theorem FilesOnly.setPoller (smon : Pointer) (state : Backend) (poller : Poller)
    (same : poller.smons.iterating = (state.pollers .unsupportedFmon).smons.iterating) :
    FilesOnly smon state (state.setPoller .unsupportedFmon poller) where
  maxOpenFiles := rfl
  dirHash := rfl
  fileHash := rfl
  missing := pollers_setPoller_other state (by decide) poller
  unsupported := pollers_setPoller_other state (by decide) poller
  walking := by rw [pollers_setPoller_same, same]
  shapes _ := rfl
  monitors _ _ := rfl
  elsewhere _ _ := rfl
  owners _ _ found _ := found

theorem FilesOnly.pollerAdd (state : Backend) (smon : Pointer) :
    FilesOnly smon state (gamKqueuePollerAddSubMonitor state .unsupportedFmon smon) :=
  .setPoller smon state _ (Poller.iterating_add _ _)

theorem FilesOnly.pollerRemove (state : Backend) (smon : Pointer) :
    FilesOnly smon state (gamKqueuePollerRemoveSubMonitor state .unsupportedFmon smon) :=
  .setPoller smon state _ (Poller.iterating_remove _ _)

theorem FilesOnly.addUnsupportedFmon (state : Backend) (smon fmon : Pointer) :
    FilesOnly smon state (addUnsupportedFmon state smon fmon) := by
  unfold Kqueue.addUnsupportedFmon
  cases found : state.subMonitors smon with
  | none => exact .refl smon state
  | some sub =>
    have next := FilesOnly.setSub found { sub with unsupportedFmons := sub.unsupportedFmons.add fmon }
      (by simp [SubMonitor.shape])
    dsimp only
    split
    · exact next
    · exact next.trans (.pollerAdd _ smon)

theorem FilesOnly.removeUnsupportedFmon (state : Backend) (smon fmon : Pointer) :
    FilesOnly smon state (removeUnsupportedFmon state smon fmon) := by
  unfold Kqueue.removeUnsupportedFmon
  cases found : state.subMonitors smon with
  | none => exact .refl smon state
  | some sub =>
    have next := FilesOnly.setSub found { sub with unsupportedFmons := sub.unsupportedFmons.remove fmon }
      (by simp [SubMonitor.shape])
    dsimp only
    split
    · exact next
    · exact next.trans (.pollerRemove _ smon)

/-- Freeing files. -/
theorem Freed.filesOnly {gone : List Pointer} (freed : Freed gone before after)
    (same : SameTables before after) (files : ∀ fmon ∈ gone, before.subMonitors fmon = none) :
    FilesOnly smon before after where
  maxOpenFiles := same.maxOpenFiles
  dirHash := same.dirHash
  fileHash := same.fileHash
  missing := by rw [same.pollers]
  unsupported := by rw [same.pollers]
  walking := by rw [same.pollers]
  shapes other := by rw [same.subMonitors]
  monitors other known := (freed.kept other fun member => by
    rw [files other member] at known
    contradiction).1
  elsewhere other _ := by rw [same.subMonitors]
  owners fmon file found _ := by
    by_cases member : fmon ∈ gone
    · rw [(freed.gone fmon member).2] at found
      contradiction
    · rw [← (freed.kept fmon member).2]
      exact found

/-- The entries of a table are files. -/
theorem Filed.entry_file (filed : Filed state) (found : state.subMonitors smon = some sub)
    {entry : Bytes × Pointer} (member : entry ∈ sub.fmons.main) : state.subMonitors entry.2 = none :=
  (filed.fileKnown entry.2 _ ((filed.tables smon sub found).listed entry member)).2.1

theorem Filed.entries_files (filed : Filed state) (found : state.subMonitors smon = some sub)
    (goes : Bytes × Pointer → Bool) :
    ∀ fmon ∈ (sub.fmons.main.filter goes).map Prod.snd, state.subMonitors fmon = none := by
  intro fmon member
  obtain ⟨entry, inFilter, rfl⟩ := List.mem_map.mp member
  exact filed.entry_file found (List.mem_filter.mp inFilter).1

/-- Freeing files of a directory whose tables have been rewritten. -/
theorem FilesOnly.setSub_freeEntries (found : state.subMonitors smon = some sub) (next : SubMonitor)
    (same : next.shape = sub.shape) (entries : List (Bytes × Pointer))
    (files : ∀ fmon ∈ entries.map Prod.snd, state.subMonitors fmon = none) :
    FilesOnly smon state (freeEntries (state.setSub smon next) entries) := by
  refine (FilesOnly.setSub found next same).trans ?_
  refine (freed_freeEntries _ entries).filesOnly (sameTables_freeEntries _ entries) fun fmon member => ?_
  have file := files fmon member
  rw [subMonitors_setSub, if_neg fun here => by
    rw [here, found] at file
    contradiction]
  exact file

theorem FilesOnly.removeFmon (filed : Filed state) (smon : Pointer) (entry : Bytes × Pointer) :
    FilesOnly smon state (removeFmon state smon entry) := by
  cases found : state.subMonitors smon with
  | none =>
    simp only [Kqueue.removeFmon, found]
    exact .refl smon state
  | some sub =>
    cases walking : sub.fmons.iterating with
    | true =>
      simp only [Kqueue.removeFmon, found, walking, if_true]
      exact .setSub found _ (by simp [SubMonitor.shape, walking])
    | false =>
      rw [removeFmon_resting found walking]
      exact .setSub_freeEntries found _ (by rfl) _ (filed.entries_files found _)

theorem FilesOnly.made (filed : Filed state) (smon : Pointer) (filename : Bytes) :
    FilesOnly smon state (fileMonitorMade state smon filename) where
  maxOpenFiles := rfl
  dirHash := rfl
  fileHash := rfl
  missing := rfl
  unsupported := rfl
  walking := rfl
  shapes _ := rfl
  monitors other known := by
    obtain ⟨otherSub, foundOther⟩ := Option.isSome_iff_exists.mp known
    exact (made_other state smon filename
      (filed.held.below (filed.subKnown other otherSub foundOther)).ne).1
  elsewhere _ _ := rfl
  owners fmon file found different := by
    by_cases fresh : fmon = state.nextPointer
    · rw [fresh, made_file] at found
      cases found
      exact absurd rfl different
    · rw [← (made_other state smon filename fresh).2]
      exact found

theorem Filed.fresh_not_sub (filed : Filed state) : state.subMonitors state.nextPointer = none := by
  refine Option.eq_none_iff_forall_ne_some.mpr fun sub isSub => ?_
  have alive := filed.subKnown _ sub isSub
  rw [filed.held.fresh _ (Nat.le_refl _)] at alive
  contradiction

theorem FilesOnly.enter (filed : Filed state) (found : state.subMonitors smon = some sub)
    (resting : sub.fmons.iterating = false) (filename : Bytes) :
    FilesOnly smon state (fileMonitorEnter state smon filename) := by
  rw [enter_resting found resting]
  have foundMade : (fileMonitorMade state smon filename).subMonitors smon = some sub := found
  exact (FilesOnly.made filed smon filename).trans
    (.setSub_freeEntries foundMade _ (by rfl) _ (filed.entries_files found _))

/-! ## Functions on file monitors -/

theorem enter_found (found : state.subMonitors smon = some sub) (resting : sub.fmons.iterating = false)
    (filename : Bytes) :
    (fileMonitorEnter state smon filename).subMonitors smon =
      some (sub.setFiles
        ((filename, state.nextPointer) :: sub.fmons.main.filter (·.1 ≠ filename))) := by
  rw [enter_resting found resting, (sameTables_freeEntries _ _).subMonitors, subMonitors_setSub,
    if_pos rfl]

/-- A file monitor that is new is not on the list of those that are polled. -/
theorem enter_unpolled (filed : Filed state) (found : state.subMonitors smon = some sub)
    (resting : sub.fmons.iterating = false) (filename : Bytes)
    (entered : Filed (fileMonitorEnter state smon filename)) (other : Pointer) (otherSub : SubMonitor)
    (foundOther : (fileMonitorEnter state smon filename).subMonitors other = some otherSub) :
    ¬ otherSub.unsupportedFmons.Holds state.nextPointer := by
  intro holds
  have here := entered.smon_of_holds foundOther holds
    ((entered.tables smon _ (enter_found found resting filename)).listed _ List.mem_cons_self)
  have here : smon = other := here
  subst here
  rw [enter_found found resting filename] at foundOther
  cases foundOther
  -- It would have been polled before it was there.
  have old := filed.tables smon sub found
  obtain ⟨name, member⟩ := old.polled state.nextPointer holds
  have alive := (filed.fileKnown _ _ (old.listed _ member)).1
  rw [filed.held.fresh _ (Nat.le_refl _)] at alive
  contradiction

theorem enter_file (found : state.subMonitors smon = some sub)
    (resting : sub.fmons.iterating = false) (filename : Bytes)
    (entered : Filed (fileMonitorEnter state smon filename)) :
    (fileMonitorEnter state smon filename).fileMonitors state.nextPointer =
      some { smon := smon, filename := filename } :=
  (entered.tables smon _ (enter_found found resting filename)).listed _ List.mem_cons_self

theorem enter_without (filed : Filed state) (found : state.subMonitors smon = some sub)
    (resting : sub.fmons.iterating = false) (filename : Bytes) :
    (fileMonitorEnter state smon filename).fdOf state.nextPointer = none := by
  obtain ⟨monitor, isMonitor, noFd⟩ := made_monitor state smon filename
  rw [enter_resting found resting]
  have kept := (freed_freeEntries ((fileMonitorMade state smon filename).setSub smon
    (sub.setFiles ((filename, state.nextPointer) :: sub.fmons.main.filter (·.1 ≠ filename))))
    (sub.fmons.main.filter (·.1 = filename))).kept state.nextPointer fun inGone => by
      obtain ⟨goner, inFilter, isFresh⟩ := List.mem_map.mp inGone
      have listed := (filed.tables smon sub found).listed goner (List.mem_filter.mp inFilter).1
      have alive := (filed.fileKnown _ _ listed).1
      rw [isFresh, filed.held.fresh _ (Nat.le_refl _)] at alive
      contradiction
  rw [Backend.fdOf_of_monitor (kept.1.trans isMonitor), noFd]

theorem setUnsupported_kept (filed : Filed state) {file : FileMonitor}
    (foundFile : state.fileMonitors fmon = some file) (resting : Resting state file.smon) :
    Kept file.smon state (gamKqueueFileMonitorSetUnsupported state fmon) := by
  obtain ⟨alive, bare, sub, found, member⟩ := filed.fileKnown fmon file foundFile
  have touches := touches_setUnsupported state fmon
  have without : (gamKqueueMonitorSetUnsupported state fmon).fdOf fmon = none := by
    rw [fdOf_setUnsupported, if_pos rfl]
  have next := filed.touchWithout touches (filed.held.setUnsupported fmon) (.inl without)
  unfold gamKqueueFileMonitorSetUnsupported
  dsimp only
  rw [touches.fileMonitors, foundFile]
  have foundNext := (congrFun touches.subMonitors file.smon).trans found
  have added := next.addUnsupportedFmon foundNext member without (resting sub found).1 (resting sub found).2
  exact ⟨added, (touches.filesOnly bare).trans (.addUnsupportedFmon _ _ _)⟩

theorem fileMonitorNew_kept (filed : Filed state) (found : state.subMonitors smon = some sub)
    (resting : Resting state smon) {filename : Bytes}
    (unpolled : ∀ old, (filename, old) ∈ sub.fmons.main → ¬ sub.unsupportedFmons.Holds old) :
    Kept smon state (gamKqueueFileMonitorNew state smon filename).1 := by
  have restingFiles := (resting sub found).1
  have entered := filed.enter found restingFiles unpolled
  have only := FilesOnly.enter filed found restingFiles filename
  have isFile := enter_file found restingFiles filename entered
  have without := enter_without filed found restingFiles filename
  have newUnpolled := enter_unpolled filed found restingFiles filename entered
  have restingNext := only.resting resting
  unfold gamKqueueFileMonitorNew
  generalize fileMonitorEnter state smon filename = next at entered only isFile without newUnpolled restingNext ⊢
  obtain ⟨_, bare, _⟩ := entered.fileKnown _ _ isFile
  have touches := touches_enableKqueue next state.nextPointer
  have enabled := entered.touchUnpolled touches (entered.held.enableKqueue without) newUnpolled
  have first : Kept smon state (gamKqueueMonitorEnableKqueue next state.nextPointer).1 :=
    ⟨enabled, only.trans (touches.filesOnly bare)⟩
  have isFileNext := (congrFun touches.fileMonitors state.nextPointer).trans isFile
  have restingLast := first.only.resting resting
  dsimp only
  generalize gamKqueueMonitorEnableKqueue next state.nextPointer = result at first isFileNext restingLast ⊢
  obtain ⟨last, succeeded⟩ := result
  cases succeeded with
  | true => exact first
  | false => exact first.trans (setUnsupported_kept first.filed isFileNext restingLast)

/-- Sending an event changes nothing but the answers to come and what has been sent. -/
theorem fileMonitorSend_eq (state : Backend) (fmon : Pointer) (event : GaminEventType)
    (kind : Option Bool) :
    ∃ answers sent, (fileMonitorSend state fmon event kind).1 =
      { state with answers := answers, sent := sent } := by
  unfold fileMonitorSend
  split
  case h_1 =>
    cases kind with
    | some isdir => exact ⟨_, _, rfl⟩
    | none => exact ⟨_, _, rfl⟩
  case h_2 => exact ⟨_, _, rfl⟩

theorem Filed.answered (filed : Filed state) (answers : Nat → Answers) (sent : List Emission) :
    Filed { state with answers := answers, sent := sent } :=
  filed.congr (filed.held.congr rfl rfl rfl (fun _ => rfl) filed.held.fresh) rfl rfl rfl

theorem answered_kept (smon : Pointer) (filed : Filed state) (answers : Nat → Answers) (sent : List Emission) :
    Kept smon state { state with answers := answers, sent := sent } :=
  ⟨filed.answered answers sent, { FilesOnly.refl smon state with }⟩

theorem fileMonitorSend_kept (filed : Filed state) (fmon : Pointer) (event : GaminEventType)
    (kind : Option Bool) : Kept smon state (fileMonitorSend state fmon event kind).1 := by
  obtain ⟨answers, sent, same⟩ := fileMonitorSend_eq state fmon event kind
  rw [same]
  exact answered_kept smon filed answers sent

theorem newFile_kept (filed : Filed state) (found : state.subMonitors smon = some sub)
    (resting : Resting state smon) {filename : Bytes}
    (unpolled : ∀ old, (filename, old) ∈ sub.fmons.main → ¬ sub.unsupportedFmons.Holds old)
    (event : GaminEventType) : Kept smon state (newFile smon event state filename) := by
  have made := fileMonitorNew_kept filed found resting unpolled
  unfold newFile
  generalize gamKqueueFileMonitorNew state smon filename = result at made ⊢
  obtain ⟨next, new, kind⟩ := result
  exact made.trans (fileMonitorSend_kept made.filed new event kind)

end Gamin.Kqueue
