import Gamin.Kqueue.Files

/-! # Directories that change, and files that are polled

The functions that walk the tables of a directory.  While the files are walked those that are gone stay
in the table; while the polled files are walked each of them is still polled when its turn comes.
-/

namespace Gamin.Kqueue

open Gamin Gamin.Server Gamin.Inotify Gamin.Library

variable {state before middle after : Backend} {smon fmon : Pointer} {sub : SubMonitor}

/-! ## Events about files -/

/-- Once a file that is to go is not polled, nothing of its name is. -/
theorem fileMonitorGone_unpolled (filed : Filed state) {file : FileMonitor} {mon : Monitor}
    (foundMonitor : state.monitor fmon = some mon) (foundFile : state.fileMonitors fmon = some file) :
    ∃ sub, (if mon.fd = none then removeUnsupportedFmon state file.smon fmon else state).subMonitors
        file.smon = some sub ∧
      ∀ old, (file.filename, old) ∈ sub.fmons.main → ¬ sub.unsupportedFmons.Holds old := by
  obtain ⟨_, _, sub, found, member⟩ := filed.fileKnown fmon file foundFile
  have old := filed.tables file.smon sub found
  split
  case isTrue =>
    refine ⟨{ sub with unsupportedFmons := sub.unsupportedFmons.remove fmon }, ?_, fun other inMain holds => ?_⟩
    · rw [subMonitors_removeUnsupportedFmon found, Function.update_self]
    · have same := old.unique member inMain
      exact (old.orderlyPolled.holds_remove.mp holds).2 same.symm
  case isFalse hasFd =>
    refine ⟨sub, found, fun other inMain holds => hasFd ?_⟩
    have same := old.unique member inMain
    subst same
    exact (Backend.fdOf_of_monitor foundMonitor).symm.trans (old.without fmon holds (by intro; contradiction))

theorem removeFmon_kept (filed : Filed state) (found : state.subMonitors smon = some sub)
    (entry : Bytes × Pointer)
    (unpolled : ∀ old, (entry.1, old) ∈ sub.fmons.main → ¬ sub.unsupportedFmons.Holds old) :
    Kept smon state (removeFmon state smon entry) :=
  ⟨filed.removeFmon found entry unpolled, .removeFmon filed smon entry⟩

theorem fileMonitorGone_kept (filed : Filed state) {file : FileMonitor} {mon : Monitor}
    (foundMonitor : state.monitor fmon = some mon) (foundFile : state.fileMonitors fmon = some file)
    {possiblyRecreated : Bool} (resting : possiblyRecreated = true → Resting state file.smon)
    (statted : Option Bool) :
    Kept file.smon state (fileMonitorGone state fmon file mon possiblyRecreated statted) := by
  obtain ⟨sub, found, unpolled⟩ := fileMonitorGone_unpolled filed foundMonitor foundFile
  have first : Kept file.smon state
      (if mon.fd = none then removeUnsupportedFmon state file.smon fmon else state) := by
    split
    · have removed := (filed.weaken (some fmon)).polledNoMore foundFile
      exact ⟨removed, .removeUnsupportedFmon _ _ _⟩
    · exact ⟨filed, .refl file.smon state⟩
  unfold fileMonitorGone
  generalize (if mon.fd = none then removeUnsupportedFmon state file.smon fmon else state) = next
    at found first ⊢
  -- whatever `lstat` says, it is taken out of the table or made anew
  have removed (answers : Nat → Answers) : Kept file.smon state
      (removeFmon { next with answers := answers } file.smon (file.filename, fmon)) := by
    have answered := answered_kept file.smon first.filed answers next.sent
    exact (first.trans answered).trans
      (removeFmon_kept answered.filed found (file.filename, fmon) unpolled)
  have recreated (again : possiblyRecreated = true) (answers : Nat → Answers) : Kept file.smon state
      (newFile file.smon .created { next with answers := answers } file.filename) := by
    have answered := answered_kept file.smon first.filed answers next.sent
    exact (first.trans answered).trans (newFile_kept answered.filed found
      ((first.trans answered).only.resting (resting again)) unpolled .created)
  dsimp only
  split
  case isTrue again =>
    cases statted with
    | some succeeded =>
      cases succeeded with
      | true => exact recreated again next.answers
      | false => exact removed next.answers
    | none =>
      cases (next.answer.lstat mon.pathname).isSome with
      | true => exact recreated again next.called.answers
      | false => exact removed next.called.answers
  case isFalse => exact removed next.answers

theorem fileMonitorEmitEvent_kept (filed : Filed state) (fmon : Pointer) (event : GaminEventType)
    (kind : Option Bool) {possiblyRecreated : Bool}
    (own : ∀ file, state.fileMonitors fmon = some file → file.smon = smon)
    (resting : possiblyRecreated = true → Resting state smon) :
    Kept smon state (gamKqueueFileMonitorEmitEvent state fmon event kind possiblyRecreated) := by
  unfold gamKqueueFileMonitorEmitEvent
  split
  case h_1 mon file foundMonitor foundFile =>
    have here := own file foundFile
    subst here
    obtain ⟨answers, sent, same⟩ := fileMonitorSend_eq state fmon event kind
    have first := answered_kept file.smon filed answers sent
    rw [← same] at first
    dsimp only
    split
    case isTrue =>
      refine first.trans (fileMonitorGone_kept first.filed ?_ ?_ (fun again => ?_) _)
      · rw [same]
        exact foundMonitor
      · rw [same]
        exact foundFile
      · exact first.only.resting (resting again)
    case isFalse => exact first
  case h_2 => exact ⟨filed, .refl smon state⟩

/-! ## Names that are read -/

/-- The names of the files of a directory. -/
def fileNames (state : Backend) (smon : Pointer) : List Bytes :=
  ((state.subMonitors smon).map (·.fmons.main.map Prod.fst)).getD []

theorem fileNames_found (found : state.subMonitors smon = some sub) :
    fileNames state smon = sub.fmons.main.map Prod.fst := by
  rw [fileNames, found, Option.map_some, Option.getD_some]

theorem unpolled_of_unnamed {filename : Bytes} (found : state.subMonitors smon = some sub)
    (unnamed : filename ∉ fileNames state smon) (old : Pointer)
    (member : (filename, old) ∈ sub.fmons.main) : ¬ sub.unsupportedFmons.Holds old := by
  rw [fileNames_found found] at unnamed
  exact absurd (List.mem_map_of_mem member) unnamed

theorem addUnsupportedFmon_files (state : Backend) (smon fmon other : Pointer) :
    fileNames (addUnsupportedFmon state smon fmon) other = fileNames state other := by
  unfold Kqueue.addUnsupportedFmon
  cases found : state.subMonitors smon with
  | none => rfl
  | some sub =>
    have same : fileNames (state.setSub smon
        { sub with unsupportedFmons := sub.unsupportedFmons.add fmon }) other = fileNames state other := by
      rw [fileNames, subMonitors_setSub, fileNames]
      split
      case isTrue here => rw [here, found, Option.map_some, Option.map_some]
      case isFalse => rfl
    dsimp only
    split <;> exact same

theorem Touches.fileNames {mon : Pointer} (touches : Touches mon before after) (smon : Pointer) :
    fileNames after smon = fileNames before smon := by
  rw [Kqueue.fileNames, touches.subMonitors, Kqueue.fileNames]

/-- A new file brings no name but its own. -/
theorem newFile_names (found : state.subMonitors smon = some sub) (resting : sub.fmons.iterating = false)
    (event : GaminEventType) {filename other : Bytes}
    (member : other ∈ fileNames (newFile smon event state filename) smon) :
    other = filename ∨ other ∈ fileNames state smon := by
  have entered : fileNames (fileMonitorEnter state smon filename) smon =
      filename :: (sub.fmons.main.filter (·.1 ≠ filename)).map Prod.fst := by
    rw [fileNames_found (enter_found found resting filename)]
    rfl
  -- neither `kqueue` nor the events about the file touch the names
  have same : fileNames (newFile smon event state filename) smon =
      fileNames (fileMonitorEnter state smon filename) smon := by
    unfold newFile gamKqueueFileMonitorNew
    dsimp only
    have touches := touches_enableKqueue (fileMonitorEnter state smon filename) state.nextPointer
    generalize gamKqueueMonitorEnableKqueue (fileMonitorEnter state smon filename) state.nextPointer =
      result at touches ⊢
    obtain ⟨next, succeeded⟩ := result
    rw [← touches.fileNames smon]
    cases succeeded with
    | true =>
      obtain ⟨answers, sent, sending⟩ := fileMonitorSend_eq next state.nextPointer event none
      dsimp only
      rw [sending]
      rfl
    | false =>
      dsimp only
      generalize Option.map _ _ = kind
      obtain ⟨answers, sent, sending⟩ := fileMonitorSend_eq
        (gamKqueueFileMonitorSetUnsupported next state.nextPointer) state.nextPointer event kind
      rw [sending, ← (touches_setUnsupported next state.nextPointer).fileNames smon]
      change fileNames (gamKqueueFileMonitorSetUnsupported next state.nextPointer) smon = _
      unfold gamKqueueFileMonitorSetUnsupported
      dsimp only
      split
      · rfl
      · exact addUnsupportedFmon_files _ _ _ _
  rw [same, entered] at member
  cases member with
  | head => exact .inl rfl
  | tail _ inOld =>
    obtain ⟨entry, inFilter, rfl⟩ := List.mem_map.mp inOld
    rw [fileNames_found found]
    exact .inr (List.mem_map_of_mem (List.mem_filter.mp inFilter).1)

/-- All names of a directory of which no file is known. -/
theorem newFiles_kept (event : GaminEventType) {names : List Bytes} (nodup : names.Nodup)
    (filed : Filed state) (known : (state.subMonitors smon).isSome) (resting : Resting state smon)
    (unnamed : ∀ name ∈ names, name ∉ fileNames state smon) :
    Kept smon state (names.foldl (newFile smon event) state) := by
  induction names generalizing state with
  | nil => exact ⟨filed, .refl smon state⟩
  | cons name names inductionHypothesis =>
    obtain ⟨absent, restNodup⟩ := List.nodup_cons.mp nodup
    obtain ⟨sub, found⟩ := Option.isSome_iff_exists.mp known
    have first := newFile_kept filed found resting
      (unpolled_of_unnamed found (unnamed name List.mem_cons_self)) event
    refine first.trans (inductionHypothesis restNodup first.filed ((first.only.isSome smon).trans known)
      (first.only.resting resting) fun other inRest member => ?_)
    cases newFile_names found (resting sub found).1 event member with
    | inl same => exact absent (same ▸ inRest)
    | inr old => exact unnamed other (List.mem_cons_of_mem _ inRest) old

theorem changedName_kept (filed : Filed state) (resting : Resting state smon) (filename : Bytes) :
    Kept smon state (changedName smon state filename) := by
  unfold changedName
  cases found : state.subMonitors smon with
  | none => exact ⟨filed, .refl smon state⟩
  | some sub =>
    dsimp only
    split
    case isTrue => exact ⟨filed, .refl smon state⟩
    case isFalse absent =>
      rw [← fileNames_found found] at absent
      exact newFile_kept filed found resting (unpolled_of_unnamed found absent) .created

theorem changedNames_kept (names : List Bytes) (filed : Filed state) (resting : Resting state smon) :
    Kept smon state (names.foldl (changedName smon) state) := by
  induction names generalizing state with
  | nil => exact ⟨filed, .refl smon state⟩
  | cons name names inductionHypothesis =>
    have first := changedName_kept filed resting name
    exact first.trans (inductionHypothesis first.filed (first.only.resting resting))

/-! ## Walks over the files of a directory -/

theorem changeRemovals_kept (names : List Bytes) (walk : List (Bytes × Pointer)) (filed : Filed state)
    (own : ∀ entry ∈ walk, ∀ file, state.fileMonitors entry.2 = some file → file.smon = smon) :
    Kept smon state (walk.foldl (changeRemoval names) state) := by
  induction walk generalizing state with
  | nil => exact ⟨filed, .refl smon state⟩
  | cons entry walk inductionHypothesis =>
    have first : Kept smon state (changeRemoval names state entry) := by
      unfold changeRemoval
      split
      · exact ⟨filed, .refl smon state⟩
      · exact fileMonitorEmitEvent_kept filed entry.2 .deleted (some false)
          (own entry List.mem_cons_self) nofun
    refine first.trans (inductionHypothesis first.filed fun other member file isFile => ?_)
    by_contra different
    exact different (own other (List.mem_cons_of_mem _ member) file
      (first.only.owners _ file isFile different))

theorem removeFmons_only (removals : List (Bytes × Pointer)) (filed : Filed state)
    (found : state.subMonitors smon = some sub) (resting : sub.fmons.iterating = false)
    (unpolled : ∀ entry ∈ removals, ∀ fmon, (entry.1, fmon) ∈ sub.fmons.main →
      ¬ sub.unsupportedFmons.Holds fmon) :
    FilesOnly smon state (removals.foldl (removeFmon · smon) state) := by
  induction removals generalizing state sub with
  | nil => exact .refl smon state
  | cons entry removals inductionHypothesis =>
    have next := filed.removeFmon found entry (unpolled entry List.mem_cons_self)
    have foundNext := removeFmon_found found resting entry
    refine (FilesOnly.removeFmon filed smon entry).trans (inductionHypothesis next foundNext resting ?_)
    exact fun other member fmon inMain =>
      unpolled other (List.mem_cons_of_mem _ member) fmon (List.mem_filter.mp inMain).1

/-- A walk that is over leaves the shape of the tables as it was. -/
theorem FilesOnly.unwalk {walked next : SubMonitor} (found : before.subMonitors smon = some sub)
    (only : FilesOnly smon (before.setSub smon walked) after) (same : next.shape = sub.shape) :
    FilesOnly smon before (after.setSub smon next) where
  maxOpenFiles := only.maxOpenFiles
  dirHash := only.dirHash
  fileHash := only.fileHash
  missing := only.missing
  unsupported := only.unsupported
  walking := only.walking
  shapes other := by
    rw [subMonitors_setSub]
    split
    case isTrue here => rw [here, found, Option.map_some, Option.map_some, same]
    case isFalse different =>
      rw [only.shapes, subMonitors_setSub, if_neg different]
  monitors other known := by
    refine only.monitors other ?_
    rw [subMonitors_setSub]
    split
    · rfl
    · exact known
  elsewhere other different := by
    rw [subMonitors_setSub, if_neg different, only.elsewhere other different, subMonitors_setSub,
      if_neg different]
  owners fmon file isFile different := only.owners fmon file isFile different

theorem finishFmons_only {walked : SubMonitor} (found : before.subMonitors smon = some sub)
    (resting : sub.fmons.iterating = false) (filed : Filed after)
    (only : FilesOnly smon (before.setSub smon walked) after)
    (shape : walked.shape = (sub.isdir, true, sub.unsupportedFmons.iterating)) :
    FilesOnly smon before (finishFmons after smon) := by
  have foundWalked : (before.setSub smon walked).subMonitors smon = some walked := by
    rw [subMonitors_setSub, if_pos rfl]
  have known := only.isSome smon
  rw [foundWalked] at known
  obtain ⟨last, foundLast⟩ := Option.isSome_iff_exists.mp known
  have lastShape := (only.shape foundWalked foundLast).trans shape
  have old := filed.tables smon last foundLast
  have next := filed.setSub foundLast { last with fmons := { DeferredSet.new with main := last.fmons.main } }
    rfl { old with
      settled := rfl
      orderly := fun _ => ⟨rfl, rfl⟩
      leaving := fun _ member => nomatch member }
  have foundNext := (subMonitors_setSub after smon
    { last with fmons := { DeferredSet.new with main := last.fmons.main } } smon).trans (if_pos rfl)
  have sameShape : SubMonitor.shape { last with fmons := { DeferredSet.new with main := last.fmons.main } } =
      sub.shape := by
    simp only [SubMonitor.shape, Prod.mk.injEq] at lastShape ⊢
    exact ⟨lastShape.1, resting.symm, lastShape.2.2⟩
  simp only [finishFmons, foundLast, old.settled, List.foldl_nil]
  exact (only.unwalk found sameShape).trans
    (removeFmons_only last.fmons.pendingRemovals next foundNext rfl old.leaving)

theorem directoryChange_kept (filed : Filed state) (resting : Resting state smon) (pathname : Bytes)
    (isdir : Bool) :
    Kept smon state (gamKqueueSubMonitorHandleDirectoryChange state smon pathname isdir) := by
  unfold gamKqueueSubMonitorHandleDirectoryChange
  dsimp only
  generalize (if isdir then ((state.answer.listing pathname).map (·.names)).getD [] else []) = names
  have first : Kept smon state (if isdir then names.foldl (changedName smon) state.called else state) := by
    split
    · have called := answered_kept smon filed state.called.answers state.sent
      exact called.trans (changedNames_kept names called.filed (called.only.resting resting))
    · exact ⟨filed, .refl smon state⟩
  generalize (if isdir then names.foldl (changedName smon) state.called else state) = next at first ⊢
  cases found : next.subMonitors smon with
  | none => exact first
  | some sub =>
    obtain ⟨restingFiles, _⟩ := first.only.resting resting sub found
    have called := answered_kept smon first.filed next.called.answers next.sent
    have old := called.filed.tables smon sub found
    have walked := called.filed.setSub found { sub with fmons := sub.fmons.walked } rfl
      { old with
        orderly := DeferredSet.orderly_walked _
        leaving := old.leaving }
    have removals := @changeRemovals_kept _ smon names (shuffle next.answer.order sub.fmons.main) walked
      fun entry member file isFile => by
        have listed := old.listed entry (mem_shuffle.mp member)
        cases listed.symm.trans isFile
        rfl
    exact (first.trans called).trans
      ⟨removals.filed.finishFmons smon, finishFmons_only found restingFiles removals.filed removals.only rfl⟩

/-! ## Files that are polled -/

/-- All files that were polled, but for one, still are. -/
def PolledBut (fmon : Pointer) (before after : Backend) : Prop :=
  ∀ smon sub, before.subMonitors smon = some sub → ∃ next, after.subMonitors smon = some next ∧
    ∀ other, other ≠ fmon → sub.unsupportedFmons.Holds other → next.unsupportedFmons.Holds other

theorem PolledBut.of_eq (same : after.subMonitors = before.subMonitors) : PolledBut fmon before after :=
  fun _ sub found => ⟨sub, same ▸ found, fun _ _ holds => holds⟩

theorem PolledBut.trans (first : PolledBut fmon before middle) (second : PolledBut fmon middle after) :
    PolledBut fmon before after := by
  intro smon sub found
  obtain ⟨next, foundNext, kept⟩ := first smon sub found
  obtain ⟨last, foundLast, keptLast⟩ := second smon next foundNext
  exact ⟨last, foundLast, fun other different holds => keptLast other different (kept other different holds)⟩

theorem PolledBut.setSub (found : state.subMonitors smon = some sub) (next : SubMonitor)
    (kept : ∀ other, other ≠ fmon → sub.unsupportedFmons.Holds other → next.unsupportedFmons.Holds other) :
    PolledBut fmon state (state.setSub smon next) := by
  intro other otherSub foundOther
  by_cases here : other = smon
  · subst here
    rw [found] at foundOther
    cases foundOther
    exact ⟨next, by rw [subMonitors_setSub, if_pos rfl], kept⟩
  · exact ⟨otherSub, by rw [subMonitors_setSub, if_neg here, foundOther], fun _ _ holds => holds⟩

theorem PolledBut.removeUnsupportedFmon (filed : Filed state) (smon fmon : Pointer) :
    PolledBut fmon state (removeUnsupportedFmon state smon fmon) := by
  cases found : state.subMonitors smon with
  | none =>
    simp only [Kqueue.removeUnsupportedFmon, found]
    exact .of_eq rfl
  | some sub =>
    have old := filed.tables smon sub found
    have kept := @PolledBut.setSub state smon fmon sub found
      { sub with unsupportedFmons := sub.unsupportedFmons.remove fmon }
      fun other different holds => old.orderlyPolled.holds_remove.mpr ⟨holds, different⟩
    refine kept.trans (.of_eq ?_)
    rw [subMonitors_removeUnsupportedFmon found]
    rfl

theorem PolledBut.removeFmon (state : Backend) (smon : Pointer) (entry : Bytes × Pointer) :
    PolledBut fmon state (removeFmon state smon entry) := by
  cases found : state.subMonitors smon with
  | none =>
    simp only [Kqueue.removeFmon, found]
    exact .of_eq rfl
  | some sub =>
    cases walking : sub.fmons.iterating with
    | true =>
      simp only [Kqueue.removeFmon, found, walking, if_true]
      exact .setSub found _ fun _ _ holds => holds
    | false =>
      rw [removeFmon_resting found walking]
      exact (PolledBut.setSub found (sub.setFiles (sub.fmons.main.filter (·.1 ≠ entry.1)))
        fun _ _ holds => holds).trans (.of_eq (sameTables_freeEntries _ _).subMonitors)

theorem fileMonitorEmitEvent_polledBut (filed : Filed state) (fmon : Pointer) (event : GaminEventType)
    (kind : Option Bool) :
    PolledBut fmon state (gamKqueueFileMonitorEmitEvent state fmon event kind false) := by
  unfold gamKqueueFileMonitorEmitEvent
  split
  case h_1 mon file foundMonitor foundFile =>
    obtain ⟨answers, sent, same⟩ := fileMonitorSend_eq state fmon event kind
    have first : PolledBut fmon state (fileMonitorSend state fmon event kind).1 := .of_eq (by rw [same])
    have filedNext := (@fileMonitorSend_kept _ file.smon filed fmon event kind).filed
    dsimp only
    split
    case isTrue =>
      refine first.trans ?_
      unfold fileMonitorGone
      dsimp only
      rw [if_neg nofun]
      split
      · exact (PolledBut.removeUnsupportedFmon filedNext file.smon fmon).trans (.removeFmon _ _ _)
      · exact .removeFmon _ _ _
    case isFalse => exact first
  case h_2 => exact .of_eq rfl

/-- A monitor that could not be enabled has no descriptor if it had none before. -/
theorem fdOf_enableKqueue_failed {mon : Pointer} (without : state.fdOf mon = none)
    (failed : (gamKqueueMonitorEnableKqueue state mon).2 = false) :
    (gamKqueueMonitorEnableKqueue state mon).1.fdOf mon = none := by
  unfold gamKqueueMonitorEnableKqueue at failed ⊢
  cases found : state.monitor mon with
  | none => exact without
  | some monitor =>
    simp only [found] at failed
    dsimp only
    split
    case isTrue => exact without
    case isFalse full =>
      rw [if_neg full] at failed
      cases opened : state.answer.opens monitor.pathname with
      | none => exact (Backend.fdOf_setMonitor _ _ _ _).trans (if_pos rfl)
      | some hint =>
        simp only [opened] at failed
        dsimp only
        split
        case isTrue enabled =>
          rw [if_pos enabled] at failed
          contradiction
        case isFalse => exact (Backend.fdOf_setMonitor _ _ _ _).trans (if_pos rfl)

theorem miniLstat_eq (state : Backend) (pathname : Bytes) :
    ∃ answers, (gamKqueueMiniLstat state pathname).1 = { state with answers := answers } := by
  unfold gamKqueueMiniLstat
  split <;> exact ⟨_, rfl⟩

/-- A file is no directory, whatever happens to files. -/
theorem bare_of_kept (filed : Filed before) {file : FileMonitor}
    (foundFile : before.fileMonitors fmon = some file) (only : FilesOnly smon before after) :
    after.subMonitors fmon = none := by
  have same := only.isSome fmon
  rw [(filed.fileKnown fmon file foundFile).2.1] at same
  exact Option.isSome_eq_false_iff.mp same |> Option.isNone_iff_eq_none.mp

/-- A polled file tries to do without, now and then. -/
theorem fileMonitorRetry_kept (filed : Filed state) {mon : Monitor} {file : FileMonitor}
    (foundMonitor : state.monitor fmon = some mon) (foundFile : state.fileMonitors fmon = some file)
    (without : state.fdOf fmon = none) :
    Kept file.smon state (fileMonitorRetry state fmon mon file) ∧
      PolledBut fmon state (fileMonitorRetry state fmon mon file) := by
  obtain ⟨alive, bare, _⟩ := filed.fileKnown fmon file foundFile
  have counted (count : Nat) : Filed (state.setMonitor fmon { mon with pollCount := count }) ∧
      Touches fmon state (state.setMonitor fmon { mon with pollCount := count }) ∧
        (state.setMonitor fmon { mon with pollCount := count }).fdOf fmon = none := by
    have touches := touches_setMonitor alive { mon with pollCount := count }
    have noFd : (state.setMonitor fmon { mon with pollCount := count }).fdOf fmon = none := by
      rw [Backend.fdOf_setMonitor, if_pos rfl]
      exact (Backend.fdOf_of_monitor foundMonitor).symm.trans without
    exact ⟨filed.touchWithout touches (filed.held.setMonitor foundMonitor rfl) (.inl noFd), touches, noFd⟩
  unfold fileMonitorRetry
  split
  case isTrue =>
    obtain ⟨filedNow, touchesNow, noFd⟩ := counted 0
    generalize state.setMonitor fmon { mon with pollCount := 0 } = now at filedNow touchesNow noFd ⊢
    have bareNow := (congrFun touchesNow.subMonitors fmon).trans bare
    have foundNow := (congrFun touchesNow.fileMonitors fmon).trans foundFile
    have touches := touches_enableKqueue now fmon
    have held := filedNow.held.enableKqueue noFd
    have failed := @fdOf_enableKqueue_failed now fmon noFd
    generalize gamKqueueMonitorEnableKqueue now fmon = result at touches held failed ⊢
    have only := (@Touches.filesOnly _ _ file.smon _ touchesNow bare).trans (touches.filesOnly bareNow)
    have polled : PolledBut fmon state result.1 :=
      .of_eq (touches.subMonitors.trans touchesNow.subMonitors)
    have isFile := (congrFun touches.fileMonitors fmon).trans foundNow
    have enabled := filedNow.touch touches held
    obtain ⟨last, succeeded⟩ := result
    -- with a descriptor it is polled no more
    cases succeeded with
    | true =>
      have done := enabled.polledNoMore isFile
      refine ⟨⟨done, only.trans (.removeUnsupportedFmon _ _ _)⟩, polled.trans ?_⟩
      intro smon sub found
      by_cases here : smon = file.smon
      · subst here
        have old := enabled.tables _ sub found
        refine ⟨_, (congrFun (subMonitors_removeUnsupportedFmon found fmon) _).trans
          (Function.update_self _ _ _), fun other different holds => ?_⟩
        exact old.orderlyPolled.holds_remove.mpr ⟨holds, different⟩
      · refine ⟨sub, ?_, fun _ _ holds => holds⟩
        cases foundFile : last.subMonitors file.smon with
        | none => simpa only [removeUnsupportedFmon, foundFile] using found
        | some fileSub =>
          rw [subMonitors_removeUnsupportedFmon foundFile, Function.update_of_ne here, found]
    | false =>
      have filedLast := filedNow.touchWithout touches held (.inl (failed rfl))
      exact ⟨⟨filedLast, only⟩, polled⟩
  case isFalse =>
    obtain ⟨filedNow, touchesNow, _⟩ := counted (mon.pollCount + 1)
    exact ⟨⟨filedNow, touchesNow.filesOnly bare⟩, .of_eq touchesNow.subMonitors⟩

theorem unsupportedFmonPollForeachCb_kept (filed : Filed state) (without : state.fdOf fmon = none)
    (own : ∀ file, state.fileMonitors fmon = some file → file.smon = smon) :
    Kept smon state (gamKqueueUnsupportedFmonPollForeachCb state fmon) ∧
      PolledBut fmon state (gamKqueueUnsupportedFmonPollForeachCb state fmon) := by
  unfold gamKqueueUnsupportedFmonPollForeachCb
  split
  case h_2 => exact ⟨⟨filed, .refl smon state⟩, .of_eq rfl⟩
  case h_1 mon file foundMonitor foundFile =>
    have here := own file foundFile
    subst here
    obtain ⟨kept, polled⟩ := fileMonitorRetry_kept filed foundMonitor foundFile without
    generalize fileMonitorRetry state fmon mon file = next at kept polled ⊢
    obtain ⟨answers, statted⟩ := miniLstat_eq next mon.pathname
    have answered := answered_kept file.smon kept.filed answers next.sent
    rw [← statted] at answered
    have polledNext : PolledBut fmon next (gamKqueueMiniLstat next mon.pathname).1 :=
      .of_eq (by rw [statted])
    dsimp only
    generalize gamKqueueMiniLstat next mon.pathname = result at answered polledNext ⊢
    obtain ⟨last, sb⟩ := result
    have keptLast := kept.trans answered
    have polledLast := polled.trans polledNext
    dsimp only at keptLast polledLast ⊢
    split
    case h_2 => exact ⟨keptLast, polledLast⟩
    case h_1 event now _ foundNow =>
      -- the new `stat` is stored before the event goes out
      have touches := touches_setMonitor (by rw [foundNow]; rfl) { now with sb := sb }
      have filedNow := keptLast.filed.touchWithout touches (keptLast.filed.held.setMonitor foundNow rfl)
        (.inr (by rw [Backend.fdOf_setMonitor, if_pos rfl, Backend.fdOf_of_monitor foundNow]))
      have bare := bare_of_kept filed foundFile keptLast.only
      have keptNow := keptLast.trans ⟨filedNow, touches.filesOnly bare⟩
      have emitted := @fileMonitorEmitEvent_kept _ file.smon filedNow fmon event (some sb.isDir) false
        (fun now isFile => by
          by_contra different
          have before := keptNow.only.owners fmon now isFile different
          rw [foundFile] at before
          cases before
          exact different rfl) nofun
      have polledNow := fileMonitorEmitEvent_polledBut filedNow fmon event (some sb.isDir)
      refine ⟨keptNow.trans emitted, ?_⟩
      exact (polledLast.trans (.of_eq touches.subMonitors)).trans polledNow

/-- The polled files that a walk has still to come to are polled. -/
theorem polledFiles_kept (walk : List Pointer) (nodup : walk.Nodup) (filed : Filed state)
    (found : state.subMonitors smon = some sub)
    (polled : ∀ fmon ∈ walk, sub.unsupportedFmons.Holds fmon) :
    Kept smon state (walk.foldl gamKqueueUnsupportedFmonPollForeachCb state) := by
  induction walk generalizing state sub with
  | nil => exact ⟨filed, .refl smon state⟩
  | cons first walk inductionHypothesis =>
    obtain ⟨absent, restNodup⟩ := List.nodup_cons.mp nodup
    have without := (filed.tables smon sub found).without first (polled first List.mem_cons_self) nofun
    have own (file : FileMonitor) (isFile : state.fileMonitors first = some file) : file.smon = smon :=
      filed.smon_of_holds found (polled first List.mem_cons_self) isFile
    obtain ⟨kept, keptPolled⟩ := unsupportedFmonPollForeachCb_kept filed without own
    obtain ⟨next, foundNext, still⟩ := keptPolled smon sub found
    refine kept.trans (inductionHypothesis restNodup kept.filed foundNext fun fmon member => ?_)
    exact still fmon (fun same => absent (same ▸ member)) (polled fmon (List.mem_cons_of_mem _ member))

theorem finishUnsupportedFmons_kept {walked : SubMonitor} (found : before.subMonitors smon = some sub)
    (resting : sub.unsupportedFmons.iterating = false)
    (shape : walked.shape = (sub.isdir, sub.fmons.iterating, true))
    (kept : Kept smon (before.setSub smon walked) after) :
    Kept smon before (finishUnsupportedFmons after smon) := by
  have foundWalked : (before.setSub smon walked).subMonitors smon = some walked := by
    rw [subMonitors_setSub, if_pos rfl]
  have known := kept.only.isSome smon
  rw [foundWalked] at known
  obtain ⟨last, foundLast⟩ := Option.isSome_iff_exists.mp known
  -- the directory is still there, and its tables are walked as they were
  have lastShape := (kept.only.shape foundWalked foundLast).trans shape
  have old := kept.filed.tables smon last foundLast
  have filed := kept.filed.setSub foundLast { last with unsupportedFmons := last.unsupportedFmons.finish } rfl
    (old.repoll (fun _ holds => holds) (DeferredSet.nodup_finish old.distinct)
      (DeferredSet.orderly_finish _))
  have sameShape : SubMonitor.shape { last with unsupportedFmons := last.unsupportedFmons.finish } =
      sub.shape := by
    simp only [SubMonitor.shape, Prod.mk.injEq] at lastShape ⊢
    exact ⟨lastShape.1, lastShape.2.1, resting.symm⟩
  have only := kept.only.unwalk found sameShape
  simp only [finishUnsupportedFmons, foundLast]
  generalize after.setSub smon { last with unsupportedFmons := last.unsupportedFmons.finish } = next
    at filed only ⊢
  have added : Kept smon before (if last.unsupportedFmons.pendingAdditions = [] then next
      else gamKqueuePollerAddSubMonitor next .unsupportedFmon smon) := by
    split
    · exact ⟨filed, only⟩
    · exact ⟨filed.setPoller _ _, only.trans (.pollerAdd _ smon)⟩
  split
  · exact added
  · exact ⟨added.filed.setPoller _ _, added.only.trans (.pollerRemove _ smon)⟩

theorem unsupportedFmonPoll_kept (filed : Filed state) (resting : Resting state smon) :
    Kept smon state (gamKqueueUnsupportedFmonPoll state smon) := by
  unfold gamKqueueUnsupportedFmonPoll
  cases found : state.subMonitors smon with
  | none => exact ⟨filed, .refl smon state⟩
  | some sub =>
    have called := answered_kept smon filed state.called.answers state.sent
    have old := called.filed.tables smon sub found
    have walkedNow := called.filed.setSub found { sub with unsupportedFmons := sub.unsupportedFmons.walked }
      rfl (old.repoll (fun _ holds => DeferredSet.walked_holds.mp holds) old.distinct
        (DeferredSet.orderly_walked _))
    have foundWalked := (subMonitors_setSub state.called smon
      { sub with unsupportedFmons := sub.unsupportedFmons.walked } smon).trans (if_pos rfl)
    refine called.trans (@finishUnsupportedFmons_kept state.called _ smon sub
      { sub with unsupportedFmons := sub.unsupportedFmons.walked } found (resting sub found).2 rfl ?_)
    refine polledFiles_kept _ (nodup_shuffle.mpr old.distinct) walkedNow foundWalked fun fmon member => ?_
    refine DeferredSet.walked_holds.mpr ((old.orderlyPolled.holds (resting sub found).2).mpr ?_)
    exact mem_shuffle.mp member

end Gamin.Kqueue
