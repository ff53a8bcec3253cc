import Gamin.Kqueue.Backend

/-! # The tables of file monitors

Every file monitor is in the table of its directory under its name, and those that are polled have no
descriptor.  The invariant holds also while a table is walked; what goes after the walk counts as gone.
-/

namespace Gamin.Kqueue

open Gamin Gamin.Server Gamin.Inotify Gamin.Library

/-! ## The invariant -/

/-- The tables of one directory; `but` is a monitor that may have a descriptor though it is polled. -/
structure SubFiled (state : Backend) (but : Option Pointer) (smon : Pointer) (sub : SubMonitor) :
    Prop where
  listed : ∀ entry ∈ sub.fmons.main,
    state.fileMonitors entry.2 = some { smon := smon, filename := entry.1 }
  keyed : (sub.fmons.main.map Prod.fst).Nodup
  settled : sub.fmons.pendingAdditions = []
  orderly : sub.fmons.Orderly
  polled : ∀ fmon, sub.unsupportedFmons.Holds fmon → ∃ filename, (filename, fmon) ∈ sub.fmons.main
  without : ∀ fmon, sub.unsupportedFmons.Holds fmon → but ≠ some fmon → state.fdOf fmon = none
  distinct : sub.unsupportedFmons.main.Nodup
  orderlyPolled : sub.unsupportedFmons.Orderly
  leaving : ∀ entry ∈ sub.fmons.pendingRemovals, ∀ fmon, (entry.1, fmon) ∈ sub.fmons.main →
    ¬ sub.unsupportedFmons.Holds fmon

structure FiledBut (but : Option Pointer) (state : Backend) : Prop where
  held : Held state
  subKnown : ∀ smon sub, state.subMonitors smon = some sub → (state.monitor smon).isSome
  fileKnown : ∀ fmon file, state.fileMonitors fmon = some file →
    (state.monitor fmon).isSome ∧ state.subMonitors fmon = none ∧
      ∃ sub, state.subMonitors file.smon = some sub ∧ (file.filename, fmon) ∈ sub.fmons.main
  tables : ∀ smon sub, state.subMonitors smon = some sub → SubFiled state but smon sub

abbrev Filed : Backend → Prop := FiledBut none

variable {state before middle after : Backend} {but : Option Pointer} {smon fmon : Pointer} {sub : SubMonitor}

theorem subMonitors_setSub (state : Backend) (smon : Pointer) (sub : SubMonitor) (other : Pointer) :
    (state.setSub smon sub).subMonitors other =
      if other = smon then some sub else state.subMonitors other :=
  Function.update_apply _ _ _ _

theorem SubFiled.unpolled_new (subs : List GamSubscription) (isdir : Bool) :
    SubFiled state but smon { subs := subs, fmons := .new, unsupportedFmons := .new, isdir := isdir } where
  listed _ member := nomatch member
  keyed := .nil
  settled := rfl
  orderly := DeferredSet.orderly_new
  polled _ holds := absurd holds (DeferredSet.not_holds_new _)
  without _ holds := absurd holds (DeferredSet.not_holds_new _)
  distinct := .nil
  orderlyPolled := DeferredSet.orderly_new
  leaving _ member := nomatch member

theorem Filed.weaken (filed : Filed state) (but : Option Pointer) : FiledBut but state where
  held := filed.held
  subKnown := filed.subKnown
  fileKnown := filed.fileKnown
  tables smon sub found :=
    { filed.tables smon sub found with
      without := fun fmon holds _ => (filed.tables smon sub found).without fmon holds nofun }

/-- A monitor that is polled is in the table of its own directory. -/
theorem FiledBut.smon_of_holds (filed : FiledBut but state) (found : state.subMonitors smon = some sub)
    (holds : sub.unsupportedFmons.Holds fmon) {file : FileMonitor}
    (foundFile : state.fileMonitors fmon = some file) : file.smon = smon := by
  obtain ⟨filename, member⟩ := (filed.tables smon sub found).polled fmon holds
  rw [(filed.tables smon sub found).listed _ member] at foundFile
  cases foundFile
  rfl

theorem FiledBut.subMonitors_of_holds (filed : FiledBut but state)
    (found : state.subMonitors smon = some sub) (holds : sub.unsupportedFmons.Holds fmon) :
    state.subMonitors fmon = none := by
  obtain ⟨filename, member⟩ := (filed.tables smon sub found).polled fmon holds
  exact (filed.fileKnown fmon _ ((filed.tables smon sub found).listed _ member)).2.1

theorem FiledBut.filed {mon : Pointer} (filed : FiledBut (some mon) state)
    (without : ∀ smon sub, state.subMonitors smon = some sub → sub.unsupportedFmons.Holds mon →
      state.fdOf mon = none) : Filed state where
  held := filed.held
  subKnown := filed.subKnown
  fileKnown := filed.fileKnown
  tables smon sub found :=
    { filed.tables smon sub found with
      without := fun fmon holds _ => by
        by_cases same : mon = fmon
        · exact same ▸ without smon sub found (same ▸ holds)
        · exact (filed.tables smon sub found).without fmon holds (by simpa using same) }

/-- A name stands for one monitor. -/
theorem SubFiled.unique (filed : SubFiled state but smon sub) {filename : Bytes} {first second : Pointer}
    (inFirst : (filename, first) ∈ sub.fmons.main) (inSecond : (filename, second) ∈ sub.fmons.main) :
    first = second :=
  congrArg Prod.snd (List.inj_on_of_nodup_map filed.keyed inFirst inSecond rfl)

/-! ## Functions on one monitor -/

theorem Filed.touch {mon : Pointer} (filed : Filed before) (touches : Touches mon before after)
    (held : Held after) : FiledBut (some mon) after where
  held := held
  subKnown smon sub found := by
    rw [touches.subMonitors] at found
    have known := filed.subKnown smon sub found
    by_cases same : smon = mon
    · rw [same] at known ⊢
      exact touches.alive.trans known
    · rw [touches.others smon same]
      exact known
  fileKnown fmon file found := by
    rw [touches.fileMonitors] at found
    rw [touches.subMonitors]
    obtain ⟨known, rest⟩ := filed.fileKnown fmon file found
    refine ⟨?_, rest⟩
    by_cases same : fmon = mon
    · rw [same] at known ⊢
      exact touches.alive.trans known
    · rw [touches.others fmon same]
      exact known
  tables smon sub found := by
    rw [touches.subMonitors] at found
    have old := filed.tables smon sub found
    exact {
      old with
      listed := fun entry member => by
        rw [touches.fileMonitors]
        exact old.listed entry member
      without := fun fmon holds different => by
        have other : fmon ≠ mon := fun same => different (same ▸ rfl)
        rw [Backend.fdOf_congr (touches.others fmon other)]
        exact old.without fmon holds nofun }

/-- A monitor that is not given a descriptor. -/
theorem Filed.touchWithout {mon : Pointer} (filed : Filed before) (touches : Touches mon before after)
    (held : Held after) (kept : after.fdOf mon = none ∨ after.fdOf mon = before.fdOf mon) :
    Filed after := by
  refine (filed.touch touches held).filed fun smon sub found holds => ?_
  cases kept with
  | inl without => exact without
  | inr same =>
    rw [touches.subMonitors] at found
    rw [same]
    exact (filed.tables smon sub found).without mon holds nofun

/-- A monitor that is not polled. -/
theorem Filed.touchUnpolled {mon : Pointer} (filed : Filed before) (touches : Touches mon before after)
    (held : Held after)
    (unpolled : ∀ smon sub, before.subMonitors smon = some sub → ¬ sub.unsupportedFmons.Holds mon) :
    Filed after := by
  refine (filed.touch touches held).filed fun smon sub found holds => ?_
  rw [touches.subMonitors] at found
  exact absurd holds (unpolled smon sub found)

/-- Nothing that the invariant is about has changed. -/
theorem Filed.congr (filed : Filed before) (held : Held after)
    (monitors : after.monitors = before.monitors) (subMonitors : after.subMonitors = before.subMonitors)
    (fileMonitors : after.fileMonitors = before.fileMonitors) : Filed after := by
  have monitor (mon : Pointer) : after.monitor mon = before.monitor mon := by
    rw [Backend.monitor, Backend.monitor, monitors]
  constructor
  case held => exact held
  case subKnown =>
    intro smon sub found
    rw [monitor]
    exact filed.subKnown smon sub (subMonitors ▸ found)
  case fileKnown =>
    intro fmon file found
    rw [monitor, subMonitors]
    exact filed.fileKnown fmon file (fileMonitors ▸ found)
  case tables =>
    intro smon sub found
    have old := filed.tables smon sub (subMonitors ▸ found)
    exact {
      old with
      listed := fun entry member => fileMonitors ▸ old.listed entry member
      without := fun fmon holds different =>
        (Backend.fdOf_congr (monitor fmon)).trans (old.without fmon holds different) }

theorem Filed.called (filed : Filed state) : Filed state.called :=
  filed.congr filed.held.called rfl rfl rfl

theorem Filed.emitEvent (filed : Filed state) (pathname : Bytes) (isdir : Bool) (event : GaminEventType)
    (subs : List GamSubscription) : Filed (emitEvent state pathname isdir event subs) :=
  filed.congr (filed.held.congr rfl rfl rfl (fun _ => rfl) filed.held.fresh) rfl rfl rfl

theorem Filed.setPoller (filed : Filed state) (kind : PollerKind) (poller : Poller) :
    Filed (state.setPoller kind poller) :=
  filed.congr (filed.held.congr rfl rfl rfl (fun _ => rfl) filed.held.fresh) rfl rfl rfl

theorem Filed.setHash (filed : Filed state) (isdir : Bool) (path : Bytes) (smon : Option Pointer) :
    Filed (state.setHash isdir path smon) := by
  unfold Backend.setHash
  split
  all_goals exact filed.congr (filed.held.congr rfl rfl rfl (fun _ => rfl) filed.held.fresh) rfl rfl rfl

/-! ## The tables of one directory -/

/-- What becomes of the state when only one directory and its files are changed. -/
theorem Filed.rebuild {next : Option SubMonitor} (filed : Filed before) (held : Held after)
    (found : before.subMonitors smon = some sub)
    (subMonitors : after.subMonitors = Function.update before.subMonitors smon next)
    (frame : ∀ other, other < before.nextPointer → (other = smon → next.isSome) →
      (∀ filename, before.fileMonitors other ≠ some { smon := smon, filename := filename }) →
      after.monitor other = before.monitor other ∧ after.fileMonitors other = before.fileMonitors other)
    (files : ∀ fmon file, after.fileMonitors fmon = some file →
      before.fileMonitors fmon = some file ∧ file.smon ≠ smon ∨
        file.smon = smon ∧ (∃ table, next = some table ∧ (file.filename, fmon) ∈ table.fmons.main) ∧
          (after.monitor fmon).isSome ∧ before.subMonitors fmon = none)
    (own : ∀ table, next = some table → SubFiled after none smon table) : Filed after := by
  -- no monitor is that of a file and of a subscription at once
  have notFile {other : Pointer} (known : (before.subMonitors other).isSome) :
      before.fileMonitors other = none := by
    refine Option.eq_none_iff_forall_ne_some.mpr fun file isFile => ?_
    rw [(filed.fileKnown other file isFile).2.1] at known
    contradiction
  have noSub {other : Pointer} (bare : before.subMonitors other = none) : other ≠ smon := fun same => by
    rw [same, found] at bare
    contradiction
  have fileStays {fmon : Pointer} {file : FileMonitor} (isFile : before.fileMonitors fmon = some file)
      (elsewhere : file.smon ≠ smon) :
      after.monitor fmon = before.monitor fmon ∧
        after.fileMonitors fmon = before.fileMonitors fmon := by
    obtain ⟨alive, bare, _⟩ := filed.fileKnown fmon file isFile
    refine frame fmon (filed.held.below alive) (fun same => absurd same (noSub bare)) fun filename here => ?_
    rw [isFile] at here
    cases here
    exact elsewhere rfl
  constructor
  case held => exact held
  case subKnown =>
    intro other otherSub foundOther
    have known : (before.subMonitors other).isSome ∧ (other = smon → next.isSome) := by
      rw [subMonitors, Function.update_apply] at foundOther
      split at foundOther
      case isTrue same => exact ⟨by rw [same, found]; rfl, fun _ => by rw [foundOther]; rfl⟩
      case isFalse different => exact ⟨by rw [foundOther]; rfl, fun same => absurd same different⟩
    obtain ⟨oldSub, foundOld⟩ := Option.isSome_iff_exists.mp known.1
    have alive := filed.subKnown other oldSub foundOld
    have bare := notFile known.1
    rw [(frame other (filed.held.below alive) known.2 fun filename here => by
      rw [bare] at here
      contradiction).1]
    exact alive
  case fileKnown =>
    intro fmon file foundFile
    cases files fmon file foundFile with
    | inl old =>
      obtain ⟨foundOld, elsewhere⟩ := old
      obtain ⟨alive, bare, table, foundTable, member⟩ := filed.fileKnown fmon file foundOld
      refine ⟨?_, ?_, table, ?_, member⟩
      · rw [(fileStays foundOld elsewhere).1]
        exact alive
      · rw [subMonitors, Function.update_of_ne (noSub bare), bare]
      · rw [subMonitors, Function.update_of_ne elsewhere, foundTable]
    | inr new =>
      obtain ⟨here, ⟨table, isNext, member⟩, alive, bare⟩ := new
      refine ⟨alive, ?_, table, ?_, member⟩
      · rw [subMonitors, Function.update_of_ne (noSub bare), bare]
      · rw [here, subMonitors, Function.update_self, isNext]
  case tables =>
    intro other otherSub foundOther
    rw [subMonitors, Function.update_apply] at foundOther
    split at foundOther
    case isTrue same => exact same ▸ own otherSub foundOther
    case isFalse different =>
      have old := filed.tables other otherSub foundOther
      exact {
        old with
        listed := fun entry member => by
          rw [(fileStays (old.listed entry member) different).2]
          exact old.listed entry member
        without := fun fmon holds allowed => by
          obtain ⟨filename, member⟩ := old.polled fmon holds
          rw [Backend.fdOf_congr (fileStays (old.listed _ member) different).1]
          exact old.without fmon holds allowed }

/-- A change of the tables under which the same files are there. -/
theorem FiledBut.setSub (filed : FiledBut but state) (found : state.subMonitors smon = some sub)
    (next : SubMonitor) (same : next.fmons.main = sub.fmons.main)
    (own : SubFiled state but smon next) : FiledBut but (state.setSub smon next) where
  held := filed.held.congr rfl rfl rfl (fun _ => rfl) filed.held.fresh
  subKnown other otherSub foundOther := by
    rw [subMonitors_setSub] at foundOther
    split at foundOther
    case isTrue here => exact here ▸ filed.subKnown smon sub found
    case isFalse => exact filed.subKnown other otherSub foundOther
  fileKnown fmon file foundFile := by
    obtain ⟨alive, none, table, foundTable, member⟩ := filed.fileKnown fmon file foundFile
    have different : fmon ≠ smon := fun here => by
      rw [here, found] at none
      contradiction
    refine ⟨alive, (Function.update_of_ne different _ _).trans none, ?_⟩
    by_cases here : file.smon = smon
    · rw [here, found] at foundTable
      cases foundTable
      exact ⟨next, by rw [subMonitors_setSub, if_pos here], same ▸ member⟩
    · exact ⟨table, (Function.update_of_ne here _ _).trans foundTable, member⟩
  tables other otherSub foundOther := by
    rw [subMonitors_setSub] at foundOther
    split at foundOther
    case isTrue here =>
      cases foundOther
      subst here
      exact { own with }
    case isFalse => exact { filed.tables other otherSub foundOther with }

/-- A change of the list of polled monitors. -/
theorem SubFiled.repoll {table : DeferredSet Pointer} (filed : SubFiled state but smon sub)
    (holds : ∀ fmon, table.Holds fmon → sub.unsupportedFmons.Holds fmon) (distinct : table.main.Nodup)
    (orderly : table.Orderly) : SubFiled state but smon { sub with unsupportedFmons := table } where
  listed := filed.listed
  keyed := filed.keyed
  settled := filed.settled
  orderly := filed.orderly
  polled fmon held := filed.polled fmon (holds fmon held)
  without fmon held := filed.without fmon (holds fmon held)
  distinct := distinct
  orderlyPolled := orderly
  leaving entry member fmon inMain held := filed.leaving entry member fmon inMain (holds fmon held)

/-! ## Unsupported file monitors -/

theorem FiledBut.setPoller (filed : FiledBut but state) (kind : PollerKind) (poller : Poller) :
    FiledBut but (state.setPoller kind poller) where
  held := filed.held.congr rfl rfl rfl (fun _ => rfl) filed.held.fresh
  subKnown := filed.subKnown
  fileKnown := filed.fileKnown
  tables smon sub found := { filed.tables smon sub found with }

theorem FiledBut.removeUnsupportedFmon (filed : FiledBut but state) (smon fmon : Pointer) :
    FiledBut but (removeUnsupportedFmon state smon fmon) := by
  unfold Kqueue.removeUnsupportedFmon
  cases found : state.subMonitors smon with
  | none => exact filed
  | some sub =>
    have old := filed.tables smon sub found
    have next := filed.setSub found
      { sub with unsupportedFmons := sub.unsupportedFmons.remove fmon } rfl
      (old.repoll (fun other holds => (old.orderlyPolled.holds_remove.mp holds).1)
        (DeferredSet.nodup_remove old.distinct fmon) (old.orderlyPolled.remove fmon))
    dsimp only
    split
    · exact next
    · exact next.setPoller _ _

/-- What `removeUnsupportedFmon` makes of the list. -/
theorem subMonitors_removeUnsupportedFmon (found : state.subMonitors smon = some sub) (fmon : Pointer) :
    (removeUnsupportedFmon state smon fmon).subMonitors =
      Function.update state.subMonitors smon
        (some { sub with unsupportedFmons := sub.unsupportedFmons.remove fmon }) := by
  simp only [removeUnsupportedFmon, found]
  split <;> rfl

/-- A monitor that has been given a descriptor is polled no more. -/
theorem FiledBut.polledNoMore {file : FileMonitor} (filed : FiledBut (some fmon) state)
    (foundFile : state.fileMonitors fmon = some file) :
    Filed (Kqueue.removeUnsupportedFmon state file.smon fmon) := by
  obtain ⟨alive, none, sub, found, member⟩ := filed.fileKnown fmon file foundFile
  refine (filed.removeUnsupportedFmon file.smon fmon).filed fun other otherSub foundOther holds => ?_
  rw [subMonitors_removeUnsupportedFmon found, Function.update_apply] at foundOther
  split at foundOther
  case isTrue =>
    cases foundOther
    exact absurd rfl ((filed.tables _ _ found).orderlyPolled.holds_remove.mp holds).2
  case isFalse different => exact absurd (filed.smon_of_holds foundOther holds foundFile).symm different

theorem Filed.addUnsupportedFmon {filename : Bytes} (filed : Filed state)
    (found : state.subMonitors smon = some sub) (member : (filename, fmon) ∈ sub.fmons.main)
    (without : state.fdOf fmon = none) (resting : sub.fmons.iterating = false)
    (restingPolled : sub.unsupportedFmons.iterating = false) :
    Filed (addUnsupportedFmon state smon fmon) := by
  have old := filed.tables smon sub found
  have holds {other : Pointer} := @DeferredSet.Orderly.holds_add _ _ _ old.orderlyPolled restingPolled
    fmon other
  have own : SubFiled state none smon
      { sub with unsupportedFmons := sub.unsupportedFmons.add fmon } := {
    old with
    polled := fun other held => by
      cases holds.mp held with
      | inl same => exact ⟨filename, same ▸ member⟩
      | inr before => exact old.polled other before
    without := fun other held different => by
      cases holds.mp held with
      | inl same => exact same ▸ without
      | inr before => exact old.without other before different
    distinct := DeferredSet.nodup_add old.distinct fmon
    orderlyPolled := old.orderlyPolled.add fmon
    leaving := fun entry inRemovals => by
      rw [(old.orderly resting).2] at inRemovals
      contradiction }
  have next := filed.setSub found { sub with unsupportedFmons := sub.unsupportedFmons.add fmon } rfl own
  simp only [Kqueue.addUnsupportedFmon, found, restingPolled, Bool.false_eq_true, if_false]
  exact next.setPoller _ _

/-! ## File monitors that go -/

/-- These file monitors are gone, and all other monitors are as before. -/
structure Freed (gone : List Pointer) (before after : Backend) : Prop where
  kept : ∀ other, other ∉ gone →
    after.monitor other = before.monitor other ∧ after.fileMonitors other = before.fileMonitors other
  gone : ∀ other, other ∈ gone → after.monitor other = none ∧ after.fileMonitors other = none

theorem freed_fileMonitorFree (state : Backend) (fmon : Pointer) :
    Freed [fmon] state (gamKqueueFileMonitorFree state fmon) where
  kept other different := by
    rw [List.mem_singleton] at different
    refine ⟨monitor_free_other state different, ?_⟩
    refine (Function.update_of_ne different _ _).trans ?_
    exact congrFun (touches_closeMonitor state fmon).fileMonitors other
  gone other member := by
    rw [List.mem_singleton.mp member]
    exact ⟨monitor_free_same state fmon, Function.update_self _ _ _⟩

theorem Freed.trans {first second : List Pointer} (freed : Freed first before middle)
    (rest : Freed second middle after) : Freed (first ++ second) before after where
  kept other absent := by
    obtain ⟨notFirst, notSecond⟩ := not_or.mp (mt List.mem_append.mpr absent)
    obtain ⟨monitor, file⟩ := rest.kept other notSecond
    obtain ⟨monitorFirst, fileFirst⟩ := freed.kept other notFirst
    exact ⟨monitor.trans monitorFirst, file.trans fileFirst⟩
  gone other member := by
    by_cases inSecond : other ∈ second
    · exact rest.gone other inSecond
    · obtain ⟨monitor, file⟩ := rest.kept other inSecond
      obtain ⟨monitorFirst, fileFirst⟩ :=
        freed.gone other ((List.mem_append.mp member).resolve_right inSecond)
      exact ⟨monitor.trans monitorFirst, file.trans fileFirst⟩

theorem freed_freeEntries (state : Backend) (entries : List (Bytes × Pointer)) :
    Freed (entries.map Prod.snd) state (freeEntries state entries) := by
  induction entries generalizing state with
  | nil => exact ⟨fun _ _ => ⟨rfl, rfl⟩, fun _ member => nomatch member⟩
  | cons entry entries inductionHypothesis =>
    exact (freed_fileMonitorFree state entry.2).trans
      (inductionHypothesis (gamKqueueFileMonitorFree state entry.2))

/-- What the freeing of file monitors leaves alone altogether. -/
structure SameTables (before after : Backend) : Prop where
  maxOpenFiles : after.maxOpenFiles = before.maxOpenFiles
  subMonitors : after.subMonitors = before.subMonitors
  dirHash : after.dirHash = before.dirHash
  fileHash : after.fileHash = before.fileHash
  pollers : after.pollers = before.pollers
  nextPointer : after.nextPointer = before.nextPointer

theorem sameTables_fileMonitorFree (state : Backend) (fmon : Pointer) :
    SameTables state (gamKqueueFileMonitorFree state fmon) :=
  let closed := touches_closeMonitor state fmon
  ⟨closed.maxOpenFiles, closed.subMonitors, closed.dirHash, closed.fileHash, closed.pollers,
    closed.nextPointer⟩

theorem sameTables_freeEntries (state : Backend) (entries : List (Bytes × Pointer)) :
    SameTables state (freeEntries state entries) := by
  induction entries generalizing state with
  | nil => exact ⟨rfl, rfl, rfl, rfl, rfl, rfl⟩
  | cons entry entries inductionHypothesis =>
    have first := sameTables_fileMonitorFree state entry.2
    have rest := inductionHypothesis (gamKqueueFileMonitorFree state entry.2)
    exact ⟨rest.maxOpenFiles.trans first.maxOpenFiles, rest.subMonitors.trans first.subMonitors,
      rest.dirHash.trans first.dirHash, rest.fileHash.trans first.fileHash,
      rest.pollers.trans first.pollers, rest.nextPointer.trans first.nextPointer⟩

theorem Held.fileMonitorFree (held : Held state) (fmon : Pointer) :
    Held (gamKqueueFileMonitorFree state fmon) :=
  (held.free fmon).congr rfl rfl rfl (fun _ => rfl) (held.free fmon).fresh

theorem Held.freeEntries (held : Held state) (entries : List (Bytes × Pointer)) :
    Held (freeEntries state entries) := by
  induction entries generalizing state with
  | nil => exact held
  | cons entry entries inductionHypothesis => exact inductionHypothesis (held.fileMonitorFree entry.2)

/-- Files of a directory go, in its table and in memory, and perhaps the directory itself. -/
theorem Filed.drop {next : Option SubMonitor} (filed : Filed before) (held : Held after)
    (found : before.subMonitors smon = some sub) (goes : Bytes × Pointer → Bool)
    (subMonitors : after.subMonitors = Function.update before.subMonitors smon next)
    (stays : ∀ entry ∈ sub.fmons.main, goes entry = false →
      ∃ table, next = some table ∧ entry ∈ table.fmons.main)
    (freed : Freed ((sub.fmons.main.filter goes).map Prod.snd ++ if next.isSome then [] else [smon])
      before after)
    (own : ∀ table, next = some table → SubFiled after none smon table) : Filed after := by
  have old := filed.tables smon sub found
  -- what is not freed is as it was, and freed are only files of this directory
  refine filed.rebuild held found subMonitors (fun other _ here elsewhere => ?_)
    (fun fmon file isFile => ?_) own
  · refine freed.kept other fun member => ?_
    cases List.mem_append.mp member with
    | inl inFiles =>
      obtain ⟨entry, inGone, rfl⟩ := List.mem_map.mp inFiles
      exact elsewhere entry.1 (old.listed entry (List.mem_filter.mp inGone).1)
    | inr isSub =>
      split at isSub
      case isTrue => exact (nomatch isSub)
      case isFalse bare => exact bare (here (List.mem_singleton.mp isSub))
  · have notGone := fun member => (freed.gone fmon member).2.symm.trans isFile
    have notGone : fmon ∉ (sub.fmons.main.filter goes).map Prod.snd ++ if next.isSome then [] else [smon] :=
      fun member => nomatch notGone member
    obtain ⟨sameMonitor, sameFile⟩ := freed.kept fmon notGone
    rw [sameFile] at isFile
    obtain ⟨alive, bare, table, foundTable, member⟩ := filed.fileKnown fmon file isFile
    by_cases here : file.smon = smon
    · rw [here, found] at foundTable
      cases foundTable
      refine .inr ⟨here, ?_, by rw [sameMonitor]; exact alive, bare⟩
      cases leaves : goes (file.filename, fmon) with
      | true =>
        refine absurd (List.mem_append_left _ ?_) notGone
        exact List.mem_map.mpr ⟨_, List.mem_filter.mpr ⟨member, leaves⟩, rfl⟩
      | false => exact stays _ member leaves
    · exact .inl ⟨isFile, here⟩

/-- An entry of another name is of another monitor. -/
theorem SubFiled.otherName (filed : SubFiled state but smon sub) {entry : Bytes × Pointer} {name : Bytes}
    (member : entry ∈ sub.fmons.main) (different : entry.1 ≠ name) :
    entry.2 ∉ (sub.fmons.main.filter (·.1 = name)).map Prod.snd := by
  intro inGone
  obtain ⟨goner, inFilter, samePointer⟩ := List.mem_map.mp inGone
  obtain ⟨inMain, goes⟩ := List.mem_filter.mp inFilter
  have both := filed.listed goner inMain
  rw [samePointer, filed.listed entry member] at both
  have sameName := congrArg FileMonitor.filename (Option.some.inj both)
  exact different (sameName.trans (of_decide_eq_true goes))

theorem removeFmon_resting (found : state.subMonitors smon = some sub)
    (resting : sub.fmons.iterating = false) (entry : Bytes × Pointer) :
    removeFmon state smon entry =
      freeEntries (state.setSub smon (sub.setFiles (sub.fmons.main.filter (·.1 ≠ entry.1))))
        (sub.fmons.main.filter (·.1 = entry.1)) := by
  simp only [removeFmon, found, resting, Bool.false_eq_true, if_false]

theorem removeFmon_found (found : state.subMonitors smon = some sub)
    (resting : sub.fmons.iterating = false) (entry : Bytes × Pointer) :
    (removeFmon state smon entry).subMonitors smon =
      some (sub.setFiles (sub.fmons.main.filter (·.1 ≠ entry.1))) := by
  rw [removeFmon_resting found resting, (sameTables_freeEntries _ _).subMonitors, subMonitors_setSub,
    if_pos rfl]

/-- A file monitor can be taken out of the table if nobody polls what goes by its name. -/
theorem Filed.removeFmon (filed : Filed state) (found : state.subMonitors smon = some sub)
    (entry : Bytes × Pointer)
    (unpolled : ∀ fmon, (entry.1, fmon) ∈ sub.fmons.main → ¬ sub.unsupportedFmons.Holds fmon) :
    Filed (removeFmon state smon entry) := by
  have old := filed.tables smon sub found
  cases walking : sub.fmons.iterating with
  | true =>
    simp only [Kqueue.removeFmon, found, walking, if_true]
    -- while the table is walked the removal is only noted
    refine filed.setSub found _ rfl ?_
    exact {
      old with
      orderly := nofun
      leaving := fun other member fmon inMain => by
        cases member with
        | head => exact unpolled fmon inMain
        | tail _ inOld => exact old.leaving other inOld fmon inMain }
  | false =>
    -- otherwise the entries go at once and their monitors are freed
    rw [removeFmon_resting found walking]
    have next : Held (state.setSub smon (sub.setFiles (sub.fmons.main.filter (·.1 ≠ entry.1)))) :=
      filed.held.congr rfl rfl rfl (fun _ => rfl) filed.held.fresh
    have held := next.freeEntries (sub.fmons.main.filter (·.1 = entry.1))
    have same := sameTables_freeEntries
      (state.setSub smon (sub.setFiles (sub.fmons.main.filter (·.1 ≠ entry.1))))
      (sub.fmons.main.filter (·.1 = entry.1))
    have freed := freed_freeEntries
      (state.setSub smon (sub.setFiles (sub.fmons.main.filter (·.1 ≠ entry.1))))
      (sub.fmons.main.filter (·.1 = entry.1))
    have polled (fmon : Pointer) (holds : sub.unsupportedFmons.Holds fmon) :
        ∃ filename, (filename, fmon) ∈ sub.fmons.main ∧ filename ≠ entry.1 := by
      obtain ⟨filename, member⟩ := old.polled fmon holds
      exact ⟨filename, member, fun sameName => unpolled fmon (sameName ▸ member) holds⟩
    refine @Filed.drop state _ smon sub (some _) filed held found (·.1 = entry.1) same.subMonitors
      (fun other member leaves => ⟨_, rfl, ?_⟩) ?_ fun table isNext => ?_
    · exact List.mem_filter.mpr ⟨member, by simpa using leaves⟩
    · rw [Option.isSome_some, if_pos rfl, List.append_nil]
      exact ⟨freed.kept, freed.gone⟩
    cases isNext
    constructor
    case listed =>
      intro other member
      obtain ⟨inMain, different⟩ := List.mem_filter.mp member
      rw [(freed.kept other.2 (old.otherName inMain (of_decide_eq_true different))).2]
      exact old.listed other inMain
    case keyed => exact old.keyed.sublist (List.filter_sublist.map _)
    case settled => exact old.settled
    case orderly => exact old.orderly
    case polled =>
      intro fmon holds
      obtain ⟨filename, member, different⟩ := polled fmon holds
      exact ⟨filename, List.mem_filter.mpr ⟨member, decide_eq_true different⟩⟩
    case without =>
      intro fmon holds allowed
      obtain ⟨filename, member, different⟩ := polled fmon holds
      rw [Backend.fdOf_congr (freed.kept fmon (old.otherName member different)).1]
      exact old.without fmon holds allowed
    case distinct => exact old.distinct
    case orderlyPolled => exact old.orderlyPolled
    case leaving =>
      intro other member
      change other ∈ sub.fmons.pendingRemovals at member
      rw [(old.orderly walking).2] at member
      contradiction

/-- The removals that were put off until after a walk. -/
theorem Filed.removeFmons (removals : List (Bytes × Pointer)) (filed : Filed state)
    (found : state.subMonitors smon = some sub) (resting : sub.fmons.iterating = false)
    (unpolled : ∀ entry ∈ removals, ∀ fmon, (entry.1, fmon) ∈ sub.fmons.main →
      ¬ sub.unsupportedFmons.Holds fmon) :
    Filed (removals.foldl (Kqueue.removeFmon · smon) state) := by
  induction removals generalizing state sub with
  | nil => exact filed
  | cons entry removals inductionHypothesis =>
    have next := filed.removeFmon found entry (unpolled entry List.mem_cons_self)
    have foundNext := removeFmon_found found resting entry
    refine inductionHypothesis next foundNext resting fun other member fmon inMain => ?_
    exact unpolled other (List.mem_cons_of_mem _ member) fmon (List.mem_filter.mp inMain).1

theorem Filed.finishFmons (filed : Filed state) (smon : Pointer) : Filed (finishFmons state smon) := by
  unfold Kqueue.finishFmons
  cases found : state.subMonitors smon with
  | none => exact filed
  | some sub =>
    have old := filed.tables smon sub found
    have next := filed.setSub found { sub with fmons := { DeferredSet.new with main := sub.fmons.main } }
      rfl { old with
        settled := rfl
        orderly := fun _ => ⟨rfl, rfl⟩
        leaving := fun _ member => nomatch member }
    have foundNext := (subMonitors_setSub state smon
      { sub with fmons := { DeferredSet.new with main := sub.fmons.main } } smon).trans (if_pos rfl)
    dsimp only
    rw [old.settled, List.foldl_nil]
    exact Filed.removeFmons sub.fmons.pendingRemovals next foundNext rfl old.leaving

/-! ## File monitors that come -/

theorem made_other (state : Backend) (smon : Pointer) (filename : Bytes) {other : Pointer}
    (different : other ≠ state.nextPointer) :
    (fileMonitorMade state smon filename).monitor other = state.monitor other ∧
      (fileMonitorMade state smon filename).fileMonitors other = state.fileMonitors other :=
  ⟨Backend.monitor_setMonitor_other _ _ different, Function.update_of_ne different _ _⟩

theorem made_file (state : Backend) (smon : Pointer) (filename : Bytes) :
    (fileMonitorMade state smon filename).fileMonitors state.nextPointer =
      some { smon := smon, filename := filename } :=
  Function.update_self _ _ _

theorem made_monitor (state : Backend) (smon : Pointer) (filename : Bytes) :
    ∃ monitor, (fileMonitorMade state smon filename).monitor state.nextPointer = some monitor ∧
      monitor.fd = none :=
  ⟨_, Backend.monitor_setMonitor_same _ _ _, rfl⟩

theorem Held.made (held : Held state) (smon : Pointer) (filename : Bytes) :
    Held (fileMonitorMade state smon filename) :=
  (held.monitorNew _).congr rfl rfl rfl (fun _ => rfl) (held.monitorNew _).fresh

/-- A table that is at rest, with a new entry in it. -/
theorem enter_resting (found : state.subMonitors smon = some sub) (resting : sub.fmons.iterating = false)
    (filename : Bytes) :
    fileMonitorEnter state smon filename =
      freeEntries ((fileMonitorMade state smon filename).setSub smon
          (sub.setFiles ((filename, state.nextPointer) :: sub.fmons.main.filter (·.1 ≠ filename))))
        (sub.fmons.main.filter (·.1 = filename)) := by
  have foundMade : (fileMonitorMade state smon filename).subMonitors smon = some sub := found
  simp only [fileMonitorEnter, addFmon, foundMade, resting, Bool.false_eq_true, if_false]

/-- The state after a new entry: the file monitor is there, and those of older entries with the name are
gone. -/
structure Entered (state : Backend) (smon : Pointer) (sub : SubMonitor) (filename : Bytes) (after : Backend) :
    Prop where
  file : after.fileMonitors state.nextPointer = some { smon := smon, filename := filename }
  alive : (after.monitor state.nextPointer).isSome
  kept : ∀ fmon, fmon ≠ state.nextPointer → (filename, fmon) ∉ sub.fmons.main →
    after.monitor fmon = state.monitor fmon ∧ after.fileMonitors fmon = state.fileMonitors fmon
  gone : ∀ fmon, (filename, fmon) ∈ sub.fmons.main → after.fileMonitors fmon = none

/-- The table after a new entry. -/
def enteredTable (state : Backend) (sub : SubMonitor) (filename : Bytes) : SubMonitor :=
  sub.setFiles ((filename, state.nextPointer) :: sub.fmons.main.filter (·.1 ≠ filename))

theorem mem_named {entries : List (Bytes × Pointer)} {filename : Bytes} :
    fmon ∈ (entries.filter (·.1 = filename)).map Prod.snd ↔ (filename, fmon) ∈ entries := by
  constructor
  · intro member
    obtain ⟨⟨name, _⟩, inFilter, rfl⟩ := List.mem_map.mp member
    obtain ⟨inMain, sameName⟩ := List.mem_filter.mp inFilter
    obtain rfl : name = filename := of_decide_eq_true sameName
    exact inMain
  · exact fun member => List.mem_map.mpr ⟨_, List.mem_filter.mpr ⟨member, decide_eq_true rfl⟩, rfl⟩

/-- The pointer of a new monitor is in no table yet. -/
theorem Filed.below (filed : Filed state) (found : state.subMonitors smon = some sub) {entry : Bytes × Pointer}
    (member : entry ∈ sub.fmons.main) : entry.2 ≠ state.nextPointer :=
  (filed.held.below (filed.fileKnown entry.2 _ ((filed.tables smon sub found).listed entry member)).1).ne

theorem Filed.entered (filed : Filed state) (found : state.subMonitors smon = some sub)
    (resting : sub.fmons.iterating = false) (filename : Bytes) :
    Entered state smon sub filename (fileMonitorEnter state smon filename) := by
  rw [enter_resting found resting]
  have freed := freed_freeEntries ((fileMonitorMade state smon filename).setSub smon
    (enteredTable state sub filename)) (sub.fmons.main.filter (·.1 = filename))
  have notGone : state.nextPointer ∉ (sub.fmons.main.filter (·.1 = filename)).map Prod.snd :=
    fun inGone => filed.below found (mem_named.mp inGone) rfl
  constructor
  case file => exact (freed.kept _ notGone).2.trans (made_file state smon filename)
  case alive =>
    obtain ⟨monitor, isMonitor, _⟩ := made_monitor state smon filename
    exact Option.isSome_of_eq_some ((freed.kept _ notGone).1.trans isMonitor)
  case kept =>
    intro fmon different unnamed
    obtain ⟨monitorMade, fileMade⟩ := made_other state smon filename different
    obtain ⟨monitor, file⟩ := freed.kept fmon fun inGone => unnamed (mem_named.mp inGone)
    exact ⟨monitor.trans monitorMade, file.trans fileMade⟩
  case gone => exact fun fmon member => (freed.gone fmon (mem_named.mpr member)).2

/-- The table with the new entry is in order. -/
theorem Entered.subFiled {filename : Bytes} (entered : Entered state smon sub filename after) (filed : Filed state)
    (found : state.subMonitors smon = some sub) (resting : sub.fmons.iterating = false)
    (unpolled : ∀ old, (filename, old) ∈ sub.fmons.main → ¬ sub.unsupportedFmons.Holds old) :
    SubFiled after none smon (enteredTable state sub filename) := by
  have old := filed.tables smon sub found
  -- an entry of the same name is replaced; the others keep their monitors
  have kept {entry : Bytes × Pointer} (member : entry ∈ sub.fmons.main) (different : entry.1 ≠ filename) :
      after.monitor entry.2 = state.monitor entry.2 ∧
        after.fileMonitors entry.2 = state.fileMonitors entry.2 :=
    entered.kept entry.2 (filed.below found member) fun named =>
      old.otherName member different (mem_named.mpr named)
  have polled (fmon : Pointer) (holds : sub.unsupportedFmons.Holds fmon) :
      ∃ name, (name, fmon) ∈ sub.fmons.main ∧ name ≠ filename := by
    obtain ⟨name, member⟩ := old.polled fmon holds
    exact ⟨name, member, fun sameName => unpolled fmon (sameName ▸ member) holds⟩
  constructor
  case listed =>
    intro entry member
    cases member with
    | head => exact entered.file
    | tail _ inOld =>
      obtain ⟨inMain, different⟩ := List.mem_filter.mp inOld
      rw [(kept inMain (of_decide_eq_true different)).2]
      exact old.listed entry inMain
  case keyed =>
    refine List.nodup_cons.mpr ⟨fun member => ?_, old.keyed.sublist (List.filter_sublist.map _)⟩
    obtain ⟨entry, inFilter, sameName⟩ := List.mem_map.mp member
    exact of_decide_eq_true (List.mem_filter.mp inFilter).2 sameName
  case settled => exact old.settled
  case orderly => exact old.orderly
  case polled =>
    intro fmon holds
    obtain ⟨name, member, different⟩ := polled fmon holds
    exact ⟨name, List.mem_cons_of_mem _ (List.mem_filter.mpr ⟨member, decide_eq_true different⟩)⟩
  case without =>
    intro fmon holds allowed
    obtain ⟨name, member, different⟩ := polled fmon holds
    rw [Backend.fdOf_congr (kept member different).1]
    exact old.without fmon holds allowed
  case distinct => exact old.distinct
  case orderlyPolled => exact old.orderlyPolled
  case leaving =>
    intro other member
    change other ∈ sub.fmons.pendingRemovals at member
    rw [(old.orderly resting).2] at member
    contradiction

/-- Every file monitor is the new one, or was there before and is still listed. -/
theorem Entered.listed {filename : Bytes} (entered : Entered state smon sub filename after) (filed : Filed state)
    (found : state.subMonitors smon = some sub) {fmon : Pointer} {file : FileMonitor}
    (isFile : after.fileMonitors fmon = some file) :
    state.fileMonitors fmon = some file ∧ file.smon ≠ smon ∨
      file.smon = smon ∧ (file.filename, fmon) ∈ (enteredTable state sub filename).fmons.main ∧
        (after.monitor fmon).isSome ∧ state.subMonitors fmon = none := by
  by_cases isFresh : fmon = state.nextPointer
  · subst isFresh
    rw [entered.file] at isFile
    cases isFile
    refine .inr ⟨rfl, List.mem_cons_self, entered.alive, Option.eq_none_iff_forall_ne_some.mpr fun freshSub isSub => ?_⟩
    have alive := filed.subKnown _ freshSub isSub
    rw [filed.held.fresh state.nextPointer (Nat.le_refl _)] at alive
    contradiction
  · have unnamed : (filename, fmon) ∉ sub.fmons.main := fun named => by
      rw [entered.gone fmon named] at isFile
      contradiction
    obtain ⟨monitor, sameFile⟩ := entered.kept fmon isFresh unnamed
    rw [sameFile] at isFile
    obtain ⟨alive, bare, table, foundTable, member⟩ := filed.fileKnown fmon _ isFile
    refine or_iff_not_imp_left.mpr fun notElsewhere => ?_
    have here := not_not.mp fun elsewhere => notElsewhere ⟨isFile, elsewhere⟩
    rw [here, found] at foundTable
    cases foundTable
    refine ⟨here, List.mem_cons_of_mem _ (List.mem_filter.mpr ⟨member, ?_⟩), monitor ▸ alive, bare⟩
    exact decide_eq_true fun sameName => unnamed (sameName ▸ member)

theorem Filed.enter (filed : Filed state) (found : state.subMonitors smon = some sub)
    (resting : sub.fmons.iterating = false) {filename : Bytes}
    (unpolled : ∀ old, (filename, old) ∈ sub.fmons.main → ¬ sub.unsupportedFmons.Holds old) :
    Filed (fileMonitorEnter state smon filename) := by
  have entered := filed.entered found resting filename
  have same := sameTables_freeEntries ((fileMonitorMade state smon filename).setSub smon
    (enteredTable state sub filename)) (sub.fmons.main.filter (·.1 = filename))
  have held : Held (fileMonitorEnter state smon filename) := by
    rw [enter_resting found resting]
    have made := filed.held.made smon filename
    have next : Held ((fileMonitorMade state smon filename).setSub smon (enteredTable state sub filename)) :=
      made.congr rfl rfl rfl (fun _ => rfl) made.fresh
    exact next.freeEntries _
  have subMonitors := same.subMonitors
  rw [enteredTable, ← enter_resting found resting] at subMonitors
  refine @Filed.rebuild state _ smon sub (some (enteredTable state sub filename)) filed held found subMonitors
    (fun other isOld _ elsewhere => ?_) (fun fmon file isFile => ?_) fun table isNext => ?_
  · exact entered.kept other isOld.ne fun named =>
      elsewhere filename ((filed.tables smon sub found).listed _ named)
  · refine (entered.listed filed found isFile).imp_right ?_
    rintro ⟨here, member, alive, bare⟩
    exact ⟨here, ⟨_, rfl, member⟩, alive, bare⟩
  · cases isNext
    exact entered.subFiled filed found resting unpolled

end Gamin.Kqueue
