import Gamin.Kqueue.Files

/-! # What changes in a directory

`gam_kqueue_sub_monitor_handle_directory_change` compares the names in a directory with its file
monitors.  Names without a monitor get one at once; the monitors without a name are only noted down
while the table is walked, and go when the walk is over.
-/

namespace Gamin.Kqueue

open Gamin Gamin.Server Gamin.Inotify Gamin.Library

variable {state before after : Backend} {smon fmon : Pointer} {sub : SubMonitor}

/-! ## The tables of a directory -/

/-- Each name stands for one file monitor of this directory, and those that are polled are among
them and have no descriptor. -/
structure Tabled (state : Backend) (smon : Pointer) (sub : SubMonitor) : Prop where
  found : state.subMonitors smon = some sub
  listed : ∀ entry ∈ sub.fmons.main,
    state.fileMonitors entry.2 = some { smon := smon, filename := entry.1 } ∧
      (state.monitor entry.2).isSome
  keyed : (sub.fmons.main.map Prod.fst).Nodup
  polled : ∀ fmon ∈ sub.unsupportedFmons.main, ∃ filename, (filename, fmon) ∈ sub.fmons.main
  without : ∀ fmon ∈ sub.unsupportedFmons.main, state.fdOf fmon = none
  fresh : ∀ mon, state.nextPointer ≤ mon → state.monitor mon = none

/-- A table that nobody walks, with nothing noted down. -/
def Quiet {Item : Type*} (table : DeferredSet Item) : Prop :=
  table.iterating = false ∧ table.pendingAdditions = [] ∧ table.pendingRemovals = []

/-- The tables of every directory of the backend are in order, as long as the backend is. -/
theorem Filed.tabled (filed : Filed state) (resting : Resting state smon)
    (found : state.subMonitors smon = some sub) :
    Tabled state smon sub ∧ Quiet sub.fmons ∧ Quiet sub.unsupportedFmons := by
  have old := filed.tables smon sub found
  obtain ⟨restingFiles, restingPolled⟩ := resting sub found
  have holds {fmon : Pointer} := (@DeferredSet.Orderly.holds _ _ _ old.orderlyPolled restingPolled fmon)
  refine ⟨⟨found, fun entry member => ?_, old.keyed, fun fmon member => ?_, fun fmon member => ?_,
    filed.held.fresh⟩, ⟨restingFiles, old.orderly restingFiles⟩,
    ⟨restingPolled, old.orderlyPolled restingPolled⟩⟩
  · have listed := old.listed entry member
    exact ⟨listed, (filed.fileKnown entry.2 _ listed).1⟩
  · exact old.polled fmon (holds.mpr member)
  · exact old.without fmon (holds.mpr member) nofun

theorem Tabled.below (tabled : Tabled state smon sub) {mon : Pointer} (alive : (state.monitor mon).isSome) :
    mon < state.nextPointer := by
  by_contra above
  rw [tabled.fresh mon (Nat.le_of_not_lt above)] at alive
  contradiction

/-- A file monitor has one name. -/
theorem Tabled.named (tabled : Tabled state smon sub) {first second : Bytes}
    (inFirst : (first, fmon) ∈ sub.fmons.main) (inSecond : (second, fmon) ∈ sub.fmons.main) :
    first = second := by
  have both := (tabled.listed _ inFirst).1.symm.trans (tabled.listed _ inSecond).1
  exact congrArg FileMonitor.filename (Option.some.inj both)

/-! ## The text of a monitor, and what has been sent -/

/-- The path of a monitor. -/
def pathOf (state : Backend) (mon : Pointer) : Bytes := ((state.monitor mon).map (·.pathname)).getD []

theorem pathOf_congr {mon : Pointer} (same : after.monitor mon = before.monitor mon) :
    pathOf after mon = pathOf before mon := by
  rw [pathOf, same, pathOf]

theorem enableKqueue_says (state : Backend) (mon : Pointer) :
    (gamKqueueMonitorEnableKqueue state mon).1.sent = state.sent ∧
      pathOf (gamKqueueMonitorEnableKqueue state mon).1 mon = pathOf state mon := by
  unfold gamKqueueMonitorEnableKqueue
  cases found : state.monitor mon with
  | none => exact ⟨rfl, rfl⟩
  | some monitor =>
    have path : pathOf state mon = monitor.pathname := by simp [pathOf, found]
    have rewritten (next : Backend) (monitor' : Monitor) (same : monitor'.pathname = monitor.pathname) :
        pathOf (next.setMonitor mon monitor') mon = monitor.pathname := by
      simp [pathOf, same]
    dsimp only
    rw [path]
    split
    case isTrue => exact ⟨rfl, path⟩
    case isFalse =>
      cases state.answer.opens monitor.pathname with
      | none => exact ⟨rfl, rewritten _ _ rfl⟩
      | some hint =>
        dsimp only
        split
        · exact ⟨rfl, rewritten state.called.called _ rfl⟩
        · exact ⟨rfl, rewritten _ _ rfl⟩

theorem closeMonitor_says (state : Backend) (mon : Pointer) :
    (closeMonitor state mon).sent = state.sent ∧ pathOf (closeMonitor state mon) mon = pathOf state mon := by
  unfold closeMonitor
  cases found : state.monitor mon with
  | none => exact ⟨rfl, rfl⟩
  | some monitor =>
    dsimp only
    cases monitor.fd with
    | none => exact ⟨rfl, rfl⟩
    | some fd =>
      have rewritten : pathOf ((state.close fd).setMonitor mon { monitor with fd := none }) mon =
          monitor.pathname := by
        simp [pathOf]
      refine ⟨rfl, ?_⟩
      have path : pathOf state mon = monitor.pathname := by simp [pathOf, found]
      rw [path]
      exact rewritten

theorem setUnsupported_says (state : Backend) (mon : Pointer) :
    (gamKqueueMonitorSetUnsupported state mon).sent = state.sent ∧
      pathOf (gamKqueueMonitorSetUnsupported state mon) mon = pathOf state mon := by
  unfold gamKqueueMonitorSetUnsupported
  obtain ⟨closedSent, closedPath⟩ := closeMonitor_says state mon
  generalize closeMonitor state mon = next at closedSent closedPath ⊢
  dsimp only
  cases found : next.monitor mon with
  | none => exact ⟨closedSent, closedPath⟩
  | some monitor =>
    have path : pathOf next mon = monitor.pathname := by simp [pathOf, found]
    rw [← closedPath, path]
    unfold gamKqueueMiniLstat
    dsimp only
    cases next.answer.lstat monitor.pathname with
    | none => exact ⟨closedSent, by simp [pathOf]⟩
    | some sb => exact ⟨closedSent, by simp [pathOf]⟩

/-- The events of one kind about one file, for all subscriptions. -/
def fileEvents (subs : List GamSubscription) (path : Bytes) (isdir : Bool) (event : GaminEventType) :
    List Emission :=
  subs.flatMap fun sub => gamServerEmitOneEvent path isdir event sub true

theorem fileMonitorSend_says {file : FileMonitor} (alive : (state.monitor fmon).isSome)
    (isFile : state.fileMonitors fmon = some file) (found : state.subMonitors file.smon = some sub)
    (event : GaminEventType) (kind : Option Bool) :
    ∃ answers isdir, (fileMonitorSend state fmon event kind).1 =
        { state with
          answers := answers
          sent := state.sent ++ fileEvents sub.subs (pathOf state fmon) isdir event } ∧
      (kind = some false → isdir = false) := by
  obtain ⟨mon, isMonitor⟩ := Option.isSome_iff_exists.mp alive
  have path : pathOf state fmon = mon.pathname := by simp [pathOf, isMonitor]
  simp only [fileMonitorSend, isMonitor, isFile, found, path]
  cases kind with
  | some isdir => exact ⟨_, isdir, rfl, fun known => Option.some.inj known⟩
  | none => exact ⟨_, _, rfl, nofun⟩

/-! ## A name that is new -/

theorem enter_new (found : state.subMonitors smon = some sub) (resting : sub.fmons.iterating = false)
    {filename : Bytes} (absent : filename ∉ sub.fmons.main.map Prod.fst) :
    fileMonitorEnter state smon filename =
      (fileMonitorMade state smon filename).setSub smon
        (sub.setFiles ((filename, state.nextPointer) :: sub.fmons.main)) := by
  have others : ∀ entry ∈ sub.fmons.main, entry.1 ≠ filename := fun entry member same =>
    absent (same ▸ List.mem_map_of_mem member)
  have none : sub.fmons.main.filter (·.1 = filename) = [] :=
    List.filter_eq_nil_iff.mpr fun entry member => by simpa using others entry member
  have all : sub.fmons.main.filter (·.1 ≠ filename) = sub.fmons.main :=
    List.filter_eq_self.mpr fun entry member => by simpa using others entry member
  rw [enter_resting found resting, none, all]
  rfl

/-- A directory with one more file: older monitors are as they were. -/
structure Grown (state : Backend) (smon : Pointer) (sub : SubMonitor) (filename : Bytes) (after : Backend)
    (next : SubMonitor) : Prop where
  tabled : Tabled after smon next
  quiet : Quiet next.fmons
  quietPolled : Quiet next.unsupportedFmons
  subs : next.subs = sub.subs
  files : next.fmons.main = (filename, state.nextPointer) :: sub.fmons.main
  older : ∀ mon, (state.monitor mon).isSome → after.monitor mon = state.monitor mon

theorem Tabled.made (tabled : Tabled state smon sub) (quiet : Quiet sub.fmons)
    (quietPolled : Quiet sub.unsupportedFmons) {filename : Bytes}
    (absent : filename ∉ sub.fmons.main.map Prod.fst) :
    Grown state smon sub filename (fileMonitorEnter state smon filename)
      (sub.setFiles ((filename, state.nextPointer) :: sub.fmons.main)) := by
  rw [enter_new tabled.found quiet.1 absent]
  have old {mon : Pointer} (alive : (state.monitor mon).isSome) : mon ≠ state.nextPointer :=
    (tabled.below alive).ne
  refine ⟨⟨?_, ?_, ?_, ?_, ?_, ?_⟩, quiet, quietPolled, rfl, rfl, ?_⟩
  · rw [subMonitors_setSub, if_pos rfl]
  · intro entry member
    cases List.mem_cons.mp member with
    | inl isNew =>
      rw [isNew]
      obtain ⟨monitor, isMonitor, _⟩ := made_monitor state smon filename
      exact ⟨made_file state smon filename, Option.isSome_iff_exists.mpr ⟨monitor, isMonitor⟩⟩
    | inr isOld =>
      obtain ⟨listed, alive⟩ := tabled.listed entry isOld
      obtain ⟨monitor, file⟩ := made_other state smon filename (old alive)
      exact ⟨file.trans listed, (congrArg Option.isSome monitor).trans alive⟩
  · exact List.nodup_cons.mpr ⟨absent, tabled.keyed⟩
  · intro fmon member
    obtain ⟨name, inMain⟩ := tabled.polled fmon member
    exact ⟨name, List.mem_cons_of_mem _ inMain⟩
  · intro fmon member
    obtain ⟨name, inMain⟩ := tabled.polled fmon member
    have same := (made_other state smon filename (old (tabled.listed _ inMain).2)).1
    exact (Backend.fdOf_congr same).trans (tabled.without fmon member)
  · intro mon above
    have different : mon ≠ state.nextPointer := (Nat.lt_of_succ_le above).ne'
    exact ((made_other state smon filename different).1).trans
      (tabled.fresh mon (Nat.le_of_succ_le above))
  · exact fun mon alive => (made_other state smon filename (old alive)).1

/-- What touches only the new monitor leaves the directory as it is, if the new monitor is not polled. -/
theorem Grown.touch {filename : Bytes} {next : SubMonitor}
    (grown : Grown state smon sub filename before next)
    (touches : Touches state.nextPointer before after)
    (different : ∀ {mon}, (state.monitor mon).isSome → mon ≠ state.nextPointer)
    (unpolled : state.nextPointer ∉ next.unsupportedFmons.main ∨ after.fdOf state.nextPointer = none) :
    Grown state smon sub filename after next where
  tabled :=
    { found := (congrFun touches.subMonitors smon).trans grown.tabled.found
      listed := fun entry member => by
        obtain ⟨listed, alive⟩ := grown.tabled.listed entry member
        refine ⟨(congrFun touches.fileMonitors entry.2).trans listed, ?_⟩
        by_cases isNew : entry.2 = state.nextPointer
        · rw [isNew] at alive ⊢
          exact touches.alive.trans alive
        · rw [touches.others entry.2 isNew]
          exact alive
      keyed := grown.tabled.keyed
      polled := grown.tabled.polled
      without := fun fmon member => by
        by_cases isNew : fmon = state.nextPointer
        · exact isNew ▸ unpolled.resolve_left (not_not_intro (isNew ▸ member))
        · rw [Backend.fdOf_congr (touches.others fmon isNew)]
          exact grown.tabled.without fmon member
      fresh := fun mon above => by
        have dead := grown.tabled.fresh mon (touches.nextPointer ▸ above)
        by_cases isNew : mon = state.nextPointer
        · refine Option.not_isSome_iff_eq_none.mp fun alive => ?_
          rw [isNew, touches.alive, ← isNew, dead] at alive
          contradiction
        · exact (touches.others mon isNew).trans dead }
  quiet := grown.quiet
  quietPolled := grown.quietPolled
  subs := grown.subs
  files := grown.files
  older mon alive := (touches.others mon (different alive)).trans (grown.older mon alive)

/-- The new monitor is polled. -/
theorem Grown.addUnsupportedFmon {filename : Bytes} {next : SubMonitor}
    (grown : Grown state smon sub filename before next)
    (without : before.fdOf state.nextPointer = none) :
    Grown state smon sub filename (addUnsupportedFmon before smon state.nextPointer)
      { next with unsupportedFmons := next.unsupportedFmons.add state.nextPointer } := by
  have resting := grown.quietPolled.1
  have added : (next.unsupportedFmons.add state.nextPointer).main =
      DeferredSet.insertInto next.unsupportedFmons.main state.nextPointer := by
    simp [DeferredSet.add, resting]
  have members : ∀ fmon, fmon ∈ (next.unsupportedFmons.add state.nextPointer).main →
      fmon = state.nextPointer ∨ fmon ∈ next.unsupportedFmons.main := by
    intro fmon member
    rw [added, DeferredSet.insertInto] at member
    exact (List.mem_cons.mp member).imp_right fun inOld => (List.mem_filter.mp inOld).1
  simp only [Kqueue.addUnsupportedFmon, grown.tabled.found, resting, Bool.false_eq_true, if_false]
  refine ⟨⟨?_, grown.tabled.listed, grown.tabled.keyed, fun fmon member => ?_, fun fmon member => ?_,
    grown.tabled.fresh⟩, grown.quiet, ?_, grown.subs, grown.files, grown.older⟩
  · exact (subMonitors_setSub ..).trans (if_pos rfl)
  · cases members fmon member with
    | inl isNew =>
      refine ⟨filename, ?_⟩
      dsimp only
      rw [isNew, grown.files]
      exact List.mem_cons_self
    | inr isOld => exact grown.tabled.polled fmon isOld
  · cases members fmon member with
    | inl isNew => exact isNew ▸ without
    | inr isOld => exact grown.tabled.without fmon isOld
  · simpa only [Quiet, DeferredSet.add, resting, Bool.false_eq_true, if_false] using grown.quietPolled

theorem Grown.send {filename : Bytes} {next : SubMonitor}
    (grown : Grown state smon sub filename before next) (event : GaminEventType) (kind : Option Bool) :
    ∃ isdir, Grown state smon sub filename (fileMonitorSend before state.nextPointer event kind).1 next ∧
      (fileMonitorSend before state.nextPointer event kind).1.sent =
        before.sent ++ fileEvents sub.subs (pathOf before state.nextPointer) isdir event := by
  have isNew : (filename, state.nextPointer) ∈ next.fmons.main := by
    rw [grown.files]
    exact List.mem_cons_self
  obtain ⟨isFile, alive⟩ := grown.tabled.listed _ isNew
  obtain ⟨answers, isdir, same, _⟩ := fileMonitorSend_says alive isFile grown.tabled.found event kind
  rw [same, grown.subs]
  refine ⟨isdir, ?_, rfl⟩
  exact { grown with tabled := { grown.tabled with } }

/-- A name that had no monitor gets one, and one event about it is sent for each subscription. -/
theorem newFile_grown (tabled : Tabled state smon sub) (quiet : Quiet sub.fmons)
    (quietPolled : Quiet sub.unsupportedFmons) {filename : Bytes}
    (absent : filename ∉ sub.fmons.main.map Prod.fst) (event : GaminEventType) :
    ∃ next isdir, Grown state smon sub filename (newFile smon event state filename) next ∧
      (newFile smon event state filename).sent =
        state.sent ++ fileEvents sub.subs (gBuildFilename (pathOf state smon) filename) isdir event := by
  have entered := tabled.made quiet quietPolled absent
  have different {mon : Pointer} (alive : (state.monitor mon).isSome) : mon ≠ state.nextPointer :=
    (tabled.below alive).ne
  have enteredSent : (fileMonitorEnter state smon filename).sent = state.sent := by
    rw [enter_new tabled.found quiet.1 absent]
    rfl
  have enteredPath : pathOf (fileMonitorEnter state smon filename) state.nextPointer =
      gBuildFilename (pathOf state smon) filename := by
    rw [enter_new tabled.found quiet.1 absent]
    simp [pathOf, fileMonitorMade, Backend.setSub, monitorNew, Backend.monitor, Backend.setMonitor]
  have isNew : (filename, state.nextPointer) ∈
      (sub.setFiles ((filename, state.nextPointer) :: sub.fmons.main)).fmons.main := List.mem_cons_self
  have unpolled : state.nextPointer ∉
      (sub.setFiles ((filename, state.nextPointer) :: sub.fmons.main)).unsupportedFmons.main := by
    intro member
    obtain ⟨name, inMain⟩ := tabled.polled _ member
    have alive := (tabled.listed _ inMain).2
    rw [tabled.fresh _ (Nat.le_refl _)] at alive
    contradiction
  unfold newFile gamKqueueFileMonitorNew
  generalize fileMonitorEnter state smon filename = first at entered enteredSent enteredPath ⊢
  have touches := touches_enableKqueue first state.nextPointer
  obtain ⟨saysSent, saysPath⟩ := enableKqueue_says first state.nextPointer
  have enabled := entered.touch touches different (.inl unpolled)
  dsimp only
  generalize gamKqueueMonitorEnableKqueue first state.nextPointer = result
    at touches saysSent saysPath enabled ⊢
  obtain ⟨second, succeeded⟩ := result
  have sent := saysSent.trans enteredSent
  have path := saysPath.trans enteredPath
  cases succeeded with
  | true =>
    obtain ⟨isdir, told, toldSent⟩ := enabled.send event none
    exact ⟨_, isdir, told, by rw [toldSent, sent, path]⟩
  | false =>
    obtain ⟨closedSent, closedPath⟩ := setUnsupported_says second state.nextPointer
    have closedTouches := touches_setUnsupported second state.nextPointer
    have without :
        (gamKqueueMonitorSetUnsupported second state.nextPointer).fdOf state.nextPointer = none := by
      rw [fdOf_setUnsupported, if_pos rfl]
    have closed := enabled.touch closedTouches different (.inr without)
    have polled := closed.addUnsupportedFmon without
    have isFile := (closed.tabled.listed _ isNew).1
    -- the tables do not matter for what has been sent and for the path
    have added : ∀ ready : Backend, (addUnsupportedFmon ready smon state.nextPointer).sent = ready.sent ∧
        pathOf (addUnsupportedFmon ready smon state.nextPointer) state.nextPointer =
          pathOf ready state.nextPointer := by
      intro ready
      unfold addUnsupportedFmon
      split
      · exact ⟨rfl, rfl⟩
      · dsimp only
        split <;> exact ⟨rfl, rfl⟩
    have whole : gamKqueueFileMonitorSetUnsupported second state.nextPointer =
        addUnsupportedFmon (gamKqueueMonitorSetUnsupported second state.nextPointer) smon
          state.nextPointer := by
      simp only [gamKqueueFileMonitorSetUnsupported, isFile]
    dsimp only
    rw [whole]
    generalize Option.map _ _ = kind
    obtain ⟨isdir, told, toldSent⟩ := polled.send event kind
    refine ⟨_, isdir, told, ?_⟩
    rw [toldSent, (added _).1, (added _).2, closedSent, closedPath, sent, path]

/-! ## The names that are read -/

/-- The events about names that have got a monitor, with whether each is that of a directory. -/
def createdEvents (subs : List GamSubscription) (directory : Bytes) (created : List (Bytes × Bool)) :
    List Emission :=
  created.flatMap fun (filename, isdir) =>
    fileEvents subs (gBuildFilename directory filename) isdir .created

/-- Every name that had no monitor has got one, in its turn. -/
theorem changedNames_grown {names : List Bytes} (nodup : names.Nodup) (tabled : Tabled state smon sub)
    (quiet : Quiet sub.fmons) (quietPolled : Quiet sub.unsupportedFmons)
    (alive : (state.monitor smon).isSome) :
    ∃ next new created, Tabled (names.foldl (changedName smon) state) smon next ∧ Quiet next.fmons ∧
      Quiet next.unsupportedFmons ∧ next.subs = sub.subs ∧ next.fmons.main = new ++ sub.fmons.main ∧
      (∀ mon, (state.monitor mon).isSome →
        (names.foldl (changedName smon) state).monitor mon = state.monitor mon) ∧
      created.map Prod.fst = names.filter (· ∉ sub.fmons.main.map Prod.fst) ∧
      new.map Prod.fst = (created.map Prod.fst).reverse ∧
      (names.foldl (changedName smon) state).sent =
        state.sent ++ createdEvents sub.subs (pathOf state smon) created := by
  induction names generalizing state sub with
  | nil =>
    exact ⟨sub, [], [], tabled, quiet, quietPolled, rfl, rfl, fun _ _ => rfl, rfl, rfl,
      (List.append_nil _).symm⟩
  | cons name names inductionHypothesis =>
    obtain ⟨unrepeated, restNodup⟩ := List.nodup_cons.mp nodup
    rw [List.foldl_cons]
    by_cases known : name ∈ sub.fmons.main.map Prod.fst
    · have same : changedName smon state name = state := by
        simp only [changedName, tabled.found, if_pos known]
      rw [same, List.filter_cons_of_neg (by simpa using known)]
      exact inductionHypothesis restNodup tabled quiet quietPolled alive
    · have made : changedName smon state name = newFile smon .created state name := by
        simp only [changedName, tabled.found, if_neg known]
      obtain ⟨middle, isdir, grown, sent⟩ := newFile_grown tabled quiet quietPolled known .created
      rw [made, List.filter_cons_of_pos (by simpa using known)]
      generalize newFile smon .created state name = next at grown sent ⊢
      have aliveNext : (next.monitor smon).isSome := by rw [grown.older smon alive, alive]
      obtain ⟨last, new, created, lastTabled, lastQuiet, lastPolled, subs, files, older, names', newNames,
        lastSent⟩ := inductionHypothesis restNodup grown.tabled grown.quiet grown.quietPolled aliveNext
      -- the other names are none of them this one
      have sameNames : names.filter (· ∉ middle.fmons.main.map Prod.fst) =
          names.filter (· ∉ sub.fmons.main.map Prod.fst) := by
        refine List.filter_congr fun other member => ?_
        have different : other ≠ name := fun same => unrepeated (same ▸ member)
        rw [grown.files]
        simp [different]
      rw [sameNames] at names'
      refine ⟨last, new ++ [(name, state.nextPointer)], (name, isdir) :: created, lastTabled, lastQuiet,
        lastPolled, subs.trans grown.subs, ?_, fun mon isAlive => ?_, by rw [List.map_cons, names'],
        by rw [List.map_append, newNames]; simp, ?_⟩
      · rw [files, grown.files, List.append_assoc]
        rfl
      · rw [older mon (by rw [grown.older mon isAlive, isAlive]), grown.older mon isAlive]
      · rw [lastSent, sent, grown.subs, pathOf_congr (grown.older smon alive), List.append_assoc]
        rfl

/-! ## The monitors without a name -/

theorem removeUnsupportedFmon_says (state : Backend) (smon fmon : Pointer) :
    (removeUnsupportedFmon state smon fmon).sent = state.sent ∧
      (removeUnsupportedFmon state smon fmon).monitors = state.monitors ∧
      (removeUnsupportedFmon state smon fmon).fileMonitors = state.fileMonitors ∧
      (removeUnsupportedFmon state smon fmon).nextPointer = state.nextPointer := by
  unfold removeUnsupportedFmon
  split
  · exact ⟨rfl, rfl, rfl, rfl⟩
  · dsimp only
    split <;> exact ⟨rfl, rfl, rfl, rfl⟩

/-- Only the tables of the directory have changed: some monitors are on their way out. -/
structure Leaving (state : Backend) (smon : Pointer) (sub : SubMonitor) (gone : List (Bytes × Pointer))
    (after : Backend) (next : SubMonitor) : Prop where
  found : after.subMonitors smon = some next
  subs : next.subs = sub.subs
  files : next.fmons = { sub.fmons with pendingRemovals := gone.reverse ++ sub.fmons.pendingRemovals }
  quietPolled : Quiet next.unsupportedFmons
  polled : ∀ fmon, fmon ∈ next.unsupportedFmons.main ↔
    fmon ∈ sub.unsupportedFmons.main ∧ fmon ∉ gone.map Prod.snd
  monitors : after.monitors = state.monitors
  fileMonitors : after.fileMonitors = state.fileMonitors
  nextPointer : after.nextPointer = state.nextPointer
  sent : after.sent = state.sent ++
    gone.flatMap fun entry => fileEvents sub.subs (pathOf state entry.2) false .deleted

theorem Leaving.refl (found : state.subMonitors smon = some sub) (quietPolled : Quiet sub.unsupportedFmons) :
    Leaving state smon sub [] state sub :=
  ⟨found, rfl, rfl, quietPolled, by simp, rfl, rfl, rfl, (List.append_nil _).symm⟩

theorem Leaving.trans {first second : List (Bytes × Pointer)} {middle : Backend} {next last : SubMonitor}
    (before : Leaving state smon sub first middle next)
    (after' : Leaving middle smon next second after last) :
    Leaving state smon sub (first ++ second) after last where
  found := after'.found
  subs := after'.subs.trans before.subs
  files := by rw [after'.files, before.files, List.reverse_append, List.append_assoc]
  quietPolled := after'.quietPolled
  polled fmon := by
    rw [after'.polled, before.polled, List.map_append, List.mem_append, not_or, and_assoc]
  monitors := after'.monitors.trans before.monitors
  fileMonitors := after'.fileMonitors.trans before.fileMonitors
  nextPointer := after'.nextPointer.trans before.nextPointer
  sent := by
    have same : pathOf middle = pathOf state := by
      funext mon
      exact pathOf_congr (by rw [Backend.monitor, before.monitors, Backend.monitor])
    rw [after'.sent, before.sent, before.subs, List.flatMap_append, List.append_assoc, same]

/-- A file monitor that is polled no more, if it was. -/
theorem unpolled_leaving (found : state.subMonitors smon = some sub)
    (quietPolled : Quiet sub.unsupportedFmons) {mon : Monitor} (isMonitor : state.monitor fmon = some mon)
    (without : ∀ fmon ∈ sub.unsupportedFmons.main, state.fdOf fmon = none) :
    ∃ next, (if mon.fd = none then removeUnsupportedFmon state smon fmon else state).subMonitors smon =
        some next ∧
      next.subs = sub.subs ∧ next.fmons = sub.fmons ∧ Quiet next.unsupportedFmons ∧
      ∀ other, other ∈ next.unsupportedFmons.main ↔ other ∈ sub.unsupportedFmons.main ∧ other ≠ fmon := by
  split
  case isTrue =>
    refine ⟨{ sub with unsupportedFmons := sub.unsupportedFmons.remove fmon },
      by rw [subMonitors_removeUnsupportedFmon found, Function.update_self], rfl, rfl, ?_, fun other => ?_⟩
    · simpa only [Quiet, DeferredSet.remove, quietPolled.1, Bool.false_eq_true, if_false] using quietPolled
    · simp [DeferredSet.remove, DeferredSet.eraseFrom, quietPolled.1]
  case isFalse hasFd =>
    refine ⟨sub, found, rfl, rfl, quietPolled, fun other => ⟨fun member => ⟨member, ?_⟩, And.left⟩⟩
    rintro rfl
    exact hasFd ((Backend.fdOf_of_monitor isMonitor).symm.trans (without _ member))

theorem changeRemoval_leaving {names : List Bytes} (tabled : Tabled state smon sub)
    (walking : sub.fmons.iterating = true) (quietPolled : Quiet sub.unsupportedFmons)
    {entry : Bytes × Pointer} (member : entry ∈ sub.fmons.main) (absent : entry.1 ∉ names) :
    ∃ next, Leaving state smon sub [entry] (changeRemoval names state entry) next := by
  obtain ⟨isFile, alive⟩ := tabled.listed entry member
  obtain ⟨mon, isMonitor⟩ := Option.isSome_iff_exists.mp alive
  obtain ⟨answers, isdir, same, known⟩ :=
    fileMonitorSend_says alive isFile tabled.found .deleted (some false)
  rw [known rfl] at same
  simp only [changeRemoval, if_neg absent, gamKqueueFileMonitorEmitEvent, isMonitor, isFile, true_or, if_true]
  rw [same]
  generalize (fileMonitorSend state entry.2 .deleted (some false)).2 = statted
  -- the directory tells its subscriptions; its file is taken off the poller first
  unfold fileMonitorGone
  simp only [Bool.false_eq_true, if_false]
  generalize isTold : ({ state with
    answers := answers
    sent := state.sent ++ fileEvents sub.subs (pathOf state entry.2) false .deleted } : Backend) = told
  have foundTold : told.subMonitors smon = some sub := isTold ▸ tabled.found
  have monitorTold : told.monitor entry.2 = some mon := isTold ▸ isMonitor
  have withoutTold : ∀ fmon ∈ sub.unsupportedFmons.main, told.fdOf fmon = none := isTold ▸ tabled.without
  obtain ⟨next, foundNext, subs, files, quiet, polled⟩ :=
    unpolled_leaving foundTold quietPolled monitorTold withoutTold
  have rest : (if mon.fd = none then removeUnsupportedFmon told smon entry.2 else told).sent = told.sent ∧
      (if mon.fd = none then removeUnsupportedFmon told smon entry.2 else told).monitors = told.monitors ∧
      (if mon.fd = none then removeUnsupportedFmon told smon entry.2 else told).fileMonitors =
        told.fileMonitors ∧
      (if mon.fd = none then removeUnsupportedFmon told smon entry.2 else told).nextPointer =
        told.nextPointer := by
    split
    · exact removeUnsupportedFmon_says told smon entry.2
    · exact ⟨rfl, rfl, rfl, rfl⟩
  generalize (if mon.fd = none then removeUnsupportedFmon told smon entry.2 else told) = ready
    at foundNext rest ⊢
  have walkingNext : next.fmons.iterating = true := by rw [files, walking]
  simp only [removeFmon, foundNext, if_pos walkingNext]
  refine ⟨{ next with
    fmons := { next.fmons with pendingRemovals := entry :: next.fmons.pendingRemovals } },
    (subMonitors_setSub ..).trans (if_pos rfl), subs, by simp [files], quiet,
    fun fmon => by simpa using polled fmon, ?_, ?_, ?_, ?_⟩
  · exact rest.2.1.trans (by rw [← isTold])
  · exact rest.2.2.1.trans (by rw [← isTold])
  · exact rest.2.2.2.trans (by rw [← isTold])
  · exact rest.1.trans (by rw [← isTold]; simp)

theorem Leaving.tabled {gone : List (Bytes × Pointer)} {next : SubMonitor} (tabled : Tabled state smon sub)
    (leaving : Leaving state smon sub gone after next) : Tabled after smon next where
  found := leaving.found
  listed entry member := by
    rw [leaving.files] at member
    rw [leaving.fileMonitors, Backend.monitor, leaving.monitors]
    exact tabled.listed entry member
  keyed := by
    rw [leaving.files]
    exact tabled.keyed
  polled fmon member := by
    rw [leaving.files]
    exact tabled.polled fmon ((leaving.polled fmon).mp member).1
  without fmon member := by
    have same : after.monitor fmon = state.monitor fmon := by
      rw [Backend.monitor, leaving.monitors, Backend.monitor]
    rw [Backend.fdOf_congr same]
    exact tabled.without fmon ((leaving.polled fmon).mp member).1
  fresh mon above := by
    rw [Backend.monitor, leaving.monitors]
    exact tabled.fresh mon (leaving.nextPointer ▸ above)

/-- All monitors without a name are on their way out. -/
theorem changeRemovals_leaving {names : List Bytes} {walk : List (Bytes × Pointer)}
    (tabled : Tabled state smon sub) (walking : sub.fmons.iterating = true)
    (quietPolled : Quiet sub.unsupportedFmons) (inside : ∀ entry ∈ walk, entry ∈ sub.fmons.main) :
    ∃ next, Leaving state smon sub (walk.filter (·.1 ∉ names)) (walk.foldl (changeRemoval names) state)
      next := by
  induction walk generalizing state sub with
  | nil => exact ⟨sub, .refl tabled.found quietPolled⟩
  | cons entry walk inductionHypothesis =>
    have restInside := fun other member => inside other (List.mem_cons_of_mem entry member)
    rw [List.foldl_cons]
    by_cases listed : entry.1 ∈ names
    · have same : changeRemoval names state entry = state := by rw [changeRemoval, if_pos listed]
      rw [same, List.filter_cons_of_neg (by simpa using listed)]
      exact inductionHypothesis tabled walking quietPolled restInside
    · obtain ⟨middle, first⟩ :=
        changeRemoval_leaving tabled walking quietPolled (inside entry List.mem_cons_self) listed
      rw [List.filter_cons_of_pos (by simpa using listed)]
      obtain ⟨last, rest⟩ := inductionHypothesis (first.tabled tabled) (by rw [first.files, walking])
        first.quietPolled fun other member => by
          rw [first.files]
          exact restInside other member
      exact ⟨last, first.trans rest⟩

/-! ## The end of the walk -/

theorem freeEntries_sent (state : Backend) (entries : List (Bytes × Pointer)) :
    (freeEntries state entries).sent = state.sent := by
  unfold freeEntries
  induction entries generalizing state with
  | nil => rfl
  | cons entry entries inductionHypothesis =>
    have first := closeMonitor_says state entry.2
    exact (inductionHypothesis _).trans first.1

/-- The monitors that go are freed and all others stay. -/
theorem removeFmons_says (removals : List (Bytes × Pointer)) (found : state.subMonitors smon = some sub)
    (resting : sub.fmons.iterating = false) :
    (removals.foldl (removeFmon · smon) state).subMonitors smon =
        some (sub.setFiles (sub.fmons.main.filter (·.1 ∉ removals.map Prod.fst))) ∧
      (removals.foldl (removeFmon · smon) state).sent = state.sent ∧
      (removals.foldl (removeFmon · smon) state).nextPointer = state.nextPointer ∧
      (∀ mon, state.monitor mon = none → (removals.foldl (removeFmon · smon) state).monitor mon = none) ∧
      ∀ mon, (∀ entry ∈ removals, (entry.1, mon) ∉ sub.fmons.main) →
        (removals.foldl (removeFmon · smon) state).monitor mon = state.monitor mon ∧
          (removals.foldl (removeFmon · smon) state).fileMonitors mon = state.fileMonitors mon := by
  induction removals generalizing state sub with
  | nil =>
    refine ⟨?_, rfl, rfl, fun _ => id, fun _ _ => ⟨rfl, rfl⟩⟩
    simp [found, SubMonitor.setFiles]
  | cons entry removals inductionHypothesis =>
    -- nobody walks the table, so every entry of that name goes at once
    have foundNext := removeFmon_found found resting entry
    have freed := freed_freeEntries
      (state.setSub smon (sub.setFiles (sub.fmons.main.filter (·.1 ≠ entry.1))))
      (sub.fmons.main.filter (·.1 = entry.1))
    have sameTables := sameTables_freeEntries
      (state.setSub smon (sub.setFiles (sub.fmons.main.filter (·.1 ≠ entry.1))))
      (sub.fmons.main.filter (·.1 = entry.1))
    have sameSent := freeEntries_sent
      (state.setSub smon (sub.setFiles (sub.fmons.main.filter (·.1 ≠ entry.1))))
      (sub.fmons.main.filter (·.1 = entry.1))
    rw [← removeFmon_resting found resting] at freed sameTables sameSent
    rw [List.foldl_cons]
    generalize removeFmon state smon entry = next at foundNext freed sameTables sameSent ⊢
    obtain ⟨files, sent, pointer, dead, kept⟩ := inductionHypothesis foundNext resting
    refine ⟨?_, sent.trans sameSent, pointer.trans sameTables.nextPointer, fun mon isDead => dead mon ?_,
      fun mon absent => ?_⟩
    · rw [files]
      simp only [SubMonitor.setFiles, List.filter_filter, List.map_cons, List.mem_cons, not_or]
      congr 3
      refine List.filter_congr fun other _ => ?_
      simp [Bool.and_comm]
    · -- what is dead stays dead, also if it is freed now
      by_cases gone : mon ∈ (sub.fmons.main.filter (·.1 = entry.1)).map Prod.snd
      · exact (freed.gone mon gone).1
      · exact (freed.kept mon gone).1.trans isDead
    · have stays : mon ∉ (sub.fmons.main.filter (·.1 = entry.1)).map Prod.snd :=
        fun gone => absent entry List.mem_cons_self (mem_named.mp gone)
      obtain ⟨monitor, file⟩ := freed.kept mon stays
      obtain ⟨monitorLast, fileLast⟩ := kept mon fun other member inFilter =>
        absent other (List.mem_cons_of_mem _ member) (List.mem_filter.mp inFilter).1
      exact ⟨monitorLast.trans monitor, fileLast.trans file⟩

theorem finishFmons_says (tabled : Tabled state smon sub) (noAdditions : sub.fmons.pendingAdditions = [])
    (unpolled : ∀ entry ∈ sub.fmons.main, entry.1 ∈ sub.fmons.pendingRemovals.map Prod.fst →
      entry.2 ∉ sub.unsupportedFmons.main) :
    ∃ next, Tabled (finishFmons state smon) smon next ∧ Quiet next.fmons ∧
      next.unsupportedFmons = sub.unsupportedFmons ∧ next.subs = sub.subs ∧
      next.fmons.main = sub.fmons.main.filter (·.1 ∉ sub.fmons.pendingRemovals.map Prod.fst) ∧
      (finishFmons state smon).sent = state.sent ∧
      ∀ entry ∈ next.fmons.main, (finishFmons state smon).monitor entry.2 = state.monitor entry.2 := by
  have foundReset : (state.setSub smon
      { sub with fmons := { DeferredSet.new with main := sub.fmons.main } }).subMonitors smon =
        some { sub with fmons := { DeferredSet.new with main := sub.fmons.main } } :=
    (subMonitors_setSub ..).trans (if_pos rfl)
  obtain ⟨found, sent, pointer, dead, stays⟩ := removeFmons_says sub.fmons.pendingRemovals foundReset rfl
  simp only [finishFmons, tabled.found, noAdditions, List.foldl_nil]
  generalize sub.fmons.pendingRemovals.foldl (removeFmon · smon)
    (state.setSub smon { sub with fmons := { DeferredSet.new with main := sub.fmons.main } }) = after
      at found sent pointer dead stays ⊢
  -- what is under another name than those that go is not freed
  have same : ∀ entry ∈ sub.fmons.main, entry.1 ∉ sub.fmons.pendingRemovals.map Prod.fst →
      after.monitor entry.2 = state.monitor entry.2 ∧
        after.fileMonitors entry.2 = state.fileMonitors entry.2 := by
    intro entry member stay
    refine stays entry.2 fun other inRemovals inMain => stay ?_
    have inMain : (other.1, entry.2) ∈ sub.fmons.main := inMain
    exact tabled.named inMain member ▸ List.mem_map_of_mem inRemovals
  have split : ∀ entry, entry ∈ sub.fmons.main.filter (·.1 ∉ sub.fmons.pendingRemovals.map Prod.fst) →
      entry ∈ sub.fmons.main ∧ entry.1 ∉ sub.fmons.pendingRemovals.map Prod.fst := by
    intro entry member
    obtain ⟨inMain, stay⟩ := List.mem_filter.mp member
    exact ⟨inMain, of_decide_eq_true stay⟩
  have survives : ∀ fmon ∈ sub.unsupportedFmons.main, ∃ filename, (filename, fmon) ∈ sub.fmons.main ∧
      filename ∉ sub.fmons.pendingRemovals.map Prod.fst := by
    intro fmon member
    obtain ⟨filename, inMain⟩ := tabled.polled fmon member
    exact ⟨filename, inMain, fun goes => unpolled _ inMain goes member⟩
  refine ⟨_, ⟨found, fun entry member => ?_, ?_, fun fmon member => ?_, fun fmon member => ?_,
    fun mon above => dead mon (tabled.fresh mon (pointer ▸ above))⟩, ⟨rfl, rfl, rfl⟩, rfl, rfl, rfl, sent,
    fun entry member => (same entry (split entry member).1 (split entry member).2).1⟩
  · obtain ⟨inMain, stay⟩ := split entry member
    obtain ⟨listed, alive⟩ := tabled.listed entry inMain
    obtain ⟨monitor, file⟩ := same entry inMain stay
    exact ⟨file.trans listed, (congrArg Option.isSome monitor).trans alive⟩
  · exact tabled.keyed.sublist (List.filter_sublist.map Prod.fst)
  · obtain ⟨filename, inMain, stay⟩ := survives fmon member
    exact ⟨filename, List.mem_filter.mpr ⟨inMain, decide_eq_true stay⟩⟩
  · obtain ⟨filename, inMain, stay⟩ := survives fmon member
    exact (Backend.fdOf_congr (same _ inMain stay).1).trans (tabled.without fmon member)

/-! ## The difference -/

/-- The events about monitors without a name. -/
def deletedEvents (state : Backend) (subs : List GamSubscription) (deleted : List (Bytes × Pointer)) :
    List Emission :=
  deleted.flatMap fun entry => fileEvents subs (pathOf state entry.2) false .deleted

/-- The difference between the names in a directory and its file monitors has been sent and made up for:
`Created` for each name that had no monitor, `Deleted` for each monitor without a name. -/
structure Diffed (state : Backend) (smon : Pointer) (sub : SubMonitor) (names : List Bytes)
    (after : Backend) (next : SubMonitor) : Prop where
  tabled : Tabled after smon next
  quiet : Quiet next.fmons
  quietPolled : Quiet next.unsupportedFmons
  subs : next.subs = sub.subs
  sent : ∃ created deleted, created.map Prod.fst = names.filter (· ∉ sub.fmons.main.map Prod.fst) ∧
    deleted.Perm (sub.fmons.main.filter (·.1 ∉ names)) ∧
    after.sent = state.sent ++ createdEvents sub.subs (pathOf state smon) created ++
      deletedEvents state sub.subs deleted
  names : ∀ name, name ∈ next.fmons.main.map Prod.fst ↔ name ∈ names
  kept : ∀ entry ∈ next.fmons.main, entry.1 ∈ sub.fmons.main.map Prod.fst →
    entry ∈ sub.fmons.main ∧ after.monitor entry.2 = state.monitor entry.2

theorem Tabled.called (tabled : Tabled state smon sub) : Tabled state.called smon sub :=
  { tabled with }

/-- The walk over the table and its end. -/
theorem walk_diffed (names : List Bytes) (tabled : Tabled state smon sub) (quiet : Quiet sub.fmons)
    (quietPolled : Quiet sub.unsupportedFmons) {walk : List (Bytes × Pointer)}
    (whole : walk.Perm sub.fmons.main) (isAfter : after = finishFmons (walk.foldl (changeRemoval names)
      (state.setSub smon { sub with fmons := sub.fmons.walked })) smon) :
    ∃ next, Tabled after smon next ∧ Quiet next.fmons ∧ Quiet next.unsupportedFmons ∧
      next.subs = sub.subs ∧ next.fmons.main = sub.fmons.main.filter (·.1 ∈ names) ∧
      after.sent = state.sent ++ deletedEvents state sub.subs (walk.filter (·.1 ∉ names)) ∧
      ∀ entry ∈ next.fmons.main, after.monitor entry.2 = state.monitor entry.2 := by
  have start : Tabled (state.setSub smon { sub with fmons := sub.fmons.walked }) smon
      { sub with fmons := sub.fmons.walked } :=
    { tabled with found := (subMonitors_setSub ..).trans (if_pos rfl) }
  obtain ⟨last, leaving⟩ := @changeRemovals_leaving _ smon _ names walk start rfl quietPolled
    fun entry member => whole.mem_iff.mp member
  have lastTabled := leaving.tabled start
  rw [isAfter]
  generalize walk.foldl (changeRemoval names)
    (state.setSub smon { sub with fmons := sub.fmons.walked }) = walked at leaving lastTabled ⊢
  have main : last.fmons.main = sub.fmons.main := by rw [leaving.files]; rfl
  have noAdditions : last.fmons.pendingAdditions = [] := by rw [leaving.files]; exact quiet.2.1
  have removals : last.fmons.pendingRemovals = (walk.filter (·.1 ∉ names)).reverse := by
    rw [leaving.files]
    simp [DeferredSet.walked, quiet.2.2]
  -- a name is removed exactly if it is not read
  have goes : ∀ entry ∈ sub.fmons.main,
      (entry.1 ∈ last.fmons.pendingRemovals.map Prod.fst ↔ entry.1 ∉ names) := by
    intro entry member
    rw [removals]
    constructor
    · intro inRemovals
      obtain ⟨other, inWalk, same⟩ := List.mem_map.mp inRemovals
      have absent := (List.mem_filter.mp (List.mem_reverse.mp inWalk)).2
      exact same ▸ of_decide_eq_true absent
    · intro absent
      refine List.mem_map_of_mem (List.mem_reverse.mpr (List.mem_filter.mpr ⟨?_, ?_⟩))
      · exact whole.mem_iff.mpr member
      · exact decide_eq_true absent
  have unpolled : ∀ entry ∈ last.fmons.main, entry.1 ∈ last.fmons.pendingRemovals.map Prod.fst →
      entry.2 ∉ last.unsupportedFmons.main := by
    intro entry member leaves inPolled
    rw [main] at member
    refine ((leaving.polled entry.2).mp inPolled).2 (List.mem_map_of_mem (List.mem_filter.mpr ⟨?_, ?_⟩))
    · exact whole.mem_iff.mpr member
    · exact decide_eq_true ((goes entry member).mp leaves)
  obtain ⟨next, nextTabled, nextQuiet, polled, subs, files, sent, monitors⟩ :=
    finishFmons_says lastTabled noAdditions unpolled
  refine ⟨next, nextTabled, nextQuiet, polled ▸ leaving.quietPolled, subs.trans leaving.subs, ?_,
    sent.trans leaving.sent, fun entry member => (monitors entry member).trans ?_⟩
  · rw [files, main]
    refine List.filter_congr fun entry member => decide_eq_decide.mpr ?_
    rw [goes entry member, not_not]
  · rw [Backend.monitor, leaving.monitors]
    rfl

/-- For every set of file monitors and every listing, or none, of a directory: what is sent is the
difference, and what is left in the tables is the listing. -/
theorem directoryChange_diffed (tabled : Tabled state smon sub) (quiet : Quiet sub.fmons)
    (quietPolled : Quiet sub.unsupportedFmons) (alive : (state.monitor smon).isSome) (isdir : Bool) :
    ∃ next, Diffed state smon sub
      (if isdir then ((state.answer.listing (pathOf state smon)).map (·.names)).getD [] else [])
      (gamKqueueSubMonitorHandleDirectoryChange state smon (pathOf state smon) isdir) next := by
  unfold gamKqueueSubMonitorHandleDirectoryChange
  dsimp only
  generalize isNames : (if isdir then ((state.answer.listing (pathOf state smon)).map (·.names)).getD []
    else []) = names
  have nodup : names.Nodup := by
    rw [← isNames]
    split
    · cases state.answer.listing (pathOf state smon) with
      | none => exact .nil
      | some listing => exact listing.nodup
    · exact .nil
  -- without a directory nothing is listed, and the loop over the names does nothing
  obtain ⟨start, isStart, startSent, startMonitors, startTabled⟩ : ∃ start : Backend,
      (if isdir then names.foldl (changedName smon) state.called else state) =
        names.foldl (changedName smon) start ∧ start.sent = state.sent ∧
        start.monitors = state.monitors ∧ Tabled start smon sub := by
    split
    case isTrue => exact ⟨state.called, rfl, rfl, rfl, tabled.called⟩
    case isFalse notDir =>
      have none : names = [] := by rw [← isNames, if_neg notDir]
      exact ⟨state, by rw [none]; rfl, rfl, rfl, tabled⟩
  have startMonitor (mon : Pointer) : start.monitor mon = state.monitor mon := by
    rw [Backend.monitor, startMonitors, Backend.monitor]
  obtain ⟨grown, new, created, grownTabled, grownQuiet, grownPolled, subs, files, older, createdNames,
    newNames, sent⟩ := changedNames_grown nodup startTabled quiet quietPolled (by rw [startMonitor, alive])
  rw [isStart]
  generalize names.foldl (changedName smon) start = middle at grownTabled older sent ⊢
  rw [grownTabled.found]
  dsimp only
  obtain ⟨next, nextTabled, nextQuiet, nextPolled, nextSubs, nextFiles, nextSent, monitors⟩ :=
    walk_diffed names grownTabled.called grownQuiet grownPolled
      (shuffle_perm middle.answer.order grown.fmons.main) rfl
  -- the walk finds the new entries too; they are listed, so it leaves them
  have isNew : ∀ entry ∈ new, entry.1 ∈ names ∧ entry.1 ∉ sub.fmons.main.map Prod.fst := by
    intro entry member
    have named : entry.1 ∈ new.map Prod.fst := List.mem_map_of_mem member
    rw [newNames, List.mem_reverse, createdNames] at named
    obtain ⟨listed, absent⟩ := List.mem_filter.mp named
    exact ⟨listed, of_decide_eq_true absent⟩
  have newStay : new.filter (·.1 ∉ names) = [] :=
    List.filter_eq_nil_iff.mpr fun entry member => by simpa using (isNew entry member).1
  have deleted : (shuffle middle.answer.order grown.fmons.main).filter (·.1 ∉ names) |>.Perm
      (sub.fmons.main.filter (·.1 ∉ names)) := by
    have whole := (shuffle_perm middle.answer.order grown.fmons.main).filter (·.1 ∉ names)
    rwa [files, List.filter_append, newStay, List.nil_append, ← files] at whole
  have old : ∀ entry ∈ sub.fmons.main, middle.monitor entry.2 = state.monitor entry.2 := by
    intro entry member
    have isAlive := (tabled.listed entry member).2
    rw [older entry.2 (by rw [startMonitor, isAlive]), startMonitor]
  refine ⟨next, nextTabled, nextQuiet, nextPolled, nextSubs.trans subs,
    ⟨created, _, createdNames, deleted, ?_⟩, fun name => ?_, fun entry member known => ?_⟩
  · have middleSent : middle.called.sent = state.sent ++
        createdEvents sub.subs (pathOf state smon) created := by
      rw [← startSent, ← pathOf_congr (startMonitor smon)]
      exact sent
    rw [nextSent, middleSent, subs]
    congr 1
    refine List.flatMap_congr fun entry member => ?_
    have inMain := (List.mem_filter.mp (deleted.mem_iff.mp member)).1
    have same : pathOf middle.called entry.2 = pathOf state entry.2 := pathOf_congr (old entry inMain)
    rw [same]
  · rw [nextFiles, files]
    constructor
    · intro member
      obtain ⟨entry, inFilter, rfl⟩ := List.mem_map.mp member
      exact of_decide_eq_true (List.mem_filter.mp inFilter).2
    · intro listed
      have named : name ∈ (new ++ sub.fmons.main).map Prod.fst := by
        rw [List.map_append, List.mem_append, newNames, List.mem_reverse, createdNames, List.mem_filter]
        by_cases known : name ∈ sub.fmons.main.map Prod.fst
        · exact .inr known
        · exact .inl ⟨listed, decide_eq_true known⟩
      obtain ⟨entry, inMain, rfl⟩ := List.mem_map.mp named
      exact List.mem_map_of_mem (List.mem_filter.mpr ⟨inMain, decide_eq_true listed⟩)
  · have stays := member
    rw [nextFiles, files] at stays
    have inMain := (List.mem_append.mp (List.mem_filter.mp stays).1).resolve_left fun inNew =>
      (isNew entry inNew).2 known
    exact ⟨inMain, (monitors entry member).trans (old entry inMain)⟩

def directoryReader : GamSubscription := gamSubscriptionNew 9 [47, 100] requestedEvents 1 true 0

/-- The directory `/d` with a subscription and a monitor for `a`, when the file is gone and there is
a file `b`. -/
def changedDirectory : Backend :=
  { Backend.new 10 fun _ =>
      { lstat := fun _ => none
        opens := fun _ => none
        kevent := false
        listing := fun _ => some { names := [[98]], nodup := by decide }
        order := [] } with
    monitors := (∅ : AList fun _ : Pointer => Monitor)
      |>.insert 0 { pathname := [47, 100], fd := none, sb := .zero, pollCount := 0 }
      |>.insert 1 { pathname := [47, 100, 47, 97], fd := none, sb := .zero, pollCount := 0 }
    subMonitors := fun mon => if mon = 0 then some
      { subs := [directoryReader]
        fmons := { DeferredSet.new with main := [([97], 1)] }
        unsupportedFmons := { DeferredSet.new with main := [1] }
        isdir := true } else none
    fileMonitors := fun mon => if mon = 1 then some { smon := 0, filename := [97] } else none
    nextPointer := 2 }

theorem directoryChange_replaced :
    ∃ next, Diffed changedDirectory 0
      { subs := [directoryReader]
        fmons := { DeferredSet.new with main := [([97], 1)] }
        unsupportedFmons := { DeferredSet.new with main := [1] }
        isdir := true } [[98]]
      (gamKqueueSubMonitorHandleDirectoryChange changedDirectory 0 [47, 100] true) next := by
  refine directoryChange_diffed ⟨rfl, ?_, by decide, ?_, ?_, fun mon above => ?_⟩ ⟨rfl, rfl, rfl⟩
    ⟨rfl, rfl, rfl⟩ (by decide) true
  · decide
  · simp
  · decide
  · have different : mon ≠ 0 ∧ mon ≠ 1 := by
      constructor <;> rintro rfl <;> exact absurd above (by decide)
    refine AList.lookup_eq_none.mpr fun member => ?_
    have inKeys : mon ∈ [1, 0] := member
    simp [different] at inKeys

end Gamin.Kqueue
