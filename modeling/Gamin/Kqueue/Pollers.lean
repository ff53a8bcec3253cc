import Gamin.Kqueue.Accounts

/-! # The pollers

A poller takes a timer when something is added to it and gives it up when the last monitor goes; what is added and
removed while it is walked counts when the walk is over, and so does the timer.  The poller of files goes by
directories: one is added to it with its first file that cannot be watched, and is removed with the last.
-/

namespace Gamin.Kqueue

open Gamin Gamin.Server Gamin.Inotify Gamin.Library

variable {state before middle after : Backend} {kind : PollerKind} {smon : Pointer} {adds : Bool}

/-! ## One poller -/

/-- The poller has a timer exactly if there is something on it; it is walked only then. -/
def Poller.Timed (poller : Poller) : Prop :=
  if poller.smons.iterating then poller.timeout = true ∧ poller.smons.main ≠ []
  else poller.timeout = true ↔ poller.smons.main ≠ []

theorem Poller.timed_resting {poller : Poller} (resting : poller.smons.iterating = false) :
    poller.Timed ↔ (poller.timeout = true ↔ poller.smons.main ≠ []) := by
  rw [Timed, resting, if_neg Bool.false_ne_true]

theorem Poller.timed_walking {poller : Poller} (walking : poller.smons.iterating = true) :
    poller.Timed ↔ poller.timeout = true ∧ poller.smons.main ≠ [] := by
  rw [Timed, if_pos walking]

theorem Poller.Timed.add {poller : Poller} (timed : poller.Timed) (smon : Pointer) : (poller.add smon).Timed := by
  have walking := poller.iterating_add smon
  cases iterating : poller.smons.iterating with
  | true =>
    obtain ⟨timeout, more⟩ := (Poller.timed_walking iterating).mp timed
    refine (Poller.timed_walking (walking.trans iterating)).mpr ⟨?_, ?_⟩
    · simp only [Poller.add, timeout, Bool.true_or]
    · simpa only [Poller.add, DeferredSet.add, iterating, if_true] using more
  | false =>
    refine (Poller.timed_resting (walking.trans iterating)).mpr (iff_of_true ?_ ?_)
    · simp [Poller.add, iterating]
    · simp [Poller.add, DeferredSet.add, iterating, DeferredSet.insertInto]

theorem Poller.Timed.remove {poller : Poller} (timed : poller.Timed) (smon : Pointer) :
    (poller.remove smon).Timed := by
  have walking := poller.iterating_remove smon
  cases iterating : poller.smons.iterating with
  | true =>
    obtain ⟨timeout, more⟩ := (Poller.timed_walking iterating).mp timed
    refine (Poller.timed_walking (walking.trans iterating)).mpr ⟨?_, ?_⟩
    · simp [Poller.remove, timeout, iterating]
    · simpa only [Poller.remove, DeferredSet.remove, iterating, if_true] using more
  | false =>
    have timeout := (Poller.timed_resting iterating).mp timed
    refine (Poller.timed_resting (walking.trans iterating)).mpr ?_
    have fewer (more : (poller.smons.remove smon).main ≠ []) : poller.smons.main ≠ [] := fun none => by
      refine more ?_
      simp [DeferredSet.remove, DeferredSet.eraseFrom, iterating, none]
    simp only [Poller.remove, iterating, Bool.false_or, Bool.and_eq_true, decide_eq_true_eq]
    exact ⟨fun both => both.2, fun more => ⟨timeout.mpr (fewer more), more⟩⟩

/-- The walk begins where the timer has expired. -/
theorem Poller.Timed.walked {poller : Poller} (timed : poller.Timed) (resting : poller.smons.iterating = false)
    (timeout : poller.timeout = true) : poller.walked.Timed :=
  (Poller.timed_walking rfl).mpr ⟨timeout, ((Poller.timed_resting resting).mp timed).mp timeout⟩

theorem Poller.Timed.finish {poller : Poller} (timed : poller.Timed) (walking : poller.smons.iterating = true) :
    poller.finish.Timed := by
  obtain ⟨timeout, more⟩ := (Poller.timed_walking walking).mp timed
  refine (Poller.timed_resting rfl).mpr ?_
  simp only [Poller.finish, timeout, Bool.true_or, Bool.true_and, Bool.or_eq_true, decide_eq_true_eq]
  refine ⟨fun stays => ?_, .inr⟩
  obtain none | stays := stays
  · -- nothing goes, and what was walked is still there
    obtain ⟨smon, member⟩ := List.exists_mem_of_ne_nil _ more
    refine List.ne_nil_of_mem (a := smon) ?_
    rw [DeferredSet.finish, none, List.foldl_nil]
    exact DeferredSet.mem_foldl_insertInto.mpr (.inl member)
  · exact stays

/-! ## Timers -/

/-- What a function that walks no poller does to the timers. -/
structure TimersKept (before after : Backend) : Prop where
  timed : ∀ kind, (before.pollers kind).Timed → (after.pollers kind).Timed
  walking : ∀ kind, (after.pollers kind).smons.iterating = (before.pollers kind).smons.iterating

namespace TimersKept

theorem of_pollers (same : after.pollers = before.pollers) : TimersKept before after where
  timed kind timed := by rwa [same]
  walking kind := by rw [same]

theorem trans (first : TimersKept before middle) (second : TimersKept middle after) : TimersKept before after where
  timed kind timed := second.timed kind (first.timed kind timed)
  walking kind := (second.walking kind).trans (first.walking kind)

theorem behind (second : TimersKept middle after) (same : middle.pollers = before.pollers) :
    TimersKept before after :=
  (TimersKept.of_pollers same).trans second

theorem setPoller {poller : Poller} (timed : (state.pollers kind).Timed → poller.Timed)
    (walking : poller.smons.iterating = (state.pollers kind).smons.iterating) :
    TimersKept state (state.setPoller kind poller) where
  timed other otherTimed := by
    by_cases same : other = kind
    · subst same
      rw [pollers_setPoller_same]
      exact timed otherTimed
    · rwa [pollers_setPoller_other state same]
  walking other := by
    by_cases same : other = kind
    · subst same
      rw [pollers_setPoller_same, walking]
    · rw [pollers_setPoller_other state same]

theorem pollerAdd (state : Backend) (kind : PollerKind) (smon : Pointer) :
    TimersKept state (gamKqueuePollerAddSubMonitor state kind smon) :=
  .setPoller (fun timed => timed.add smon) (Poller.iterating_add _ _)

theorem pollerRemove (state : Backend) (kind : PollerKind) (smon : Pointer) :
    TimersKept state (gamKqueuePollerRemoveSubMonitor state kind smon) :=
  .setPoller (fun timed => timed.remove smon) (Poller.iterating_remove _ _)

end TimersKept

/-! ## The poller of files -/

/-- The files of a directory that are polled. -/
def Backend.polledFiles (state : Backend) (smon : Pointer) : Option (DeferredSet Pointer) :=
  (state.subMonitors smon).map (·.unsupportedFmons)

theorem polledFiles_setSub (state : Backend) (smon : Pointer) (sub : SubMonitor) (other : Pointer) :
    (state.setSub smon sub).polledFiles other =
      if other = smon then some sub.unsupportedFmons else state.polledFiles other := by
  unfold Backend.polledFiles
  rw [subMonitors_setSub]
  split <;> rfl

/-- On the poller of files are the directories that have files to poll; `but` is one that may be on its way. -/
structure ListedBut (but : Option Pointer) (state : Backend) : Prop where
  fresh : ∀ smon, state.nextPointer ≤ smon → state.polledFiles smon = none
  orderly : (state.pollers .unsupportedFmon).smons.Orderly
  tables : ∀ smon table, state.polledFiles smon = some table →
    table.Orderly ∧ (table.iterating = true → table.main ≠ [])
  polled : ∀ smon, but ≠ some smon → (state.polledBy .unsupportedFmon smon ↔
    ∃ table, state.polledFiles smon = some table ∧ table.main ≠ [])

abbrev Listed : Backend → Prop := ListedBut none

theorem Listed.weaken (listed : Listed state) (but : Option Pointer) : ListedBut but state :=
  { listed with polled := fun smon _ => listed.polled smon nofun }

/-- Nothing that the invariant is about has changed. -/
theorem ListedBut.congr {but : Option Pointer} (listed : ListedBut but before)
    (poller : after.pollers .unsupportedFmon = before.pollers .unsupportedFmon)
    (files : ∀ smon, after.polledFiles smon = before.polledFiles smon)
    (pointer : before.nextPointer ≤ after.nextPointer) : ListedBut but after where
  fresh smon new := (files smon).trans (listed.fresh smon (pointer.trans new))
  orderly := poller ▸ listed.orderly
  tables smon table found := listed.tables smon table ((files smon).symm.trans found)
  polled smon different := by
    rw [files smon, Backend.polledBy, poller]
    exact listed.polled smon different

theorem Listed.polled_iff {table : DeferredSet Pointer} (listed : Listed state)
    (found : state.polledFiles smon = some table) :
    state.polledBy .unsupportedFmon smon ↔ table.main ≠ [] := by
  rw [listed.polled smon nofun, found]
  exact ⟨fun ⟨_, same, more⟩ => Option.some.inj same ▸ more, fun more => ⟨table, rfl, more⟩⟩

/-- The directory that was left out is on the poller or not, as it should be. -/
theorem ListedBut.close {table : DeferredSet Pointer} (listed : ListedBut (some smon) state)
    (found : state.polledFiles smon = some table)
    (polled : state.polledBy .unsupportedFmon smon ↔ table.main ≠ []) : Listed state :=
  { listed with
    polled := fun other _ => by
      by_cases same : smon = other
      · subst same
        rw [polled, found]
        exact ⟨fun more => ⟨table, rfl, more⟩, fun ⟨_, same, more⟩ => Option.some.inj same ▸ more⟩
      · exact listed.polled other (by simpa using same) }

/-- The directory that was left out is not there. -/
theorem ListedBut.forget (listed : ListedBut (some smon) state) (unknown : state.polledFiles smon = none)
    (unpolled : ¬ state.polledBy .unsupportedFmon smon) : Listed state :=
  { listed with
    polled := fun other _ => by
      by_cases same : smon = other
      · subst same
        refine iff_of_false unpolled fun ⟨_, isTable, _⟩ => ?_
        exact absurd (isTable.symm.trans unknown) (Option.some_ne_none _)
      · exact listed.polled other (by simpa using same) }

/-- The directory that was left out goes. -/
theorem ListedBut.drop (listed : ListedBut (some smon) before)
    (poller : after.pollers .unsupportedFmon = before.pollers .unsupportedFmon)
    (subMonitors : after.subMonitors = Function.update before.subMonitors smon none)
    (pointer : after.nextPointer = before.nextPointer) (unpolled : ¬ before.polledBy .unsupportedFmon smon) :
    Listed after := by
  have gone : after.polledFiles smon = none := by
    rw [Backend.polledFiles, subMonitors, Function.update_self, Option.map_none]
  have others (other : Pointer) (different : other ≠ smon) : after.polledFiles other = before.polledFiles other := by
    rw [Backend.polledFiles, subMonitors, Function.update_of_ne different, Backend.polledFiles]
  refine ListedBut.forget ⟨fun other new => ?_, poller ▸ listed.orderly, fun other table isTable => ?_,
    fun other different => ?_⟩ gone (by rwa [Backend.polledBy, poller])
  · by_cases same : other = smon
    · exact same ▸ gone
    · exact (others other same).trans (listed.fresh other (pointer ▸ new))
  · by_cases same : other = smon
    · exact absurd (isTable.symm.trans (same ▸ gone)) (Option.some_ne_none _)
    · exact listed.tables other table ((others other same).symm.trans isTable)
  · rw [others other fun same => different (congrArg some same.symm), Backend.polledBy, poller]
    exact listed.polled other different

theorem ListedBut.known {but : Option Pointer} {table : DeferredSet Pointer} (listed : ListedBut but state)
    (found : state.polledFiles smon = some table) : smon < state.nextPointer := by
  by_contra new
  exact absurd (found.symm.trans (listed.fresh smon (Nat.not_lt.mp new))) (Option.some_ne_none _)

theorem ListedBut.setTable (listed : ListedBut (some smon) state) (known : smon < state.nextPointer)
    (next : SubMonitor) (orderly : next.unsupportedFmons.Orderly)
    (walked : next.unsupportedFmons.iterating = true → next.unsupportedFmons.main ≠ []) :
    ListedBut (some smon) (state.setSub smon next) where
  fresh other new := by
    have different : other ≠ smon := fun same => absurd known (Nat.not_lt.mpr (same ▸ new))
    rw [polledFiles_setSub, if_neg different]
    exact listed.fresh other new
  orderly := listed.orderly
  tables other table isTable := by
    rw [polledFiles_setSub] at isTable
    split at isTable
    case isTrue =>
      cases isTable
      exact ⟨orderly, walked⟩
    case isFalse => exact listed.tables other table isTable
  polled other different := by
    rw [polledFiles_setSub, if_neg fun same => different (congrArg some same.symm)]
    exact listed.polled other different

theorem ListedBut.pollerAdd (listed : ListedBut (some smon) state) :
    ListedBut (some smon) (gamKqueuePollerAddSubMonitor state .unsupportedFmon smon) :=
  { listed with
    orderly := by
      unfold gamKqueuePollerAddSubMonitor
      rw [pollers_setPoller_same]
      exact listed.orderly.add smon
    polled := fun other different => by
      refine .trans ?_ (listed.polled other different)
      unfold gamKqueuePollerAddSubMonitor Backend.polledBy
      rw [pollers_setPoller_same]
      exact listed.orderly.holds_add_other fun same => different (congrArg some same.symm) }

theorem ListedBut.pollerRemove (listed : ListedBut (some smon) state) :
    ListedBut (some smon) (gamKqueuePollerRemoveSubMonitor state .unsupportedFmon smon) :=
  { listed with
    orderly := by
      unfold gamKqueuePollerRemoveSubMonitor
      rw [pollers_setPoller_same]
      exact listed.orderly.remove smon
    polled := fun other different => by
      refine .trans ?_ (listed.polled other different)
      unfold gamKqueuePollerRemoveSubMonitor Backend.polledBy
      rw [pollers_setPoller_same]
      exact listed.orderly.holds_remove.trans (and_iff_left fun same => different (congrArg some same.symm)) }

/-- What has been added is polled, unless it was also to be removed in a walk. -/
theorem ListedBut.added (listed : ListedBut (some smon) state)
    (allowed : (state.pollers .unsupportedFmon).smons.iterating = false ∨ state.polledBy .unsupportedFmon smon) :
    (gamKqueuePollerAddSubMonitor state .unsupportedFmon smon).polledBy .unsupportedFmon smon := by
  unfold gamKqueuePollerAddSubMonitor Backend.polledBy
  rw [pollers_setPoller_same]
  obtain resting | polled := allowed
  · exact (listed.orderly.holds_add resting).mpr (.inl rfl)
  · exact (listed.orderly.holds_add_again polled).mpr polled

theorem ListedBut.removed (listed : ListedBut (some smon) state) :
    ¬ (gamKqueuePollerRemoveSubMonitor state .unsupportedFmon smon).polledBy .unsupportedFmon smon := by
  unfold gamKqueuePollerRemoveSubMonitor Backend.polledBy
  rw [pollers_setPoller_same]
  exact fun polled => (listed.orderly.holds_remove.mp polled).2 rfl

/-! ### Files that are polled -/

theorem addUnsupportedFmon_listed (listed : Listed state)
    (resting : (state.pollers .unsupportedFmon).smons.iterating = false) (smon fmon : Pointer) :
    Listed (addUnsupportedFmon state smon fmon) := by
  unfold addUnsupportedFmon
  cases found : state.subMonitors smon with
  | none => exact listed
  | some sub =>
    have files : state.polledFiles smon = some sub.unsupportedFmons := by rw [Backend.polledFiles, found]; rfl
    obtain ⟨orderly, walked⟩ := listed.tables smon _ files
    dsimp only
    split
    case isTrue walking =>
      have same : (sub.unsupportedFmons.add fmon).main = sub.unsupportedFmons.main := by
        rw [DeferredSet.add, if_pos walking]
      have set := (listed.weaken _).setTable (listed.known files)
        { sub with unsupportedFmons := sub.unsupportedFmons.add fmon }
        (orderly.add fmon) fun _ => same ▸ walked walking
      refine set.close ((polledFiles_setSub _ _ _ _).trans (if_pos rfl)) ?_
      rw [same]
      exact listed.polled_iff files
    case isFalse still =>
      have more : (sub.unsupportedFmons.add fmon).main ≠ [] := by
        rw [DeferredSet.add, if_neg still]
        exact List.cons_ne_nil _ _
      have set := (listed.weaken _).setTable (listed.known files)
        { sub with unsupportedFmons := sub.unsupportedFmons.add fmon }
        (orderly.add fmon) fun _ => more
      exact set.pollerAdd.close ((polledFiles_setSub _ _ _ _).trans (if_pos rfl))
        (iff_of_true (set.added (.inl resting)) more)

theorem removeUnsupportedFmon_listed (listed : Listed state) (smon fmon : Pointer) :
    Listed (removeUnsupportedFmon state smon fmon) := by
  unfold removeUnsupportedFmon
  cases found : state.subMonitors smon with
  | none => exact listed
  | some sub =>
    have files : state.polledFiles smon = some sub.unsupportedFmons := by rw [Backend.polledFiles, found]; rfl
    obtain ⟨orderly, walked⟩ := listed.tables smon _ files
    have stays (walking : sub.unsupportedFmons.iterating = true) :
        (sub.unsupportedFmons.remove fmon).main = sub.unsupportedFmons.main := by
      rw [DeferredSet.remove, if_pos walking]
    have set := (listed.weaken _).setTable (listed.known files)
      { sub with unsupportedFmons := sub.unsupportedFmons.remove fmon }
      (orderly.remove fmon) fun walking => by
        rw [DeferredSet.iterating_remove] at walking
        exact stays walking ▸ walked walking
    have foundNext := (polledFiles_setSub state smon
      { sub with unsupportedFmons := sub.unsupportedFmons.remove fmon } smon).trans (if_pos rfl)
    dsimp only
    split
    case isTrue kept =>
      refine set.close foundNext ((listed.polled_iff files).trans ?_)
      by_cases walking : sub.unsupportedFmons.iterating = true
      · rw [stays walking]
      · have more := kept.resolve_left walking
        refine iff_of_true (fun none => more ?_) more
        rw [DeferredSet.remove, if_neg walking, DeferredSet.eraseFrom, none, List.filter_nil]
    case isFalse gone =>
      have none := not_not.mp (not_or.mp gone).2
      exact set.pollerRemove.close foundNext (iff_of_false set.removed fun more => more none)

theorem finishUnsupportedFmons_listed (listed : Listed state) (smon : Pointer) :
    Listed (finishUnsupportedFmons state smon) := by
  unfold finishUnsupportedFmons
  cases found : state.subMonitors smon with
  | none => exact listed
  | some sub =>
    have files : state.polledFiles smon = some sub.unsupportedFmons := by rw [Backend.polledFiles, found]; rfl
    obtain ⟨orderly, walked⟩ := listed.tables smon _ files
    have set := (listed.weaken _).setTable (listed.known files)
      { sub with unsupportedFmons := sub.unsupportedFmons.finish }
      (DeferredSet.orderly_finish _) nofun
    have foundNext := (polledFiles_setSub state smon
      { sub with unsupportedFmons := sub.unsupportedFmons.finish } smon).trans (if_pos rfl)
    have before := listed.polled_iff files
    dsimp only
    -- the first half keeps the directory on the poller if it is on it
    have half : ∃ middle, (if sub.unsupportedFmons.pendingAdditions = [] then
          state.setSub smon { sub with unsupportedFmons := sub.unsupportedFmons.finish }
        else gamKqueuePollerAddSubMonitor
          (state.setSub smon { sub with unsupportedFmons := sub.unsupportedFmons.finish })
          .unsupportedFmon smon) = middle ∧ ListedBut (some smon) middle ∧
        middle.polledFiles smon = some sub.unsupportedFmons.finish ∧
        (middle.polledBy .unsupportedFmon smon ↔ sub.unsupportedFmons.main ≠ []) := by
      refine ⟨_, rfl, ?_⟩
      split
      case isTrue => exact ⟨set, foundNext, before⟩
      case isFalse additions =>
        -- there are additions only in a walk, and what is walked is on the poller
        have walking : sub.unsupportedFmons.iterating = true := by
          by_contra resting
          exact additions (orderly (Bool.not_eq_true _ ▸ resting)).1
        have more := walked walking
        exact ⟨set.pollerAdd, foundNext, iff_of_true (set.added (.inr (before.mpr more))) more⟩
    obtain ⟨middle, isMiddle, setMiddle, foundMiddle, polledMiddle⟩ := half
    rw [isMiddle]
    split
    case isTrue stays =>
      refine setMiddle.close foundMiddle (polledMiddle.trans ?_)
      by_cases walking : sub.unsupportedFmons.iterating = true
      · refine iff_of_true (walked walking) ?_
        obtain none | more := stays
        · obtain ⟨fmon, member⟩ := List.exists_mem_of_ne_nil _ (walked walking)
          refine List.ne_nil_of_mem (a := fmon) ?_
          rw [DeferredSet.finish, none, List.foldl_nil]
          exact DeferredSet.mem_foldl_insertInto.mpr (.inl member)
        · exact more
      · obtain ⟨additions, removals⟩ := orderly (Bool.not_eq_true _ ▸ walking)
        rw [DeferredSet.finish, additions, removals, List.foldl_nil, List.foldl_nil]
    case isFalse goes =>
      have none := not_not.mp (not_or.mp goes).2
      exact setMiddle.pollerRemove.close foundMiddle (iff_of_false setMiddle.removed fun more => more none)

/-! ## Functions of the backend -/

/-- Neither the pollers nor the files that are polled have changed. -/
structure SamePollers (before after : Backend) : Prop where
  pollers : after.pollers = before.pollers
  files : ∀ smon, after.polledFiles smon = before.polledFiles smon
  pointer : before.nextPointer ≤ after.nextPointer

namespace SamePollers

theorem of_eq (pollers : after.pollers = before.pollers) (subMonitors : after.subMonitors = before.subMonitors)
    (nextPointer : after.nextPointer = before.nextPointer) : SamePollers before after where
  pollers := pollers
  files smon := by rw [Backend.polledFiles, subMonitors, Backend.polledFiles]
  pointer := nextPointer.ge

theorem trans (first : SamePollers before middle) (second : SamePollers middle after) : SamePollers before after where
  pollers := second.pollers.trans first.pollers
  files smon := (second.files smon).trans (first.files smon)
  pointer := first.pointer.trans second.pointer

theorem behind (second : SamePollers middle after) (first : SamePollers before middle) : SamePollers before after :=
  first.trans second

theorem setSub {sub next : SubMonitor} (found : state.subMonitors smon = some sub)
    (same : next.unsupportedFmons = sub.unsupportedFmons) : SamePollers state (state.setSub smon next) where
  pollers := rfl
  files other := by
    rw [polledFiles_setSub]
    split
    case isTrue here => rw [here, Backend.polledFiles, found, same]; rfl
    case isFalse => rfl
  pointer := Nat.le_refl _

theorem touches {mon : Pointer} (touches : Touches mon before after) : SamePollers before after :=
  .of_eq touches.pollers touches.subMonitors touches.nextPointer

theorem freeEntries (state : Backend) (entries : List (Bytes × Pointer)) :
    SamePollers state (freeEntries state entries) :=
  let same := sameTables_freeEntries state entries
  .of_eq same.pollers same.subMonitors same.nextPointer

end SamePollers

/-- What a function does to the pollers.  Where it can add to the poller of files that is not being walked. -/
structure PollersKept (adds : Bool) (before after : Backend) : Prop extends TimersKept before after where
  listed : (adds = true → (before.pollers .unsupportedFmon).smons.iterating = false) → Listed before → Listed after

namespace PollersKept

theorem of_same (same : SamePollers before after) : PollersKept adds before after where
  toTimersKept := .of_pollers same.pollers
  listed _ listed := listed.congr (congrFun same.pollers _) same.files same.pointer

theorem refl (state : Backend) : PollersKept adds state state := .of_same (.of_eq rfl rfl rfl)

theorem trans (first : PollersKept adds before middle) (second : PollersKept adds middle after) :
    PollersKept adds before after where
  toTimersKept := first.toTimersKept.trans second.toTimersKept
  listed resting listed :=
    second.listed (fun can => (first.walking _).trans (resting can)) (first.listed resting listed)

theorem weaken (kept : PollersKept false before after) : PollersKept adds before after where
  toTimersKept := kept.toTimersKept
  listed _ := kept.listed nofun

theorem behind (second : PollersKept adds middle after) (same : SamePollers before middle) :
    PollersKept adds before after :=
  (PollersKept.of_same same).trans second

theorem followed (first : PollersKept adds before middle) (same : SamePollers middle after) :
    PollersKept adds before after :=
  first.trans (.of_same same)

theorem foldl {Item : Type*} {function : Backend → Item → Backend}
    (kept : ∀ state item, PollersKept adds state (function state item)) (state : Backend) (items : List Item) :
    PollersKept adds state (items.foldl function state) := by
  induction items generalizing state with
  | nil => exact .refl state
  | cons item items inductionHypothesis => exact (kept state item).trans (inductionHypothesis _)

/-- The pollers of directories. -/
theorem setPoller {poller : Poller} (isSmon : PollerKind.unsupportedFmon ≠ kind)
    (kept : TimersKept state (state.setPoller kind poller)) : PollersKept adds state (state.setPoller kind poller) where
  toTimersKept := kept
  listed _ listed := listed.congr (pollers_setPoller_other state isSmon poller) (fun _ => rfl) (Nat.le_refl _)

theorem pollerAdd (state : Backend) (isSmon : PollerKind.unsupportedFmon ≠ kind) (smon : Pointer) :
    PollersKept adds state (gamKqueuePollerAddSubMonitor state kind smon) :=
  .setPoller isSmon (.pollerAdd state kind smon)

theorem pollerRemove (state : Backend) (isSmon : PollerKind.unsupportedFmon ≠ kind) (smon : Pointer) :
    PollersKept adds state (gamKqueuePollerRemoveSubMonitor state kind smon) :=
  .setPoller isSmon (.pollerRemove state kind smon)

end PollersKept

end Gamin.Kqueue
