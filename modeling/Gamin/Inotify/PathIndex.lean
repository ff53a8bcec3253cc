import Gamin.Inotify.WatchTables

/-! # One directory object for each path

`ip_start_watching` looks a directory up by its path before it makes an object for it.  It does not
look up the ancestor that it falls back to when the directory is missing, and overwrites its entry.
As long as no ancestor is watched already when it is fallen back to, there is one object for a path
and every subscription for this path shares it.
-/

namespace Gamin.Inotify

open Gamin Gamin.Server Gamin.Library

/-! ## What the tables promise -/

/-- The table of paths leads to every directory object. -/
def Indexed (tables : WatchTables) : Prop :=
  ∀ address dir, tables.dirs address = some dir → tables.pathDirHash dir.path = some address

/-- A subscription that joins a directory object is handed the events of the object's watch. -/
def SeesEvents (state : Backend) (dir : IpWatchedDir) (sub : IhSub) : Prop :=
  ∀ event : IkEvent, event.wd = dir.wd → ∀ emission ∈ dispatchToSub dir event.toIkReport sub,
    Report.mk (.forwarded dir.path event.name) emission ∈
      forwardedReports state (state.wdDirHash event.wd) (pairDirs state event) event

/-- Both tables list the directory objects that have subscriptions, and no others; there is one
object for a path, and later subscriptions share it. -/
structure Catalogued (state : Backend) : Prop where
  listed : ∀ address dir, state.dirs address = some dir → dir.subs ≠ [] →
    (state.wdDirHash dir.wd).count address = 1 ∧ state.pathDirHash dir.path = some address
  unique : ∀ address other dir otherDir, state.dirs address = some dir →
    state.dirs other = some otherDir → dir.path = otherDir.path → address = other
  shared : ∀ address dir sub watch, state.dirs address = some dir → sub.dirname = dir.path →
    ipStartWatching state sub watch = some (ipMapSubDir state sub address, true) ∧
      SeesEvents (ipMapSubDir state sub address) dir sub
  freed : ∀ address, state.dirs address = none →
    (∀ wd, address ∉ state.wdDirHash wd) ∧ ∀ path, state.pathDirHash path ≠ some address

theorem Linked.seesEvents {state : Backend} (linked : Linked state.toWatchTables) {address : Pointer}
    {dir : IpWatchedDir} (found : state.dirs address = some dir) (sub : IhSub) :
    SeesEvents (Inotify.ipMapSubDir state sub address) dir sub := by
  intro event sameWd emission dispatched
  have joined : (Inotify.ipMapSubDir state sub address).dirs address =
      some { dir with subs := sub :: dir.subs } := (ipMapSubDir_dirs found).mpr (.inl ⟨rfl, rfl⟩)
  have listed : address ∈ (Inotify.ipMapSubDir state sub address).wdDirHash event.wd :=
    linked.byWd.mpr ⟨dir, found, sameWd.symm⟩
  -- the report is one of the first loop, which does not look at the other subscriptions
  refine List.mem_append_left _ (List.mem_flatMap.mpr ⟨_, mem_dirsOf.mpr ⟨address, listed, joined⟩, ?_⟩)
  exact List.mem_flatMap.mpr ⟨sub, List.mem_cons_self, List.mem_map_of_mem dispatched⟩

theorem Indexed.catalogued {state : Backend} (indexed : Indexed state.toWatchTables)
    (linked : Linked state.toWatchTables) : Catalogued state where
  listed address dir found _ := by
    have listed := linked.byWd.mpr ⟨dir, found, rfl⟩
    exact ⟨List.count_eq_one_of_mem (linked.listedOnce dir.wd) listed, indexed address dir found⟩
  unique address other dir otherDir found foundOther samePath := by
    have here := indexed address dir found
    rw [samePath, indexed other otherDir foundOther] at here
    exact (Option.some.inj here).symm
  shared address dir sub watch found samePath := by
    refine ⟨?_, linked.seesEvents found sub⟩
    simp only [ipStartWatching, samePath, indexed address dir found]
  freed address free := by
    refine ⟨fun wd listed => ?_, fun path mapped => ?_⟩
    · obtain ⟨dir, found, _⟩ := linked.byWd.mp listed
      rw [free] at found
      contradiction
    · obtain ⟨dir, found, _⟩ := linked.byPath mapped
      rw [free] at found
      contradiction

/-! ## The fallback -/

/-- If `ip_start_watching` falls back to an ancestor, the ancestor is not in the table of paths. -/
def fallsBackFresh (state : Backend) (sub : IhSub) (watch : Bytes → WatchAnswer) : Bool :=
  match state.pathDirHash sub.dirname, watch sub.dirname, ipWatchParent watch sub.dirname with
  | none, .noent, some (some (parent, _)) => (state.pathDirHash parent).isNone
  | _, _, _ => true

/-- In every turn of the resubscription loop. -/
def ResubscribesFresh (answers : IhSub → Bytes → WatchAnswer) : Backend → List IhSub → Prop
  | _, [] => True
  | state, sub :: subs =>
    fallsBackFresh (ipStopWatching state sub) sub (answers sub) = true ∧
      ∀ after ∈ ipStartWatching (ipStopWatching state sub) sub (answers sub),
        ResubscribesFresh answers after.1 subs

/-- In every turn of the scan of the missing list. -/
def ScansFresh (answers : IhSub → Bytes → WatchAnswer) (view : IhSub → FsView) :
    Backend → List IhSub → Prop
  | _, [] => True
  | state, sub :: subs =>
    fallsBackFresh state sub (answers sub) = true ∧
      ∀ after ∈ ipStartWatching state sub (answers sub),
        ScansFresh answers view (if after.2 then reportFound (view sub) sub after.1 else after.1) subs

/-- Wherever a step calls `ip_start_watching`. -/
def FallbackGuard (state : Backend) : Input → Prop
  | .addSubscription address sub watch _ =>
    fallsBackFresh state (ihSubNew address sub.path sub.isDir sub) watch = true
  | .event event answers => ¬ event.has inIgnored → event.has ipInotifyMask →
    ResubscribesFresh answers
      (forwardAll state (state.wdDirHash event.wd) (pairDirs state event) event)
      (resubscriptionList state (state.wdDirHash event.wd) event.toIkReport)
  | .scanMissing answers view => ScansFresh answers view state state.missingSubList
  | .cancel _ | .inodeDeleted _ => True

instance decidableResubscribesFresh (answers : IhSub → Bytes → WatchAnswer) :
    (state : Backend) → (subs : List IhSub) → Decidable (ResubscribesFresh answers state subs)
  | _, [] => .isTrue trivial
  | state, sub :: subs =>
    have := fun after => decidableResubscribesFresh answers after subs
    inferInstanceAs (Decidable (_ ∧ ∀ after ∈ ipStartWatching (ipStopWatching state sub) sub
      (answers sub), ResubscribesFresh answers after.1 subs))

instance decidableScansFresh (answers : IhSub → Bytes → WatchAnswer) (view : IhSub → FsView) :
    (state : Backend) → (subs : List IhSub) → Decidable (ScansFresh answers view state subs)
  | _, [] => .isTrue trivial
  | state, sub :: subs =>
    have := fun after => decidableScansFresh answers view after subs
    inferInstanceAs (Decidable (_ ∧ ∀ after ∈ ipStartWatching state sub (answers sub),
      ScansFresh answers view
        (if after.2 then reportFound (view sub) sub after.1 else after.1) subs))

instance (state : Backend) : (input : Input) → Decidable (FallbackGuard state input)
  | .addSubscription .. => inferInstanceAs (Decidable (_ = true))
  | .event _ _ => inferInstanceAs (Decidable (_ → _ → _))
  | .scanMissing answers view =>
    inferInstanceAs (Decidable (ScansFresh answers view state state.missingSubList))
  | .cancel _ | .inodeDeleted _ => .isTrue trivial

/-! ## One call -/

theorem indexed_new : Indexed Backend.new.toWatchTables := fun _ _ found => (nomatch found)

theorem Indexed.ipMapSubDir {state : Backend} (indexed : Indexed state.toWatchTables) (sub : IhSub)
    {address : Pointer} {dir : IpWatchedDir} (found : state.dirs address = some dir) :
    Indexed (ipMapSubDir state sub address).toWatchTables := by
  intro other otherDir foundOther
  rcases (ipMapSubDir_dirs found).mp foundOther with ⟨rfl, rfl⟩ | ⟨_, foundOther⟩
  · exact indexed _ dir found
  · exact indexed other otherDir foundOther

/-- A new object leaves the table complete exactly when its path was not in use. -/
theorem Indexed.ipWatchNewDir_iff {state : Backend} (indexed : Indexed state.toWatchTables)
    (linked : Linked state.toWatchTables) (sub : IhSub) (path : Bytes) (inode : Nat) :
    Indexed (ipWatchNewDir state sub path inode).toWatchTables ↔ state.pathDirHash path = none := by
  have dirs := @ipWatchNewDir_dirs state sub path inode
  have mapped : (ipWatchNewDir state sub path inode).pathDirHash =
      Function.update state.pathDirHash path (some state.nextDir) := rfl
  constructor
  · intro after
    cases earlier : state.pathDirHash path with
    | none => rfl
    | some address =>
      obtain ⟨dir, found, rfl⟩ := linked.byPath earlier
      have older : address ≠ state.nextDir := (linked.allocated found).ne
      have overwritten := after address dir (dirs.mpr (.inr ⟨older, found⟩))
      rw [mapped, Function.update_self] at overwritten
      exact absurd (Option.some.inj overwritten).symm older
  · intro unused address dir found
    rw [mapped]
    rcases dirs.mp found with ⟨rfl, rfl⟩ | ⟨_, found⟩
    · exact Function.update_self ..
    · have here := indexed address dir found
      have different : dir.path ≠ path := by
        rintro rfl
        rw [unused] at here
        contradiction
      rw [Function.update_of_ne different, here]

/-- One call of `ip_start_watching` keeps the table complete exactly when it falls back to no
ancestor that is in it. -/
theorem Indexed.ipStartWatching_iff {state after : Backend} (indexed : Indexed state.toWatchTables)
    (linked : Linked state.toWatchTables) {sub : IhSub} {watch : Bytes → WatchAnswer} {result : Bool}
    (started : ipStartWatching state sub watch = some (after, result)) :
    Indexed after.toWatchTables ↔ fallsBackFresh state sub watch = true := by
  unfold ipStartWatching at started
  unfold fallsBackFresh
  cases lookup : state.pathDirHash sub.dirname with
  | some address =>
    simp only [lookup, Option.some.injEq, Prod.mk.injEq] at started
    obtain ⟨rfl, rfl⟩ := started
    obtain ⟨dir, found, _⟩ := linked.byPath lookup
    exact iff_of_true (indexed.ipMapSubDir sub found) rfl
  | none =>
    cases answer : watch sub.dirname with
    | watched inode =>
      simp only [lookup, answer, Option.some.injEq, Prod.mk.injEq] at started
      obtain ⟨rfl, rfl⟩ := started
      exact iff_of_true ((indexed.ipWatchNewDir_iff linked sub _ inode).mpr lookup) rfl
    | failed =>
      simp only [lookup, answer, Option.some.injEq, Prod.mk.injEq] at started
      obtain ⟨rfl, rfl⟩ := started
      exact iff_of_true indexed rfl
    -- the directory is not there: the nearest ancestor is watched, under a new object
    | noent =>
      simp only [lookup, answer] at started ⊢
      cases ancestor : ipWatchParent watch sub.dirname with
      | none => simp [ancestor] at started
      | some nearest =>
        cases nearest with
        | none =>
          simp only [ancestor, Option.some.injEq, Prod.mk.injEq] at started
          obtain ⟨rfl, rfl⟩ := started
          exact iff_of_true indexed rfl
        | some place =>
          obtain ⟨parent, inode⟩ := place
          simp only [ancestor, Option.some.injEq, Prod.mk.injEq] at started
          obtain ⟨rfl, rfl⟩ := started
          rw [indexed.ipWatchNewDir_iff linked, Option.isNone_iff_eq_none]

theorem Indexed.ipStopWatching {state : Backend} (indexed : Indexed state.toWatchTables)
    (linked : Linked state.toWatchTables) (sub : IhSub) :
    Indexed (Inotify.ipStopWatching state sub).toWatchTables := by
  rcases ipStopWatching_cases linked sub with ⟨_, stopped⟩ |
    ⟨address, dir, found, _, ⟨_, stopped⟩ | ⟨_, stopped⟩⟩
  · rw [stopped]
    exact indexed
  · rw [stopped]
    intro other otherDir foundOther
    rcases (ipUnmapSubDir_dirs found).mp foundOther with ⟨rfl, rfl⟩ | ⟨_, foundOther⟩
    · exact indexed _ dir found
    · exact indexed other otherDir foundOther
  · rw [stopped]
    intro other otherDir foundOther
    obtain ⟨different, foundOther⟩ := ipReleaseDir_dirs.mp foundOther
    have here := indexed address dir found
    have there := indexed other otherDir foundOther
    -- the released object has its path to itself
    have otherPath : otherDir.path ≠ dir.path := by
      intro samePath
      rw [samePath, here] at there
      exact different (Option.some.inj there).symm
    exact (Function.update_of_ne otherPath none state.pathDirHash).trans there

theorem Indexed.ipWdDelete {state : Backend} (indexed : Indexed state.toWatchTables)
    (address : Pointer) : Indexed (Inotify.ipWdDelete state address).toWatchTables := by
  cases found : state.dirs address with
  | none =>
    rw [Inotify.ipWdDelete, found]
    exact indexed
  | some dir =>
    obtain ⟨missing, running, deleted, _⟩ := ipWdDelete_eq found
    rw [deleted]
    intro other otherDir foundOther
    obtain ⟨_, contra⟩ | ⟨different, foundOther⟩ := update_eq_some.mp foundOther
    · contradiction
    · have here := indexed address dir found
      have there := indexed other otherDir foundOther
      have otherPath : otherDir.path ≠ dir.path := by
        intro samePath
        rw [samePath, here] at there
        exact different (Option.some.inj there).symm
      exact (Function.update_of_ne otherPath none state.pathDirHash).trans there

theorem Indexed.foldl_ipWdDelete {addresses : List Pointer} {state : Backend}
    (indexed : Indexed state.toWatchTables) :
    Indexed (addresses.foldl Inotify.ipWdDelete state).toWatchTables := by
  induction addresses generalizing state with
  | nil => exact indexed
  | cons address addresses inductionHypothesis => exact inductionHypothesis (indexed.ipWdDelete address)

/-! ## The loops -/

theorem Indexed.resubscribe {answers : IhSub → Bytes → WatchAnswer} {subs : List IhSub}
    {state after : Backend} (indexed : Indexed state.toWatchTables)
    (linked : Linked state.toWatchTables) (fresh : ResubscribesFresh answers state subs)
    (done : Inotify.resubscribe answers state subs = some after) : Indexed after.toWatchTables := by
  induction subs generalizing state with
  | nil =>
    cases done
    exact indexed
  | cons first subs inductionHypothesis =>
    obtain ⟨here, later⟩ := fresh
    have stopped := indexed.ipStopWatching linked first
    have linkedStopped := linked.ipStopWatching first
    have detached : (Inotify.ipStopWatching state first).subDirHash first = none := by
      rw [ipStopWatching_subDirHash state linked first, Function.update_self]
    simp only [Inotify.resubscribe] at done
    split at done
    case h_1 => contradiction
    case h_2 next result started =>
      exact inductionHypothesis ((stopped.ipStartWatching_iff linkedStopped started).mpr here)
        (linkedStopped.ipStartWatching detached started) (later _ started) done

theorem Indexed.scanLoop {answers : IhSub → Bytes → WatchAnswer} {view : IhSub → FsView}
    {subs missing : List IhSub} {state final : Backend} (indexed : Indexed state.toWatchTables)
    (linked : Linked state.toWatchTables) (once : subs.Nodup)
    (detached : ∀ sub ∈ subs, state.subDirHash sub = none)
    (fresh : ScansFresh answers view state subs)
    (done : Inotify.scanLoop answers view state subs = some (final, missing)) :
    Indexed final.toWatchTables := by
  induction subs generalizing state missing with
  | nil =>
    cases done
    exact indexed
  | cons first subs inductionHypothesis =>
    obtain ⟨firstUnlisted, once⟩ := List.nodup_cons.mp once
    obtain ⟨here, later⟩ := fresh
    have firstDetached := detached first List.mem_cons_self
    -- one call leaves the others of the list detached
    have rest {next : Backend} {result : Bool}
        (started : Inotify.ipStartWatching state first (answers first) = some (next, result)) :
        Indexed next.toWatchTables ∧ Linked next.toWatchTables ∧
          ∀ sub ∈ subs, next.subDirHash sub = none := by
      refine ⟨(indexed.ipStartWatching_iff linked started).mpr here,
        linked.ipStartWatching firstDetached started, fun sub member => ?_⟩
      by_contra attached
      rcases (ipStartWatching_subDirHash started sub).mp attached with before | ⟨rfl, _⟩
      · exact before (detached sub (List.mem_cons_of_mem _ member))
      · exact firstUnlisted member
    simp only [Inotify.scanLoop] at done
    split at done
    case h_1 => contradiction
    case h_2 next started =>
      obtain ⟨⟨last, stillMissing⟩, ran, same⟩ := Option.map_eq_some_iff.mp done
      cases same
      obtain ⟨nextIndexed, nextLinked, nextDetached⟩ := rest started
      exact inductionHypothesis nextIndexed nextLinked once nextDetached (later _ started) ran
    case h_3 next started =>
      obtain ⟨nextIndexed, nextLinked, nextDetached⟩ := rest started
      -- a report leaves the tables as they are
      have reportedIndexed : Indexed (reportFound (view first) first next).toWatchTables := nextIndexed
      have reportedLinked : Linked (reportFound (view first) first next).toWatchTables := nextLinked
      exact inductionHypothesis reportedIndexed reportedLinked once nextDetached (later _ started) done

/-! ## Runs -/

theorem Indexed.step {state after : Backend} (indexed : Indexed state.toWatchTables)
    (wellFormed : WellFormed state) {input : Input} (guard : FallbackGuard state input)
    (done : Inotify.step state input = some after) : Indexed after.toWatchTables := by
  have linked := wellFormed.toLinked
  cases input with
  | addSubscription address sub watch view =>
    simp only [Inotify.step, gamInotifyAddSubscription, ihSubAdd, Option.map_eq_some_iff] at done
    obtain ⟨added, ran, rfl⟩ := done
    split at ran
    case isTrue => contradiction
    case isFalse =>
      split at ran
      case h_1 => contradiction
      case h_2 started result calling =>
        -- only the fallback of a start can put a second object at a path
        have kept := (indexed.ipStartWatching_iff linked calling).mpr guard
        cases ran
        cases result with
        | true => exact kept
        | false =>
          simp only [Bool.false_eq_true, if_false]
          unfold imAdd
          split <;> exact kept
  | cancel sub =>
    cases done
    unfold ihSubCancel
    split
    case isTrue =>
      have kept : Indexed (imRm state sub).toWatchTables := indexed
      have linkedRemoved : Linked (imRm state sub).toWatchTables := linked
      exact kept.ipStopWatching linkedRemoved sub
    case isFalse => exact indexed
  | event event answers =>
    simp only [Inotify.step, Option.map_eq_some_iff] at done
    obtain ⟨dispatched, ran, rfl⟩ := done
    have kept : Indexed dispatched.toWatchTables := by
      unfold ipEventCallback at ran
      split at ran
      case isTrue =>
        cases ran
        exact indexed
      case isFalse notIgnored =>
        simp only [Option.map_eq_some_iff] at ran
        obtain ⟨middle, ran, rfl⟩ := ran
        have middleIndexed : Indexed middle.toWatchTables := by
          split at ran
          case isTrue interesting =>
            have forwarded : Indexed (forwardAll state (state.wdDirHash event.wd)
                (pairDirs state event) event).toWatchTables := indexed
            exact forwarded.resubscribe (wellFormed.forwardAll _ _ event).toLinked
              (guard notIgnored interesting) ran
          case isFalse =>
            cases ran
            exact indexed
        split
        case isTrue => exact middleIndexed.foldl_ipWdDelete
        case isFalse => exact middleIndexed
    split <;> exact kept
  | scanMissing answers view =>
    simp only [Inotify.step, imScanMissing, Option.map_eq_some_iff] at done
    obtain ⟨⟨final, missing⟩, ran, rfl⟩ := done
    have kept := indexed.scanLoop linked wellFormed.missingOnce wellFormed.missingDetached guard ran
    exact kept
  | inodeDeleted inode =>
    cases done
    exact indexed

/-- In every run in which `ip_start_watching` never falls back to an ancestor that is in the table
of paths, both tables list every directory object after every step. -/
theorem directories_catalogued (inputs : List Input)
    (guarded : Guarded (partialStep step) (GuardIfAny FallbackGuard) (some .new) inputs) :
    Throughout (partialStep step) (IfAny Catalogued) (some .new) inputs := by
  have start : WellFormed .new ∧ Indexed Backend.new.toWatchTables := ⟨wellFormed_new, indexed_new⟩
  have both : Throughout (partialStep step)
      (IfAny fun state => WellFormed state ∧ Indexed state.toWatchTables) (some .new) inputs := by
    refine Throughout.of_partial ?_ start guarded
    rintro state input after ⟨wellFormed, indexed⟩ guard done
    exact ⟨wellFormed.step done, indexed.step wellFormed guard done⟩
  exact both.imp (IfAny.imp fun _ kept => kept.2.catalogued kept.1.toLinked)

/-- A subscription waits in `/a` for `/a/b`, and another one for `/a` joins the same object. -/
theorem directories_catalogued_joined :
    Throughout (partialStep step) (IfAny Catalogued) (some .new)
      [.addSubscription 2 (directorySubscription 1 [47, 97, 47, 98] 1) (watchIn [([47, 97], 1)])
          emptyView,
        .addSubscription 3 (directorySubscription 4 [47, 97] 2) (watchIn [([47, 97], 1)])
          emptyView] :=
  directories_catalogued _ (by decide +kernel)

theorem Catalogued.first_two_differ {state : Backend} (catalogued : Catalogued state) :
    (state.dirs 0).map (·.path) = (state.dirs 1).map (·.path) → state.dirs 0 = none := by
  intro samePath
  cases first : state.dirs 0 with
  | none => rfl
  | some dir =>
    cases second : state.dirs 1 with
    | none => simp [first, second] at samePath
    | some otherDir =>
      rw [first, second] at samePath
      exact absurd (catalogued.unique 0 1 dir otherDir first second (Option.some.inj samePath))
        (by decide)

/-- The other way round, the entry of `/a` is overwritten. -/
theorem fallback_overwrites :
    ¬ Throughout (partialStep step) (IfAny Catalogued) (some .new)
      [.addSubscription 3 (directorySubscription 4 [47, 97] 2) (watchIn [([47, 97], 1)]) emptyView,
        .addSubscription 2 (directorySubscription 1 [47, 97, 47, 98] 1) (watchIn [([47, 97], 1)])
          emptyView] := by
  intro throughout
  have firstTwo := IfAny.imp (fun _ => Catalogued.first_two_differ) _ throughout.last
  revert firstTwo
  decide +kernel

end Gamin.Inotify
