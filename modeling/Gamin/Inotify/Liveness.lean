import Gamin.Inotify.WatchTables

/-! # Watches stay alive

Several directory objects may share one watch descriptor: symbolic links to one directory,
or missing directories with the same nearest ancestor.  `ip_stop_watching` gives the
descriptor back as soon as one of them has lost its last subscription.  As long as this
only happens to an object that is alone on its descriptor, every directory with
subscriptions has a live watch.
-/

namespace Gamin.Inotify

open Gamin Gamin.Server Gamin.Library

/-- Every directory with a subscription has a watch that is registered with the kernel. -/
def WatchLive (state : Backend) : Prop :=
  ∀ address dir, state.dirs address = some dir → dir.subs ≠ [] → state.kernel.Registered dir.wd

/-! ## Stopping alone -/

/-- If this is the last subscription of its directory and the watch is in use, then no other
directory object is on the list of the watch descriptor. -/
def StopsAlone (state : Backend) (sub : IhSub) : Prop :=
  ∀ address ∈ state.subDirHash sub, ∀ dir ∈ state.dirs address,
    dir.subs.erase sub = [] → dir.wd ∉ state.kernel.deleteSelfQueued →
      ∀ other ∈ state.wdDirHash dir.wd, other = address

/-- Every stop in the resubscription loop meets the condition in the state it finds. -/
def ResubscribesAlone (answers : IhSub → Bytes → WatchAnswer) : Backend → List IhSub → Prop
  | _, [] => True
  | state, sub :: subs =>
    StopsAlone state sub ∧
      ∀ after ∈ ipStartWatching (ipStopWatching state sub) sub (answers sub),
        ResubscribesAlone answers after.1 subs

/-- Every subscription that a step stops meets the condition. -/
def StopGuard (state : Backend) : Input → Prop
  | .cancel sub => StopsAlone state sub
  | .event event answers =>
    ¬ event.has inIgnored → event.has ipInotifyMask →
      ResubscribesAlone answers
        (forwardAll state (state.wdDirHash event.wd) (pairDirs state event) event)
        (resubscriptionList state (state.wdDirHash event.wd) event.toIkReport)
  | .addSubscription .. | .scanMissing .. | .inodeDeleted _ => True

instance (state : Backend) (sub : IhSub) : Decidable (StopsAlone state sub) :=
  inferInstanceAs (Decidable (∀ address ∈ state.subDirHash sub, ∀ dir ∈ state.dirs address, _))

instance decidableResubscribesAlone (answers : IhSub → Bytes → WatchAnswer) :
    (state : Backend) → (subs : List IhSub) → Decidable (ResubscribesAlone answers state subs)
  | _, [] => .isTrue trivial
  | state, sub :: subs =>
    have := fun after => decidableResubscribesAlone answers after subs
    inferInstanceAs (Decidable (_ ∧ ∀ after ∈ ipStartWatching (ipStopWatching state sub) sub
      (answers sub), ResubscribesAlone answers after.1 subs))

instance (state : Backend) : (input : Input) → Decidable (StopGuard state input)
  | .cancel sub => inferInstanceAs (Decidable (StopsAlone state sub))
  | .event _ _ => inferInstanceAs (Decidable (_ → _ → _))
  | .addSubscription .. | .scanMissing .. | .inodeDeleted _ => .isTrue trivial

/-! ## Operations -/

theorem WatchLive.ipMapSubDir {state : Backend} (live : WatchLive state) {sub : IhSub}
    {address : Pointer} {dir : IpWatchedDir} (found : state.dirs address = some dir)
    (subscribed : dir.subs ≠ []) : WatchLive (ipMapSubDir state sub address) := by
  intro other otherDir allocated _
  rcases (ipMapSubDir_dirs found).mp allocated with ⟨_, rfl⟩ | ⟨_, allocated⟩
  · exact live address dir found subscribed
  · exact live other otherDir allocated ‹_›

theorem WatchLive.ipWatchNewDir {state : Backend} (live : WatchLive state) (sub : IhSub)
    (path : Bytes) (inode : Nat) : WatchLive (ipWatchNewDir state sub path inode) := by
  intro other otherDir allocated subscribed
  rcases ipWatchNewDir_dirs.mp allocated with ⟨_, rfl⟩ | ⟨_, allocated⟩
  · exact state.kernel.addWatch_registered inode
  · exact (live other otherDir allocated subscribed).addWatch inode

theorem WatchLive.ipStartWatching {state after : Backend} (live : WatchLive state)
    (linked : Linked state.toWatchTables) {sub : IhSub} {watch : Bytes → WatchAnswer}
    {result : Bool} (started : ipStartWatching state sub watch = some (after, result)) :
    WatchLive after := by
  rcases ipStartWatching_cases started with ⟨address, mapped, rfl, _⟩ | ⟨path, inode, _, _, rfl, _⟩ |
    ⟨rfl, _⟩
  · obtain ⟨dir, found, _⟩ := linked.byPath mapped
    exact live.ipMapSubDir found (linked.subscribed found)
  · exact live.ipWatchNewDir sub path inode
  · exact live

/-- A stop takes the watch of no directory that still needs it. -/
theorem WatchLive.ipStopWatching {state : Backend} (live : WatchLive state)
    (linked : Linked state.toWatchTables) {sub : IhSub} (alone : StopsAlone state sub) :
    WatchLive (ipStopWatching state sub) := by
  rcases ipStopWatching_cases linked sub with ⟨_, stopped⟩ |
    ⟨address, dir, found, member, ⟨others, stopped⟩ | ⟨last, stopped⟩⟩
  · rw [stopped]
    exact live
  · rw [stopped]
    intro other otherDir allocated _
    rcases (ipUnmapSubDir_dirs found).mp allocated with ⟨_, rfl⟩ | ⟨_, allocated⟩
    · exact live address dir found (linked.subscribed found)
    · exact live other otherDir allocated ‹_›
  · rw [stopped]
    intro other otherDir allocated subscribed
    obtain ⟨different, allocated⟩ := ipReleaseDir_dirs.mp allocated
    have registered := live other otherDir allocated subscribed
    rcases eq_or_ne otherDir.wd dir.wd with shared | unshared
    · -- the watch is shared, so its inode is gone and `inotify_rm_watch` fails
      have attached := linked.attached.mpr ⟨dir, found, member⟩
      by_cases queued : dir.wd ∈ state.kernel.deleteSelfQueued
      · exact .inr (by rw [shared]; exact queued)
      · have listed := linked.byWd.mpr ⟨otherDir, allocated, shared⟩
        exact absurd (alone address attached dir found last queued other listed) different
    · exact registered.rmWatch unshared

theorem WatchLive.resubscribe {answers : IhSub → Bytes → WatchAnswer} {subs : List IhSub}
    {state after : Backend} (live : WatchLive state) (wellFormed : WellFormed state)
    (known : ∀ sub ∈ subs, sub ∉ state.missingSubList ∧ sub ∈ state.subList)
    (alone : ResubscribesAlone answers state subs)
    (done : resubscribe answers state subs = some after) : WatchLive after := by
  induction subs generalizing state with
  | nil =>
    cases done
    exact live
  | cons first subs inductionHypothesis =>
    simp only [Inotify.resubscribe] at done
    split at done
    case h_1 => contradiction
    case h_2 next result started =>
      obtain ⟨nextWellFormed, missing, subList⟩ :=
        wellFormed.resubscribeOne (known first List.mem_cons_self) started
      have nextLive := (live.ipStopWatching wellFormed.toLinked alone.1).ipStartWatching
        (wellFormed.toLinked.ipStopWatching first) started
      apply inductionHypothesis nextLive nextWellFormed _ (alone.2 _ started) done
      intro sub member
      rw [missing, subList]
      exact known sub (List.mem_cons_of_mem _ member)

theorem WatchLive.scanLoop {answers : IhSub → Bytes → WatchAnswer} {view : IhSub → FsView}
    {subs missing : List IhSub} {state final : Backend} (live : WatchLive state)
    (linked : Linked state.toWatchTables) (once : subs.Nodup)
    (detached : ∀ sub ∈ subs, state.subDirHash sub = none)
    (done : scanLoop answers view state subs = some (final, missing)) : WatchLive final := by
  induction subs generalizing state missing with
  | nil =>
    cases done
    exact live
  | cons first subs inductionHypothesis =>
    obtain ⟨firstUnlisted, once⟩ := List.nodup_cons.mp once
    simp only [Inotify.scanLoop] at done
    split at done
    case h_1 => contradiction
    case h_2 next started =>
      obtain ⟨⟨last, rest⟩, ran, same⟩ := Option.map_eq_some_iff.mp done
      cases same
      have attached := ipStartWatching_subDirHash started
      exact inductionHypothesis (live.ipStartWatching linked started)
        (linked.ipStartWatching (detached first List.mem_cons_self) started) once (by grind) ran
    case h_3 next started =>
      have attached := ipStartWatching_subDirHash started
      have nextLive := live.ipStartWatching linked started
      have nextLinked := linked.ipStartWatching (detached first List.mem_cons_self) started
      have rest := fun live linked detached =>
        inductionHypothesis live linked once detached done
      exact rest nextLive nextLinked (by simp only [reportFound_toWatchTables]; grind)

theorem WatchLive.ipEventDispatch {state after : Backend} (live : WatchLive state)
    (wellFormed : WellFormed state) {dirList pairDirList : List Pointer} {event : IkEvent}
    {answers : IhSub → Bytes → WatchAnswer}
    (alone : ResubscribesAlone answers (forwardAll state dirList pairDirList event)
      (resubscriptionList state dirList event.toIkReport))
    (done : ipEventDispatch state dirList pairDirList event answers = some after) :
    WatchLive after := by
  have forwarded : WatchLive (forwardAll state dirList pairDirList event) := live
  exact forwarded.resubscribe (wellFormed.forwardAll dirList pairDirList event)
    (wellFormed.resubscriptionList dirList event.toIkReport) alone done

/-- The directory objects that are left when all those of a descriptor are deleted. -/
theorem ipUnmapWd_dirs {state : Backend} (linked : Linked state.toWatchTables) {wd : Nat}
    {address : Pointer} {dir : IpWatchedDir}
    (found : (ipUnmapWd ((state.wdDirHash wd).foldl ipWdDelete state) wd).dirs address = some dir) :
    state.dirs address = some dir ∧ dir.wd ≠ wd := by
  obtain ⟨unlisted, before⟩ := ((linked.deleted wd).dirs address dir).mp found
  exact ⟨before, fun same => unlisted (linked.byWd.mpr ⟨dir, before, same⟩)⟩

theorem WatchLive.ipUnmapWd {state : Backend} (live : WatchLive state)
    (linked : Linked state.toWatchTables) (wd : Nat) :
    WatchLive (ipUnmapWd ((state.wdDirHash wd).foldl ipWdDelete state) wd) := by
  intro address dir found subscribed
  have registered := live address dir (ipUnmapWd_dirs linked found).1 subscribed
  have kernel := (linked.deleted wd).kernel
  simp only [Inotify.ipUnmapWd, kernel]
  exact registered

theorem WatchLive.ipEventCallback {state after : Backend} (live : WatchLive state)
    (wellFormed : WellFormed state) {event : IkEvent} {answers : IhSub → Bytes → WatchAnswer}
    (guard : StopGuard state (.event event answers))
    (done : ipEventCallback state event answers = some after) :
    WatchLive after ∧ (event.endsWatch = true →
      ∀ address dir, after.dirs address = some dir → dir.wd ≠ event.wd) := by
  unfold Inotify.ipEventCallback at done
  split at done
  case isTrue ignored =>
    cases done
    exact ⟨live, fun ends => by simp [IkReport.endsWatch, ignored] at ends⟩
  case isFalse notIgnored =>
    simp only [Option.map_eq_some_iff] at done
    obtain ⟨dispatched, ran, rfl⟩ := done
    have kept : WatchLive dispatched ∧ WellFormed dispatched := by
      split at ran
      case isTrue interesting =>
        exact ⟨live.ipEventDispatch wellFormed (guard notIgnored interesting) ran,
          wellFormed.ipEventDispatch ran⟩
      case isFalse =>
        cases ran
        exact ⟨live, wellFormed⟩
    split
    case isTrue =>
      exact ⟨kept.1.ipUnmapWd kept.2.toLinked event.wd,
        fun _ address dir found => (ipUnmapWd_dirs kept.2.toLinked found).2⟩
    case isFalse stays =>
      refine ⟨kept.1, fun ends => ?_⟩
      simp only [IkReport.endsWatch, decide_eq_true_eq] at ends
      exact absurd (.inl ends.2) stays

/-! ## Runs -/

theorem WatchLive.step {state after : Backend} (live : WatchLive state)
    (wellFormed : WellFormed state) {input : Input} (guard : StopGuard state input)
    (done : step state input = some after) : WatchLive after := by
  cases input with
  -- only a directory that comes to be watched matters, and its watch is new
  | addSubscription address sub watch view =>
    simp only [Inotify.step, gamInotifyAddSubscription, ihSubAdd, Option.map_eq_some_iff] at done
    obtain ⟨added, ran, rfl⟩ := done
    split at ran
    case isTrue => contradiction
    case isFalse =>
      split at ran
      case h_1 => contradiction
      case h_2 started result started_eq =>
        cases ran
        have started := live.ipStartWatching wellFormed.toLinked started_eq
        cases result with
        | true => exact started
        | false =>
          simp only [Bool.false_eq_true, if_false, imAdd]
          split <;> exact started
  | cancel sub =>
    cases done
    unfold ihSubCancel
    split
    case isFalse => exact live
    case isTrue =>
      have removed : WatchLive (imRm state sub) := live
      exact removed.ipStopWatching wellFormed.toLinked guard
  | event event answers =>
    simp only [Inotify.step, Option.map_eq_some_iff] at done
    obtain ⟨dispatched, ran, rfl⟩ := done
    obtain ⟨kept, gone⟩ := live.ipEventCallback wellFormed guard ran
    split
    -- the kernel has dropped the watch, and the directory has been taken out of the table
    case isTrue ends =>
      intro address dir found subscribed
      exact (kept address dir found subscribed).deleteSelfDone (gone ends address dir found)
    case isFalse => exact kept
  | scanMissing answers view =>
    simp only [Inotify.step, imScanMissing, Option.map_eq_some_iff] at done
    obtain ⟨⟨final, missing⟩, ran, rfl⟩ := done
    have scanned := live.scanLoop wellFormed.toLinked wellFormed.missingOnce
      wellFormed.missingDetached ran
    exact scanned
  | inodeDeleted inode =>
    cases done
    intro address dir found subscribed
    exact (live address dir found subscribed).deleteInode inode

/-- In every run in which only directories that are alone on their watch descriptor lose
their last subscription, every directory with a subscription has a live watch. -/
theorem watches_live (inputs : List Input)
    (guarded : Guarded (partialStep step) (GuardIfAny StopGuard) (some .new) inputs) :
    Throughout (partialStep step) (IfAny WatchLive) (some .new) inputs := by
  have start : WellFormed .new ∧ WatchLive .new :=
    ⟨wellFormed_new, fun address dir found => by simp [Backend.new] at found⟩
  have both : Throughout (partialStep step) (IfAny fun state => WellFormed state ∧ WatchLive state)
      (some .new) inputs := by
    refine Throughout.of_partial ?_ start guarded
    rintro state input after ⟨wellFormed, live⟩ guard done
    exact ⟨wellFormed.step done, live.step wellFormed guard done⟩
  exact both.imp (IfAny.imp fun _ => And.right)

/-! ## Two runs -/

/-- A subscription waits for the missing `/a/b` in `/a`; it is created, and the subscription
is cancelled. -/
def waitedFor : List Input :=
  let sub := directorySubscription 1 [47, 97, 47, 98] 1
  [.addSubscription 2 sub (watchIn [([47, 97], 1)]) emptyView,
    .event { wd := 1, mask := inCreate ||| inIsdir, name := [98], pair := none }
      fun _ => watchIn [([47, 97], 1), ([47, 97, 47, 98], 2)],
    .cancel (ihSubNew 2 sub.path true sub)]

theorem waitedFor_live :
    Throughout (partialStep step) (IfAny WatchLive) (some .new) waitedFor :=
  watches_live waitedFor (by decide +kernel)

/-- Two subscriptions wait in `/a` for directories of their own, and the first is cancelled. -/
def sharedParent : List Input :=
  let first := directorySubscription 1 [47, 97, 47, 98] 1
  let second := directorySubscription 3 [47, 97, 47, 99] 2
  [.addSubscription 2 first (watchIn [([47, 97], 1)]) emptyView,
    .addSubscription 4 second (watchIn [([47, 97], 1)]) emptyView,
    .cancel (ihSubNew 2 first.path true first)]

/-- The second subscription is left on a directory whose watch is gone. -/
theorem sharedParent_deaf :
    ¬ Throughout (partialStep step) (IfAny WatchLive) (some .new) sharedParent := by
  intro throughout
  have last := throughout.last
  have final : (run (partialStep step) (some .new) sharedParent).map
      (fun state => ((state.dirs 1).map fun dir => (dir.subs.length, dir.wd), state.kernel)) =
      some (some (1, 1), ⟨[], [], 2⟩) := by decide +kernel
  obtain ⟨state, reached, parts⟩ := Option.map_eq_some_iff.mp final
  rw [reached] at last
  simp only [Prod.mk.injEq, Option.map_eq_some_iff] at parts
  obtain ⟨⟨dir, found, subs, wd⟩, kernel⟩ := parts
  have registered := last 1 dir found (by rintro none; simp [none] at subs)
  rw [kernel, wd] at registered
  revert registered
  decide

end Gamin.Inotify
