import Gamin.Inotify.Backend
import Gamin.Library.Runs
import Mathlib.Data.List.Nodup

/-! # The tables agree

A directory object is on the list of its watch descriptor, a subscription is in the object
that the table of subscriptions names, and no object is without subscriptions.  Every
operation of the backend keeps this.
-/

namespace Gamin.Inotify

open Gamin Gamin.Server Gamin.Library

/-! ## The invariant -/

/-- A subscription is attached to the directory object that has it on its list. -/
structure Attachments (tables : WatchTables) : Prop where
  allocated : ∀ {address dir}, tables.dirs address = some dir → address < tables.nextDir
  subscribed : ∀ {address dir}, tables.dirs address = some dir → dir.subs ≠ []
  distinct : ∀ {address dir}, tables.dirs address = some dir → dir.subs.Nodup
  attached : ∀ {sub address}, tables.subDirHash sub = some address ↔
    ∃ dir, tables.dirs address = some dir ∧ sub ∈ dir.subs
  byPath : ∀ {path address}, tables.pathDirHash path = some address →
    ∃ dir, tables.dirs address = some dir ∧ dir.path = path

/-- All tables agree: the lists of the watch descriptors are complete, too. -/
structure Linked (tables : WatchTables) : Prop extends Attachments tables where
  byWd : ∀ {wd address}, address ∈ tables.wdDirHash wd ↔
    ∃ dir, tables.dirs address = some dir ∧ dir.wd = wd
  listedOnce : ∀ wd, (tables.wdDirHash wd).Nodup

theorem linked_new : Linked Backend.new.toWatchTables := by
  refine ⟨⟨?_, ?_, ?_, ?_, ?_⟩, ?_, ?_⟩ <;> simp [Backend.new]

theorem update_eq_some {Key Value : Type*} [DecidableEq Key] {table : Key → Option Value}
    {key other : Key} {new : Option Value} {value : Value} :
    Function.update table key new other = some value ↔
      other = key ∧ new = some value ∨ other ≠ key ∧ table other = some value := by
  rw [Function.update_apply]
  split <;> simp_all

theorem Attachments.detached_iff {tables : WatchTables} (linked : Attachments tables) {sub : IhSub} :
    tables.subDirHash sub = none ↔
      ∀ address dir, tables.dirs address = some dir → sub ∉ dir.subs := by
  constructor
  · intro detached address dir found member
    rw [linked.attached.mpr ⟨dir, found, member⟩] at detached
    contradiction
  · intro nowhere
    cases attachment : tables.subDirHash sub with
    | none => rfl
    | some address =>
      obtain ⟨dir, found, member⟩ := linked.attached.mp attachment
      exact absurd member (nowhere address dir found)

/-! ## Attaching -/

theorem ipMapSubDir_dirs {state : Backend} {sub : IhSub} {address : Pointer} {dir : IpWatchedDir}
    (found : state.dirs address = some dir) {other : Pointer} {otherDir : IpWatchedDir} :
    (ipMapSubDir state sub address).dirs other = some otherDir ↔
      other = address ∧ { dir with subs := sub :: dir.subs } = otherDir ∨
        other ≠ address ∧ state.dirs other = some otherDir := by
  simp only [ipMapSubDir, update_eq_some, found, Option.map_some, Option.some.injEq]

theorem Linked.ipMapSubDir {state : Backend} (linked : Linked state.toWatchTables) {sub : IhSub}
    {address : Pointer} {dir : IpWatchedDir} (found : state.dirs address = some dir)
    (detached : state.subDirHash sub = none) :
    Linked (ipMapSubDir state sub address).toWatchTables := by
  have fresh := linked.detached_iff.mp detached
  -- only the object that takes the subscription has changed
  have dirs := @ipMapSubDir_dirs state sub address dir found
  refine ⟨⟨?allocated, ?subscribed, ?distinct, ?attached, ?byPath⟩, ?byWd, ?listedOnce⟩
  case allocated =>
    intro other otherDir allocated
    rcases dirs.mp allocated with ⟨rfl, rfl⟩ | ⟨_, allocated⟩
    · exact linked.allocated found
    · exact linked.allocated allocated
  case subscribed =>
    intro other otherDir allocated
    rcases dirs.mp allocated with ⟨rfl, rfl⟩ | ⟨_, allocated⟩
    · exact List.cons_ne_nil _ _
    · exact linked.subscribed allocated
  case distinct =>
    intro other otherDir allocated
    rcases dirs.mp allocated with ⟨rfl, rfl⟩ | ⟨_, allocated⟩
    · exact List.nodup_cons.mpr ⟨fresh _ _ found, linked.distinct found⟩
    · exact linked.distinct allocated
  case attached =>
    intro other otherAddress
    have kept := @linked.attached other otherAddress
    simp only [Inotify.ipMapSubDir, update_eq_some]
    grind
  case byPath =>
    intro path other mapped
    obtain ⟨otherDir, foundOther, rfl⟩ := linked.byPath mapped
    rcases eq_or_ne other address with rfl | different
    · rw [found] at foundOther
      cases foundOther
      exact ⟨_, dirs.mpr (.inl ⟨rfl, rfl⟩), rfl⟩
    · exact ⟨otherDir, dirs.mpr (.inr ⟨different, foundOther⟩), rfl⟩
  case byWd =>
    intro wd other
    have kept := @linked.byWd wd other
    simp only [Inotify.ipMapSubDir]
    grind
  case listedOnce => exact linked.listedOnce

theorem ipWatchNewDir_dirs {state : Backend} {sub : IhSub} {path : Bytes} {inode : Nat}
    {other : Pointer} {otherDir : IpWatchedDir} :
    (ipWatchNewDir state sub path inode).dirs other = some otherDir ↔
      other = state.nextDir ∧
          { path := path, wd := (state.kernel.addWatch inode).2, subs := [sub] } = otherDir ∨
        other ≠ state.nextDir ∧ state.dirs other = some otherDir := by
  simp only [ipWatchNewDir, ipMapPathDir, ipMapWdDir, ipWatchedDirNew, Inotify.ipMapSubDir,
    update_eq_some, Function.update_self, Option.map_some, Option.some.injEq]
  grind

theorem Linked.ipWatchNewDir {state : Backend} (linked : Linked state.toWatchTables) {sub : IhSub}
    (path : Bytes) (inode : Nat) (detached : state.subDirHash sub = none) :
    Linked (ipWatchNewDir state sub path inode).toWatchTables := by
  have fresh := linked.detached_iff.mp detached
  have dirs := @ipWatchNewDir_dirs state sub path inode
  -- the new object has an address that no other one has
  have unused : ∀ other dir, state.dirs other = some dir → other ≠ state.nextDir := by
    intro other dir found
    exact (linked.allocated found).ne
  refine ⟨⟨?allocated, ?subscribed, ?distinct, ?attached, ?byPath⟩, ?byWd, ?listedOnce⟩
  case allocated =>
    intro other otherDir allocated
    rcases dirs.mp allocated with ⟨rfl, rfl⟩ | ⟨_, allocated⟩
    · exact Nat.lt_succ_self _
    · exact (linked.allocated allocated).trans (Nat.lt_succ_self _)
  case subscribed =>
    intro other otherDir allocated
    rcases dirs.mp allocated with ⟨rfl, rfl⟩ | ⟨_, allocated⟩
    · exact List.cons_ne_nil _ _
    · exact linked.subscribed allocated
  case distinct =>
    intro other otherDir allocated
    rcases dirs.mp allocated with ⟨rfl, rfl⟩ | ⟨_, allocated⟩
    · exact List.nodup_cons.mpr ⟨List.not_mem_nil, List.nodup_nil⟩
    · exact linked.distinct allocated
  case attached =>
    intro other otherAddress
    have kept := @linked.attached other otherAddress
    simp only [dirs]
    simp only [Inotify.ipWatchNewDir, ipMapPathDir, ipMapWdDir, ipWatchedDirNew,
      Inotify.ipMapSubDir, update_eq_some]
    grind
  case byPath =>
    intro otherPath other mapped
    simp only [Inotify.ipWatchNewDir, ipMapPathDir, ipMapWdDir, ipWatchedDirNew,
      Inotify.ipMapSubDir, update_eq_some, Option.some.injEq] at mapped
    rcases mapped with ⟨rfl, rfl⟩ | ⟨_, mapped⟩
    · exact ⟨_, dirs.mpr (.inl ⟨rfl, rfl⟩), rfl⟩
    · obtain ⟨otherDir, foundOther, rfl⟩ := linked.byPath mapped
      exact ⟨otherDir, dirs.mpr (.inr ⟨unused _ _ foundOther, foundOther⟩), rfl⟩
  case byWd =>
    intro wd other
    have kept := @linked.byWd wd other
    simp only [dirs]
    simp only [Inotify.ipWatchNewDir, ipMapPathDir, ipMapWdDir, ipWatchedDirNew,
      Inotify.ipMapSubDir, Function.update_apply]
    grind
  case listedOnce =>
    intro wd
    have unlisted : ∀ wd, state.nextDir ∉ state.wdDirHash wd := by
      intro wd member
      obtain ⟨dir, found, _⟩ := linked.byWd.mp member
      exact absurd rfl (unused _ _ found)
    have kept := linked.listedOnce
    simp only [Inotify.ipWatchNewDir, ipMapPathDir, ipMapWdDir, ipWatchedDirNew,
      Inotify.ipMapSubDir, Function.update_apply]
    split
    · exact List.nodup_cons.mpr ⟨unlisted _, kept _⟩
    · exact kept _

/-! ## Detaching -/

theorem ipUnmapSubDir_dirs {state : Backend} {sub : IhSub} {address : Pointer}
    {dir : IpWatchedDir} (found : state.dirs address = some dir) {other : Pointer}
    {otherDir : IpWatchedDir} :
    (ipUnmapSubDir state sub address).dirs other = some otherDir ↔
      other = address ∧ { dir with subs := dir.subs.erase sub } = otherDir ∨
        other ≠ address ∧ state.dirs other = some otherDir := by
  simp only [ipUnmapSubDir, update_eq_some, found, Option.map_some, Option.some.injEq]

theorem Linked.ipUnmapSubDir {state : Backend} (linked : Linked state.toWatchTables) {sub : IhSub}
    {address : Pointer} {dir : IpWatchedDir} (found : state.dirs address = some dir)
    (member : sub ∈ dir.subs) (others : dir.subs.erase sub ≠ []) :
    Linked (ipUnmapSubDir state sub address).toWatchTables := by
  -- only the object that loses the subscription has changed
  have dirs := @ipUnmapSubDir_dirs state sub address dir found
  have distinct := linked.distinct found
  refine ⟨⟨?allocated, ?subscribed, ?distinct, ?attached, ?byPath⟩, ?byWd, ?listedOnce⟩
  case allocated =>
    intro other otherDir allocated
    rcases dirs.mp allocated with ⟨rfl, rfl⟩ | ⟨_, allocated⟩
    · exact linked.allocated found
    · exact linked.allocated allocated
  case subscribed =>
    intro other otherDir allocated
    rcases dirs.mp allocated with ⟨rfl, rfl⟩ | ⟨_, allocated⟩
    · exact others
    · exact linked.subscribed allocated
  case distinct =>
    intro other otherDir allocated
    rcases dirs.mp allocated with ⟨rfl, rfl⟩ | ⟨_, allocated⟩
    · exact distinct.erase sub
    · exact linked.distinct allocated
  case attached =>
    intro other otherAddress
    have kept := @linked.attached other otherAddress
    have only := @linked.attached sub otherAddress
    have here := linked.attached.mpr ⟨dir, found, member⟩
    have erased : ∀ other, other ∈ dir.subs.erase sub ↔ other ≠ sub ∧ other ∈ dir.subs :=
      fun other => distinct.mem_erase_iff
    simp only [Inotify.ipUnmapSubDir, update_eq_some, found, Option.map_some, Option.some.injEq]
    grind
  case byPath =>
    intro path other mapped
    obtain ⟨otherDir, foundOther, rfl⟩ := linked.byPath mapped
    rcases eq_or_ne other address with rfl | different
    · rw [found] at foundOther
      cases foundOther
      exact ⟨_, dirs.mpr (.inl ⟨rfl, rfl⟩), rfl⟩
    · exact ⟨otherDir, dirs.mpr (.inr ⟨different, foundOther⟩), rfl⟩
  case byWd =>
    intro wd other
    have kept := @linked.byWd wd other
    simp only [Inotify.ipUnmapSubDir, update_eq_some, found, Option.map_some, Option.some.injEq]
    grind
  case listedOnce => exact linked.listedOnce

theorem ipReleaseDir_dirs {state : Backend} {sub : IhSub} {address : Pointer} {dir : IpWatchedDir}
    {other : Pointer} {otherDir : IpWatchedDir} :
    (ipReleaseDir (ipUnmapSubDir state sub address) address dir).dirs other = some otherDir ↔
      other ≠ address ∧ state.dirs other = some otherDir := by
  simp only [ipReleaseDir, ikIgnore, ipUnmapWdDir, ipUnmapPathDir, ipWatchedDirFree,
    Inotify.ipUnmapSubDir, update_eq_some]
  grind

theorem Linked.ipReleaseDir {state : Backend} (linked : Linked state.toWatchTables) {sub : IhSub}
    {address : Pointer} {dir : IpWatchedDir} (found : state.dirs address = some dir)
    (member : sub ∈ dir.subs) (last : dir.subs.erase sub = []) :
    Linked (ipReleaseDir (Inotify.ipUnmapSubDir state sub address) address dir).toWatchTables := by
  have dirs := @ipReleaseDir_dirs state sub address dir
  -- nobody else has subscribed to the object that goes
  have only : ∀ other, other ∈ dir.subs → other = sub := by
    intro other memberOther
    by_contra different
    have := (List.mem_erase_of_ne different).mpr memberOther
    rw [last] at this
    contradiction
  refine ⟨⟨?allocated, ?subscribed, ?distinct, ?attached, ?byPath⟩, ?byWd, ?listedOnce⟩
  case allocated =>
    intro other otherDir allocated
    exact linked.allocated (dirs.mp allocated).2
  case subscribed =>
    intro other otherDir allocated
    exact linked.subscribed (dirs.mp allocated).2
  case distinct =>
    intro other otherDir allocated
    exact linked.distinct (dirs.mp allocated).2
  case attached =>
    intro other otherAddress
    have kept := @linked.attached other otherAddress
    have here := linked.attached.mpr ⟨dir, found, member⟩
    simp only [dirs]
    simp only [Inotify.ipReleaseDir, ikIgnore, ipUnmapWdDir, ipUnmapPathDir, ipWatchedDirFree,
      Inotify.ipUnmapSubDir, update_eq_some]
    grind
  case byPath =>
    intro path other mapped
    simp only [Inotify.ipReleaseDir, ikIgnore, ipUnmapWdDir, ipUnmapPathDir, ipWatchedDirFree,
      Inotify.ipUnmapSubDir, update_eq_some] at mapped
    obtain ⟨_, contra⟩ | ⟨different, mapped⟩ := mapped
    · contradiction
    · obtain ⟨otherDir, foundOther, rfl⟩ := linked.byPath mapped
      refine ⟨otherDir, dirs.mpr ⟨?_, foundOther⟩, rfl⟩
      rintro rfl
      rw [found] at foundOther
      cases foundOther
      exact different rfl
  case byWd =>
    intro wd other
    have kept := @linked.byWd wd other
    have once := (linked.listedOnce dir.wd).mem_erase_iff (a := other) (b := address)
    simp only [dirs]
    simp only [Inotify.ipReleaseDir, ikIgnore, ipUnmapWdDir, ipUnmapPathDir, ipWatchedDirFree,
      Inotify.ipUnmapSubDir, Function.update_apply]
    grind
  case listedOnce =>
    intro wd
    simp only [Inotify.ipReleaseDir, ikIgnore, ipUnmapWdDir, ipUnmapPathDir, ipWatchedDirFree,
      Inotify.ipUnmapSubDir, Function.update_apply]
    split
    · exact (linked.listedOnce _).erase _
    · exact linked.listedOnce wd

/-! ## Starting and stopping -/

/-- The three ways `ip_start_watching` can go when it returns. -/
theorem ipStartWatching_cases {state after : Backend} {sub : IhSub} {watch : Bytes → WatchAnswer}
    {result : Bool} (started : ipStartWatching state sub watch = some (after, result)) :
    (∃ address, state.pathDirHash sub.dirname = some address ∧
        after = ipMapSubDir state sub address ∧ result = true) ∨
      (∃ path inode, state.pathDirHash sub.dirname = none ∧
        (path = sub.dirname ∧ watch path = .watched inode ∨
          watch sub.dirname = .noent ∧ ipWatchParent watch sub.dirname = some (some (path, inode))) ∧
        after = ipWatchNewDir state sub path inode ∧ result = true) ∨
      (after = state ∧ result = false) := by
  unfold ipStartWatching at started
  split at started
  case h_1 address mapped =>
    cases started
    exact .inl ⟨address, mapped, rfl, rfl⟩
  case h_2 unmapped =>
    split at started
    case h_1 inode answer =>
      cases started
      exact .inr (.inl ⟨_, inode, unmapped, .inl ⟨rfl, answer⟩, rfl, rfl⟩)
    case h_2 =>
      cases started
      exact .inr (.inr ⟨rfl, rfl⟩)
    case h_3 missing =>
      split at started
      case h_1 => contradiction
      case h_2 =>
        cases started
        exact .inr (.inr ⟨rfl, rfl⟩)
      case h_3 parent inode found =>
        cases started
        exact .inr (.inl ⟨parent, inode, unmapped, .inr ⟨missing, found⟩, rfl, rfl⟩)

/-- The three ways `ip_stop_watching` can go. -/
theorem ipStopWatching_cases {state : Backend} (linked : Linked state.toWatchTables) (sub : IhSub) :
    (state.subDirHash sub = none ∧ ipStopWatching state sub = state) ∨
      ∃ address dir, state.dirs address = some dir ∧ sub ∈ dir.subs ∧
        (dir.subs.erase sub ≠ [] ∧ ipStopWatching state sub = ipUnmapSubDir state sub address ∨
          dir.subs.erase sub = [] ∧
            ipStopWatching state sub =
              ipReleaseDir (ipUnmapSubDir state sub address) address dir) := by
  unfold ipStopWatching
  cases attachment : state.subDirHash sub with
  | none => exact .inl ⟨rfl, rfl⟩
  | some address =>
    obtain ⟨dir, found, member⟩ := linked.attached.mp attachment
    refine .inr ⟨address, dir, found, member, ?_⟩
    simp only [found]
    by_cases last : dir.subs.erase sub = []
    · exact .inr ⟨last, if_pos last⟩
    · exact .inl ⟨last, if_neg last⟩

theorem Linked.ipStartWatching {state after : Backend} (linked : Linked state.toWatchTables)
    {sub : IhSub} {watch : Bytes → WatchAnswer} {result : Bool}
    (detached : state.subDirHash sub = none)
    (started : ipStartWatching state sub watch = some (after, result)) :
    Linked after.toWatchTables := by
  rcases ipStartWatching_cases started with ⟨address, mapped, rfl, _⟩ | ⟨path, inode, _, _, rfl, _⟩ |
    ⟨rfl, _⟩
  · obtain ⟨dir, found, _⟩ := linked.byPath mapped
    exact linked.ipMapSubDir found detached
  · exact linked.ipWatchNewDir path inode detached
  · exact linked

theorem Linked.ipStopWatching {state : Backend} (linked : Linked state.toWatchTables)
    (sub : IhSub) : Linked (ipStopWatching state sub).toWatchTables := by
  rcases ipStopWatching_cases linked sub with ⟨_, stopped⟩ |
    ⟨address, dir, found, member, ⟨others, stopped⟩ | ⟨last, stopped⟩⟩
  · rw [stopped]
    exact linked
  · rw [stopped]
    exact linked.ipUnmapSubDir found member others
  · rw [stopped]
    exact linked.ipReleaseDir found member last

/-- Attachments of other subscriptions are untouched by a stop. -/
theorem ipStopWatching_subDirHash (state : Backend) (linked : Linked state.toWatchTables)
    (sub : IhSub) :
    (ipStopWatching state sub).subDirHash = Function.update state.subDirHash sub none := by
  rcases ipStopWatching_cases linked sub with ⟨detached, stopped⟩ |
    ⟨address, dir, found, member, ⟨others, stopped⟩ | ⟨last, stopped⟩⟩
  · rw [stopped, ← detached, Function.update_eq_self]
  · rw [stopped]
    rfl
  · rw [stopped]
    rfl

theorem ipStartWatching_frame {state after : Backend} {sub : IhSub} {watch : Bytes → WatchAnswer}
    {result : Bool} (started : ipStartWatching state sub watch = some (after, result)) :
    after.missingSubList = state.missingSubList ∧ after.subList = state.subList ∧
      after.sent = state.sent := by
  rcases ipStartWatching_cases started with ⟨_, _, rfl, _⟩ | ⟨_, _, _, _, rfl, _⟩ | ⟨rfl, _⟩ <;>
    exact ⟨rfl, rfl, rfl⟩

theorem ipStartWatching_subDirHash {state after : Backend} {sub : IhSub}
    {watch : Bytes → WatchAnswer} {result : Bool}
    (started : ipStartWatching state sub watch = some (after, result)) (other : IhSub) :
    after.subDirHash other ≠ none ↔
      state.subDirHash other ≠ none ∨ other = sub ∧ result = true := by
  rcases ipStartWatching_cases started with ⟨address, _, rfl, rfl⟩ | ⟨path, inode, _, _, rfl, rfl⟩ |
    ⟨rfl, rfl⟩
  · rcases eq_or_ne other sub with rfl | different
    · simp [ipMapSubDir]
    · simp [ipMapSubDir, different]
  · rcases eq_or_ne other sub with rfl | different
    · simp [ipWatchNewDir, ipMapSubDir]
    · simp [ipWatchNewDir, ipMapSubDir, ipMapPathDir, ipMapWdDir, ipWatchedDirNew, different]
  · simp

theorem ipStopWatching_frame (state : Backend) (sub : IhSub) :
    (ipStopWatching state sub).missingSubList = state.missingSubList ∧
      (ipStopWatching state sub).subList = state.subList ∧
      (ipStopWatching state sub).sent = state.sent := by
  unfold ipStopWatching
  split
  · exact ⟨rfl, rfl, rfl⟩
  · split
    · exact ⟨rfl, rfl, rfl⟩
    · dsimp only
      split <;> exact ⟨rfl, rfl, rfl⟩

/-! ## The end of a watch -/

theorem foldl_imAdd (subs : List IhSub) (state : Backend) :
    ∃ missing running, subs.foldl imAdd state =
        { state with missingSubList := missing, scanMissingRunning := running } ∧
      (∀ sub, sub ∈ missing ↔ sub ∈ state.missingSubList ∨ sub ∈ subs) ∧
      (state.missingSubList.Nodup → missing.Nodup) := by
  induction subs generalizing state with
  | nil => exact ⟨_, _, rfl, by simp, id⟩
  | cons first subs inductionHypothesis =>
    obtain ⟨missing, running, added, members, once⟩ := inductionHypothesis (imAdd state first)
    refine ⟨missing, running, ?_, ?_, ?_⟩
    · rw [List.foldl_cons, added]
      unfold imAdd
      split <;> rfl
    · intro sub
      rw [members]
      unfold imAdd
      split <;> simp <;> grind
    · intro before
      apply once
      unfold imAdd
      split
      · exact before
      · exact List.nodup_cons.mpr ⟨‹_›, before⟩

/-- What `ip_wd_delete` leaves of the tables when the directory object is there. -/
theorem ipWdDelete_eq {state : Backend} {address : Pointer} {dir : IpWatchedDir}
    (found : state.dirs address = some dir) :
    ∃ missing running, ipWdDelete state address =
        { state with
          missingSubList := missing
          scanMissingRunning := running
          subDirHash := fun sub => if sub ∈ dir.subs then none else state.subDirHash sub
          dirs := Function.update state.dirs address none
          pathDirHash := Function.update state.pathDirHash dir.path none } ∧
      (∀ sub, sub ∈ missing ↔ sub ∈ state.missingSubList ∨ sub ∈ dir.subs) ∧
      (state.missingSubList.Nodup → missing.Nodup) := by
  obtain ⟨missing, running, added, members, once⟩ := foldl_imAdd dir.subs state
  refine ⟨missing, running, ?_, members, once⟩
  simp only [ipWdDelete, found, added, ipUnmapAllSubs, ipUnmapPathDir, ipWatchedDirFree,
    Function.update_idem]

/-- What the deletion of all directory objects of a watch descriptor leaves. -/
structure Deleted (addresses : List Pointer) (before after : Backend) : Prop where
  kernel : after.kernel = before.kernel
  subList : after.subList = before.subList
  sent : after.sent = before.sent
  nextDir : after.nextDir = before.nextDir
  wdDirHash : after.wdDirHash = before.wdDirHash
  dirs : ∀ address dir, after.dirs address = some dir ↔
    address ∉ addresses ∧ before.dirs address = some dir
  subDirHash : ∀ sub address, after.subDirHash sub = some address ↔
    address ∉ addresses ∧ before.subDirHash sub = some address
  pathDirHash : ∀ path address, after.pathDirHash path = some address →
    address ∉ addresses ∧ before.pathDirHash path = some address
  missing : ∀ sub, sub ∈ after.missingSubList ↔ sub ∈ before.missingSubList ∨
    ∃ address ∈ addresses, before.subDirHash sub = some address
  missingOnce : before.missingSubList.Nodup → after.missingSubList.Nodup

theorem Deleted.refl (state : Backend) : Deleted [] state state := by
  constructor <;> simp

/-- The tables that are left agree as before. -/
theorem Deleted.attachments {addresses : List Pointer} {before after : Backend}
    (deleted : Deleted addresses before after) (attachments : Attachments before.toWatchTables) :
    Attachments after.toWatchTables := by
  constructor
  case allocated =>
    intro address dir found
    rw [deleted.nextDir]
    exact attachments.allocated ((deleted.dirs _ _).mp found).2
  case subscribed =>
    intro address dir found
    exact attachments.subscribed ((deleted.dirs _ _).mp found).2
  case distinct =>
    intro address dir found
    exact attachments.distinct ((deleted.dirs _ _).mp found).2
  case attached =>
    intro sub address
    rw [deleted.subDirHash, attachments.attached]
    simp only [deleted.dirs, and_assoc, exists_and_left]
  case byPath =>
    intro path address mapped
    obtain ⟨unlisted, mapped⟩ := deleted.pathDirHash _ _ mapped
    obtain ⟨dir, found, samePath⟩ := attachments.byPath mapped
    exact ⟨dir, (deleted.dirs _ _).mpr ⟨unlisted, found⟩, samePath⟩

theorem Deleted.append {first second : List Pointer} {before middle after : Backend}
    (one : Deleted first before middle) (rest : Deleted second middle after) :
    Deleted (first ++ second) before after := by
  constructor
  case kernel => rw [rest.kernel, one.kernel]
  case subList => rw [rest.subList, one.subList]
  case sent => rw [rest.sent, one.sent]
  case nextDir => rw [rest.nextDir, one.nextDir]
  case wdDirHash => rw [rest.wdDirHash, one.wdDirHash]
  case dirs =>
    intro address dir
    rw [rest.dirs, one.dirs, List.mem_append, not_or]
    grind
  case subDirHash =>
    intro sub address
    rw [rest.subDirHash, one.subDirHash, List.mem_append, not_or]
    grind
  case pathDirHash =>
    intro path address mapped
    obtain ⟨later, mapped⟩ := rest.pathDirHash _ _ mapped
    obtain ⟨earlier, mapped⟩ := one.pathDirHash _ _ mapped
    exact ⟨List.mem_append.not.mpr (not_or.mpr ⟨earlier, later⟩), mapped⟩
  case missing =>
    intro sub
    rw [rest.missing, one.missing]
    simp only [one.subDirHash, List.mem_append]
    grind
  case missingOnce => exact fun distinct => rest.missingOnce (one.missingOnce distinct)

theorem deleted_ipWdDelete {address : Pointer} {dir : IpWatchedDir} {state : Backend}
    (attachments : Attachments state.toWatchTables) (found : state.dirs address = some dir) :
    Deleted [address] state (ipWdDelete state address) := by
  obtain ⟨missing, running, deleted, members, missingOnce⟩ := ipWdDelete_eq found
  have here : ∀ sub, sub ∈ dir.subs ↔ state.subDirHash sub = some address := by
    intro sub
    rw [attachments.attached]
    grind
  rw [deleted]
  constructor
  case kernel | subList | sent | nextDir | wdDirHash => rfl
  case dirs =>
    intro other otherDir
    simp only [update_eq_some, List.mem_singleton]
    grind
  case subDirHash =>
    intro sub other
    simp only [here, List.mem_singleton]
    grind
  case pathDirHash =>
    intro path other mapped
    simp only [update_eq_some] at mapped
    obtain ⟨_, contra⟩ | ⟨different, mapped⟩ := mapped
    · contradiction
    · refine ⟨?_, mapped⟩
      rw [List.mem_singleton]
      rintro rfl
      -- an address has one path
      obtain ⟨otherDir, foundOther, rfl⟩ := attachments.byPath mapped
      rw [found] at foundOther
      cases foundOther
      exact different rfl
  case missing =>
    intro sub
    simp only [members, here, List.mem_singleton, exists_eq_left]
  case missingOnce => exact missingOnce

theorem foldl_ipWdDelete {addresses : List Pointer} {state : Backend}
    (attachments : Attachments state.toWatchTables) (once : addresses.Nodup)
    (allocated : ∀ address ∈ addresses, ∃ dir, state.dirs address = some dir) :
    Deleted addresses state (addresses.foldl ipWdDelete state) := by
  induction addresses generalizing state with
  | nil => exact .refl state
  | cons first addresses inductionHypothesis =>
    obtain ⟨firstUnlisted, once⟩ := List.nodup_cons.mp once
    obtain ⟨dir, found⟩ := allocated first List.mem_cons_self
    have one := deleted_ipWdDelete attachments found
    refine one.append (inductionHypothesis (one.attachments attachments) once fun address member => ?_)
    obtain ⟨otherDir, foundOther⟩ := allocated address (List.mem_cons_of_mem _ member)
    have different := List.mem_singleton.not.mpr (ne_of_mem_of_not_mem member firstUnlisted)
    exact ⟨otherDir, (one.dirs _ _).mpr ⟨different, foundOther⟩⟩

theorem Linked.ipUnmapWd {before after : Backend} (linked : Linked before.toWatchTables) {wd : Nat}
    (deleted : Deleted (before.wdDirHash wd) before after) :
    Linked (ipUnmapWd after wd).toWatchTables := by
  -- what stays are the objects of other watches
  have dirs : ∀ address dir, after.dirs address = some dir ↔
      dir.wd ≠ wd ∧ before.dirs address = some dir := by
    intro address dir
    rw [deleted.dirs, linked.byWd]
    grind
  refine ⟨⟨?allocated, ?subscribed, ?distinct, ?attached, ?byPath⟩, ?byWd, ?listedOnce⟩
  case allocated =>
    intro address dir found
    have := linked.allocated ((dirs _ _).mp found).2
    simp only [Inotify.ipUnmapWd, deleted.nextDir]
    exact this
  case subscribed =>
    intro address dir found
    exact linked.subscribed ((dirs _ _).mp found).2
  case distinct =>
    intro address dir found
    exact linked.distinct ((dirs _ _).mp found).2
  case attached =>
    intro sub address
    simp only [Inotify.ipUnmapWd, deleted.subDirHash, deleted.dirs, linked.attached]
    grind
  case byPath =>
    intro path address mapped
    obtain ⟨unlisted, mapped⟩ := deleted.pathDirHash _ _ mapped
    obtain ⟨dir, found, samePath⟩ := linked.byPath mapped
    exact ⟨dir, (deleted.dirs _ _).mpr ⟨unlisted, found⟩, samePath⟩
  case byWd =>
    intro otherWd address
    have kept := @linked.byWd otherWd address
    simp only [Inotify.ipUnmapWd, deleted.wdDirHash, Function.update_apply, dirs]
    grind
  case listedOnce =>
    intro otherWd
    simp only [Inotify.ipUnmapWd, deleted.wdDirHash, Function.update_apply]
    split
    · exact List.nodup_nil
    · exact linked.listedOnce otherWd

/-! ## The lists of subscriptions -/

/-- A missing subscription is not attached, and both kinds are on the list of all. -/
structure Accounted (state : Backend) : Prop where
  missingDetached : ∀ sub ∈ state.missingSubList, state.subDirHash sub = none
  missingOnce : state.missingSubList.Nodup
  listed : ∀ sub, state.subDirHash sub ≠ none ∨ sub ∈ state.missingSubList → sub ∈ state.subList

structure WellFormed (state : Backend) : Prop extends Linked state.toWatchTables, Accounted state

theorem wellFormed_new : WellFormed .new := by
  refine { linked_new with missingDetached := ?_, missingOnce := ?_, listed := ?_ } <;>
    simp [Backend.new]

theorem WellFormed.attached_not_missing {state : Backend} (wellFormed : WellFormed state)
    {address : Pointer} {dir : IpWatchedDir} (found : state.dirs address = some dir) {sub : IhSub}
    (member : sub ∈ dir.subs) : sub ∉ state.missingSubList ∧ sub ∈ state.subList := by
  have attached := wellFormed.attached.mpr ⟨dir, found, member⟩
  constructor
  · intro missing
    rw [wellFormed.missingDetached sub missing] at attached
    contradiction
  · exact wellFormed.listed sub (.inl (by simp [attached]))

theorem mem_dirsOf {state : Backend} {addresses : List Pointer} {dir : IpWatchedDir} :
    dir ∈ dirsOf state addresses ↔ ∃ address ∈ addresses, state.dirs address = some dir :=
  List.mem_filterMap

theorem mem_resubscriptionList {state : Backend} {dirList : List Pointer} {event : IkReport}
    {sub : IhSub} :
    sub ∈ resubscriptionList state dirList event ↔
      ∃ dir ∈ dirsOf state dirList, sub ∈ dir.subs ∧ resubscribes dir event sub = true := by
  simp [resubscriptionList]

theorem dirsOf_disjoint {state : Backend} (linked : Linked state.toWatchTables)
    {addresses : List Pointer} (once : addresses.Nodup) :
    (dirsOf state addresses).Pairwise fun first second => List.Disjoint first.subs second.subs := by
  unfold dirsOf
  rw [List.pairwise_filterMap]
  refine once.imp ?_
  intro first second different firstDir foundFirst secondDir foundSecond sub inFirst inSecond
  have attachedFirst := linked.attached.mpr ⟨firstDir, foundFirst, inFirst⟩
  have attachedSecond := linked.attached.mpr ⟨secondDir, foundSecond, inSecond⟩
  rw [attachedFirst] at attachedSecond
  exact different (Option.some.inj attachedSecond)

theorem resubscriptionList_nodup {state : Backend} (linked : Linked state.toWatchTables) (wd : Nat)
    (event : IkReport) : (resubscriptionList state (state.wdDirHash wd) event).Nodup := by
  unfold resubscriptionList
  rw [List.nodup_reverse, List.nodup_flatMap]
  constructor
  · intro dir member
    obtain ⟨address, _, found⟩ := mem_dirsOf.mp member
    exact (linked.distinct found).filter _
  · refine (dirsOf_disjoint linked (linked.listedOnce wd)).imp ?_
    intro first second disjoint sub inFirst inSecond
    exact disjoint (List.mem_of_mem_filter inFirst) (List.mem_of_mem_filter inSecond)

/-- One turn of the resubscription loop. -/
theorem WellFormed.resubscribeOne {state after : Backend} (wellFormed : WellFormed state)
    {sub : IhSub} (known : sub ∉ state.missingSubList ∧ sub ∈ state.subList)
    {watch : Bytes → WatchAnswer} {result : Bool}
    (started : ipStartWatching (ipStopWatching state sub) sub watch = some (after, result)) :
    WellFormed after ∧ after.missingSubList = state.missingSubList ∧
      after.subList = state.subList := by
  have stopped := ipStopWatching_subDirHash state wellFormed.toLinked sub
  have detached : (ipStopWatching state sub).subDirHash sub = none := by
    rw [stopped, Function.update_self]
  have linked := (wellFormed.toLinked.ipStopWatching sub).ipStartWatching detached started
  obtain ⟨missing, subList, _⟩ := ipStartWatching_frame started
  obtain ⟨missingStop, subListStop, _⟩ := ipStopWatching_frame state sub
  have attached := ipStartWatching_subDirHash started
  simp only [stopped, Function.update_apply] at attached
  rw [missingStop] at missing
  rw [subListStop] at subList
  refine ⟨{ linked with missingDetached := ?_, missingOnce := ?_, listed := ?_ }, missing, subList⟩
  · intro other isMissing
    rw [missing] at isMissing
    have before := wellFormed.missingDetached other isMissing
    have := attached other
    grind
  · rw [missing]
    exact wellFormed.missingOnce
  · intro other attachedOrMissing
    rw [missing] at attachedOrMissing
    rw [subList]
    have := attached other
    have := wellFormed.listed other
    grind

theorem WellFormed.resubscribe {answers : IhSub → Bytes → WatchAnswer} {subs : List IhSub}
    {state after : Backend} (wellFormed : WellFormed state)
    (known : ∀ sub ∈ subs, sub ∉ state.missingSubList ∧ sub ∈ state.subList)
    (done : Inotify.resubscribe answers state subs = some after) : WellFormed after := by
  induction subs generalizing state with
  | nil =>
    cases done
    exact wellFormed
  | cons first subs inductionHypothesis =>
    simp only [Inotify.resubscribe] at done
    split at done
    case h_1 => contradiction
    case h_2 next result started =>
      obtain ⟨nextWellFormed, missing, subList⟩ :=
        wellFormed.resubscribeOne (known first List.mem_cons_self) started
      apply inductionHypothesis nextWellFormed _ done
      intro sub member
      rw [missing, subList]
      exact known sub (List.mem_cons_of_mem _ member)

theorem resubscribe_frame {answers : IhSub → Bytes → WatchAnswer} {subs : List IhSub}
    {state after : Backend} (done : Inotify.resubscribe answers state subs = some after) :
    after.subList = state.subList ∧ after.sent = state.sent := by
  induction subs generalizing state with
  | nil =>
    cases done
    exact ⟨rfl, rfl⟩
  | cons first subs inductionHypothesis =>
    simp only [Inotify.resubscribe] at done
    split at done
    case h_1 => contradiction
    case h_2 next result started =>
      obtain ⟨subList, sent⟩ := inductionHypothesis done
      obtain ⟨_, subListStart, sentStart⟩ := ipStartWatching_frame started
      obtain ⟨_, subListStop, sentStop⟩ := ipStopWatching_frame state first
      exact ⟨by rw [subList, subListStart, subListStop], by rw [sent, sentStart, sentStop]⟩

/-- Who is on the resubscription list is attached, hence not missing. -/
theorem WellFormed.resubscriptionList {state : Backend} (wellFormed : WellFormed state)
    (dirList : List Pointer) (event : IkReport) :
    ∀ sub ∈ resubscriptionList state dirList event,
      sub ∉ state.missingSubList ∧ sub ∈ state.subList := by
  intro sub member
  obtain ⟨dir, dirMember, subMember, _⟩ := mem_resubscriptionList.mp member
  obtain ⟨address, _, found⟩ := mem_dirsOf.mp dirMember
  exact wellFormed.attached_not_missing found subMember

theorem WellFormed.forwardAll {state : Backend} (wellFormed : WellFormed state)
    (dirList pairDirList : List Pointer) (event : IkEvent) :
    WellFormed (forwardAll state dirList pairDirList event) := { wellFormed with }

theorem WellFormed.ipEventDispatch {state after : Backend} (wellFormed : WellFormed state)
    {dirList pairDirList : List Pointer} {event : IkEvent}
    {answers : IhSub → Bytes → WatchAnswer}
    (done : Inotify.ipEventDispatch state dirList pairDirList event answers = some after) :
    WellFormed after := by
  exact (wellFormed.forwardAll dirList pairDirList event).resubscribe
    (wellFormed.resubscriptionList dirList event.toIkReport) done

theorem Linked.deleted {before : Backend} (linked : Linked before.toWatchTables) (wd : Nat) :
    Deleted (before.wdDirHash wd) before ((before.wdDirHash wd).foldl ipWdDelete before) := by
  apply foldl_ipWdDelete linked.toAttachments (linked.listedOnce wd)
  intro address member
  obtain ⟨dir, found, _⟩ := linked.byWd.mp member
  exact ⟨dir, found⟩

/-- All directory objects of a watch descriptor are deleted. -/
theorem WellFormed.ipUnmapWd {before : Backend} (wellFormed : WellFormed before) (wd : Nat) :
    WellFormed (ipUnmapWd ((before.wdDirHash wd).foldl ipWdDelete before) wd) := by
  have deleted := wellFormed.toLinked.deleted wd
  refine { wellFormed.toLinked.ipUnmapWd deleted with
    missingDetached := ?_, missingOnce := ?_, listed := ?_ }
  · intro sub isMissing
    simp only [Inotify.ipUnmapWd, deleted.missing] at isMissing ⊢
    cases attached : (List.foldl ipWdDelete before (before.wdDirHash wd)).subDirHash sub with
    | none => rfl
    | some address =>
      have := (deleted.subDirHash _ _).mp attached
      have := wellFormed.missingDetached sub
      grind
  · exact deleted.missingOnce wellFormed.missingOnce
  · intro sub attachedOrMissing
    simp only [Inotify.ipUnmapWd, deleted.subList, deleted.missing] at attachedOrMissing ⊢
    have := wellFormed.listed sub
    cases attached : (List.foldl ipWdDelete before (before.wdDirHash wd)).subDirHash sub with
    | none =>
      rw [attached] at attachedOrMissing
      grind
    | some address =>
      have := (deleted.subDirHash _ _).mp attached
      grind

/-! ## Every step -/

theorem WellFormed.ipEventCallback {state after : Backend} (wellFormed : WellFormed state)
    {event : IkEvent} {answers : IhSub → Bytes → WatchAnswer}
    (done : Inotify.ipEventCallback state event answers = some after) : WellFormed after := by
  unfold Inotify.ipEventCallback at done
  split at done
  · cases done
    exact wellFormed
  · simp only [Option.map_eq_some_iff] at done
    obtain ⟨dispatched, ran, rfl⟩ := done
    have kept : WellFormed dispatched := by
      split at ran
      · exact wellFormed.ipEventDispatch ran
      · cases ran
        exact wellFormed
    split
    · exact kept.ipUnmapWd event.wd
    · exact kept

theorem WellFormed.ihSubAdd {state after : Backend} (wellFormed : WellFormed state) {sub : IhSub}
    {watch : Bytes → WatchAnswer} (done : Inotify.ihSubAdd state sub watch = some after) :
    WellFormed after := by
  unfold Inotify.ihSubAdd at done
  split at done
  case isTrue => contradiction
  case isFalse unlisted =>
    -- a subscription that is not listed is neither attached nor missing
    have detached : state.subDirHash sub = none := by
      by_contra attached
      exact unlisted (wellFormed.listed sub (.inl attached))
    have notMissing : sub ∉ state.missingSubList :=
      fun missing => unlisted (wellFormed.listed sub (.inr missing))
    split at done
    case h_1 => contradiction
    case h_2 started result ran =>
      have linked := wellFormed.toLinked.ipStartWatching detached ran
      obtain ⟨missing, subList, _⟩ := ipStartWatching_frame ran
      have attached := ipStartWatching_subDirHash ran
      have missingDetached := wellFormed.missingDetached
      have missingOnce := wellFormed.missingOnce
      have listed := wellFormed.listed
      cases done
      cases result with
      | true =>
        refine { linked with missingDetached := ?_, missingOnce := ?_, listed := ?_ }
        · intro other isMissing
          simp only [if_true, missing] at isMissing ⊢
          have := attached other
          grind
        · simpa only [if_true, missing] using missingOnce
        · intro other attachedOrMissing
          simp only [if_true, missing, subList] at attachedOrMissing ⊢
          have := attached other
          grind
      | false =>
        have same : Inotify.imAdd started sub =
            { started with
              missingSubList := sub :: started.missingSubList, scanMissingRunning := true } :=
          if_neg (by rwa [missing])
        simp only [Bool.false_eq_true, if_false, same]
        refine { linked with missingDetached := ?_, missingOnce := ?_, listed := ?_ }
        · intro other isMissing
          simp only [missing] at isMissing ⊢
          have := attached other
          grind
        · simpa only [missing] using List.nodup_cons.mpr ⟨notMissing, missingOnce⟩
        · intro other attachedOrMissing
          simp only [missing, subList] at attachedOrMissing ⊢
          have := attached other
          grind

theorem WellFormed.ihSubCancel {state : Backend} (wellFormed : WellFormed state) (sub : IhSub) :
    WellFormed (Inotify.ihSubCancel state sub) := by
  unfold Inotify.ihSubCancel
  split
  case isFalse => exact wellFormed
  case isTrue listed =>
    have linked : Linked (imRm state sub).toWatchTables := wellFormed.toLinked
    -- afterwards it is neither attached nor missing, and the others are what they were
    have stopped : (ipStopWatching (imRm state sub) sub).subDirHash =
        Function.update state.subDirHash sub none := ipStopWatching_subDirHash _ linked sub
    have missing : (ipStopWatching (imRm state sub) sub).missingSubList =
        state.missingSubList.erase sub := (ipStopWatching_frame _ sub).1
    have subList : (ipStopWatching (imRm state sub) sub).subList = state.subList :=
      (ipStopWatching_frame _ sub).2.1
    have removed : ∀ other, other ∈ state.missingSubList.erase sub ↔
        other ≠ sub ∧ other ∈ state.missingSubList :=
      fun other => wellFormed.missingOnce.mem_erase_iff
    have missingDetached := wellFormed.missingDetached
    have listed := wellFormed.listed
    refine { linked.ipStopWatching sub with missingDetached := ?_, missingOnce := ?_, listed := ?_ }
    · intro other isMissing
      simp only [missing, stopped, Function.update_apply] at isMissing ⊢
      grind
    · simp only [missing]
      exact wellFormed.missingOnce.erase sub
    · intro other attachedOrMissing
      simp only [missing, subList, stopped, Function.update_apply] at attachedOrMissing ⊢
      rcases eq_or_ne other sub with rfl | different
      · have := removed other
        grind
      · apply (List.mem_erase_of_ne different).mpr
        have := removed other
        grind

theorem Linked.scanLoop {answers : IhSub → Bytes → WatchAnswer} {view : IhSub → FsView}
    {subs missing : List IhSub} {state final : Backend} (linked : Linked state.toWatchTables)
    (once : subs.Nodup) (detached : ∀ sub ∈ subs, state.subDirHash sub = none)
    (done : Inotify.scanLoop answers view state subs = some (final, missing)) :
    Linked final.toWatchTables ∧ final.subList = state.subList ∧ missing.Sublist subs ∧
      (∀ sub ∈ missing, final.subDirHash sub = none) ∧
      ∀ sub, final.subDirHash sub ≠ none → state.subDirHash sub ≠ none ∨ sub ∈ subs := by
  induction subs generalizing state missing with
  | nil =>
    cases done
    exact ⟨linked, rfl, .refl _, by simp, fun _ attached => .inl attached⟩
  | cons first subs inductionHypothesis =>
    obtain ⟨firstUnlisted, once⟩ := List.nodup_cons.mp once
    simp only [Inotify.scanLoop] at done
    split at done
    case h_1 => contradiction
    case h_2 next started =>
      obtain ⟨⟨last, rest⟩, ran, same⟩ := Option.map_eq_some_iff.mp done
      cases same
      -- it could not be watched and stays on the list
      have subList := (ipStartWatching_frame started).2.1
      have attached := ipStartWatching_subDirHash started
      obtain ⟨linkedFinal, subListFinal, sublist, restDetached, onlyThese⟩ :=
        inductionHypothesis (linked.ipStartWatching (detached first List.mem_cons_self) started)
          once (by grind) ran
      refine ⟨linkedFinal, subListFinal.trans subList, sublist.cons_cons first, ?_, ?_⟩
      · intro sub member
        rcases List.mem_cons.mp member with rfl | member
        · by_contra attachedFinal
          have := onlyThese sub attachedFinal
          grind
        · exact restDetached sub member
      · intro sub attachedFinal
        have := onlyThese sub attachedFinal
        grind
    case h_3 next started =>
      -- it is attached and leaves the list
      have subList := (ipStartWatching_frame started).2.1
      have attached := ipStartWatching_subDirHash started
      have nextLinked := linked.ipStartWatching (detached first List.mem_cons_self) started
      have rest := fun linked detached => inductionHypothesis linked once detached done
      obtain ⟨linkedFinal, subListFinal, sublist, restDetached, onlyThese⟩ :=
        rest nextLinked (by simp only [reportFound_toWatchTables]; grind)
      refine ⟨linkedFinal, subListFinal.trans subList, sublist.cons first, restDetached, ?_⟩
      intro sub attachedFinal
      have := onlyThese sub attachedFinal
      simp only [reportFound_toWatchTables] at this
      grind

theorem WellFormed.imScanMissing {state after : Backend} (wellFormed : WellFormed state)
    {answers : IhSub → Bytes → WatchAnswer} {view : IhSub → FsView}
    (done : Inotify.imScanMissing state answers view = some after) : WellFormed after := by
  simp only [Inotify.imScanMissing, Option.map_eq_some_iff] at done
  obtain ⟨⟨final, missing⟩, ran, rfl⟩ := done
  obtain ⟨linked, subList, sublist, detached, onlyThese⟩ :=
    wellFormed.toLinked.scanLoop wellFormed.missingOnce wellFormed.missingDetached ran
  refine { linked with
    missingDetached := detached, missingOnce := wellFormed.missingOnce.sublist sublist, listed := ?_ }
  intro sub attachedOrMissing
  simp only [subList]
  have := sublist.subset
  have := onlyThese sub
  have := wellFormed.listed sub
  grind

/-- Every step of the backend keeps its tables and lists in order. -/
theorem WellFormed.step {state after : Backend} (wellFormed : WellFormed state) {input : Input}
    (done : Inotify.step state input = some after) : WellFormed after := by
  cases input with
  | addSubscription address sub watch view =>
    simp only [Inotify.step, gamInotifyAddSubscription, Option.map_eq_some_iff] at done
    obtain ⟨added, ran, rfl⟩ := done
    exact { wellFormed.ihSubAdd ran with }
  | cancel sub =>
    cases done
    exact wellFormed.ihSubCancel sub
  | event event answers =>
    simp only [Inotify.step, Option.map_eq_some_iff] at done
    obtain ⟨dispatched, ran, rfl⟩ := done
    have kept := wellFormed.ipEventCallback ran
    split
    · exact { kept with }
    · exact kept
  | scanMissing answers view => exact wellFormed.imScanMissing done
  | inodeDeleted inode =>
    cases done
    exact { wellFormed with }

end Gamin.Inotify
