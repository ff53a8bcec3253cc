import Gamin.Inotify.DirTree
import Gamin.Inotify.Liveness

/-! # Where subscriptions are attached

On a tree of directories, every directory object stands for a directory that exists and
whose inode its watch descriptor watches, or for one that has just been deleted.  Starting a
subscription places it at the nearest ancestor of its directory, and stopping and starting
one leaves the others in place.
-/

namespace Gamin.Inotify

open Gamin Gamin.Server Gamin.Library

/-! ## The kernel -/

/-- Descriptors and inodes correspond, and a descriptor is used once. -/
structure Kernel.Consistent (kernel : Kernel) : Prop where
  oneInode : ∀ {first second wd}, (first, wd) ∈ kernel.watches → (second, wd) ∈ kernel.watches →
    first = second
  oneWd : ∀ {inode first second}, (inode, first) ∈ kernel.watches →
    (inode, second) ∈ kernel.watches → first = second
  notQueued : ∀ {inode wd}, (inode, wd) ∈ kernel.watches → wd ∉ kernel.deleteSelfQueued
  fresh : ∀ {inode wd}, (inode, wd) ∈ kernel.watches → wd < kernel.nextWd
  queuedFresh : ∀ {wd}, wd ∈ kernel.deleteSelfQueued → wd < kernel.nextWd

theorem Kernel.consistent_new : Kernel.new.Consistent := by
  constructor <;> simp [Kernel.new]

theorem Kernel.addWatch_watches (kernel : Kernel) (inode : Nat) :
    (inode, (kernel.addWatch inode).2) ∈ (kernel.addWatch inode).1.watches := by
  unfold addWatch
  split
  case h_1 wd found =>
    obtain ⟨before, after, split, _⟩ := List.lookup_eq_some_iff.mp found
    simp [split]
  case h_2 => exact List.mem_cons_self

theorem Kernel.addWatch_keeps {kernel : Kernel} {watch : Nat × Nat} (member : watch ∈ kernel.watches)
    (inode : Nat) : watch ∈ (kernel.addWatch inode).1.watches := by
  unfold addWatch
  split
  · exact member
  · exact List.mem_cons_of_mem _ member

/-- The descriptor is one that watches the inode already, or the next one. -/
theorem Kernel.addWatch_cases (kernel : Kernel) (inode : Nat) :
    (inode, (kernel.addWatch inode).2) ∈ kernel.watches ∧ (kernel.addWatch inode).1 = kernel ∨
      kernel.addWatch inode = ({ kernel with
        watches := (inode, kernel.nextWd) :: kernel.watches
        nextWd := kernel.nextWd + 1 }, kernel.nextWd) := by
  unfold addWatch
  split
  case h_1 wd found =>
    obtain ⟨before, after, split, _⟩ := List.lookup_eq_some_iff.mp found
    exact .inl ⟨by simp [split], rfl⟩
  case h_2 => exact .inr rfl

@[simp] theorem Kernel.addWatch_queued (kernel : Kernel) (inode : Nat) :
    (kernel.addWatch inode).1.deleteSelfQueued = kernel.deleteSelfQueued := by
  unfold addWatch
  split <;> rfl

theorem Kernel.Consistent.addWatch {kernel : Kernel} (consistent : kernel.Consistent)
    (inode : Nat) : (kernel.addWatch inode).1.Consistent := by
  unfold Kernel.addWatch
  split
  case h_1 => exact consistent
  case h_2 unwatched =>
    -- the number is new, so nobody is watched or queued under it
    have absent : ∀ wd, (inode, wd) ∉ kernel.watches := by
      intro wd member
      rw [List.lookup_eq_none_iff] at unwatched
      simpa using unwatched _ member
    have oneInode := @consistent.oneInode
    have oneWd := @consistent.oneWd
    have notQueued := @consistent.notQueued
    have fresh := @consistent.fresh
    have queuedFresh := @consistent.queuedFresh
    constructor
    case oneInode =>
      intro first second wd memberFirst memberSecond
      simp only [List.mem_cons, Prod.mk.injEq] at memberFirst memberSecond
      grind
    case oneWd =>
      intro other first second memberFirst memberSecond
      simp only [List.mem_cons, Prod.mk.injEq] at memberFirst memberSecond
      grind
    case notQueued =>
      intro other wd member
      simp only [List.mem_cons, Prod.mk.injEq] at member
      grind
    case fresh =>
      intro other wd member
      simp only [List.mem_cons, Prod.mk.injEq] at member
      grind
    case queuedFresh =>
      intro wd member
      exact (queuedFresh member).trans (Nat.lt_succ_self _)

theorem Kernel.Consistent.rmWatch {kernel : Kernel} (consistent : kernel.Consistent) (wd : Nat) :
    (kernel.rmWatch wd).Consistent where
  oneInode first second :=
    consistent.oneInode (List.mem_of_mem_filter first) (List.mem_of_mem_filter second)
  oneWd first second :=
    consistent.oneWd (List.mem_of_mem_filter first) (List.mem_of_mem_filter second)
  notQueued member := consistent.notQueued (List.mem_of_mem_filter member)
  fresh member := consistent.fresh (List.mem_of_mem_filter member)
  queuedFresh := consistent.queuedFresh

theorem Kernel.Consistent.deleteInode {kernel : Kernel} (consistent : kernel.Consistent)
    (inode : Nat) : (kernel.deleteInode inode).Consistent where
  oneInode first second :=
    consistent.oneInode (List.mem_of_mem_filter first) (List.mem_of_mem_filter second)
  oneWd first second :=
    consistent.oneWd (List.mem_of_mem_filter first) (List.mem_of_mem_filter second)
  notQueued := by
    intro other wd member queued
    obtain ⟨member, different⟩ := List.mem_filter.mp member
    rcases List.mem_append.mp queued with deleted | queued
    · obtain ⟨⟨watched, descriptor⟩, gone, rfl⟩ := List.mem_map.mp deleted
      obtain ⟨gone, same⟩ := List.mem_filter.mp gone
      have := consistent.oneInode member gone
      simp_all
    · exact consistent.notQueued member queued
  fresh member := consistent.fresh (List.mem_of_mem_filter member)
  queuedFresh := by
    intro wd queued
    rcases List.mem_append.mp queued with deleted | queued
    · obtain ⟨⟨watched, descriptor⟩, gone, rfl⟩ := List.mem_map.mp deleted
      exact consistent.fresh (List.mem_of_mem_filter gone)
    · exact consistent.queuedFresh queued

theorem Kernel.Consistent.deleteSelfDone {kernel : Kernel} (consistent : kernel.Consistent)
    (wd : Nat) : (kernel.deleteSelfDone wd).Consistent where
  oneInode := consistent.oneInode
  oneWd := consistent.oneWd
  notQueued member queued := consistent.notQueued member (List.mem_of_mem_filter queued)
  fresh := consistent.fresh
  queuedFresh queued := consistent.queuedFresh (List.mem_of_mem_filter queued)

/-! ## Placement -/

/-- The object stands for a directory of the tree, and its descriptor watches it. -/
def LiveDir (tree : DirTree) (kernel : Kernel) (dir : IpWatchedDir) : Prop :=
  ∃ place inode, ValidPath place ∧ dir.path = render place ∧ tree.inodeOf place = some inode ∧
    (inode, dir.wd) ∈ kernel.watches

/-- Every directory object is alive or about to be deleted. -/
structure Sited (tree : DirTree) (state : Backend) : Prop where
  linked : Linked state.toWatchTables
  kernel : state.kernel.Consistent
  sites : ∀ {address dir}, state.dirs address = some dir →
    LiveDir tree state.kernel dir ∨ dir.wd ∈ state.kernel.deleteSelfQueued

/-- The directory of the subscription has a path in normal form. -/
structure Named (sub : IhSub) (path : Path) : Prop where
  valid : ValidPath path
  dirname : sub.dirname = render path

/-- The top directory on the way to the directory of the subscription exists. -/
structure Reachable (tree : DirTree) (sub : IhSub) (path : Path) : Prop extends Named sub path where
  top : tree.Has (path.take 1)

theorem Named.unique {sub : IhSub} {first second : Path} (named : Named sub first)
    (again : Named sub second) : first = second :=
  render_injective named.valid again.valid (named.dirname.symm.trans again.dirname)

/-- The subscription is attached to an object for this directory of the tree. -/
def PlacedAt (tree : DirTree) (state : Backend) (sub : IhSub) (place : Path) : Prop :=
  ∃ address dir inode, state.subDirHash sub = some address ∧ state.dirs address = some dir ∧
    dir.path = render place ∧ tree.inodeOf place = some inode ∧
    (inode, dir.wd) ∈ state.kernel.watches

/-- The subscription is attached to the nearest ancestor of its directory. -/
def Placed (tree : DirTree) (state : Backend) (sub : IhSub) (path : Path) : Prop :=
  ∃ place, tree.Nearest path place ∧ PlacedAt tree state sub place

/-! ## What stays in place -/

/-- Subscriptions other than these stay attached to the same objects with the same watch. -/
structure Undisturbed (touched : List IhSub) (before after : Backend) : Prop where
  queued : after.kernel.deleteSelfQueued = before.kernel.deleteSelfQueued
  attached : ∀ other, other ∉ touched → after.subDirHash other = before.subDirHash other
  dirs : ∀ other, other ∉ touched → ∀ address dir, before.subDirHash other = some address →
    before.dirs address = some dir → ∃ kept, after.dirs address = some kept ∧
      kept.path = dir.path ∧ kept.wd = dir.wd ∧
      ∀ inode, (inode, dir.wd) ∈ before.kernel.watches → (inode, dir.wd) ∈ after.kernel.watches

theorem Undisturbed.refl (state : Backend) : Undisturbed [] state state :=
  ⟨rfl, fun _ _ => rfl, fun _ _ _ dir _ found => ⟨dir, found, rfl, rfl, fun _ => id⟩⟩

theorem Undisturbed.trans {first second : List IhSub} {before middle after : Backend}
    (start : Undisturbed first before middle) (finish : Undisturbed second middle after) :
    Undisturbed (first ++ second) before after := by
  refine ⟨finish.queued.trans start.queued, ?_, ?_⟩
  · intro other untouched
    rw [List.mem_append, not_or] at untouched
    rw [finish.attached other untouched.2, start.attached other untouched.1]
  · intro other untouched address dir attached found
    rw [List.mem_append, not_or] at untouched
    obtain ⟨kept, foundKept, path, wd, watches⟩ :=
      start.dirs other untouched.1 address dir attached found
    rw [← start.attached other untouched.1] at attached
    obtain ⟨last, foundLast, pathLast, wdLast, watchesLast⟩ :=
      finish.dirs other untouched.2 address kept attached foundKept
    refine ⟨last, foundLast, pathLast.trans path, wdLast.trans wd, ?_⟩
    intro inode watched
    have := watchesLast inode
    rw [wd] at this
    exact this (watches inode watched)

theorem PlacedAt.undisturbed {tree : DirTree} {touched : List IhSub} {before after : Backend}
    {sub : IhSub} {place : Path} (placed : PlacedAt tree before sub place)
    (undisturbed : Undisturbed touched before after) (untouched : sub ∉ touched) :
    PlacedAt tree after sub place := by
  obtain ⟨address, dir, inode, attached, found, path, known, watched⟩ := placed
  obtain ⟨kept, foundKept, pathKept, wdKept, watches⟩ :=
    undisturbed.dirs sub untouched address dir attached found
  refine ⟨address, kept, inode, ?_, foundKept, pathKept.trans path, known, ?_⟩
  · rw [undisturbed.attached sub untouched, attached]
  · rw [wdKept]
    exact watches inode watched

theorem Placed.undisturbed {tree : DirTree} {touched : List IhSub} {before after : Backend}
    {sub : IhSub} {path : Path} (placed : Placed tree before sub path)
    (undisturbed : Undisturbed touched before after) (untouched : sub ∉ touched) :
    Placed tree after sub path := by
  obtain ⟨place, nearest, placedAt⟩ := placed
  exact ⟨place, nearest, placedAt.undisturbed undisturbed untouched⟩

/-! ## What is added -/

/-- Objects and watches are from before, or for directories of the tree; a new watch has a new
descriptor. -/
structure Grown (tree : DirTree) (before after : Backend) : Prop where
  nextWd : before.kernel.nextWd ≤ after.kernel.nextWd
  watches : ∀ {inode wd}, (inode, wd) ∈ after.kernel.watches → (inode, wd) ∈ before.kernel.watches ∨
    before.kernel.nextWd ≤ wd ∧ ∃ place, tree.inodeOf place = some inode
  dirs : ∀ {address dir}, after.dirs address = some dir →
    (∃ old, before.dirs address = some old ∧ old.path = dir.path ∧ old.wd = dir.wd) ∨
      ∃ place inode, dir.path = render place ∧ tree.inodeOf place = some inode ∧
        ((inode, dir.wd) ∈ before.kernel.watches ∨ before.kernel.nextWd ≤ dir.wd)

theorem Grown.refl (tree : DirTree) (state : Backend) : Grown tree state state :=
  ⟨le_rfl, .inl, fun found => .inl ⟨_, found, rfl, rfl⟩⟩

theorem Grown.trans {tree : DirTree} {before middle after : Backend}
    (start : Grown tree before middle) (finish : Grown tree middle after) :
    Grown tree before after := by
  refine ⟨start.nextWd.trans finish.nextWd, ?_, ?_⟩
  · intro inode wd watched
    rcases finish.watches watched with old | ⟨new, known⟩
    · exact start.watches old
    · exact .inr ⟨start.nextWd.trans new, known⟩
  · intro address dir found
    rcases finish.dirs found with ⟨old, foundOld, path, wd⟩ | ⟨place, inode, path, known, watched⟩
    · rw [← path, ← wd]
      exact start.dirs foundOld
    · refine .inr ⟨place, inode, path, known, ?_⟩
      rcases watched with watched | new
      · exact (start.watches watched).imp id And.left
      · exact .inr (start.nextWd.trans new)

theorem Grown.ipStopWatching (tree : DirTree) {state : Backend} (linked : Linked state.toWatchTables)
    (sub : IhSub) : Grown tree state (ipStopWatching state sub) := by
  rcases ipStopWatching_cases linked sub with ⟨_, stopped⟩ |
    ⟨address, dir, found, _, ⟨_, stopped⟩ | ⟨_, stopped⟩⟩
  · rw [stopped]
    exact .refl tree state
  · rw [stopped]
    refine ⟨le_rfl, .inl, fun allocated => .inl ?_⟩
    rcases (ipUnmapSubDir_dirs found).mp allocated with ⟨rfl, rfl⟩ | ⟨_, allocated⟩
    · exact ⟨dir, found, rfl, rfl⟩
    · exact ⟨_, allocated, rfl, rfl⟩
  · rw [stopped]
    exact ⟨le_rfl, fun watched => .inl (List.mem_of_mem_filter watched),
      fun allocated => .inl ⟨_, (ipReleaseDir_dirs.mp allocated).2, rfl, rfl⟩⟩

theorem Grown.ipMapSubDir (tree : DirTree) {state : Backend} {sub : IhSub} {address : Pointer}
    {dir : IpWatchedDir} (found : state.dirs address = some dir) :
    Grown tree state (ipMapSubDir state sub address) := by
  refine ⟨le_rfl, .inl, fun allocated => .inl ?_⟩
  rcases (ipMapSubDir_dirs found).mp allocated with ⟨rfl, rfl⟩ | ⟨_, allocated⟩
  · exact ⟨dir, found, rfl, rfl⟩
  · exact ⟨_, allocated, rfl, rfl⟩

theorem Grown.ipWatchNewDir {tree : DirTree} (state : Backend) (sub : IhSub) {place : Path}
    {inode : Nat} (known : tree.inodeOf place = some inode) :
    Grown tree state (ipWatchNewDir state sub (render place) inode) := by
  have added := state.kernel.addWatch_cases inode
  refine ⟨?_, ?_, ?_⟩
  · simp only [Inotify.ipWatchNewDir, ipMapPathDir, ipMapWdDir, ipWatchedDirNew, Inotify.ipMapSubDir]
    rcases added with ⟨_, same⟩ | same <;> simp [same]
  · intro other wd watched
    simp only [Inotify.ipWatchNewDir, ipMapPathDir, ipMapWdDir, ipWatchedDirNew,
      Inotify.ipMapSubDir] at watched
    rcases added with ⟨_, same⟩ | same
    · rw [same] at watched
      exact .inl watched
    · rw [same] at watched
      rcases List.mem_cons.mp watched with new | old
      · obtain ⟨rfl, rfl⟩ := Prod.mk.inj new
        exact .inr ⟨le_rfl, place, known⟩
      · exact .inl old
  · intro address dir allocated
    rcases ipWatchNewDir_dirs.mp allocated with ⟨_, rfl⟩ | ⟨_, allocated⟩
    · refine .inr ⟨place, inode, rfl, known, ?_⟩
      rcases added with ⟨watched, same⟩ | same
      · exact .inl watched
      · exact .inr (by rw [same])
    · exact .inl ⟨_, allocated, rfl, rfl⟩

/-! ## Stopping -/

theorem Sited.ipStopWatching {tree : DirTree} {state : Backend} (sited : Sited tree state)
    {sub : IhSub} (alone : StopsAlone state sub) :
    Sited tree (ipStopWatching state sub) ∧
      Undisturbed [sub] state (ipStopWatching state sub) := by
  have linked := sited.linked.ipStopWatching sub
  have stoppedHash := ipStopWatching_subDirHash state sited.linked sub
  have attached : ∀ other, other ∉ [sub] →
      (Inotify.ipStopWatching state sub).subDirHash other = state.subDirHash other := by
    intro other untouched
    rw [stoppedHash, Function.update_of_ne (by simpa using untouched)]
  rcases ipStopWatching_cases sited.linked sub with ⟨_, stopped⟩ |
    ⟨address, dir, found, member, ⟨others, stopped⟩ | ⟨last, stopped⟩⟩
  · rw [stopped]
    exact ⟨sited, rfl, fun _ _ => rfl, fun _ _ _ dir _ found => ⟨dir, found, rfl, rfl, fun _ => id⟩⟩
  · rw [stopped] at linked attached ⊢
    refine ⟨⟨linked, sited.kernel, ?_⟩, rfl, attached, ?_⟩
    · intro other otherDir allocated
      rcases (ipUnmapSubDir_dirs found).mp allocated with ⟨_, rfl⟩ | ⟨_, allocated⟩
      · have site := sited.sites found
        exact site
      · exact sited.sites allocated
    · intro other untouched otherAddress otherDir _ allocated
      rcases eq_or_ne otherAddress address with rfl | different
      · rw [found] at allocated
        cases allocated
        exact ⟨_, (ipUnmapSubDir_dirs found).mpr (.inl ⟨rfl, rfl⟩), rfl, rfl, fun _ => id⟩
      · exact ⟨otherDir, (ipUnmapSubDir_dirs found).mpr (.inr ⟨different, allocated⟩), rfl, rfl,
          fun _ => id⟩
  · rw [stopped] at linked attached ⊢
    have here := sited.linked.attached.mpr ⟨dir, found, member⟩
    -- a live watch of another object is not the one that is given back
    have kept : ∀ other otherDir inode, other ≠ address → state.dirs other = some otherDir →
        (inode, otherDir.wd) ∈ state.kernel.watches →
        (inode, otherDir.wd) ∈ (state.kernel.rmWatch dir.wd).watches := by
      intro other otherDir inode different allocated watched
      refine List.mem_filter.mpr ⟨watched, ?_⟩
      simp only [ne_eq, decide_eq_true_eq]
      intro shared
      have listed := sited.linked.byWd.mpr ⟨otherDir, allocated, shared⟩
      rw [shared] at watched
      exact different (alone address here dir found last (sited.kernel.notQueued watched) other listed)
    refine ⟨⟨linked, sited.kernel.rmWatch dir.wd, ?_⟩, rfl, attached, ?_⟩
    · intro other otherDir allocated
      obtain ⟨different, allocated⟩ := ipReleaseDir_dirs.mp allocated
      rcases sited.sites allocated with ⟨place, inode, valid, path, known, watched⟩ | queued
      · exact .inl ⟨place, inode, valid, path, known,
          kept other otherDir inode different allocated watched⟩
      · exact .inr queued
    · intro other untouched otherAddress otherDir otherAttached allocated
      have different : otherAddress ≠ address := by
        rintro rfl
        obtain ⟨sameDir, foundSame, otherMember⟩ := sited.linked.attached.mp otherAttached
        rw [found] at foundSame
        cases foundSame
        have := (List.mem_erase_of_ne (by simpa using untouched)).mpr otherMember
        rw [last] at this
        contradiction
      exact ⟨otherDir, ipReleaseDir_dirs.mpr ⟨different, allocated⟩, rfl, rfl,
        fun inode watched => kept otherAddress otherDir inode different allocated watched⟩

/-! ## Starting -/

/-- The subscription does not join the object of a directory that has been deleted. -/
def JoinsLive (state : Backend) (sub : IhSub) : Prop :=
  ∀ address ∈ state.pathDirHash sub.dirname, ∀ dir ∈ state.dirs address,
    dir.wd ∉ state.kernel.deleteSelfQueued

instance (state : Backend) (sub : IhSub) : Decidable (JoinsLive state sub) :=
  inferInstanceAs (Decidable (∀ address ∈ state.pathDirHash sub.dirname,
    ∀ dir ∈ state.dirs address, _))

theorem ipMapSubDir_undisturbed {state : Backend} {sub : IhSub} {address : Pointer}
    {dir : IpWatchedDir} (found : state.dirs address = some dir) :
    Undisturbed [sub] state (ipMapSubDir state sub address) := by
  refine ⟨rfl, ?_, ?_⟩
  · intro other untouched
    exact Function.update_of_ne (by simpa using untouched) _ _
  · intro other _ otherAddress otherDir _ allocated
    rcases eq_or_ne otherAddress address with rfl | different
    · rw [found] at allocated
      cases allocated
      exact ⟨_, (ipMapSubDir_dirs found).mpr (.inl ⟨rfl, rfl⟩), rfl, rfl, fun _ => id⟩
    · exact ⟨otherDir, (ipMapSubDir_dirs found).mpr (.inr ⟨different, allocated⟩), rfl, rfl,
        fun _ => id⟩

theorem ipWatchNewDir_undisturbed {state : Backend} (linked : Linked state.toWatchTables)
    (sub : IhSub) (path : Bytes) (inode : Nat) :
    Undisturbed [sub] state (ipWatchNewDir state sub path inode) := by
  refine ⟨state.kernel.addWatch_queued inode, ?_, ?_⟩
  · intro other untouched
    exact Function.update_of_ne (by simpa using untouched) _ _
  · intro other _ otherAddress otherDir _ allocated
    refine ⟨otherDir, ipWatchNewDir_dirs.mpr (.inr ⟨?_, allocated⟩), rfl, rfl, ?_⟩
    · exact (linked.allocated allocated).ne
    · exact fun _ watched => Kernel.addWatch_keeps watched inode

/-- A new object for a directory of the tree. -/
theorem Sited.ipWatchNewDir {tree : DirTree} {state : Backend} (sited : Sited tree state)
    {sub : IhSub} (detached : state.subDirHash sub = none) {place : Path} {inode : Nat}
    (valid : ValidPath place) (known : tree.inodeOf place = some inode) :
    Sited tree (ipWatchNewDir state sub (render place) inode) ∧
      PlacedAt tree (ipWatchNewDir state sub (render place) inode) sub place := by
  have watched := state.kernel.addWatch_watches inode
  refine ⟨⟨sited.linked.ipWatchNewDir _ _ detached, sited.kernel.addWatch inode, ?_⟩, ?_⟩
  · intro other otherDir allocated
    rcases ipWatchNewDir_dirs.mp allocated with ⟨_, rfl⟩ | ⟨_, allocated⟩
    · exact .inl ⟨place, inode, valid, rfl, known, watched⟩
    · rcases sited.sites allocated with ⟨otherPlace, otherInode, otherValid, path, otherKnown, live⟩ |
        queued
      · exact .inl ⟨otherPlace, otherInode, otherValid, path, otherKnown,
          Kernel.addWatch_keeps live inode⟩
      · refine .inr ?_
        rw [← state.kernel.addWatch_queued inode] at queued
        exact queued
  · exact ⟨state.nextDir, _, inode, Function.update_self _ _ _,
      ipWatchNewDir_dirs.mpr (.inl ⟨rfl, rfl⟩), rfl, known, watched⟩

/-- A start succeeds and places the subscription at the nearest ancestor. -/
theorem Sited.ipStartWatching {tree : DirTree} {state : Backend}
    (sited : Sited tree state) {sub : IhSub} {path : Path} (reachable : Reachable tree sub path)
    (detached : state.subDirHash sub = none) (joins : JoinsLive state sub) :
    ∃ after, ipStartWatching state sub tree.watch = some (after, true) ∧ Sited tree after ∧
      Undisturbed [sub] state after ∧ Grown tree state after ∧ Placed tree after sub path := by
  obtain ⟨⟨valid, dirname⟩, top⟩ := reachable
  unfold Inotify.ipStartWatching
  cases mapped : state.pathDirHash sub.dirname with
  -- the directory has an object, which must be a live one
  | some address =>
    obtain ⟨dir, found, dirPath⟩ := sited.linked.byPath mapped
    have live := (sited.sites found).resolve_right (joins address mapped dir found)
    obtain ⟨place, inode, validPlace, path_eq, known, watched⟩ := live
    have same : place = path :=
      render_injective validPlace valid (by rw [← path_eq, dirPath, dirname])
    subst same
    refine ⟨_, rfl, ⟨sited.linked.ipMapSubDir found detached, sited.kernel, ?_⟩,
      ipMapSubDir_undisturbed found, .ipMapSubDir tree found, place,
      DirTree.nearest_self (by simp [DirTree.Has, known]),
      address, _, inode, Function.update_self _ _ _, (ipMapSubDir_dirs found).mpr (.inl ⟨rfl, rfl⟩),
      path_eq, known, watched⟩
    intro other otherDir allocated
    rcases (ipMapSubDir_dirs found).mp allocated with ⟨_, rfl⟩ | ⟨_, allocated⟩
    · have site := sited.sites found
      exact site
    · exact sited.sites allocated
  | none =>
    dsimp only
    rw [dirname, DirTree.watch_render valid]
    cases known : tree.inodeOf path with
    | some inode =>
      obtain ⟨after, placed⟩ := sited.ipWatchNewDir detached valid known
      exact ⟨_, rfl, after, ipWatchNewDir_undisturbed sited.linked _ _ _, .ipWatchNewDir _ _ known, path,
        DirTree.nearest_self (by simp [DirTree.Has, known]), placed⟩
    | none =>
      -- the directory is not there, and its nearest ancestor is
      have missing : ¬ tree.Has path := by simp [DirTree.Has, known]
      obtain ⟨ancestor, inode, parent, knownAncestor, nearest⟩ :=
        DirTree.ipWatchParent_nearest valid missing top
      simp only [parent]
      have validAncestor := valid.ancestor nearest.isAncestor
      obtain ⟨after, placed⟩ := sited.ipWatchNewDir detached validAncestor knownAncestor
      exact ⟨_, rfl, after, ipWatchNewDir_undisturbed sited.linked _ _ _,
        .ipWatchNewDir _ _ knownAncestor, ancestor, nearest, placed⟩

/-! ## Resubscribing -/

/-- Every turn of the resubscription loop stops a subscription that is alone on its watch, if
it is the last of its directory, and joins no deleted directory. -/
def ResubscribesSafely (answers : IhSub → Bytes → WatchAnswer) : Backend → List IhSub → Prop
  | _, [] => True
  | state, sub :: subs =>
    StopsAlone state sub ∧ JoinsLive (ipStopWatching state sub) sub ∧
      ∀ after ∈ ipStartWatching (ipStopWatching state sub) sub (answers sub),
        ResubscribesSafely answers after.1 subs

instance decidableResubscribesSafely (answers : IhSub → Bytes → WatchAnswer) :
    (state : Backend) → (subs : List IhSub) → Decidable (ResubscribesSafely answers state subs)
  | _, [] => .isTrue trivial
  | state, sub :: subs =>
    have := fun after => decidableResubscribesSafely answers after subs
    inferInstanceAs (Decidable (_ ∧ _ ∧ ∀ after ∈ ipStartWatching (ipStopWatching state sub) sub
      (answers sub), ResubscribesSafely answers after.1 subs))

/-- After the loop every subscription of the list is in place, and the others still are. -/
theorem Sited.resubscribe {tree : DirTree} {subs : List IhSub} {state : Backend}
    (sited : Sited tree state) (once : subs.Nodup)
    (reachable : ∀ sub ∈ subs, ∃ path, Reachable tree sub path)
    (safe : ResubscribesSafely (fun _ => tree.watch) state subs) :
    ∃ after, resubscribe (fun _ => tree.watch) state subs = some after ∧ Sited tree after ∧
      Undisturbed subs state after ∧ Grown tree state after ∧
      after.missingSubList = state.missingSubList ∧
      ∀ sub ∈ subs, ∀ path, Named sub path → Placed tree after sub path := by
  induction subs generalizing state with
  | nil => exact ⟨state, rfl, sited, .refl state, .refl tree state, rfl, by simp⟩
  | cons first subs inductionHypothesis =>
    obtain ⟨firstUnlisted, once⟩ := List.nodup_cons.mp once
    obtain ⟨alone, joins, later⟩ := safe
    obtain ⟨path, firstReachable⟩ := reachable first List.mem_cons_self
    -- the first one is stopped and started; the rest of the loop does not touch it again
    obtain ⟨stopped, stopFrame⟩ := sited.ipStopWatching alone
    have detached : (Inotify.ipStopWatching state first).subDirHash first = none := by
      rw [ipStopWatching_subDirHash state sited.linked first, Function.update_self]
    obtain ⟨next, started, nextSited, startFrame, startGrown, placed⟩ :=
      stopped.ipStartWatching firstReachable detached joins
    obtain ⟨after, done, afterSited, frame, grown, missing, restPlaced⟩ := inductionHypothesis nextSited once
      (fun sub member => reachable sub (List.mem_cons_of_mem _ member)) (later _ started)
    refine ⟨after, ?_, afterSited, ?_, ?_, ?_, ?_⟩
    · simp only [Inotify.resubscribe, started, done]
    · have whole := (stopFrame.trans startFrame).trans frame
      refine ⟨whole.queued, fun other untouched => whole.attached other ?_,
        fun other untouched => whole.dirs other ?_⟩ <;> simpa using untouched
    · exact ((Grown.ipStopWatching tree sited.linked first).trans startGrown).trans grown
    · rw [missing, (ipStartWatching_frame started).1, (ipStopWatching_frame state first).1]
    · intro sub member subPath named
      rcases List.mem_cons.mp member with rfl | member
      · rw [named.unique firstReachable.toNamed]
        exact placed.undisturbed frame firstUnlisted
      · exact restPlaced sub member subPath named

end Gamin.Inotify
