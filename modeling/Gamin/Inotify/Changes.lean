import Gamin.Inotify.Tracking

/-! # The changes of a batch

A change of the tree queues an event for everybody who has to move because of it.  The creation
of a directory that nothing has touched before in the batch is the first event that moves its
subscriptions.
-/

namespace Gamin.Inotify

open Gamin Gamin.Server Gamin.Library

/-! ## One change of the tree -/

theorem DirTree.leaf_of_directories {tree : DirTree} {path : Path}
    (leaf : ∀ entry ∈ tree.directories, entry.1.dropLast ≠ path) (name : Bytes) :
    ¬ tree.Has (path ++ [name]) := by
  intro has
  obtain ⟨inode, known⟩ := Option.isSome_iff_exists.mp has
  obtain ⟨before, after, split, _⟩ := List.lookup_eq_some_iff.mp known
  exact leaf (path ++ [name], inode) (by simp [split]) (by simp)

/-- Below a missing directory whose parent exists the parent is the nearest ancestor. -/
theorem DirTree.Nearest.parent {tree : DirTree} (wellFormed : tree.WellFormed)
    {path place parent : Path} {name : Bytes} (nearest : tree.Nearest path place)
    (has : tree.Has parent) (missing : ¬ tree.Has (parent ++ [name]))
    (below : parent ++ [name] <+: path) : place = parent := by
  have above := nearest.longest parent ((List.prefix_append _ _).trans below) has
  have short : place.length ≤ parent.length := by
    by_contra long
    have inside : parent ++ [name] <+: place :=
      List.prefix_of_prefix_length_le below nearest.isAncestor (by simp; omega)
    exact missing (wellFormed.hasPrefix nearest.has inside)
  exact (above.eq_of_length_le short).symm

theorem DirTree.Allows.valid {tree : DirTree} (wellFormed : tree.WellFormed) {change : Change}
    (allowed : tree.Allows change) : ValidPath change.path := by
  cases change with
  | mkdir parent name =>
    obtain ⟨nonempty, noSlash, has, _⟩ := allowed
    exact validPath_concat.mpr ⟨wellFormed.valid has, nonempty, noSlash⟩
  | rmdir parent name selfFirst => exact wellFormed.valid allowed.1

theorem Kernel.mem_deleteInode {kernel : Kernel} {inode wd : Nat} :
    wd ∈ (kernel.deleteInode inode).deleteSelfQueued ↔
      (inode, wd) ∈ kernel.watches ∨ wd ∈ kernel.deleteSelfQueued := by
  simp [Kernel.deleteInode]

/-- What a change does. -/
structure Changed (world : World) (change : Change) (after : World) : Prop where
  backend : ∃ kernel, after.backend = { world.backend with kernel := kernel }
  nextAddress : after.nextAddress = world.nextAddress
  tree : after.tree.WellFormed
  inodeOf : ∀ place, place ≠ change.path → after.tree.inodeOf place = world.tree.inodeOf place
  own : ∀ {inode}, after.tree.inodeOf change.path = some inode →
    change.Creates change.path ∧ inode = world.tree.nextInode
  nextInode : world.tree.nextInode ≤ after.tree.nextInode
  consistent : after.backend.kernel.Consistent
  nextWd : after.backend.kernel.nextWd = world.backend.kernel.nextWd
  watches : ∀ watch ∈ after.backend.kernel.watches, watch ∈ world.backend.kernel.watches
  kept : ∀ {inode wd}, (inode, wd) ∈ world.backend.kernel.watches →
    world.tree.inodeOf change.path ≠ some inode → (inode, wd) ∈ after.backend.kernel.watches
  queued : ∀ wd, wd ∈ after.backend.kernel.deleteSelfQueued ↔
    wd ∈ world.backend.kernel.deleteSelfQueued ∨
      ∃ inode, world.tree.inodeOf change.path = some inode ∧ (inode, wd) ∈ world.backend.kernel.watches
  lost : ∀ gone, gone ∈ after.lost ↔
    gone ∈ world.lost ∨ world.tree.Has change.path ∧ gone = change.path
  due : ∀ sub path, Named sub path → after.due sub =
    world.due sub + if sub.isDir = true ∧ change.Creates path then 1 else 0

theorem World.created_changed {world : World} (wellFormed : world.tree.WellFormed)
    (consistent : world.backend.kernel.Consistent) {parent : Path} {name : Bytes}
    (allowed : world.tree.Allows (.mkdir parent name)) :
    Changed world (.mkdir parent name) (world.created (parent ++ [name])) := by
  have valid := DirTree.Allows.valid wellFormed allowed
  obtain ⟨nonempty, noSlash, has, missing⟩ := allowed
  have none : world.tree.inodeOf (parent ++ [name]) = none := by
    simpa [DirTree.Has] using missing
  refine ⟨⟨world.backend.kernel, rfl⟩, rfl, wellFormed.add has nonempty noSlash, ?_, ?_, Nat.le_succ _,
    consistent, rfl, fun _ => id, fun watched _ => watched, ?_, ?_, ?_⟩
  · intro place different
    exact (DirTree.inodeOf_add _ _ _).trans (if_neg different)
  · intro inode known
    rw [show (world.created (parent ++ [name])).tree.inodeOf (Change.mkdir parent name).path =
      some world.tree.nextInode from (DirTree.inodeOf_add _ _ _).trans (if_pos rfl)] at known
    exact ⟨rfl, (Option.some.inj known).symm⟩
  · intro wd
    simp [Change.path, none, World.created]
  · intro gone
    simp [Change.path, missing, World.created]
  · intro sub path named
    have same : sub.dirname = render (parent ++ [name]) ↔ parent ++ [name] = path := by
      rw [named.dirname]
      exact ⟨fun is => (render_injective named.valid valid is).symm, fun is => by rw [is]⟩
    simp only [World.created, same]
    rfl

theorem World.removed_changed {world : World} (wellFormed : world.tree.WellFormed)
    (consistent : world.backend.kernel.Consistent) {parent : Path} {name : Bytes} {selfFirst : Bool}
    (allowed : world.tree.Allows (.rmdir parent name selfFirst)) {inode : Nat}
    (known : world.tree.inodeOf (parent ++ [name]) = some inode) :
    Changed world (.rmdir parent name selfFirst) (world.removed (parent ++ [name]) inode) := by
  have path : (Change.rmdir parent name selfFirst).path = parent ++ [name] := rfl
  refine ⟨⟨_, rfl⟩, rfl, wellFormed.remove (by simp) (DirTree.leaf_of_directories allowed.2), ?_, ?_,
    le_rfl, consistent.deleteInode inode, rfl, ?_, ?_, ?_, ?_, ?_⟩
  · intro place different
    exact (DirTree.inodeOf_remove _ _ _).trans (if_neg different)
  · intro other still
    rw [path, show (world.removed (parent ++ [name]) inode).tree.inodeOf (parent ++ [name]) = none from
      (DirTree.inodeOf_remove _ _ _).trans (if_pos rfl)] at still
    contradiction
  · exact fun watch member => List.mem_of_mem_filter member
  · intro other wd watched different
    refine List.mem_filter.mpr ⟨watched, ?_⟩
    rw [decide_eq_true_eq]
    rintro rfl
    exact different known
  · intro wd
    rw [path, known]
    simp only [World.removed, Kernel.mem_deleteInode, Option.some.injEq, exists_eq_left']
    exact or_comm
  · intro gone
    simp only [path, DirTree.Has, known, Option.isSome_some, true_and, World.removed, List.mem_cons]
    exact or_comm
  · intro sub path _
    simp [World.removed, Change.Creates]

theorem World.made_changed {world : World} (wellFormed : world.tree.WellFormed)
    (consistent : world.backend.kernel.Consistent) {change : Change}
    (allowed : world.tree.Allows change) : Changed world change (world.made change) := by
  cases change with
  | mkdir parent name => exact World.created_changed wellFormed consistent allowed
  | rmdir parent name selfFirst =>
    obtain ⟨inode, known⟩ := Option.isSome_iff_exists.mp allowed.1
    simp only [World.made, known]
    exact World.removed_changed wellFormed consistent allowed known

/-! ## The events of one change -/

theorem World.mem_noticeOn {world : World} {path : Path} {mask : Nat} {name : Bytes} {notice : KernelNotice}
    (member : notice ∈ world.noticeOn path mask name) :
    ∃ inode wd, world.tree.inodeOf path = some inode ∧ (inode, wd) ∈ world.backend.kernel.watches ∧
      notice = { place := path, event := { wd := wd, mask := mask, name := name, pair := none } } := by
  unfold noticeOn at member
  split at member
  case h_1 wd watched =>
    obtain ⟨inode, known, found⟩ := Option.bind_eq_some_iff.mp watched
    obtain ⟨before, after, split, _⟩ := List.lookup_eq_some_iff.mp found
    exact ⟨inode, wd, known, by simp [split], List.mem_singleton.mp member⟩
  case h_2 => contradiction

theorem World.noticeOn_watched {world : World} (consistent : world.backend.kernel.Consistent)
    {path : Path} {inode wd : Nat} (known : world.tree.inodeOf path = some inode)
    (watched : (inode, wd) ∈ world.backend.kernel.watches) (mask : Nat) (name : Bytes) :
    world.noticeOn path mask name =
      [{ place := path, event := { wd := wd, mask := mask, name := name, pair := none } }] := by
  unfold noticeOn
  simp only [known, Option.bind_some]
  cases found : world.backend.kernel.watches.lookup inode with
  | none =>
    rw [List.lookup_eq_none_iff] at found
    have := found _ watched
    simp at this
  | some other =>
    obtain ⟨before, after, split, _⟩ := List.lookup_eq_some_iff.mp found
    have member : (inode, other) ∈ world.backend.kernel.watches := by simp [split]
    simp [consistent.oneWd member watched]

theorem World.noticeOn_endsOnce (world : World) (path : Path) (mask : Nat) (name : Bytes) :
    (world.noticeOn path mask name).Pairwise fun earlier later => earlier.event.mask = inDeleteSelf →
      later.event.mask = inDeleteSelf → later.event.wd ≠ earlier.event.wd := by
  unfold noticeOn
  split
  · exact List.pairwise_singleton _ _
  · exact .nil

/-- An event that a change queues: the directory is gone, or a name in its parent has come or
gone. -/
structure Queued (world : World) (change : Change) (notice : KernelNotice) : Prop where
  watched : ∃ inode, world.tree.inodeOf notice.place = some inode ∧
    (inode, notice.event.wd) ∈ world.backend.kernel.watches
  single : notice.event.pair = none
  about : (notice.event.mask = inDeleteSelf ∧ notice.event.name = [] ∧ notice.place = change.path) ∨
    notice.place ++ [notice.event.name] = change.path ∧
      (notice.event.mask = (inCreate ||| inIsdir) ∨ notice.event.mask = (inDelete ||| inIsdir))
  creates : ∀ {path}, notice.Creates path → change.Creates path

/-- What the events of a change tell. -/
structure Announces (world : World) (change : Change) (notices : List KernelNotice) : Prop where
  queued : ∀ notice ∈ notices, Queued world change notice
  ended : ∀ {inode wd}, world.tree.inodeOf change.path = some inode →
    (inode, wd) ∈ world.backend.kernel.watches →
    ∃ notice ∈ notices, notice.event.mask = inDeleteSelf ∧ notice.event.wd = wd
  endsOnce : notices.Pairwise fun earlier later => earlier.event.mask = inDeleteSelf →
    later.event.mask = inDeleteSelf → later.event.wd ≠ earlier.event.wd
  created : change.Creates change.path → ∀ {inode wd},
    world.tree.inodeOf change.path.dropLast = some inode → (inode, wd) ∈ world.backend.kernel.watches →
    ∃ notice, notices = [notice] ∧ notice.event.wd = wd ∧ notice.Creates change.path

theorem World.mkdir_announces {world : World} (consistent : world.backend.kernel.Consistent)
    {parent : Path} {name : Bytes} (allowed : world.tree.Allows (.mkdir parent name)) :
    Announces world (.mkdir parent name) (world.notices (.mkdir parent name)) := by
  refine ⟨?_, ?_, ?_, ?_⟩
  · intro notice member
    obtain ⟨inode, wd, known, watched, rfl⟩ := World.mem_noticeOn member
    exact ⟨⟨inode, known, watched⟩, rfl, .inr ⟨rfl, .inl rfl⟩, fun creates => creates.2⟩
  · intro inode wd known
    have missing := allowed.2.2.2
    simp only [Change.path] at known
    simp [DirTree.Has, known] at missing
  · exact world.noticeOn_endsOnce _ _ _
  · intro _ inode wd known watched
    simp only [Change.path, List.dropLast_concat] at known
    exact ⟨_, World.noticeOn_watched consistent known watched _ _, rfl, rfl, rfl⟩

theorem World.rmdir_announces {world : World} (consistent : world.backend.kernel.Consistent)
    {parent : Path} {name : Bytes} {selfFirst : Bool} :
    Announces world (.rmdir parent name selfFirst) (world.notices (.rmdir parent name selfFirst)) := by
  have parts : ∀ notice, notice ∈ world.notices (.rmdir parent name selfFirst) ↔
      notice ∈ world.noticeOn (parent ++ [name]) inDeleteSelf [] ∨
        notice ∈ world.noticeOn parent (inDelete ||| inIsdir) name := by
    intro notice
    cases selfFirst <;> simp [World.notices, or_comm]
  refine ⟨?_, ?_, ?_, fun creates => creates.elim⟩
  · intro notice member
    rcases (parts notice).mp member with ofSelf | ofParent
    · obtain ⟨inode, wd, known, watched, rfl⟩ := World.mem_noticeOn ofSelf
      have other : inDeleteSelf ≠ inCreate ||| inIsdir := by decide
      exact ⟨⟨inode, known, watched⟩, rfl, .inl ⟨rfl, rfl, rfl⟩, fun creates => absurd creates.1 other⟩
    · obtain ⟨inode, wd, known, watched, rfl⟩ := World.mem_noticeOn ofParent
      have other : (inDelete ||| inIsdir) ≠ inCreate ||| inIsdir := by decide
      exact ⟨⟨inode, known, watched⟩, rfl, .inr ⟨rfl, .inr rfl⟩, fun creates => absurd creates.1 other⟩
  · intro inode wd known watched
    have told := World.noticeOn_watched consistent known watched inDeleteSelf []
    exact ⟨_, (parts _).mpr (.inl (told ▸ List.mem_singleton_self _)), rfl, rfl⟩
  · have single := world.noticeOn_endsOnce
    -- the event in the parent ends no watch
    have plain : ∀ notice ∈ world.noticeOn parent (inDelete ||| inIsdir) name,
        notice.event.mask ≠ inDeleteSelf := by
      intro notice member
      obtain ⟨_, _, _, _, rfl⟩ := World.mem_noticeOn member
      show (inDelete ||| inIsdir) ≠ inDeleteSelf
      decide
    cases selfFirst with
    | true =>
      simp only [World.notices, if_true]
      refine List.pairwise_append.mpr ⟨single _ _ _, single _ _ _, ?_⟩
      exact fun _ _ later member _ ends => absurd ends (plain later member)
    | false =>
      simp only [World.notices, Bool.false_eq_true, if_false]
      refine List.pairwise_append.mpr ⟨single _ _ _, single _ _ _, ?_⟩
      exact fun earlier member _ _ ends => absurd ends (plain earlier member)

theorem World.notices_announce {world : World} (consistent : world.backend.kernel.Consistent)
    {change : Change} (allowed : world.tree.Allows change) :
    Announces world change (world.notices change) := by
  cases change with
  | mkdir parent name => exact World.mkdir_announces consistent allowed
  | rmdir parent name selfFirst => exact World.rmdir_announces consistent

/-! ## What a change leaves -/

section Changed

variable {world after : World} {change : Change} {queue : List KernelNotice}

theorem Changed.tables (changed : Changed world change after) :
    after.backend.toWatchTables = world.backend.toWatchTables ∧
      after.backend.subList = world.backend.subList ∧
      after.backend.missingSubList = world.backend.missingSubList ∧
      after.backend.sent = world.backend.sent := by
  obtain ⟨kernel, same⟩ := changed.backend
  rw [same]
  exact ⟨rfl, rfl, rfl, rfl⟩

theorem Change.Creates.path {path : Path} (creates : change.Creates path) : change.path = path := by
  cases change with
  | mkdir => exact creates
  | rmdir => exact creates.elim

theorem Known.changed (tracked : Tracked world queue) (changed : Changed world change after)
    {notice : KernelNotice} (known : Known world notice) : Known after notice := by
  refine ⟨known.valid, known.single, changed.nextWd ▸ known.below, ?_, ?_, ?_⟩
  · intro inode other watched knownOther
    have before := changed.watches _ watched
    rcases eq_or_ne other change.path with rfl | different
    · exact absurd (changed.own knownOther).2 (tracked.inodes before).ne
    · rw [changed.inodeOf other different] at knownOther
      exact known.watched before knownOther
  · intro address dir found
    rw [changed.tables.1] at found
    exact known.objects found
  · refine known.kind.imp (fun ended => ?_) id
    exact ⟨ended.1, ended.2.1, (changed.lost _).mpr (.inl ended.2.2.1),
      (changed.queued _).mpr (.inl ended.2.2.2)⟩

theorem Queued.known (tracked : Tracked world queue) (changed : Changed world change after)
    (valid : ValidPath change.path) {notice : KernelNotice} (queued : Queued world change notice) :
    Known after notice := by
  obtain ⟨⟨inode, place, watched⟩, single, about, _⟩ := queued
  have has : world.tree.Has notice.place := by simp [DirTree.Has, place]
  refine ⟨tracked.settled.tree.valid has, single, changed.nextWd ▸ tracked.sited.kernel.fresh watched,
    ?_, ?_, ?_⟩
  · intro otherInode other watchedOther knownOther
    have before := changed.watches _ watchedOther
    rcases eq_or_ne other change.path with rfl | different
    · exact absurd (changed.own knownOther).2 (tracked.inodes before).ne
    · rw [changed.inodeOf other different] at knownOther
      have same := tracked.sited.kernel.oneInode before watched
      exact tracked.settled.tree.injective (same ▸ knownOther) place
  · intro address dir found wd
    rw [changed.tables.1] at found
    rcases tracked.sited.sites found with ⟨other, otherInode, _, path, knownOther, live⟩ | ended
    · have same := tracked.sited.kernel.oneInode (wd ▸ live) watched
      have here : other = notice.place := tracked.settled.tree.injective (same ▸ knownOther) place
      rw [path, here]
    · rw [wd] at ended
      exact absurd ended (tracked.sited.kernel.notQueued watched)
  · rcases about with ⟨mask, name, ofSelf⟩ | ⟨ofParent, mask⟩
    · refine .inl ⟨mask, name, (changed.lost _).mpr (.inr ⟨ofSelf ▸ has, ofSelf⟩), ?_⟩
      exact (changed.queued _).mpr (.inr ⟨inode, ofSelf ▸ place, watched⟩)
    · exact .inr ⟨ofParent ▸ valid, mask⟩

/-- A subscription of a directory stays where it is, or an event of the change moves it. -/
theorem Placed.changed (tracked : Tracked world queue) (changed : Changed world change after)
    (allowed : world.tree.Allows change) {notices : List KernelNotice}
    (announces : Announces world change notices) {sub : IhSub} (directory : DirectorySub sub) {path : Path}
    (named : Named sub path) (placed : Placed world.tree world.backend sub path) :
    Placed after.tree after.backend sub path ∨
      ∃ address dir, world.backend.subDirHash sub = some address ∧
        world.backend.dirs address = some dir ∧ Moves dir sub notices := by
  obtain ⟨place, nearest, address, dir, inode, attached, found, dirPath, known, watched⟩ := placed
  have stays (elsewhere : place ≠ change.path)
      (none : ∀ other, other <+: path → after.tree.Has other → other ≠ change.path) :
      Placed after.tree after.backend sub path := by
    have same := changed.inodeOf place elsewhere
    refine ⟨place, ⟨nearest.isAncestor, ?_, fun other isAncestor has => ?_⟩, address, dir, inode, ?_, ?_,
      dirPath, same.trans known, changed.kept watched fun is => ?_⟩
    · simp [DirTree.Has, same, known]
    · refine nearest.longest other isAncestor ?_
      have before := changed.inodeOf other (none other isAncestor has)
      rwa [DirTree.Has, before] at has
    · rw [changed.tables.1, attached]
    · rw [changed.tables.1, found]
    · exact elsewhere (tracked.settled.tree.injective known is)
  by_cases below : change.path <+: path
  · cases change with
    | mkdir parent name =>
      -- who waits for a directory that is created waits in its parent
      obtain ⟨nonempty, noSlash, has, missing⟩ := allowed
      have here := nearest.parent tracked.settled.tree has missing below
      subst here
      obtain ⟨notice, rfl, wd, creates⟩ := announces.created rfl (by simpa [Change.path] using known) watched
      refine .inr ⟨address, dir, attached, found, notice, List.mem_singleton_self _, wd, ?_⟩
      obtain ⟨samePlace, sameName⟩ := List.append_inj' creates.2 rfl
      rw [directory.resubscribes_iff, named.dirname, eventPath_name dirPath
        (tracked.settled.tree.valid has) (by rw [List.singleton_inj.mp sameName]; exact nonempty),
        List.singleton_inj.mp sameName]
      exact render_prefix below
    | rmdir parent name selfFirst =>
      -- who waits in a directory that is removed is moved by the end of its watch
      rcases eq_or_ne place (Change.rmdir parent name selfFirst).path with here | elsewhere
      · obtain ⟨notice, member, mask, wd⟩ := announces.ended (here ▸ known) watched
        refine .inr ⟨address, dir, attached, found, notice, member, wd, ?_⟩
        have empty : notice.event.name = [] := by
          rcases (announces.queued notice member).about with ⟨_, empty, _⟩ | ⟨_, plain⟩
          · exact empty
          · rw [mask] at plain
            exact absurd plain (by decide)
        rw [directory.resubscribes_iff, named.dirname, eventPath_self dirPath empty]
        exact render_prefix nearest.isAncestor
      · refine .inl (stays elsewhere fun other _ has is => ?_)
        obtain ⟨_, still⟩ := Option.isSome_iff_exists.mp (is ▸ has)
        exact (changed.own still).1.elim
  · refine .inl (stays ?_ fun other isAncestor _ is => below (is ▸ isAncestor))
    rintro rfl
    exact below nearest.isAncestor

/-- A subscription of a directory is to be told of its creation by the event that is queued. -/
theorem Told.changed (changed : Changed world change after) {notices : List KernelNotice}
    (announces : Announces world change notices) {sub : IhSub} (directory : sub.isDir = true) {path : Path}
    (named : Named sub path) (told : Told world queue sub path)
    (fresh : change.Creates path → (∀ notice ∈ queue, ¬ notice.Creates path) ∧
      ∃ address dir inode, world.backend.subDirHash sub = some address ∧
        world.backend.dirs address = some dir ∧ world.tree.inodeOf path.dropLast = some inode ∧
        (inode, dir.wd) ∈ world.backend.kernel.watches ∧ ¬ Moves dir sub queue) :
    Told after (queue ++ notices) sub path := by
  have due := changed.due sub path named
  by_cases creates : change.Creates path
  · obtain ⟨silent, address, dir, inode, attached, found, known, watched, stays⟩ := fresh creates
    have same := creates.path
    subst same
    obtain ⟨notice, rfl, wd, tells⟩ := announces.created creates known watched
    rw [if_pos ⟨directory, creates⟩] at due
    -- nothing is owed to it before, and the event is what it is owed now
    cases told with
    | all reported =>
      refine .butOne ?_ (by rw [changed.tables.1, attached]) (by rw [changed.tables.1, found])
        (.last silent stays tells wd)
      rw [changed.tables.2.2.2, reported, due]
    | butOne _ _ _ owed =>
      obtain ⟨earlier, member, again⟩ := owed.creates
      exact absurd again (silent earlier member)
  -- the events of another change say nothing of the directory
  · have quiet : ∀ notice ∈ notices, ¬ notice.Creates path :=
      fun notice member tells => creates ((announces.queued notice member).creates tells)
    rw [if_neg fun both => creates both.2, Nat.add_zero] at due
    cases told with
    | all reported silent =>
      refine .all (by rw [changed.tables.2.2.2, reported, due]) fun notice member => ?_
      exact (List.mem_append.mp member).elim (silent notice) (quiet notice)
    | butOne reported attached found owed =>
      exact .butOne (by rw [changed.tables.2.2.2, reported, due]) (by rw [changed.tables.1, attached])
        (by rw [changed.tables.1, found]) (owed.append quiet)

end Changed

/-! ## The changes one after the other -/

/-- Some changes of a batch have been made.  The subscription of a directory that can be created
and that no change has touched waits in the parent, and no event moves it. -/
structure Changing (world : World) (made : List Change) (queue : List KernelNotice) : Prop
    extends Tracked world queue where
  place : ∀ sub ∈ world.backend.subList, sub.isDir = true → ∀ path, Named sub path →
    Placed world.tree world.backend sub path ∨
      ∃ address dir, world.backend.subDirHash sub = some address ∧
        world.backend.dirs address = some dir ∧ Moves dir sub queue
  fresh : ∀ sub ∈ world.backend.subList, sub.isDir = true → ∀ path, Named sub path →
    (∀ change ∈ made, ¬ change.Touches path) → world.tree.Has path.dropLast → ¬ world.tree.Has path →
    (∀ notice ∈ queue, ¬ notice.Creates path) ∧
      ∃ address dir inode, world.backend.subDirHash sub = some address ∧
        world.backend.dirs address = some dir ∧ dir.path = render path.dropLast ∧
        world.tree.inodeOf path.dropLast = some inode ∧
        (inode, dir.wd) ∈ world.backend.kernel.watches ∧ ¬ Moves dir sub queue

theorem WorldOk.changing {world : World} (ok : WorldOk world) : Changing world [] [] := by
  have placed : ∀ sub ∈ world.backend.subList, sub.isDir = true → ∀ path, Named sub path →
      Placed world.tree world.backend sub path := by
    intro sub member directory path named
    exact (ok.placed member named (.inl directory)).resolve_right fun missing =>
      Bool.false_ne_true (missing.1.symm.trans directory)
  refine ⟨ok.toTracked, fun sub member directory path named =>
    .inl (placed sub member directory path named), ?_⟩
  intro sub member directory path named _ has missing
  obtain ⟨parent, name, rfl⟩ := (List.eq_nil_or_concat' path).resolve_left fun root =>
    missing (root ▸ ok.settled.tree.hasRoot)
  rw [List.dropLast_concat] at has ⊢
  obtain ⟨place, nearest, address, dir, inode, attached, found, dirPath, known, watched⟩ :=
    placed sub member directory _ named
  have here := nearest.parent ok.settled.tree has missing List.prefix_rfl
  subst here
  refine ⟨by simp, address, dir, inode, attached, found, dirPath, known, watched, ?_⟩
  rintro ⟨_, member, _⟩
  contradiction

theorem moves_append {dir : IpWatchedDir} {sub : IhSub} {queue more : List KernelNotice} :
    Moves dir sub (queue ++ more) ↔ Moves dir sub queue ∨ Moves dir sub more := by
  simp only [Moves, List.mem_append, or_and_right, exists_or]

section

variable {world after : World} {change : Change} {queue notices : List KernelNotice}

theorem Settled.changed (settled : Settled world) (changed : Changed world change after) : Settled after := by
  refine settled.of_subList changed.tree ?_ changed.tables.2.1 changed.nextAddress
  intro gone lost
  rcases (changed.lost gone).mp lost with before | ⟨_, rfl⟩
  · exact settled.lost gone before
  · -- what has been removed has a name
    intro root
    cases change <;> simp [Change.path] at root

/-- The watch of a directory that is removed ends; the others stay. -/
theorem Tracked.sited_changed (tracked : Tracked world queue) (changed : Changed world change after) :
    Sited after.tree after.backend where
  linked := by
    rw [changed.tables.1]
    exact tracked.sited.linked
  kernel := changed.consistent
  sites := by
    intro address dir found
    rw [changed.tables.1] at found
    rcases tracked.sited.sites found with ⟨place, inode, validPlace, path, known, watched⟩ | queued
    · rcases eq_or_ne place change.path with rfl | elsewhere
      · exact .inr ((changed.queued _).mpr (.inr ⟨inode, known, watched⟩))
      · refine .inl ⟨place, inode, validPlace, path, (changed.inodeOf place elsewhere).trans known,
          changed.kept watched fun is => ?_⟩
        exact elsewhere (tracked.settled.tree.injective known is)
    · exact .inr ((changed.queued _).mpr (.inl queued))

/-- A watch that is still there has not ended before. -/
theorem Tracked.endsOnce_changed (tracked : Tracked world queue) (announces : Announces world change notices) :
    (queue ++ notices).Pairwise fun earlier later => earlier.event.mask = inDeleteSelf →
      later.event.mask = inDeleteSelf → later.event.wd ≠ earlier.event.wd := by
  refine List.pairwise_append.mpr ⟨tracked.endsOnce, announces.endsOnce, ?_⟩
  intro earlier old later new ends _ same
  obtain ⟨inode, _, watched⟩ := (announces.queued later new).watched
  rcases (tracked.known earlier old).kind with ⟨_, _, _, queued⟩ | ⟨_, plain⟩
  · exact tracked.sited.kernel.notQueued watched (same ▸ queued)
  · rw [ends] at plain
    exact absurd plain (by decide)

theorem Tracked.changed (tracked : Tracked world queue) (changed : Changed world change after)
    (valid : ValidPath change.path) (announces : Announces world change notices)
    (told : ∀ sub ∈ world.backend.subList, sub.isDir = true → ∀ path, Named sub path →
      Told after (queue ++ notices) sub path) : Tracked after (queue ++ notices) := by
  obtain ⟨tables, subList, missing, sent⟩ := changed.tables
  obtain ⟨kernel, backend⟩ := changed.backend
  exact {
    settled := tracked.settled.changed changed
    wellFormed := by
      rw [backend]
      exact { tracked.wellFormed with }
    sited := tracked.sited_changed changed
    inodes := by
      intro inode wd watched
      exact (tracked.inodes (changed.watches _ watched)).trans_le changed.nextInode
    known := by
      intro notice member
      rcases List.mem_append.mp member with old | new
      · exact (tracked.known notice old).changed tracked changed
      · exact (announces.queued notice new).known tracked changed valid
    ended := by
      intro wd queued
      rcases (changed.queued wd).mp queued with before | ⟨inode, known, watched⟩
      · obtain ⟨notice, member, ends⟩ := tracked.ended wd before
        exact ⟨notice, List.mem_append_left _ member, ends⟩
      · obtain ⟨notice, member, ends⟩ := announces.ended known watched
        exact ⟨notice, List.mem_append_right _ member, ends⟩
    endsOnce := tracked.endsOnce_changed announces
    site := by
      intro sub member path named
      rw [subList] at member
      rw [missing]
      refine (tracked.site sub member path named).imp ?_ ?_
      · rintro ⟨address, dir, place, attached, found, rest⟩
        exact ⟨address, dir, place, by rw [tables, attached], by rw [tables, found], rest⟩
      · rintro ⟨file, isMissing, gone, lost, isPrefix⟩
        exact ⟨file, isMissing, gone, (changed.lost gone).mpr (.inl lost), isPrefix⟩
    told := subList ▸ told
    found := by
      intro sub member file
      rw [subList] at member
      obtain ⟨path, named⟩ := tracked.settled.named sub member
      -- only the subscriptions of directories are to be told of a creation
      have due := changed.due sub path named
      rw [if_neg fun both => Bool.false_ne_true (file.symm.trans both.1), Nat.add_zero] at due
      rw [sent, due]
      exact tracked.found sub member file
    sentUsed := by
      rw [sent, changed.nextAddress]
      exact tracked.sentUsed }

end

theorem Changing.made {world : World} {made : List Change} {queue : List KernelNotice}
    (changing : Changing world made queue) {change : Change} (allowed : world.tree.Allows change)
    (first : ∀ sub ∈ world.backend.subList, sub.isDir = true → ∀ path, Named sub path →
      change.Creates path → ∀ earlier ∈ made, ¬ earlier.Touches path) :
    Changing (world.made change) (made ++ [change]) (queue ++ world.notices change) := by
  have tracked := changing.toTracked
  have settled := changing.settled
  have changed := World.made_changed settled.tree changing.sited.kernel allowed
  have announces := World.notices_announce changing.sited.kernel allowed
  have valid := DirTree.Allows.valid settled.tree allowed
  obtain ⟨tables, subList, _, _⟩ := changed.tables
  refine ⟨tracked.changed changed valid announces ?_, ?_, ?_⟩
  · intro sub member directory path named
    refine (changing.told sub member directory path named).changed changed announces directory named
      fun creates => ?_
    have possible : world.tree.Has path.dropLast ∧ ¬ world.tree.Has path := by
      rw [← creates.path]
      cases change with
      | mkdir parent name =>
        rw [Change.path, List.dropLast_concat]
        exact allowed.2.2
      | rmdir => exact creates.elim
    obtain ⟨silent, address, dir, inode, attached, found, _, known, watched, stays⟩ :=
      changing.fresh sub member directory path named
        (first sub member directory path named creates) possible.1 possible.2
    exact ⟨silent, address, dir, inode, attached, found, known, watched, stays⟩
  · intro sub member directory path named
    rw [subList] at member
    rw [tables]
    rcases changing.place sub member directory path named with placed | ⟨address, dir, attached, found, moves⟩
    · refine (placed.changed tracked changed allowed announces (settled.directory sub member directory)
        named).imp id ?_
      rintro ⟨address, dir, attached, found, moves⟩
      exact ⟨address, dir, attached, found, moves_append.mpr (.inr moves)⟩
    · exact .inr ⟨address, dir, attached, found, moves_append.mpr (.inl moves)⟩
  -- it still waits in the parent, and no event of this change moves it
  · intro sub member directory path named untouched has missing
    rw [subList] at member
    have elsewhere : ¬ change.Touches path := untouched change (by simp)
    have notParent : path.dropLast ≠ change.path :=
      fun is => elsewhere (.inl (is ▸ List.dropLast_prefix path))
    have notSelf : path ≠ change.path := fun is => elsewhere (.inl (is ▸ List.prefix_rfl))
    rw [DirTree.Has, changed.inodeOf _ notParent] at has
    rw [DirTree.Has, changed.inodeOf _ notSelf] at missing
    obtain ⟨silent, address, dir, inode, attached, found, dirPath, known, watched, stays⟩ :=
      changing.fresh sub member directory path named
        (fun earlier member => untouched earlier (List.mem_append_left _ member)) has missing
    rw [tables]
    refine ⟨fun notice member creates => ?_, address, dir, inode, attached, found, dirPath,
      (changed.inodeOf _ notParent).trans known, changed.kept watched fun is => ?_, fun moves => ?_⟩
    · rcases List.mem_append.mp member with old | new
      · exact silent notice old creates
      · exact notSelf ((announces.queued notice new).creates creates).path.symm
    · exact notParent (settled.tree.injective known is)
    · rcases moves_append.mp moves with old | ⟨notice, new, wd, passes⟩
      · exact stays old
      · -- an event that moves it is about a directory in its parent, with the beginning of its name
        obtain ⟨⟨other, place, watchedOther⟩, _, about, _⟩ := announces.queued notice new
        have same := changing.sited.kernel.oneInode (wd ▸ watchedOther) watched
        have here : notice.place = path.dropLast := settled.tree.injective (same ▸ place) known
        rw [(settled.directory sub member directory).resubscribes_iff, named.dirname] at passes
        rcases about with ⟨_, _, ofSelf⟩ | ⟨ofParent, _⟩
        · exact notParent (here.symm.trans ofSelf)
        · rw [← ofParent] at valid
          rw [eventPath_name (here ▸ dirPath) (validPath_concat.mp valid).1
            (validPath_concat.mp valid).2.1, ofParent] at passes
          exact elsewhere (.inr ⟨by rw [← ofParent, List.dropLast_concat, here], passes⟩)

theorem World.changeAll_cons {world : World} {change : Change} {changes : List Change}
    (allowed : world.tree.Allows change) :
    world.changeAll (change :: changes) = (((world.made change).changeAll changes).1,
      change :: ((world.made change).changeAll changes).2.1,
      world.notices change ++ ((world.made change).changeAll changes).2.2) := by
  rw [World.changeAll, if_pos allowed]

/-- The tables of the backend are as they were before a batch. -/
theorem World.changeAll_backend (batch : List Change) (world : World) :
    ∃ kernel, (world.changeAll batch).1.backend = { world.backend with kernel := kernel } := by
  induction batch generalizing world with
  | nil => exact ⟨_, rfl⟩
  | cons change changes inductionHypothesis =>
    by_cases allowed : world.tree.Allows change
    · rw [World.changeAll_cons allowed]
      obtain ⟨kernel, same⟩ := inductionHypothesis (world.made change)
      refine ⟨kernel, same.trans ?_⟩
      cases change with
      | mkdir => rfl
      | rmdir => simp only [World.made]; split <;> rfl
    · rw [World.changeAll, if_neg allowed]
      exact inductionHypothesis world

theorem Changing.changeAll {batch made : List Change} {world : World} {queue : List KernelNotice}
    (changing : Changing world made queue)
    (first : ∀ sub ∈ world.backend.subList, sub.isDir = true → ∀ path, Named sub path →
      CreatedFirst path (made ++ (world.changeAll batch).2.1)) :
    Changing (world.changeAll batch).1 (made ++ (world.changeAll batch).2.1)
      (queue ++ (world.changeAll batch).2.2) := by
  induction batch generalizing world made queue with
  | nil => simpa [World.changeAll] using changing
  | cons change changes inductionHypothesis =>
    by_cases allowed : world.tree.Allows change
    · rw [World.changeAll_cons allowed] at first ⊢
      have next := changing.made allowed fun sub member directory path named creates earlier old touches => by
        have apart := (List.pairwise_append.mp (first sub member directory path named)).2.2
        exact apart earlier old change List.mem_cons_self touches creates
      have rest := inductionHypothesis next fun sub member directory path named => by
        rw [List.append_assoc, List.singleton_append]
        refine first sub ?_ directory path named
        exact (World.made_changed changing.settled.tree changing.sited.kernel allowed).tables.2.1 ▸ member
      simpa only [List.append_assoc, List.singleton_append] using rest
    · rw [World.changeAll, if_neg allowed] at first ⊢
      exact inductionHypothesis changing first

/-- When the changes of a batch have been made its events can be dispatched. -/
theorem Changing.underway {world after : World} {made : List Change} {queue : List KernelNotice}
    (changing : Changing after made queue) {kernel : Kernel}
    (backend : after.backend = { world.backend with kernel := kernel })
    (directories : ∀ sub ∈ world.backend.subList, sub.isDir = true →
      after.tree.Has ((components sub.dirname).take 1))
    (files : ∀ sub ∈ world.backend.subList, sub.isDir = false → FileGuard world after queue sub) :
    Underway after queue := by
  have settled := changing.settled
  have names : ∀ {sub path}, Named sub path → components sub.dirname = path := by
    intro sub path named
    rw [named.dirname, components_render named.valid]
  have before : ∀ sub ∈ after.backend.subList, sub ∈ world.backend.subList := by
    intro sub member
    rw [backend] at member
    exact member
  -- an object is alive, or an event ends its watch
  have alive : ∀ {address dir}, after.backend.dirs address = some dir →
      LiveDir after.tree after.backend.kernel dir ∨ Ends dir queue := by
    intro address dir found
    refine (changing.sited.sites found).imp id fun queued => ?_
    obtain ⟨notice, member, mask, wd⟩ := changing.ended _ queued
    exact ⟨notice, member, mask, wd.symm⟩
  have guard : ∀ sub ∈ after.backend.subList, sub.isDir = false → ∀ {address dir},
      after.backend.subDirHash sub = some address → after.backend.dirs address = some dir →
      (dir.path ≠ sub.dirname → after.tree.Has (components sub.dirname) →
        Moves dir sub queue ∨ Ends dir queue) ∧
      (Moves dir sub queue → after.tree.Has ((components sub.dirname).take 1)) := by
    intro sub member file address dir attached found
    rw [backend] at attached found
    exact files sub (before sub member) file address attached dir found
  refine ⟨changing.toTracked, ?_, ?_⟩
  · intro sub member path named concerned
    cases kind : sub.isDir with
    | true =>
      refine (changing.place sub member kind path named).imp id ?_
      rintro ⟨address, dir, attached, found, moves⟩
      exact .inl ⟨address, dir, attached, found, .inl moves⟩
    | false =>
      have has := concerned.resolve_left (by simp [kind])
      rcases changing.site sub member path named with
        ⟨address, dir, place, attached, found, dirPath, isAncestor, _⟩ | ⟨_, missing, _⟩
      · rcases eq_or_ne place path with here | elsewhere
        · subst here
          rcases alive found with ⟨other, inode, valid, samePath, known, watched⟩ | ends
          · have same := render_injective valid named.valid (samePath.symm.trans dirPath)
            subst same
            exact .inl ⟨other, DirTree.nearest_self has, address, dir, inode, attached, found, dirPath,
              known, watched⟩
          · exact .inr (.inl ⟨address, dir, attached, found, .inr ends⟩)
        · have different : dir.path ≠ sub.dirname := by
            rw [dirPath, named.dirname]
            exact fun is => elsewhere (render_injective (named.valid.ancestor isAncestor) named.valid is)
          have moved := (guard sub member kind attached found).1 different (names named ▸ has)
          exact .inr (.inl ⟨address, dir, attached, found, moved⟩)
      · exact .inr (.inr ⟨rfl, missing⟩)
  · intro sub member path named
    by_cases top : after.tree.Has (path.take 1)
    · exact .inl top
    · cases kind : sub.isDir with
      | true => exact .inl (names named ▸ directories sub (before sub member) kind)
      | false =>
        refine .inr ⟨rfl, ?_⟩
        rcases changing.site sub member path named with
          ⟨address, dir, place, attached, found, dirPath, isAncestor, root⟩ | ⟨_, missing, _⟩
        · refine .inr ⟨address, dir, attached, found, fun moves => ?_, (alive found).resolve_left ?_⟩
          · exact top (names named ▸ (guard sub member kind attached found).2 moves)
          · -- what it is attached to would be below the top directory
            rintro ⟨other, inode, valid, samePath, known, _⟩
            have same := render_injective valid (named.valid.ancestor isAncestor) (samePath.symm.trans dirPath)
            subst same
            have has : after.tree.Has other := by simp [DirTree.Has, known]
            refine top (settled.tree.hasPrefix has ?_)
            rcases List.eq_nil_or_concat' other with empty | ⟨_, _, nonempty⟩
            · rw [root empty, List.take_nil]
              exact List.nil_prefix
            · obtain ⟨rest, rfl⟩ := isAncestor
              rw [List.take_append_of_le_length (by simp [nonempty])]
              exact List.take_prefix 1 other
        · exact .inl missing

end Gamin.Inotify
