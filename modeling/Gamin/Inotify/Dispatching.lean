import Gamin.Inotify.Changes

/-! # The events of a batch

The dispatch of an event moves those who have to move because of it and tells those who are to
be told.  When the queue is empty nobody has to move any more.
-/

namespace Gamin.Inotify

open Gamin Gamin.Server Gamin.Library

section Dispatched

variable {world : World} {notice : KernelNotice} {queue : List KernelNotice} {after : Backend}

/-! ## Who is moved -/

/-- Everybody who is moved can be reached. -/
theorem Underway.reachable (underway : Underway world (notice :: queue)) :
    ∀ sub ∈ resubscriptionList world.backend (world.backend.wdDirHash notice.event.wd)
      notice.event.toIkReport, ∃ path, Reachable world.tree sub path := by
  intro sub moved
  obtain ⟨address, dir, attached, found⟩ :=
    attached_of_mem_resubscriptionList underway.sited.linked moved
  obtain ⟨wd, passes⟩ :=
    (mem_resubscriptionList_iff underway.sited.linked _ attached found).mp moved
  obtain ⟨notMissing, listed⟩ := underway.wellFormed.resubscriptionList _ _ sub moved
  obtain ⟨path, named⟩ := underway.settled.named sub listed
  refine ⟨path, named, ?_⟩
  rcases underway.top sub listed path named with top | ⟨_, missing | leaving⟩
  · exact top
  · exact absurd missing notMissing
  · obtain ⟨sameAddress, same, attachedSame, foundSame, stays, _⟩ := leaving
    rw [attached] at attachedSame
    cases attachedSame
    rw [found] at foundSame
    cases foundSame
    exact absurd ⟨notice, List.mem_cons_self, wd.symm, passes⟩ stays

/-- The end of the watch of its object moves the subscription of a directory. -/
theorem Tracked.directory_moved (tracked : Tracked world (notice :: queue)) {sub : IhSub}
    (listed : sub ∈ world.backend.subList) (directory : sub.isDir = true) {address : Pointer}
    {dir : IpWatchedDir} (attached : world.backend.subDirHash sub = some address)
    (found : world.backend.dirs address = some dir) (ends : EndsWatchOf notice.event dir) :
    sub ∈ resubscriptionList world.backend (world.backend.wdDirHash notice.event.wd)
      notice.event.toIkReport := by
  rw [mem_resubscriptionList_iff tracked.sited.linked _ attached found]
  refine ⟨ends.2, ?_⟩
  have empty : notice.event.name = [] := by
    rcases (tracked.known notice List.mem_cons_self).kind with ⟨_, empty, _⟩ | ⟨_, plain⟩
    · exact empty
    · rw [ends.1] at plain
      exact absurd plain (by decide)
  obtain ⟨path, named⟩ := tracked.settled.named sub listed
  rcases tracked.site sub listed path named with
    ⟨sameAddress, same, place, attachedSame, foundSame, dirPath, isAncestor, _⟩ | ⟨file, _⟩
  · rw [attached] at attachedSame
    cases attachedSame
    rw [found] at foundSame
    cases foundSame
    rw [(tracked.settled.directory sub listed directory).resubscribes_iff, named.dirname,
      eventPath_self dirPath empty]
    exact render_prefix isAncestor
  · exact absurd (file.symm.trans directory) Bool.false_ne_true

/-- Who is in place stays in place. -/
theorem Placed.dispatched (tracked : Tracked world (notice :: queue))
    (dispatched : Dispatched world.tree notice.event world.backend after) {sub : IhSub} {path : Path}
    (named : Named sub path) (placed : Placed world.tree world.backend sub path) :
    Placed world.tree after sub path := by
  by_cases moved : sub ∈ resubscriptionList world.backend (world.backend.wdDirHash notice.event.wd)
    notice.event.toIkReport
  · exact dispatched.placed sub moved path named
  · obtain ⟨place, nearest, address, dir, inode, attached, found, dirPath, known, watched⟩ := placed
    obtain ⟨still, kept, foundKept, samePath, sameWd, watches⟩ :=
      dispatched.kept sub moved address dir attached found fun ends => by
        rcases (tracked.known notice List.mem_cons_self).kind with ⟨_, _, _, queued⟩ | ⟨_, plain⟩
        · exact tracked.sited.kernel.notQueued watched (ends.2 ▸ queued)
        · rw [ends.1] at plain
          exact absurd plain (by decide)
    exact ⟨place, nearest, address, kept, inode, still, foundKept, samePath.trans dirPath, known,
      sameWd ▸ watches inode watched⟩

/-- The tests of the dispatch loop look at the path of the object only. -/
theorem resubscribes_congr {first second : IpWatchedDir} (path : second.path = first.path)
    (event : IkReport) (sub : IhSub) : resubscribes second event sub = resubscribes first event sub := by
  have same : eventPath second event = eventPath first event := by rw [eventPath, path, eventPath]
  unfold resubscribes
  rw [decide_eq_decide, same]

theorem moves_congr {first second : IpWatchedDir} (path : second.path = first.path)
    (wd : second.wd = first.wd) (sub : IhSub) : Moves second sub queue ↔ Moves first sub queue := by
  simp only [Moves, resubscribes_congr path, wd]

theorem ends_congr {first second : IpWatchedDir} (wd : second.wd = first.wd) :
    Ends second queue ↔ Ends first queue := by
  simp only [Ends, EndsWatchOf, wd]

theorem Owed.congr {first second : IpWatchedDir} (path : second.path = first.path)
    (wd : second.wd = first.wd) {sub : IhSub} {names : Path} (owed : Owed first sub names queue) :
    Owed second sub names queue := by
  induction owed with
  | now creates here once => exact .now creates (here.trans wd.symm) once
  | later silent stays _ inductionHypothesis =>
    refine .later silent (fun here => ?_) inductionHypothesis
    rw [resubscribes_congr path]
    exact stays (here.trans wd)

/-! ## Where everybody is -/

theorem Underway.onTheWay (underway : Underway world (notice :: queue))
    (dispatched : Dispatched world.tree notice.event world.backend after) {sub : IhSub}
    (listed : sub ∈ world.backend.subList) {path : Path} (named : Named sub path) :
    OnTheWay after sub path ∨
      sub.isDir = false ∧ sub ∈ after.missingSubList ∧ ∃ gone ∈ world.lost, gone <+: path := by
  by_cases moved : sub ∈ resubscriptionList world.backend (world.backend.wdDirHash notice.event.wd)
    notice.event.toIkReport
  · obtain ⟨same, reachable⟩ := underway.reachable sub moved
    have top := named.unique reachable.toNamed ▸ reachable.top
    exact .inl ((dispatched.placed sub moved path named).onTheWay top)
  · rcases underway.site sub listed path named with
      ⟨address, dir, place, attached, found, dirPath, isAncestor, root⟩ | ⟨file, missing, lost⟩
    · by_cases ends : EndsWatchOf notice.event dir
      -- the object goes with its watch, and who is not moved is put on the missing list
      · refine .inr ⟨eq_false_of_ne_true fun directory => ?_, dispatched.lost sub moved address dir attached found ends,
          notice.place, ?_, ?_⟩
        · exact moved (underway.directory_moved listed directory attached found ends)
        · rcases (underway.known notice List.mem_cons_self).kind with ⟨_, _, lost, _⟩ | ⟨_, plain⟩
          · exact lost
          · rw [ends.1] at plain
            exact absurd plain (by decide)
        · have known := underway.known notice List.mem_cons_self
          have here : place = notice.place := render_injective (named.valid.ancestor isAncestor) known.valid
            (dirPath.symm.trans (known.objects found ends.2))
          exact here ▸ isAncestor
      · obtain ⟨still, kept, foundKept, samePath, _⟩ := dispatched.kept sub moved address dir attached found ends
        exact .inl ⟨address, kept, place, still, foundKept, samePath.trans dirPath, isAncestor, root⟩
    · exact .inr ⟨file, dispatched.missing sub missing, lost⟩

/-- Who has to move has moved, is on the missing list, or still has to. -/
theorem Underway.moved (underway : Underway world (notice :: queue))
    (dispatched : Dispatched world.tree notice.event world.backend after) {sub : IhSub}
    (listed : sub ∈ world.backend.subList) {path : Path} (named : Named sub path)
    (moving : Moving world.backend (notice :: queue) sub) :
    Placed world.tree after sub path ∨ Moving after queue sub ∨
      sub.isDir = false ∧ sub ∈ after.missingSubList := by
  by_cases moved : sub ∈ resubscriptionList world.backend (world.backend.wdDirHash notice.event.wd)
    notice.event.toIkReport
  · exact .inl (dispatched.placed sub moved path named)
  · obtain ⟨address, dir, attached, found, moving⟩ := moving
    by_cases ends : EndsWatchOf notice.event dir
    · refine .inr (.inr ⟨eq_false_of_ne_true fun directory => ?_,
        dispatched.lost sub moved address dir attached found ends⟩)
      exact moved (underway.directory_moved listed directory attached found ends)
    · obtain ⟨still, kept, foundKept, samePath, sameWd, _⟩ :=
        dispatched.kept sub moved address dir attached found ends
      refine .inr (.inl ⟨address, kept, still, foundKept, ?_⟩)
      rw [moves_congr samePath sameWd, ends_congr sameWd]
      refine moving.imp ?_ ?_
      · rintro ⟨mover, member, wd, passes⟩
        rcases List.mem_cons.mp member with rfl | member
        · exact absurd ((mem_resubscriptionList_iff underway.sited.linked _ attached found).mpr
            ⟨wd.symm, passes⟩) moved
        · exact ⟨mover, member, wd, passes⟩
      · rintro ⟨ender, member, here⟩
        rcases List.mem_cons.mp member with rfl | member
        · exact absurd here ends
        · exact ⟨ender, member, here⟩

theorem Underway.left (underway : Underway world (notice :: queue))
    (dispatched : Dispatched world.tree notice.event world.backend after) {sub : IhSub}
    (leaving : Leaving world.backend (notice :: queue) sub) :
    sub ∈ after.missingSubList ∨ Leaving after queue sub := by
  obtain ⟨address, dir, attached, found, stays, ender, member, here⟩ := leaving
  have unmoved : sub ∉ resubscriptionList world.backend (world.backend.wdDirHash notice.event.wd)
      notice.event.toIkReport := by
    intro moved
    obtain ⟨wd, passes⟩ := (mem_resubscriptionList_iff underway.sited.linked _ attached found).mp moved
    exact stays ⟨notice, List.mem_cons_self, wd.symm, passes⟩
  by_cases ends : EndsWatchOf notice.event dir
  · exact .inl (dispatched.lost sub unmoved address dir attached found ends)
  · obtain ⟨still, kept, foundKept, samePath, sameWd, _⟩ :=
      dispatched.kept sub unmoved address dir attached found ends
    refine .inr ⟨address, kept, still, foundKept, ?_, ?_⟩
    · rw [moves_congr samePath sameWd]
      rintro ⟨mover, inside, moves⟩
      exact stays ⟨mover, List.mem_cons_of_mem _ inside, moves⟩
    · rw [ends_congr sameWd]
      refine ⟨ender, (List.mem_cons.mp member).resolve_left ?_, here⟩
      rintro rfl
      exact ends here

/-! ## Who is told -/

/-- An event that is not the creation of the directory tells its subscribers of none. -/
theorem Tracked.silent (tracked : Tracked world (notice :: queue)) {sub : IhSub}
    (listed : sub ∈ world.backend.subList) (directory : sub.isDir = true) {path : Path} (named : Named sub path)
    (silent : ¬ notice.Creates path) :
    createdReports (forwardedReports world.backend (world.backend.wdDirHash notice.event.wd)
      (pairDirs world.backend notice.event) notice.event) sub = 0 := by
  have known := tracked.known notice List.mem_cons_self
  refine createdReports_forwarded_zero tracked.wellFormed tracked.settled.distinct known.single listed
    (tracked.settled.directory sub listed directory) ?_ _
  rcases known.kind with ⟨mask, _⟩ | ⟨valid, mask | mask⟩
  · rw [mask]
    exact .inl (by decide)
  · refine .inr fun dir member is => silent ⟨mask, ?_⟩
    obtain ⟨address, onWd, found⟩ := mem_dirsOf.mp member
    obtain ⟨same, foundSame, wd⟩ := tracked.sited.linked.byWd.mp onWd
    rw [found] at foundSame
    cases foundSame
    rw [named.dirname, eventPath_name (known.objects found wd) known.valid
      (validPath_concat.mp valid).2.1] at is
    exact (render_injective named.valid valid is).symm
  · rw [mask]
    exact .inl (by decide)

/-- The creation of the directory is told to the subscriber that waits in the parent. -/
theorem Tracked.tells (tracked : Tracked world (notice :: queue)) {sub : IhSub}
    (listed : sub ∈ world.backend.subList) (directory : sub.isDir = true) {path : Path} (named : Named sub path)
    {address : Pointer} {dir : IpWatchedDir} (attached : world.backend.subDirHash sub = some address)
    (found : world.backend.dirs address = some dir) (creates : notice.Creates path)
    (here : notice.event.wd = dir.wd) :
    createdReports (forwardedReports world.backend (world.backend.wdDirHash notice.event.wd)
      (pairDirs world.backend notice.event) notice.event) sub = 1 := by
  have known := tracked.known notice List.mem_cons_self
  obtain ⟨mask, path_eq⟩ := creates
  have valid : ValidPath (notice.place ++ [notice.event.name]) := path_eq ▸ named.valid
  have dirPath := known.objects found here.symm
  have nested : notice.place ≠ [] := by
    intro root
    rcases tracked.site sub listed path named with
      ⟨_, same, place, attachedSame, foundSame, samePath, isAncestor, onlyRoot⟩ | ⟨file, _⟩
    · rw [attached] at attachedSame
      cases attachedSame
      rw [found] at foundSame
      cases foundSame
      have atRoot := render_injective (named.valid.ancestor isAncestor) known.valid (samePath.symm.trans dirPath)
      rw [onlyRoot (atRoot.trans root)] at path_eq
      exact absurd path_eq (by simp)
    · exact Bool.false_ne_true (file.symm.trans directory)
  refine createdReports_forwarded_one tracked.wellFormed tracked.settled.distinct known.single ?_ listed
    (tracked.settled.directory sub listed directory) attached found here.symm ?_ ?_ _
  · rw [mask]
    decide
  · rw [named.dirname, eventPath_name dirPath known.valid (validPath_concat.mp valid).2.1, path_eq]
  · rw [named.dirname, dirPath, ← path_eq, render_concat, render_of_ne_nil nested]

theorem Underway.told_dispatched (underway : Underway world (notice :: queue))
    (dispatched : Dispatched world.tree notice.event world.backend after) {sub : IhSub}
    (listed : sub ∈ world.backend.subList) (directory : sub.isDir = true) {path : Path} (named : Named sub path) :
    Told { world with backend := after } queue sub path := by
  have sent : createdReports after.sent sub = createdReports world.backend.sent sub +
      createdReports (forwardedReports world.backend (world.backend.wdDirHash notice.event.wd)
        (pairDirs world.backend notice.event) notice.event) sub := by
    rw [dispatched.sent, createdReports_append]
  cases underway.told sub listed directory path named with
  | all reported silent =>
    have quiet := underway.silent listed directory named (silent notice List.mem_cons_self)
    refine .all ?_ fun later member => silent later (List.mem_cons_of_mem _ member)
    simp only [sent, quiet, reported, Nat.add_zero]
  | butOne reported attached found owed =>
    cases owed with
    | now creates here once =>
      have tells := underway.tells listed directory named attached found creates here
      refine .all ?_ once
      simp only [sent, tells, reported]
    -- the creation is still queued, and the event does not take the subscriber from the parent
    | @later _ _ silent stays owed =>
      have quiet := underway.silent listed directory named silent
      have unmoved : sub ∉ resubscriptionList world.backend (world.backend.wdDirHash notice.event.wd)
          notice.event.toIkReport := by
        intro moved
        obtain ⟨wd, passes⟩ :=
          (mem_resubscriptionList_iff underway.sited.linked _ attached found).mp moved
        rw [stays wd.symm] at passes
        contradiction
      obtain ⟨still, kept, foundKept, samePath, sameWd, _⟩ :=
        dispatched.kept sub unmoved _ _ attached found fun ends =>
          unmoved (underway.directory_moved listed directory attached found ends)
      refine .butOne ?_ still foundKept (owed.congr samePath sameWd)
      simp only [sent, quiet, Nat.add_zero, reported]

/-! ## What is known of the rest -/

theorem Known.dispatched (tracked : Tracked world (notice :: queue))
    (dispatched : Dispatched world.tree notice.event world.backend after) {later : KernelNotice}
    (member : later ∈ queue) : Known { world with backend := after } later := by
  have known := tracked.known later (List.mem_cons_of_mem _ member)
  refine ⟨known.valid, known.single, known.below.trans_le dispatched.grown.nextWd, ?_, ?_, ?_⟩
  · intro inode other watched knownOther
    rcases dispatched.grown.watches watched with old | ⟨new, _⟩
    · exact known.watched old knownOther
    · exact absurd known.below new.not_gt
  · intro address dir found wd
    rcases dispatched.grown.dirs found with ⟨old, foundOld, path, sameWd⟩ |
      ⟨place, inode, path, knownPlace, watched | new⟩
    · rw [← path]
      exact known.objects foundOld (sameWd.trans wd)
    · rw [path, known.watched (wd ▸ watched) knownPlace]
    · exact absurd known.below (wd ▸ new).not_gt
  · rcases known.kind with ⟨mask, empty, lost, queued⟩ | plain
    · refine .inl ⟨mask, empty, lost, (dispatched.queued _).mpr ⟨queued, fun same => ?_⟩⟩
      exact (List.pairwise_cons.mp tracked.endsOnce).1 later member same.1 mask same.2
    · exact .inr plain

/-- What has been sent is from subscriptions that have an address. -/
theorem Tracked.sentUsed_dispatched (tracked : Tracked world (notice :: queue))
    (dispatched : Dispatched world.tree notice.event world.backend after) :
    ∀ report ∈ after.sent, report.emission.sub.address < world.nextAddress := by
  have single := (tracked.known notice List.mem_cons_self).single
  intro report member
  rw [dispatched.sent] at member
  rcases List.mem_append.mp member with old | new
  · exact tracked.sentUsed report old
  · obtain ⟨_, sub, listed, user⟩ := forwardedReports_sub tracked.wellFormed single _ _ new
    rw [user]
    exact tracked.settled.used sub listed

theorem Underway.tracked_dispatched (underway : Underway world (notice :: queue))
    (dispatched : Dispatched world.tree notice.event world.backend after) :
    Tracked { world with backend := after } queue := by
  have subList := dispatched.subList
  have single := (underway.known notice List.mem_cons_self).single
  exact {
    settled := underway.settled.of_subList underway.settled.tree underway.settled.lost subList rfl
    wellFormed := dispatched.wellFormed
    sited := dispatched.sited
    inodes := by
      intro inode wd watched
      rcases dispatched.grown.watches watched with old | ⟨_, place, known⟩
      · exact underway.inodes old
      · exact underway.settled.tree.used known
    known := fun later member => Known.dispatched underway.toTracked dispatched member
    ended := by
      intro wd queued
      obtain ⟨before, other⟩ := (dispatched.queued wd).mp queued
      obtain ⟨ender, member, mask, same⟩ := underway.ended wd before
      -- what the event itself ends is not queued any more
      refine ⟨ender, (List.mem_cons.mp member).resolve_left ?_, mask, same⟩
      rintro rfl
      exact other ⟨mask, same.symm⟩
    endsOnce := (List.pairwise_cons.mp underway.endsOnce).2
    site := fun sub member path named => underway.onTheWay dispatched (subList ▸ member) named
    told := fun sub member directory path named =>
      underway.told_dispatched dispatched (subList ▸ member) directory named
    found := by
      intro sub member file
      simp only [dispatched.sent, createdReports_append,
        createdReports_forwarded_file underway.wellFormed single file, Nat.add_zero]
      exact underway.found sub (subList ▸ member) file
    sentUsed := underway.sentUsed_dispatched dispatched }

theorem Underway.dispatched (underway : Underway world (notice :: queue))
    (dispatched : Dispatched world.tree notice.event world.backend after) :
    Underway { world with backend := after } queue where
  toTracked := underway.tracked_dispatched dispatched
  place := by
    intro sub member path named concerned
    have listed : sub ∈ world.backend.subList := dispatched.subList ▸ member
    rcases underway.place sub listed path named concerned with placed | moving | ⟨file, missing⟩
    · exact .inl (placed.dispatched underway.toTracked dispatched named)
    · exact underway.moved dispatched listed named moving
    · exact .inr (.inr ⟨file, dispatched.missing sub missing⟩)
  top := by
    intro sub member path named
    refine (underway.top sub (dispatched.subList ▸ member) path named).imp id fun below => ⟨below.1, ?_⟩
    rcases below.2 with missing | leaving
    · exact .inl (dispatched.missing sub missing)
    · exact underway.left dispatched leaving

end Dispatched

/-! ## The whole queue -/

theorem Underway.step {world : World} {notice : KernelNotice} {queue : List KernelNotice}
    (underway : Underway world (notice :: queue))
    (guard : EventGuard world.tree world.backend notice.event) :
    ∃ after, Inotify.step world.backend (.event notice.event fun _ => world.tree.watch) = some after ∧
      Underway { world with backend := after } queue := by
  have reachable := underway.reachable
  rcases (underway.known notice List.mem_cons_self).kind with ⟨mask, _, _, queued⟩ | ⟨_, plain⟩
  · obtain ⟨after, ran, dispatched⟩ :=
      underway.sited.deleteSelfEvent underway.wellFormed reachable guard mask queued
    exact ⟨after, ran, underway.dispatched dispatched⟩
  · obtain ⟨after, ran, dispatched⟩ :=
      underway.sited.plainEvent underway.wellFormed reachable guard plain
    exact ⟨after, ran, underway.dispatched dispatched⟩

theorem Underway.dispatchAll {queue : List KernelNotice} {world : World} (underway : Underway world queue)
    (guard : QueueGuard world.tree world.backend queue) :
    ∃ after, dispatchAll world.tree world.backend queue = some after ∧
      WorldOk { world with backend := after } := by
  induction queue generalizing world with
  | nil => exact ⟨world.backend, rfl, underway⟩
  | cons notice queue inductionHypothesis =>
    obtain ⟨here, later⟩ := guard
    obtain ⟨next, ran, rest⟩ := underway.step here
    obtain ⟨after, done, ok⟩ := inductionHypothesis rest (later next ran)
    refine ⟨after, ?_, ok⟩
    simp only [Inotify.dispatchAll, ran]
    exact done

/-- A batch is made and dispatched. -/
theorem WorldOk.changes {world : World} (ok : WorldOk world) {batch : List Change}
    (guard : WorldGuard world (.changes batch)) :
    ∃ after, world.step (.changes batch) = some after ∧ WorldOk after := by
  obtain ⟨subs, queue⟩ := guard
  have named : ∀ {sub path}, Named sub path → components sub.dirname = path := by
    intro sub path named
    rw [named.dirname, components_render named.valid]
  have changing := ok.changing.changeAll fun sub member directory path isNamed =>
    named isNamed ▸ ((subs sub member).1 directory).2
  obtain ⟨kernel, backend⟩ := world.changeAll_backend batch
  have underway := changing.underway backend (fun sub member directory => ((subs sub member).1 directory).1)
    fun sub member file => (subs sub member).2 file
  obtain ⟨after, done, next⟩ := underway.dispatchAll queue
  exact ⟨_, by simp only [World.step, List.nil_append] at done ⊢; rw [done, Option.map_some], next⟩

end Gamin.Inotify
