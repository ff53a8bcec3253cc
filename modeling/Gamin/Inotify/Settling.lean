import Gamin.Inotify.Placement

/-! # Dispatching an event on a tree

The dispatch of one event returns, puts every subscription that it resubscribes in place and
leaves the others where they are.  After `IN_DELETE_SELF` no object of the deleted directory
is left, and who was still attached to one is on the missing list.
-/

namespace Gamin.Inotify

open Gamin Gamin.Server Gamin.Library

/-! ## The resubscription list -/

/-- An attached subscription is resubscribed if its object is on the watch descriptor and the
event passes the tests for it. -/
theorem mem_resubscriptionList_iff {state : Backend} (linked : Linked state.toWatchTables)
    (event : IkReport) {sub : IhSub} {address : Pointer} {dir : IpWatchedDir}
    (attached : state.subDirHash sub = some address) (found : state.dirs address = some dir) :
    sub ∈ resubscriptionList state (state.wdDirHash event.wd) event ↔
      dir.wd = event.wd ∧ resubscribes dir event sub = true := by
  rw [mem_resubscriptionList]
  constructor
  · rintro ⟨other, listed, member, passes⟩
    obtain ⟨otherAddress, onWd, foundOther⟩ := mem_dirsOf.mp listed
    have same := linked.attached.mpr ⟨other, foundOther, member⟩
    rw [attached] at same
    cases same
    rw [found] at foundOther
    cases foundOther
    obtain ⟨again, foundAgain, wd⟩ := linked.byWd.mp onWd
    rw [found] at foundAgain
    cases foundAgain
    exact ⟨wd, passes⟩
  · rintro ⟨wd, passes⟩
    obtain ⟨same, foundSame, member⟩ := linked.attached.mp attached
    rw [found] at foundSame
    cases foundSame
    exact ⟨dir, mem_dirsOf.mpr ⟨address, linked.byWd.mpr ⟨dir, found, wd⟩, found⟩, member, passes⟩

/-- Who is resubscribed is attached. -/
theorem attached_of_mem_resubscriptionList {state : Backend} (linked : Linked state.toWatchTables)
    {dirList : List Pointer} {event : IkReport} {sub : IhSub}
    (member : sub ∈ resubscriptionList state dirList event) :
    ∃ address dir, state.subDirHash sub = some address ∧ state.dirs address = some dir := by
  obtain ⟨dir, listed, inside, _⟩ := mem_resubscriptionList.mp member
  obtain ⟨address, _, found⟩ := mem_dirsOf.mp listed
  exact ⟨address, dir, linked.attached.mpr ⟨dir, found, inside⟩, found⟩

/-! ## One event -/

/-- The condition on the dispatch of one event. -/
def EventGuard (tree : DirTree) (state : Backend) (event : IkEvent) : Prop :=
  ResubscribesSafely (fun _ => tree.watch)
    (forwardAll state (state.wdDirHash event.wd) (pairDirs state event) event)
    (resubscriptionList state (state.wdDirHash event.wd) event.toIkReport)

instance (tree : DirTree) (state : Backend) (event : IkEvent) :
    Decidable (EventGuard tree state event) :=
  decidableResubscribesSafely _ _ _

/-- The event ends the watch of an object. -/
def EndsWatchOf (event : IkEvent) (dir : IpWatchedDir) : Prop :=
  event.mask = inDeleteSelf ∧ dir.wd = event.wd

/-- What the dispatch of an event comes to. -/
structure Dispatched (tree : DirTree) (event : IkEvent) (before after : Backend) : Prop where
  wellFormed : WellFormed after
  sited : Sited tree after
  subList : after.subList = before.subList
  sent : after.sent = before.sent ++
    forwardedReports before (before.wdDirHash event.wd) (pairDirs before event) event
  queued : ∀ wd, wd ∈ after.kernel.deleteSelfQueued ↔
    wd ∈ before.kernel.deleteSelfQueued ∧ ¬ (event.mask = inDeleteSelf ∧ wd = event.wd)
  grown : Grown tree before after
  placed : ∀ sub ∈ resubscriptionList before (before.wdDirHash event.wd) event.toIkReport,
    ∀ path, Named sub path → Placed tree after sub path
  kept : ∀ sub ∉ resubscriptionList before (before.wdDirHash event.wd) event.toIkReport,
    ∀ address dir, before.subDirHash sub = some address → before.dirs address = some dir →
      ¬ EndsWatchOf event dir → after.subDirHash sub = some address ∧
        ∃ kept, after.dirs address = some kept ∧ kept.path = dir.path ∧ kept.wd = dir.wd ∧
          ∀ inode, (inode, dir.wd) ∈ before.kernel.watches → (inode, dir.wd) ∈ after.kernel.watches
  lost : ∀ sub ∉ resubscriptionList before (before.wdDirHash event.wd) event.toIkReport,
    ∀ address dir, before.subDirHash sub = some address → before.dirs address = some dir →
      EndsWatchOf event dir → sub ∈ after.missingSubList
  missing : ∀ sub ∈ before.missingSubList, sub ∈ after.missingSubList

theorem Sited.ipEventDispatch {tree : DirTree} {state : Backend} (sited : Sited tree state)
    (wellFormed : WellFormed state) {event : IkEvent}
    (reachable : ∀ sub ∈ resubscriptionList state (state.wdDirHash event.wd) event.toIkReport,
      ∃ path, Reachable tree sub path)
    (guard : EventGuard tree state event) (notEnded : event.mask ≠ inDeleteSelf) :
    ∃ after, ipEventDispatch state (state.wdDirHash event.wd) (pairDirs state event) event
        (fun _ => tree.watch) = some after ∧ Dispatched tree event state after := by
  have forwarded : Sited tree
      (forwardAll state (state.wdDirHash event.wd) (pairDirs state event) event) :=
    ⟨sited.linked, sited.kernel, sited.sites⟩
  obtain ⟨after, done, afterSited, undisturbed, grown, missing, placed⟩ := forwarded.resubscribe
    (resubscriptionList_nodup sited.linked event.wd event.toIkReport) reachable guard
  exact ⟨after, done, {
    wellFormed := wellFormed.ipEventDispatch done
    sited := afterSited
    subList := (resubscribe_frame done).1
    sent := (resubscribe_frame done).2
    queued := by
      intro wd
      rw [undisturbed.queued]
      exact ⟨fun queued => ⟨queued, fun ended => notEnded ended.1⟩, And.left⟩
    grown := ⟨grown.nextWd, grown.watches, grown.dirs⟩
    placed := placed
    kept := by
      intro sub unlisted address dir attached found _
      exact ⟨(undisturbed.attached sub unlisted).trans attached,
        undisturbed.dirs sub unlisted address dir attached found⟩
    lost := fun _ _ _ _ _ _ ended => absurd ended.1 notEnded
    missing := by
      intro sub member
      rw [missing]
      exact member }⟩

/-- An event about a name in the watched directory. -/
theorem Sited.plainEvent {tree : DirTree} {state : Backend} (sited : Sited tree state)
    (wellFormed : WellFormed state) {event : IkEvent}
    (reachable : ∀ sub ∈ resubscriptionList state (state.wdDirHash event.wd) event.toIkReport,
      ∃ path, Reachable tree sub path)
    (guard : EventGuard tree state event)
    (kind : event.mask = (inCreate ||| inIsdir) ∨ event.mask = (inDelete ||| inIsdir)) :
    ∃ after, step state (.event event fun _ => tree.watch) = some after ∧
      Dispatched tree event state after := by
  have masks : event.has ipInotifyMask = true ∧ event.has inIgnored = false ∧
      event.has inDeleteSelf = false ∧ event.has inMoveSelf = false ∧ event.mask ≠ inDeleteSelf := by
    simp only [IkReport.has]
    rcases kind with mask | mask <;> rw [mask] <;> decide
  obtain ⟨interesting, notIgnored, notDeleted, notMoved, notEnded⟩ := masks
  obtain ⟨after, done, dispatched⟩ := sited.ipEventDispatch wellFormed reachable guard notEnded
  refine ⟨after, ?_, dispatched⟩
  simp [step, ipEventCallback, notIgnored, interesting, done, notDeleted, notMoved,
    IkReport.endsWatch]

/-- A subscription in place is at an object that the deletion of other objects leaves alone. -/
theorem Placed.deleted {tree : DirTree} {before after : Backend} {wd : Nat} {sub : IhSub} {path : Path}
    (placed : Placed tree before sub path) (linked : Linked before.toWatchTables)
    (deleted : Deleted (before.wdDirHash wd) before after)
    (ended : ∀ inode, (inode, wd) ∉ before.kernel.watches) : Placed tree after sub path := by
  obtain ⟨place, nearest, address, dir, inode, attached, found, dirPath, known, watched⟩ := placed
  have unlisted : address ∉ before.wdDirHash wd := by
    intro listed
    obtain ⟨same, foundSame, sameWd⟩ := linked.byWd.mp listed
    rw [found] at foundSame
    cases foundSame
    exact ended inode (sameWd ▸ watched)
  refine ⟨place, nearest, address, dir, inode, (deleted.subDirHash sub address).mpr ⟨unlisted, attached⟩,
    (deleted.dirs address dir).mpr ⟨unlisted, found⟩, dirPath, known, ?_⟩
  rw [deleted.kernel]
  exact watched

/-- The end of a watch. -/
theorem Sited.deleteSelfEvent {tree : DirTree} {state : Backend} (sited : Sited tree state)
    (wellFormed : WellFormed state) {event : IkEvent}
    (reachable : ∀ sub ∈ resubscriptionList state (state.wdDirHash event.wd) event.toIkReport,
      ∃ path, Reachable tree sub path)
    (guard : EventGuard tree state event) (mask : event.mask = inDeleteSelf)
    (queued : event.wd ∈ state.kernel.deleteSelfQueued) :
    ∃ after, step state (.event event fun _ => tree.watch) = some after ∧
      Dispatched tree event state after := by
  have forwarded : Sited tree
      (forwardAll state (state.wdDirHash event.wd) (pairDirs state event) event) :=
    ⟨sited.linked, sited.kernel, sited.sites⟩
  obtain ⟨middle, done, middleSited, undisturbed, grown, missing, placed⟩ := forwarded.resubscribe
    (resubscriptionList_nodup sited.linked event.wd event.toIkReport) reachable guard
  have dispatched : Inotify.ipEventDispatch state (state.wdDirHash event.wd) (pairDirs state event) event
      (fun _ => tree.watch) = some middle := done
  have deleted := middleSited.linked.deleted event.wd
  have middleQueued : middle.kernel.deleteSelfQueued = state.kernel.deleteSelfQueued := undisturbed.queued
  have ended : ∀ inode, (inode, event.wd) ∉ middle.kernel.watches := by
    intro inode watched
    exact middleSited.kernel.notQueued watched (middleQueued ▸ queued)
  generalize gone : (middle.wdDirHash event.wd).foldl ipWdDelete middle = left at deleted
  have result : step state (.event event fun _ => tree.watch) =
      some { ipUnmapWd left event.wd with kernel := left.kernel.deleteSelfDone event.wd } := by
    have masks : event.has inIgnored = false ∧ event.has ipInotifyMask = true ∧
        event.has inDeleteSelf = true := by
      simp only [IkReport.has, mask]
      decide
    simp [step, ipEventCallback, masks, dispatched, IkReport.endsWatch, gone, ipUnmapWd]
  have linked := middleSited.linked.ipUnmapWd deleted
  refine ⟨_, result, {
    wellFormed := wellFormed.step result
    sited := ⟨linked, (deleted.kernel ▸ middleSited.kernel : left.kernel.Consistent).deleteSelfDone event.wd, ?sites⟩
    subList := deleted.subList.trans (resubscribe_frame dispatched).1
    sent := deleted.sent.trans (resubscribe_frame dispatched).2
    queued := ?queued
    grown := ⟨?nextWd, ?watches, fun found => grown.dirs ((deleted.dirs _ _).mp found).2⟩
    placed := ?placed
    kept := ?kept
    lost := ?lost
    missing := fun sub member => (deleted.missing sub).mpr (.inl (missing ▸ member)) }⟩
  case sites =>
    intro address dir found
    obtain ⟨unlisted, before⟩ := (deleted.dirs address dir).mp found
    rcases middleSited.sites before with live | inQueue
    · rw [← deleted.kernel] at live
      exact .inl live
    · refine .inr (List.mem_filter.mpr ⟨deleted.kernel ▸ inQueue, ?_⟩)
      rw [decide_eq_true_eq]
      exact fun sameWd => unlisted (middleSited.linked.byWd.mpr ⟨dir, before, sameWd⟩)
  case queued =>
    intro wd
    simp only [Kernel.deleteSelfDone, deleted.kernel, middleQueued, List.mem_filter, ne_eq,
      decide_eq_true_eq, mask, true_and]
  case nextWd =>
    simp only [Kernel.deleteSelfDone, deleted.kernel]
    exact grown.nextWd
  case watches =>
    intro inode wd watched
    simp only [Kernel.deleteSelfDone, deleted.kernel] at watched
    exact grown.watches watched
  case placed =>
    intro sub member path named
    have after := (placed sub member path named).deleted middleSited.linked deleted ended
    exact after
  case kept =>
    -- the objects that are deleted are those of the watch that has ended
    intro sub unlisted address dir attached found survives
    obtain ⟨kept, foundKept, path, wd, watches⟩ := undisturbed.dirs sub unlisted address dir attached found
    have elsewhere : address ∉ middle.wdDirHash event.wd := by
      intro listed
      obtain ⟨same, foundSame, sameWd⟩ := middleSited.linked.byWd.mp listed
      rw [foundKept] at foundSame
      cases foundSame
      exact survives ⟨mask, wd.symm.trans sameWd⟩
    refine ⟨(deleted.subDirHash sub address).mpr ⟨elsewhere, (undisturbed.attached sub unlisted).trans attached⟩,
      kept, (deleted.dirs address kept).mpr ⟨elsewhere, foundKept⟩, path, wd, fun inode watched => ?_⟩
    simp only [Kernel.deleteSelfDone, deleted.kernel]
    exact watches inode watched
  case lost =>
    intro sub unlisted address dir attached found ends
    obtain ⟨kept, foundKept, _, wd, _⟩ := undisturbed.dirs sub unlisted address dir attached found
    have listed := middleSited.linked.byWd.mpr ⟨kept, foundKept, wd.trans ends.2⟩
    exact (deleted.missing sub).mpr (.inr ⟨address, listed, (undisturbed.attached sub unlisted).trans attached⟩)

end Gamin.Inotify
