import Gamin.Inotify.Scanning

/-! # Missing directories come back

Subscriptions of directories are re-attached by the events of a batch, and told once that their
directory was created, as long as the batch does not touch the directory before it creates it.
Those of files are re-attached by the next scan, and told once if their file is there.
-/

namespace Gamin.Inotify

open Gamin Gamin.Server Gamin.Library

theorem WorldOk.step {world : World} (ok : WorldOk world) {input : WorldInput}
    (guard : WorldGuard world input) : ∃ after, world.step input = some after ∧ WorldOk after := by
  cases input with
  | addSubscription path isDir reqno options view => exact ok.addSubscription guard
  | cancel sub => exact ok.cancel guard
  | changes batch => exact ok.changes guard
  | scanMissing view => exact ok.scanMissing guard

/-- The system is there, and it is complete. -/
def Completes (state : Option World) : Prop := ∃ world, state = some world ∧ Complete world

/-- The file `/e/f` is there. -/
def fileView : IhSub → FsView := fun _ =>
  { present := fun path => path = [47, 101, 47, 102], listing := fun _ => none }

/-- The directory `/a/b/c/d` and the file `/e/f` are subscribed.  `/a/b/c` is created beside
another directory, then `/a/b/c/d` while `/e` is removed; then everything below `/a` is removed
while `/e` comes back.  After a scan `/a/b` and `/a/b/c` are created together, and `/a/b/c/d` is
created again. -/
def goneAndBack : List WorldInput :=
  [.changes [.mkdir [] [97], .mkdir [[97]] [98], .mkdir [] [101]],
    .addSubscription [47, 97, 47, 98, 47, 99, 47, 100] true 1 0 emptyView,
    .addSubscription [47, 101, 47, 102] false 2 0 emptyView,
    .changes [.mkdir [[97], [98]] [99], .mkdir [] [120]],
    .changes [.mkdir [[97], [98], [99]] [100], .rmdir [] [101] false],
    .changes [.rmdir [[97], [98], [99]] [100] true, .rmdir [[97], [98]] [99] true,
      .rmdir [[97]] [98] false, .mkdir [] [101]],
    .scanMissing fileView,
    .changes [.mkdir [[97]] [98], .mkdir [[97], [98]] [99]],
    .changes [.mkdir [[97], [98], [99]] [100]]]

/-- `/a/b/c` is subscribed, and `/a/b` and `/a/b/c` are created before any event is read. -/
def createdTogether : List WorldInput :=
  [.changes [.mkdir [] [97]], .addSubscription [47, 97, 47, 98, 47, 99] true 1 0 emptyView,
    .changes [.mkdir [[97]] [98], .mkdir [[97], [98]] [99]], .scanMissing fun _ => emptyView]

end Gamin.Inotify
