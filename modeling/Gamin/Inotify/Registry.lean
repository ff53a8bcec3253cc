import Gamin.Inotify.WatchTables
import Mathlib.Data.List.Count

/-! # Who is on sub_list

Only `ih_sub_add` and `ih_sub_cancel` write to the list of all subscriptions.  Events and the scan
of the missing list move subscriptions between the tables and leave the list as it is.
-/

namespace Gamin.Inotify

open Gamin Gamin.Server

/-! ## Adding and cancelling -/

theorem imAdd_subList (state : Backend) (sub : IhSub) : (imAdd state sub).subList = state.subList := by
  unfold imAdd
  split <;> rfl

theorem ihSubAdd_subList {state after : Backend} {sub : IhSub} {watch : Bytes → WatchAnswer}
    (added : ihSubAdd state sub watch = some after) : after.subList = sub :: state.subList := by
  unfold ihSubAdd at added
  split at added
  · contradiction
  · split at added
    · contradiction
    case h_2 next result started =>
      cases added
      have same := (ipStartWatching_frame started).2.1
      cases result with
      | true => simpa using same
      | false => simpa [imAdd_subList] using same

theorem gamInotifyAddSubscription_subList {state after : Backend} {address : Pointer}
    {sub : GamSubscription} {watch : Bytes → WatchAnswer} {view : FsView}
    (added : gamInotifyAddSubscription state address sub watch view = some after) :
    after.subList = ihSubNew address sub.path sub.isDir sub :: state.subList := by
  obtain ⟨next, inList, rfl⟩ := Option.map_eq_some_iff.mp added
  have listed := ihSubAdd_subList inList
  exact listed

theorem ihSubCancel_subList (state : Backend) (sub : IhSub) :
    (ihSubCancel state sub).subList = state.subList.erase sub := by
  unfold ihSubCancel
  split
  · have same := (ipStopWatching_frame (imRm state sub) sub).2.1
    simp only [same]
    rfl
  case isFalse absent => exact (List.erase_of_not_mem absent).symm

/-- `ih_sub_foreach_free` for the subscriptions with some data of the caller.  The lock that it
takes is not looked at here. -/
def ihSubForeachFree (state : Backend) (selects : IhSub → Bool) : Backend :=
  (state.subList.filter selects).foldl ihSubCancel state

theorem foldl_ihSubCancel_subList (subs : List IhSub) (state : Backend) :
    (subs.foldl ihSubCancel state).subList = state.subList.diff subs := by
  induction subs generalizing state with
  | nil => simp
  | cons sub subs inductionHypothesis =>
    rw [List.foldl_cons, inductionHypothesis, ihSubCancel_subList, List.diff_cons]

/-- Exactly those that are not selected are left. -/
theorem ihSubForeachFree_subList (state : Backend) (selects : IhSub → Bool) {sub : IhSub} :
    sub ∈ (ihSubForeachFree state selects).subList ↔ sub ∈ state.subList ∧ selects sub = false := by
  rw [ihSubForeachFree, foldl_ihSubCancel_subList, ← List.count_pos_iff, List.count_diff]
  cases selected : selects sub with
  | true => simp [List.count_filter, selected]
  | false =>
    have unselected : sub ∉ state.subList.filter selects := by simp [selected]
    simp [List.count_eq_zero_of_not_mem unselected]

/-! ## Events and scans -/

theorem ipWdDelete_subList (state : Backend) (address : Pointer) :
    (ipWdDelete state address).subList = state.subList := by
  cases found : state.dirs address with
  | none => simp only [ipWdDelete, found]
  | some dir =>
    obtain ⟨missing, running, deleted, _⟩ := ipWdDelete_eq found
    rw [deleted]

theorem foldl_ipWdDelete_subList (addresses : List Pointer) (state : Backend) :
    (addresses.foldl ipWdDelete state).subList = state.subList := by
  induction addresses generalizing state with
  | nil => rfl
  | cons address addresses inductionHypothesis =>
    rw [List.foldl_cons, inductionHypothesis, ipWdDelete_subList]

theorem ipEventCallback_subList {state after : Backend} {event : IkEvent}
    {answers : IhSub → Bytes → WatchAnswer} (done : ipEventCallback state event answers = some after) :
    after.subList = state.subList := by
  unfold ipEventCallback at done
  split at done
  · cases done
    rfl
  · obtain ⟨next, dispatched, rfl⟩ := Option.map_eq_some_iff.mp done
    have same : next.subList = state.subList := by
      split at dispatched
      · exact (resubscribe_frame dispatched).1
      · cases dispatched
        rfl
    split
    · exact (foldl_ipWdDelete_subList _ next).trans same
    · exact same

theorem scanLoop_subList {answers : IhSub → Bytes → WatchAnswer} {view : IhSub → FsView}
    {subs missing : List IhSub} {state final : Backend}
    (done : scanLoop answers view state subs = some (final, missing)) : final.subList = state.subList := by
  induction subs generalizing state missing with
  | nil =>
    cases done
    rfl
  | cons sub subs inductionHypothesis =>
    unfold scanLoop at done
    split at done
    · contradiction
    case h_2 next started =>
      obtain ⟨⟨last, rest⟩, ran, same⟩ := Option.map_eq_some_iff.mp done
      cases same
      rw [inductionHypothesis ran, (ipStartWatching_frame started).2.1]
    case h_3 next started =>
      have same := (ipStartWatching_frame started).2.1
      exact (inductionHypothesis done).trans same

theorem imScanMissing_subList {state after : Backend} {answers : IhSub → Bytes → WatchAnswer}
    {view : IhSub → FsView} (done : imScanMissing state answers view = some after) :
    after.subList = state.subList := by
  obtain ⟨⟨final, missing⟩, ran, rfl⟩ := Option.map_eq_some_iff.mp done
  have same := scanLoop_subList ran
  exact same

end Gamin.Inotify
