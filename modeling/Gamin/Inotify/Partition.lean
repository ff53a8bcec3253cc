import Gamin.Inotify.WatchTables

/-! # Attached or missing

A subscription is attached to a watched directory or waits on the missing list, and the timer
that scans the list is on as long as someone waits there.  The one place that can break this
is the last loop of `ip_event_dispatch`: it stops the watch of a subscription and starts it
again without looking at the answer, so a subscription that cannot be watched is left in
neither place.
-/

namespace Gamin.Inotify

open Gamin Gamin.Server Gamin.Library

/-! ## The two places -/

/-- The directory object that `sub_dir_hash` names lists the subscription once, and no other
object lists it. -/
def AttachedOnce (state : Backend) (sub : IhSub) : Prop :=
  ∃ address dir, state.subDirHash sub = some address ∧ state.dirs address = some dir ∧
    dir.subs.count sub = 1 ∧
    ∀ other otherDir, state.dirs other = some otherDir → sub ∈ otherDir.subs → other = address

/-- Neither `sub_dir_hash` nor a directory object has the subscription. -/
def Detached (state : Backend) (sub : IhSub) : Prop :=
  state.subDirHash sub = none ∧
    ∀ address dir, state.dirs address = some dir → sub ∉ dir.subs

/-- Everyone on the list of all subscriptions is in exactly one place, a cancelled
subscription is in none, and the missing list is scanned. -/
structure Partitioned (state : Backend) : Prop where
  placed : ∀ sub ∈ state.subList,
    AttachedOnce state sub ∧ sub ∉ state.missingSubList ∨
      Detached state sub ∧ state.missingSubList.count sub = 1
  cancelled : ∀ sub, sub ∉ state.subList → Detached state sub ∧ sub ∉ state.missingSubList
  scanned : state.missingSubList ≠ [] → state.scanMissingRunning = true

/-- The subscription is in some place. -/
def Held (state : Backend) (sub : IhSub) : Prop :=
  state.subDirHash sub ≠ none ∨ sub ∈ state.missingSubList

def AllHeld (state : Backend) : Prop := ∀ sub ∈ state.subList, Held state sub

/-- The timer is on while someone is missing. -/
def ScanScheduled (state : Backend) : Prop :=
  state.missingSubList ≠ [] → state.scanMissingRunning = true

theorem WellFormed.attachedOnce {state : Backend} (wellFormed : WellFormed state) {sub : IhSub}
    (attached : state.subDirHash sub ≠ none) : AttachedOnce state sub := by
  obtain ⟨address, mapped⟩ := Option.ne_none_iff_exists'.mp attached
  obtain ⟨dir, found, member⟩ := wellFormed.attached.mp mapped
  refine ⟨address, dir, mapped, found, ?_, ?_⟩
  · exact List.count_eq_one_of_mem (wellFormed.distinct found) member
  · intro other otherDir otherFound otherMember
    have otherMapped := wellFormed.attached.mpr ⟨otherDir, otherFound, otherMember⟩
    rw [mapped] at otherMapped
    exact (Option.some.inj otherMapped).symm

theorem WellFormed.detached {state : Backend} (wellFormed : WellFormed state) {sub : IhSub}
    (unmapped : state.subDirHash sub = none) : Detached state sub :=
  ⟨unmapped, wellFormed.detached_iff.mp unmapped⟩

/-- Where the tables agree, it is enough that everyone is in some place. -/
theorem WellFormed.partitioned_iff {state : Backend} (wellFormed : WellFormed state)
    (scheduled : ScanScheduled state) : Partitioned state ↔ AllHeld state := by
  constructor
  · intro partitioned sub listed
    cases partitioned.placed sub listed with
    | inl attached =>
      obtain ⟨⟨address, dir, mapped, _⟩, _⟩ := attached
      exact .inl (by simp [mapped])
    | inr missing => exact .inr (List.count_pos_iff.mp (by omega))
  · intro held
    refine ⟨?_, ?_, scheduled⟩
    · intro sub listed
      by_cases mapped : state.subDirHash sub = none
      · have missing := (held sub listed).resolve_left (not_not_intro mapped)
        exact .inr ⟨wellFormed.detached mapped,
          List.count_eq_one_of_mem wellFormed.missingOnce missing⟩
      · refine .inl ⟨wellFormed.attachedOnce mapped, ?_⟩
        exact fun missing => mapped (wellFormed.missingDetached sub missing)
    · intro sub unlisted
      have nowhere : ¬ Held state sub := fun somewhere => unlisted (wellFormed.listed sub somewhere)
      obtain ⟨mapped, notMissing⟩ := not_or.mp nowhere
      exact ⟨wellFormed.detached (not_not.mp mapped), notMissing⟩

/-! ## The timer -/

theorem ScanScheduled.imAdd {state : Backend} (scheduled : ScanScheduled state) (sub : IhSub) :
    ScanScheduled (imAdd state sub) := by
  simp only [Inotify.imAdd]
  split
  · exact scheduled
  · exact fun _ => rfl

theorem ScanScheduled.foldl_imAdd {subs : List IhSub} {state : Backend}
    (scheduled : ScanScheduled state) : ScanScheduled (subs.foldl Inotify.imAdd state) := by
  induction subs generalizing state with
  | nil => exact scheduled
  | cons sub subs inductionHypothesis => exact inductionHypothesis (scheduled.imAdd sub)

theorem ScanScheduled.foldl_ipWdDelete {addresses : List Pointer} {state : Backend}
    (scheduled : ScanScheduled state) : ScanScheduled (addresses.foldl ipWdDelete state) := by
  induction addresses generalizing state with
  | nil => exact scheduled
  | cons address addresses inductionHypothesis =>
    apply inductionHypothesis
    simp only [ipWdDelete]
    split
    · exact scheduled
    · exact scheduled.foldl_imAdd

/-- Starting and stopping a watch is nothing to the timer. -/
theorem ipStartWatching_running {state after : Backend} {sub : IhSub}
    {watch : Bytes → WatchAnswer} {result : Bool}
    (started : ipStartWatching state sub watch = some (after, result)) :
    after.scanMissingRunning = state.scanMissingRunning := by
  obtain ⟨_, _, rfl, _⟩ | ⟨_, _, _, _, rfl, _⟩ | ⟨rfl, _⟩ := ipStartWatching_cases started <;> rfl

theorem ipStopWatching_running {state : Backend} (linked : Linked state.toWatchTables)
    (sub : IhSub) : (ipStopWatching state sub).scanMissingRunning = state.scanMissingRunning := by
  obtain ⟨_, stopped⟩ | ⟨_, _, _, _, ⟨_, stopped⟩ | ⟨_, stopped⟩⟩ :=
    ipStopWatching_cases linked sub <;> rw [stopped] <;> rfl

/-! ## What can be watched -/

/-- The kernel takes a watch on the directory or, where it is missing, on its nearest
ancestor that exists. -/
def watchable (watch : Bytes → WatchAnswer) (path : Bytes) : Bool :=
  match watch path with
  | .watched _ => true
  | .failed => false
  | .noent => ipWatchParent watch path ≠ some none

/-- The directory is watched already or can be. -/
def CanWatch (state : Backend) (sub : IhSub) (watch : Bytes → WatchAnswer) : Prop :=
  state.pathDirHash sub.dirname ≠ none ∨ watchable watch sub.dirname = true

/-- Every subscription that the loop has stopped can be watched in the state it finds. -/
def Resubscribable (answers : IhSub → Bytes → WatchAnswer) : Backend → List IhSub → Prop
  | _, [] => True
  | state, sub :: subs =>
    CanWatch (ipStopWatching state sub) sub (answers sub) ∧
      ∀ after ∈ ipStartWatching (ipStopWatching state sub) sub (answers sub),
        Resubscribable answers after.1 subs

/-- If the dispatch of an event returns, its resubscriptions have met the condition. -/
def RestartGuard (state : Backend) : Input → Prop
  | .event event answers =>
    ¬ event.has inIgnored → event.has ipInotifyMask →
      let forwarded := forwardAll state (state.wdDirHash event.wd) (pairDirs state event) event
      let subs := resubscriptionList state (state.wdDirHash event.wd) event.toIkReport
      (resubscribe answers forwarded subs).isSome → Resubscribable answers forwarded subs
  | .addSubscription .. | .cancel _ | .scanMissing .. | .inodeDeleted _ => True

instance (state : Backend) (sub : IhSub) (watch : Bytes → WatchAnswer) :
    Decidable (CanWatch state sub watch) :=
  inferInstanceAs (Decidable (_ ∨ _))

instance decidableResubscribable (answers : IhSub → Bytes → WatchAnswer) :
    (state : Backend) → (subs : List IhSub) → Decidable (Resubscribable answers state subs)
  | _, [] => .isTrue trivial
  | state, sub :: subs =>
    have := fun after => decidableResubscribable answers after subs
    inferInstanceAs (Decidable (_ ∧ ∀ after ∈ ipStartWatching (ipStopWatching state sub) sub
      (answers sub), Resubscribable answers after.1 subs))

instance (state : Backend) : (input : Input) → Decidable (RestartGuard state input)
  | .event _ _ => inferInstanceAs (Decidable (_ → _ → _ → _))
  | .addSubscription .. | .cancel _ | .scanMissing .. | .inodeDeleted _ => .isTrue trivial

theorem ipStartWatching_result {state after : Backend} {sub : IhSub}
    {watch : Bytes → WatchAnswer} {result : Bool}
    (started : ipStartWatching state sub watch = some (after, result)) :
    result = true ↔ CanWatch state sub watch := by
  simp only [ipStartWatching] at started
  simp only [CanWatch, watchable]
  -- an object is there, or the directory can be watched, or an ancestor in its place
  cases mapped : state.pathDirHash sub.dirname with
  | some address =>
    simp only [mapped] at started
    cases started
    simp
  | none =>
    simp only [mapped] at started
    cases answer : watch sub.dirname with
    | watched inode =>
      simp only [answer] at started
      cases started
      simp
    | failed =>
      simp only [answer] at started
      cases started
      simp
    | noent =>
      simp only [answer] at started
      cases parent : ipWatchParent watch sub.dirname with
      | none =>
        simp only [parent] at started
        contradiction
      | some found =>
        cases found with
        | none =>
          simp only [parent] at started
          cases started
          simp
        | some found =>
          simp only [parent] at started
          cases started
          simp

/-! ## The loop -/

/-- What the resubscription loop does to the places of the subscriptions. -/
structure Restarted (answers : IhSub → Bytes → WatchAnswer) (subs : List IhSub)
    (state after : Backend) : Prop where
  missing : after.missingSubList = state.missingSubList
  running : after.scanMissingRunning = state.scanMissingRunning
  subList : after.subList = state.subList
  others : ∀ other, other ∉ subs →
    (after.subDirHash other ≠ none ↔ state.subDirHash other ≠ none)
  restarted : (∀ sub ∈ subs, after.subDirHash sub ≠ none) ↔ Resubscribable answers state subs

theorem WellFormed.restarted {answers : IhSub → Bytes → WatchAnswer} {subs : List IhSub}
    {state after : Backend} (wellFormed : WellFormed state)
    (known : ∀ sub ∈ subs, sub ∉ state.missingSubList ∧ sub ∈ state.subList) (once : subs.Nodup)
    (done : Inotify.resubscribe answers state subs = some after) :
    Restarted answers subs state after := by
  induction subs generalizing state with
  | nil =>
    cases done
    exact ⟨rfl, rfl, rfl, fun _ _ => .rfl, by simp [Resubscribable]⟩
  | cons first subs inductionHypothesis =>
    obtain ⟨firstUnlisted, once⟩ := List.nodup_cons.mp once
    simp only [Inotify.resubscribe] at done
    split at done
    case h_1 => contradiction
    case h_2 next result started =>
      obtain ⟨nextWellFormed, missing, subList⟩ :=
        wellFormed.resubscribeOne (known first List.mem_cons_self) started
      have knownNext : ∀ sub ∈ subs, sub ∉ next.missingSubList ∧ sub ∈ next.subList := by
        intro sub member
        rw [missing, subList]
        exact known sub (List.mem_cons_of_mem _ member)
      have rest := inductionHypothesis nextWellFormed knownNext once done
      have running : next.scanMissingRunning = state.scanMissingRunning := by
        rw [ipStartWatching_running started, ipStopWatching_running wellFormed.toLinked]
      have places := ipStartWatching_subDirHash started
      simp only [ipStopWatching_subDirHash state wellFormed.toLinked] at places
      refine ⟨rest.missing.trans missing, rest.running.trans running,
        rest.subList.trans subList, ?_, ?_⟩
      · intro other unlisted
        simp only [List.mem_cons, not_or] at unlisted
        obtain ⟨different, unlisted⟩ := unlisted
        rw [rest.others other unlisted, places other, Function.update_of_ne different]
        simp [different]
      · -- the rest of the loop leaves the first one where its own turn has put it
        have firstPlaced : after.subDirHash first ≠ none ↔ result = true := by
          rw [rest.others first firstUnlisted, places first, Function.update_self]
          simp
        rw [List.forall_mem_cons, firstPlaced, rest.restarted, Resubscribable, started,
          ipStartWatching_result started]
        simp

/-! ## Operations -/

/-- A deletion moves the subscriptions of a directory to the missing list. -/
theorem Deleted.held_iff {addresses : List Pointer} {before after : Backend}
    (deleted : Deleted addresses before after) (sub : IhSub) :
    Held after sub ↔ Held before sub := by
  simp only [Held, deleted.missing, Option.ne_none_iff_exists', deleted.subDirHash]
  constructor
  · rintro (⟨address, _, mapped⟩ | missing | ⟨address, _, mapped⟩)
    · exact .inl ⟨address, mapped⟩
    · exact .inr missing
    · exact .inl ⟨address, mapped⟩
  · rintro (⟨address, mapped⟩ | missing)
    · by_cases member : address ∈ addresses
      · exact .inr (.inr ⟨address, member, mapped⟩)
      · exact .inl ⟨address, member, mapped⟩
    · exact .inr (.inl missing)

theorem WellFormed.allHeld_unmapWd {state : Backend} (wellFormed : WellFormed state) (wd : Nat) :
    AllHeld (Inotify.ipUnmapWd ((state.wdDirHash wd).foldl ipWdDelete state) wd) ↔
      AllHeld state := by
  have deleted := wellFormed.toLinked.deleted wd
  have same : ∀ sub, Held (Inotify.ipUnmapWd ((state.wdDirHash wd).foldl ipWdDelete state) wd) sub ↔
      Held state sub := fun sub => deleted.held_iff sub
  have subList : (Inotify.ipUnmapWd ((state.wdDirHash wd).foldl ipWdDelete state) wd).subList =
      state.subList := deleted.subList
  simp only [AllHeld, subList, same]

/-- The dispatch leaves everyone in a place exactly when its loop meets the condition. -/
theorem WellFormed.allHeld_dispatch {state after : Backend} (wellFormed : WellFormed state)
    (held : AllHeld state) {pairDirList : List Pointer} {event : IkEvent}
    {answers : IhSub → Bytes → WatchAnswer}
    (done : Inotify.ipEventDispatch state (state.wdDirHash event.wd) pairDirList event answers =
      some after) :
    AllHeld after ↔
      Resubscribable answers (Inotify.forwardAll state (state.wdDirHash event.wd) pairDirList event)
        (Inotify.resubscriptionList state (state.wdDirHash event.wd) event.toIkReport) := by
  have known := wellFormed.resubscriptionList (state.wdDirHash event.wd) event.toIkReport
  have once := resubscriptionList_nodup wellFormed.toLinked event.wd event.toIkReport
  have restarted := (wellFormed.forwardAll (state.wdDirHash event.wd) pairDirList event).restarted
    known once done
  have missing : after.missingSubList = state.missingSubList := restarted.missing
  have subList : after.subList = state.subList := restarted.subList
  rw [← restarted.restarted]
  constructor
  · intro heldAfter sub member
    obtain ⟨notMissing, listed⟩ := known sub member
    rw [← missing] at notMissing
    rw [← subList] at listed
    exact (heldAfter sub listed).resolve_right notMissing
  · intro attached sub listed
    by_cases member : sub ∈ Inotify.resubscriptionList state (state.wdDirHash event.wd) event.toIkReport
    · exact .inl (attached sub member)
    · rw [subList] at listed
      simp only [Held, missing, restarted.others sub member]
      exact held sub listed

theorem WellFormed.allHeld_event {state after : Backend} (wellFormed : WellFormed state)
    (held : AllHeld state) {event : IkEvent} {answers : IhSub → Bytes → WatchAnswer}
    (done : Inotify.ipEventCallback state event answers = some after) :
    AllHeld after ↔ RestartGuard state (.event event answers) := by
  simp only [Inotify.ipEventCallback] at done
  split at done
  case isTrue ignored =>
    cases done
    exact ⟨fun _ notIgnored => absurd ignored notIgnored, fun _ => held⟩
  case isFalse notIgnored =>
    obtain ⟨dispatched, ran, rfl⟩ := Option.map_eq_some_iff.mp done
    have kept : WellFormed dispatched ∧
        (AllHeld dispatched ↔ RestartGuard state (.event event answers)) := by
      split at ran
      case isTrue interesting =>
        refine ⟨wellFormed.ipEventDispatch ran, (wellFormed.allHeld_dispatch held ran).trans ?_⟩
        have returned := Option.isSome_of_eq_some ran
        exact ⟨fun met _ _ _ => met, fun guard => guard notIgnored interesting returned⟩
      case isFalse uninteresting =>
        cases ran
        exact ⟨wellFormed, fun _ _ interesting => absurd interesting uninteresting, fun _ => held⟩
    split
    · rw [kept.1.allHeld_unmapWd]
      exact kept.2
    · exact kept.2

theorem AllHeld.ihSubAdd {state after : Backend} (held : AllHeld state) {sub : IhSub}
    {watch : Bytes → WatchAnswer} (done : ihSubAdd state sub watch = some after) :
    AllHeld after := by
  simp only [Inotify.ihSubAdd] at done
  split at done
  case isTrue => contradiction
  case isFalse unlisted =>
    split at done
    case h_1 => contradiction
    case h_2 started result ran =>
      obtain ⟨missing, subList, _⟩ := ipStartWatching_frame ran
      have attached := ipStartWatching_subDirHash ran
      cases done
      cases result with
      | true =>
        intro other listed
        simp only [if_true, subList] at listed
        simp only [Held, if_true, missing, attached]
        cases List.mem_cons.mp listed with
        | inl same => exact .inl (.inr ⟨same, trivial⟩)
        | inr listed => exact (held other listed).imp .inl id
      | false =>
        -- nothing can be watched, so it goes to the missing list
        have added : ∀ other, other ∈ (imAdd started sub).missingSubList ↔
            other = sub ∨ other ∈ state.missingSubList := by
          intro other
          simp only [imAdd]
          split
          case isTrue already =>
            rw [missing] at already ⊢
            exact ⟨.inr, fun member => member.elim (fun same => same ▸ already) id⟩
          case isFalse => simp [missing]
        have sameMap : (imAdd started sub).subDirHash = started.subDirHash := by
          simp only [imAdd]
          split <;> rfl
        have sameList : (imAdd started sub).subList = started.subList := by
          simp only [imAdd]
          split <;> rfl
        intro other listed
        simp only [Bool.false_eq_true, if_false, sameList, subList] at listed
        simp only [Held, Bool.false_eq_true, if_false, sameMap, added, attached]
        cases List.mem_cons.mp listed with
        | inl same => exact .inr (.inl same)
        | inr listed => exact (held other listed).imp .inl .inr

/-- The scan keeps every attachment and attaches those that are no longer missing. -/
theorem scanLoop_places {answers : IhSub → Bytes → WatchAnswer} {view : IhSub → FsView}
    {subs missing : List IhSub} {state final : Backend}
    (done : scanLoop answers view state subs = some (final, missing)) :
    final.subList = state.subList ∧ final.scanMissingRunning = state.scanMissingRunning ∧
      (∀ sub, state.subDirHash sub ≠ none → final.subDirHash sub ≠ none) ∧
      ∀ sub ∈ subs, final.subDirHash sub ≠ none ∨ sub ∈ missing := by
  induction subs generalizing state missing with
  | nil =>
    cases done
    exact ⟨rfl, rfl, fun _ attached => attached, by simp⟩
  | cons first subs inductionHypothesis =>
    simp only [Inotify.scanLoop] at done
    split at done
    case h_1 => contradiction
    case h_2 next started =>
      obtain ⟨⟨last, rest⟩, ran, same⟩ := Option.map_eq_some_iff.mp done
      cases same
      obtain ⟨subList, running, stays, places⟩ := inductionHypothesis ran
      refine ⟨subList.trans (ipStartWatching_frame started).2.1,
        running.trans (ipStartWatching_running started), ?_, ?_⟩
      · -- an attachment is never lost on the way
        intro sub attached
        exact stays sub ((ipStartWatching_subDirHash started sub).mpr (.inl attached))
      · intro sub member
        cases List.mem_cons.mp member with
        | inl same => exact .inr (by rw [same]; exact List.mem_cons_self)
        | inr member => exact (places sub member).imp id (List.mem_cons_of_mem first)
    case h_3 next started =>
      obtain ⟨subList, running, stays, places⟩ := inductionHypothesis done
      have startedSubList : next.subList = state.subList := (ipStartWatching_frame started).2.1
      have startedRunning := ipStartWatching_running started
      refine ⟨subList.trans startedSubList, running.trans startedRunning, ?_, ?_⟩
      · intro sub attached
        exact stays sub ((ipStartWatching_subDirHash started sub).mpr (.inl attached))
      · intro sub member
        cases List.mem_cons.mp member with
        | inl same =>
          exact .inl (stays sub ((ipStartWatching_subDirHash started sub).mpr (.inr ⟨same, rfl⟩)))
        | inr member => exact places sub member

/-! ## Runs -/

/-- What every step keeps: the tables agree, no subscription is on the list of all twice, and
the missing list is scanned. -/
structure Orderly (state : Backend) : Prop extends WellFormed state where
  subListOnce : state.subList.Nodup
  scheduled : ScanScheduled state

theorem orderly_new : Orderly .new :=
  { wellFormed_new with subListOnce := List.nodup_nil, scheduled := fun some => absurd rfl some }

theorem Orderly.ihSubAdd {state after : Backend} (orderly : Orderly state) {sub : IhSub}
    {watch : Bytes → WatchAnswer} (done : Inotify.ihSubAdd state sub watch = some after) :
    Orderly after := by
  have kept := orderly.toWellFormed.ihSubAdd done
  simp only [Inotify.ihSubAdd] at done
  split at done
  case isTrue => contradiction
  case isFalse unlisted =>
    split at done
    case h_1 => contradiction
    case h_2 started result ran =>
      obtain ⟨missing, subList, _⟩ := ipStartWatching_frame ran
      have running := ipStartWatching_running ran
      have scheduled : ScanScheduled started := by
        simp only [ScanScheduled, missing, running]
        exact orderly.scheduled
      have sameList : (imAdd started sub).subList = started.subList := by
        simp only [imAdd]
        split <;> rfl
      cases done
      cases result with
      | true =>
        refine { kept with subListOnce := ?_, scheduled := scheduled }
        simpa only [if_true, subList] using List.nodup_cons.mpr ⟨unlisted, orderly.subListOnce⟩
      | false =>
        refine { kept with subListOnce := ?_, scheduled := scheduled.imAdd sub }
        simpa only [Bool.false_eq_true, if_false, sameList, subList] using
          List.nodup_cons.mpr ⟨unlisted, orderly.subListOnce⟩

theorem Orderly.ihSubCancel {state : Backend} (orderly : Orderly state) (sub : IhSub) :
    Orderly (Inotify.ihSubCancel state sub) ∧
      (AllHeld state → AllHeld (Inotify.ihSubCancel state sub)) := by
  have kept := orderly.toWellFormed.ihSubCancel sub
  revert kept
  simp only [Inotify.ihSubCancel]
  split
  case isFalse => exact fun _ => ⟨orderly, id⟩
  case isTrue listed =>
    intro kept
    -- it leaves the missing list first, then its object
    have linked : Linked (imRm state sub).toWatchTables := orderly.toLinked
    have frame := ipStopWatching_frame (imRm state sub) sub
    have missing : (ipStopWatching (imRm state sub) sub).missingSubList =
        state.missingSubList.erase sub := frame.1
    have subList : (ipStopWatching (imRm state sub) sub).subList = state.subList := frame.2.1
    have running : (ipStopWatching (imRm state sub) sub).scanMissingRunning =
        state.scanMissingRunning := ipStopWatching_running linked sub
    have places : (ipStopWatching (imRm state sub) sub).subDirHash =
        Function.update state.subDirHash sub none := ipStopWatching_subDirHash _ linked sub
    refine ⟨{ kept with subListOnce := ?_, scheduled := ?_ }, ?_⟩
    · simp only [subList]
      exact orderly.subListOnce.erase sub
    · intro some
      simp only [missing] at some
      simp only [running]
      exact orderly.scheduled fun none => some (by rw [none]; rfl)
    · intro held other stays
      simp only [subList] at stays
      obtain ⟨different, listed⟩ := orderly.subListOnce.mem_erase_iff.mp stays
      simp only [Held, missing, places, Function.update_of_ne different,
        List.mem_erase_of_ne different]
      exact held other listed

theorem Orderly.ipEventCallback {state after : Backend} (orderly : Orderly state)
    {event : IkEvent} {answers : IhSub → Bytes → WatchAnswer}
    (done : Inotify.ipEventCallback state event answers = some after) : Orderly after := by
  have kept := orderly.toWellFormed.ipEventCallback done
  simp only [Inotify.ipEventCallback] at done
  split at done
  · cases done
    exact orderly
  · obtain ⟨dispatched, ran, rfl⟩ := Option.map_eq_some_iff.mp done
    -- the dispatch moves subscriptions, but none to the missing list
    have same : dispatched.missingSubList = state.missingSubList ∧
        dispatched.scanMissingRunning = state.scanMissingRunning ∧
        dispatched.subList = state.subList ∧ WellFormed dispatched := by
      split at ran
      · have known := orderly.resubscriptionList (state.wdDirHash event.wd) event.toIkReport
        have once := resubscriptionList_nodup orderly.toLinked event.wd event.toIkReport
        have restarted := (orderly.forwardAll (state.wdDirHash event.wd) (pairDirs state event)
          event).restarted known once ran
        exact ⟨restarted.missing, restarted.running, restarted.subList,
          orderly.ipEventDispatch ran⟩
      · cases ran
        exact ⟨rfl, rfl, rfl, orderly.toWellFormed⟩
    obtain ⟨missing, running, subList, wellFormed⟩ := same
    have scheduled : ScanScheduled dispatched := by
      simp only [ScanScheduled, missing, running]
      exact orderly.scheduled
    refine { kept with subListOnce := ?_, scheduled := ?_ }
    · split
      · have deleted := (wellFormed.toLinked.deleted event.wd).subList
        simp only [ipUnmapWd, deleted, subList]
        exact orderly.subListOnce
      · rw [subList]
        exact orderly.subListOnce
    · split
      · have moved : ScanScheduled ((dispatched.wdDirHash event.wd).foldl ipWdDelete dispatched) :=
          scheduled.foldl_ipWdDelete
        exact moved
      · exact scheduled

theorem Orderly.imScanMissing {state after : Backend} (orderly : Orderly state)
    {answers : IhSub → Bytes → WatchAnswer} {view : IhSub → FsView}
    (done : Inotify.imScanMissing state answers view = some after) :
    Orderly after ∧ (AllHeld state → AllHeld after) := by
  have kept := orderly.toWellFormed.imScanMissing done
  simp only [Inotify.imScanMissing, Option.map_eq_some_iff] at done
  obtain ⟨⟨final, missing⟩, ran, rfl⟩ := done
  obtain ⟨subList, running, stays, places⟩ := scanLoop_places ran
  have shorter := (orderly.toLinked.scanLoop orderly.missingOnce orderly.missingDetached ran).2.2.1
  refine ⟨{ kept with subListOnce := ?_, scheduled := ?_ }, ?_⟩
  · simp only [subList]
    exact orderly.subListOnce
  · intro some
    simp only [if_neg some, running]
    -- who is missing after the scan was missing before
    exact orderly.scheduled fun none => some (List.sublist_nil.mp (by rwa [none] at shorter))
  · intro held sub listed
    simp only [subList] at listed
    cases held sub listed with
    | inl attached => exact .inl (stays sub attached)
    | inr member => exact places sub member

theorem Orderly.step {state after : Backend} (orderly : Orderly state) {input : Input}
    (done : Inotify.step state input = some after) : Orderly after := by
  cases input with
  | addSubscription address sub watch view =>
    simp only [Inotify.step, gamInotifyAddSubscription, Option.map_eq_some_iff] at done
    obtain ⟨added, ran, rfl⟩ := done
    exact { orderly.ihSubAdd ran with }
  | cancel sub =>
    cases done
    exact (orderly.ihSubCancel sub).1
  | event event answers =>
    simp only [Inotify.step, Option.map_eq_some_iff] at done
    obtain ⟨dispatched, ran, rfl⟩ := done
    have kept := orderly.ipEventCallback ran
    split
    · exact { kept with }
    · exact kept
  | scanMissing answers view => exact (orderly.imScanMissing done).1
  | inodeDeleted inode =>
    cases done
    exact { orderly with }

/-- A step leaves everyone in a place exactly when it meets the condition. -/
theorem Orderly.allHeld_step {state after : Backend} (orderly : Orderly state)
    (held : AllHeld state) {input : Input} (done : Inotify.step state input = some after) :
    AllHeld after ↔ RestartGuard state input := by
  cases input with
  | addSubscription address sub watch view =>
    simp only [Inotify.step, gamInotifyAddSubscription, Option.map_eq_some_iff] at done
    obtain ⟨added, ran, rfl⟩ := done
    have kept : AllHeld added := held.ihSubAdd ran
    exact ⟨fun _ => trivial, fun _ => kept⟩
  | cancel sub =>
    cases done
    exact ⟨fun _ => trivial, fun _ => (orderly.ihSubCancel sub).2 held⟩
  | event event answers =>
    simp only [Inotify.step, Option.map_eq_some_iff] at done
    obtain ⟨dispatched, ran, rfl⟩ := done
    rw [← orderly.allHeld_event held ran]
    split <;> rfl
  | scanMissing answers view =>
    exact ⟨fun _ => trivial, fun _ => (orderly.imScanMissing done).2 held⟩
  | inodeDeleted inode =>
    cases done
    exact ⟨fun _ => trivial, fun _ => held⟩

/-- A run keeps every subscription in exactly one of the two places if and only if every
resubscription in it finds a directory that can be watched. -/
theorem partitioned_iff_restarts_watched (inputs : List Input) :
    Throughout (partialStep step) (IfAny Partitioned) (some .new) inputs ↔
      Guarded (partialStep step) (GuardIfAny RestartGuard) (some .new) inputs := by
  have held : AllHeld .new := fun sub listed => by simp [Backend.new] at listed
  refine throughout_iff_guarded_partial Orderly (fun _ _ _ orderly done => orderly.step done)
    ?_ ?_ orderly_new ((wellFormed_new.partitioned_iff orderly_new.scheduled).mpr held) inputs
  · intro state input stuck
    cases input with
    | event event answers =>
      intro notIgnored interesting forwarded subs returned
      simp only [Inotify.step, Inotify.ipEventCallback, if_neg notIgnored, if_pos interesting,
        Option.map_eq_none_iff, ipEventDispatch] at stuck
      rw [stuck] at returned
      contradiction
    | _ => trivial
  · intro state input after orderly partitioned done
    have before := (orderly.partitioned_iff orderly.scheduled).mp partitioned
    have orderlyAfter := orderly.step done
    rw [orderlyAfter.partitioned_iff orderlyAfter.scheduled]
    exact orderly.allHeld_step before done

/-! ## A run that loses a subscription -/

/-- A subscription waits for the missing `/a/b` in `/a`; the directory is created, and the
kernel refuses the watch on it. -/
def refusedRestart : List Input :=
  let sub := directorySubscription 1 [47, 97, 47, 98] 1
  [.addSubscription 2 sub (watchIn [([47, 97], 1)]) emptyView,
    .event { wd := 1, mask := inCreate ||| inIsdir, name := [98], pair := none }
      fun _ path => if path = [47, 97, 47, 98] then .failed else watchIn [([47, 97], 1)] path]

/-- The subscription is attached nowhere and nobody looks for it. -/
theorem refusedRestart_lost :
    ¬ Throughout (partialStep step) (IfAny Partitioned) (some .new) refusedRestart := by
  intro throughout
  have last := throughout.last
  let sub := directorySubscription 1 [47, 97, 47, 98] 1
  let waiting := ihSubNew 2 sub.path true sub
  have final : (run (partialStep step) (some .new) refusedRestart).map
      (fun state => (state.subList, state.missingSubList, state.subDirHash waiting)) =
      some ([waiting], [], none) := by decide +kernel
  obtain ⟨state, reached, parts⟩ := Option.map_eq_some_iff.mp final
  rw [reached] at last
  simp only [Prod.mk.injEq] at parts
  obtain ⟨subList, missing, unmapped⟩ := parts
  cases last.placed waiting (by rw [subList]; exact List.mem_singleton_self _) with
  | inl attached =>
    obtain ⟨⟨address, dir, mapped, _⟩, _⟩ := attached
    rw [unmapped] at mapped
    contradiction
  | inr waits =>
    rw [missing] at waits
    exact absurd waits.2 (by simp)

end Gamin.Inotify
