import Gamin.Inotify.Partition

/-! # Events are about the path they name

An event that is forwarded is given the path of the directory that the subscription would
like to watch, not of the one the kernel reported on, and a scan takes a subscription for
found as soon as anything can be watched in its place.  The events are right as long as the
forwarded ones go to subscriptions that are attached to their own directory, and the
subscriptions that a scan finds are there.
-/

namespace Gamin.Inotify

open Gamin Gamin.Server Gamin.Library

/-- The event happened to the path it names: the name in the directory that the kernel
reported on, or the subscribed path that was there when it was reported as created. -/
def Sound (report : Report) : Prop :=
  match report.cause with
  | .initial => True
  | .forwarded directory name => report.emission.path = directory ++ slash :: name
  | .found present => report.emission.event = .created → present = true

instance : DecidablePred Sound := fun report =>
  match cause : report.cause with
  | .initial => .isTrue (by simp [Sound, cause])
  | .forwarded directory name =>
    decidable_of_iff (report.emission.path = directory ++ slash :: name) (by simp [Sound, cause])
  | .found present =>
    decidable_of_iff (report.emission.event = .created → present = true) (by simp [Sound, cause])

def AllSound (state : Backend) : Prop := ∀ report ∈ state.sent, Sound report

instance (state : Backend) : Decidable (AllSound state) :=
  inferInstanceAs (Decidable (∀ report ∈ state.sent, Sound report))

/-! ## Who is left out -/

/-- A subscription that waits in the directory for another one is left out: the event is about a name other than
that of its file, or about the way to its directory. -/
def leavesOut (dir : IpWatchedDir) (event : IkReport) (sub : IhSub) : Bool :=
  ¬ nameMatches event sub ∨ (eventPath dir event).isPrefixOf sub.dirname

/-- Nothing happens in a directory that those who wait there would be told. -/
def WaitGuard (state : Backend) (event : IkEvent) : Prop :=
  (∀ dir ∈ dirsOf state (state.wdDirHash event.wd), ∀ sub ∈ dir.subs,
    sub.dirname ≠ dir.path → leavesOut dir event.toIkReport sub = true) ∧
  ∀ pair ∈ event.pair, ∀ dir ∈ dirsOf state (state.wdDirHash pair.wd), ∀ sub ∈ dir.subs,
    sub.dirname ≠ dir.path → nameMatches pair sub = false

def WatchAnswer.isWatched : WatchAnswer → Bool
  | .watched _ => true
  | _ => false

/-- If a scan takes the subscription for found, it is: what passes the test of `ih_found_callback`, as every
directory does, is there. -/
def ThereIfFound (view : FsView) (sub : IhSub) : Prop :=
  foundTest view sub = true → view.present sub.usersubdata.path = true

/-- Nothing can be watched in its place, and nobody else can watch its directory either. -/
def OutOfReach (answers : IhSub → Bytes → WatchAnswer) (state : Backend) (sub : IhSub) : Prop :=
  ¬ CanWatch state sub (answers sub) ∧ ∀ other ∈ state.missingSubList, (answers other sub.dirname).isWatched = false

def ReportGuard (state : Backend) : Input → Prop
  | .event event _ => ¬ event.has inIgnored → event.has ipInotifyMask → WaitGuard state event
  | .scanMissing answers view =>
    ∀ sub ∈ state.missingSubList, ThereIfFound (view sub) sub ∨ OutOfReach answers state sub
  | .addSubscription .. | .cancel _ | .inodeDeleted _ => True

instance (state : Backend) (event : IkEvent) : Decidable (WaitGuard state event) :=
  inferInstanceAs (Decidable (_ ∧ ∀ pair ∈ event.pair, _))

instance (view : FsView) (sub : IhSub) : Decidable (ThereIfFound view sub) :=
  inferInstanceAs (Decidable (_ → _))

instance (answers : IhSub → Bytes → WatchAnswer) (state : Backend) (sub : IhSub) :
    Decidable (OutOfReach answers state sub) :=
  inferInstanceAs (Decidable (_ ∧ _))

instance (state : Backend) : (input : Input) → Decidable (ReportGuard state input)
  | .event _ _ => inferInstanceAs (Decidable (_ → _ → _))
  | .scanMissing _ _ => inferInstanceAs (Decidable (∀ sub ∈ state.missingSubList, _))
  | .addSubscription .. | .cancel _ | .inodeDeleted _ => .isTrue trivial

/-! ## Forwarded events -/

theorem mem_ihEventCallback {event : IkReport} {sub : IhSub} {emission : Emission}
    (member : emission ∈ ihEventCallback event sub) :
    emission.path = sub.dirname ++ slash :: event.name := by
  obtain ⟨_, rfl⟩ := mem_gamServerEmitOneEvent.mp member
  rfl

theorem dispatchToSub_path {dir : IpWatchedDir} {event : IkReport} {sub : IhSub}
    (waits : sub.dirname ≠ dir.path → leavesOut dir event sub = true)
    {emission : Emission} (member : emission ∈ dispatchToSub dir event sub) :
    emission.path = dir.path ++ slash :: event.name := by
  unfold dispatchToSub at member
  split at member
  case isTrue => contradiction
  case isFalse matched =>
    split at member
    case isTrue =>
      split at member
      case isTrue => exact mem_ihEventCallback member
      case isFalse => contradiction
    case isFalse notPrefix =>
      -- it is not left out, so it does not wait here
      have own : sub.dirname = dir.path := by
        by_contra elsewhere
        exact (of_decide_eq_true (waits elsewhere)).elim matched notPrefix
      rw [mem_ihEventCallback member, own]

theorem dispatchPairToSub_path {dir : IpWatchedDir} {pair : IkReport} {sub : IhSub}
    (waits : sub.dirname ≠ dir.path → nameMatches pair sub = false)
    {emission : Emission} (member : emission ∈ dispatchPairToSub pair sub) :
    emission.path = dir.path ++ slash :: pair.name := by
  unfold dispatchPairToSub at member
  split at member
  case isTrue matched =>
    have own : sub.dirname = dir.path := by
      by_contra elsewhere
      exact Bool.noConfusion ((waits elsewhere).symm.trans matched)
    rw [mem_ihEventCallback member, own]
  case isFalse => contradiction

theorem forwardedReports_sound {state : Backend} {event : IkEvent} (guard : WaitGuard state event) :
    ∀ report ∈ forwardedReports state (state.wdDirHash event.wd) (pairDirs state event) event,
      Sound report := by
  intro report member
  rcases List.mem_append.mp member with first | second
  · simp only [List.mem_flatMap, List.mem_map] at first
    obtain ⟨dir, dirMember, sub, subMember, emission, forwarded, rfl⟩ := first
    exact dispatchToSub_path (guard.1 dir dirMember sub subMember) forwarded
  · cases paired : event.pair with
    | none => simp [paired] at second
    | some pair =>
      simp only [paired, pairDirs, Option.map_some, Option.getD_some, List.mem_flatMap,
        List.mem_map] at second
      obtain ⟨dir, dirMember, sub, subMember, emission, forwarded, rfl⟩ := second
      exact dispatchPairToSub_path (guard.2 pair paired dir dirMember sub subMember) forwarded

/-! ## What does not emit -/

theorem ipEventDispatch_sent {state after : Backend} {dirList pairDirList : List Pointer}
    {event : IkEvent} {answers : IhSub → Bytes → WatchAnswer}
    (done : ipEventDispatch state dirList pairDirList event answers = some after) :
    after.sent = state.sent ++ forwardedReports state dirList pairDirList event :=
  (resubscribe_frame done).2

theorem ihSubAdd_sent {state after : Backend} {sub : IhSub} {watch : Bytes → WatchAnswer}
    (done : ihSubAdd state sub watch = some after) : after.sent = state.sent := by
  unfold ihSubAdd at done
  split at done
  case isTrue => contradiction
  case isFalse =>
    split at done
    case h_1 => contradiction
    case h_2 started result ran =>
      cases done
      have sent := (ipStartWatching_frame ran).2.2
      cases result with
      | true => exact sent
      | false =>
        simp only [Bool.false_eq_true, if_false, imAdd]
        split <;> exact sent

theorem ihSubCancel_sent (state : Backend) (sub : IhSub) :
    (ihSubCancel state sub).sent = state.sent := by
  unfold ihSubCancel
  split
  · exact (ipStopWatching_frame (imRm state sub) sub).2.2
  · rfl

/-! ## Scans -/

/-- The ancestor that is found can be watched. -/
theorem ipWatchParent_watched {watch : Bytes → WatchAnswer} {path parent : Bytes} {inode : Nat}
    (found : ipWatchParent watch path = some (some (parent, inode))) : watch parent = .watched inode := by
  induction size : path.length using Nat.strong_induction_on generalizing path with
  | _ size inductionHypothesis =>
    rw [ipWatchParent] at found
    split at found
    case h_1 => cases found
    case h_2 above cut =>
      cases answer : watch above with
      | watched other =>
        simp only [answer, Option.some.injEq, Prod.mk.injEq] at found
        obtain ⟨rfl, rfl⟩ := found
        exact answer
      | failed => simp [answer] at found
      | noent =>
        simp only [answer] at found
        split at found
        case isTrue => contradiction
        case isFalse different =>
          exact inductionHypothesis _ (size ▸ parentPath_shorter cut different) found rfl

/-- A directory that cannot be watched does not get an object. -/
theorem ipStartWatching_pathDirHash {state after : Backend} {sub : IhSub} {watch : Bytes → WatchAnswer} {result : Bool}
    (started : ipStartWatching state sub watch = some (after, result)) {path : Bytes}
    (unwatched : (watch path).isWatched = false) : after.pathDirHash path = state.pathDirHash path := by
  rcases ipStartWatching_cases started with ⟨address, _, rfl, _⟩ | ⟨other, inode, _, answer, rfl, _⟩ | ⟨rfl, _⟩
  · rfl
  · have watched : watch other = .watched inode := answer.elim And.right fun parent => ipWatchParent_watched parent.2
    have different : path ≠ other := by
      rintro rfl
      rw [watched] at unwatched
      contradiction
    exact Function.update_of_ne different _ _
  · rfl

theorem ihFoundCallback_there {view : FsView} {sub : IhSub} (there : ThereIfFound view sub)
    {emission : Emission} (member : emission ∈ ihFoundCallback view sub) :
    view.present sub.usersubdata.path = true := by
  unfold ihFoundCallback at member
  split at member
  case isFalse => contradiction
  case isTrue passed => exact there passed

theorem AllSound.append {state : Backend} (sound : AllSound state) {reports : List Report}
    (new : ∀ report ∈ reports, Sound report) :
    ∀ report ∈ state.sent ++ reports, Sound report := by
  intro report member
  rcases List.mem_append.mp member with old | fresh
  · exact sound report old
  · exact new report fresh

/-- Those that are left of the scan are there, or as far out of reach as they were. -/
def ScanReady (answers : IhSub → Bytes → WatchAnswer) (view : IhSub → FsView) (state : Backend)
    (subs : List IhSub) : Prop :=
  ∀ sub ∈ subs, ThereIfFound (view sub) sub ∨
    ¬ CanWatch state sub (answers sub) ∧ ∀ other ∈ subs, (answers other sub.dirname).isWatched = false

theorem ScanReady.next {answers : IhSub → Bytes → WatchAnswer} {view : IhSub → FsView} {state after : Backend}
    {first : IhSub} {subs : List IhSub} (ready : ScanReady answers view state (first :: subs)) {result : Bool}
    (started : ipStartWatching state first (answers first) = some (after, result)) :
    ScanReady answers view after subs := by
  intro sub member
  refine (ready sub (List.mem_cons_of_mem _ member)).imp_right fun unreached => ?_
  obtain ⟨unwatched, others⟩ := List.forall_mem_cons.mp unreached.2
  refine ⟨?_, others⟩
  rw [CanWatch, ipStartWatching_pathDirHash started unwatched, ← CanWatch]
  exact unreached.1

theorem AllSound.scanLoop {answers : IhSub → Bytes → WatchAnswer} {view : IhSub → FsView}
    {subs missing : List IhSub} {state final : Backend} (sound : AllSound state)
    (ready : ScanReady answers view state subs)
    (done : scanLoop answers view state subs = some (final, missing)) : AllSound final := by
  induction subs generalizing state missing with
  | nil =>
    cases done
    exact sound
  | cons first subs inductionHypothesis =>
    simp only [Inotify.scanLoop] at done
    split at done
    case h_1 => contradiction
    case h_2 next started =>
      obtain ⟨⟨last, rest⟩, ran, same⟩ := Option.map_eq_some_iff.mp done
      cases same
      have sent := (ipStartWatching_frame started).2.2
      have nextSound : AllSound next := by
        rw [AllSound, sent]
        exact sound
      exact inductionHypothesis nextSound (ready.next started) ran
    case h_3 next started =>
      have sent := (ipStartWatching_frame started).2.2
      -- who could be attached is not out of reach
      have there : ThereIfFound (view first) first :=
        (ready first List.mem_cons_self).resolve_right fun unreached =>
          unreached.1 ((ipStartWatching_result started).mp rfl)
      have nextSound : AllSound (reportFound (view first) first next) := by
        rw [AllSound, reportFound, sent]
        apply sound.append
        intro report member
        obtain ⟨emission, emitted, rfl⟩ := List.mem_map.mp member
        exact fun _ => ihFoundCallback_there there emitted
      have nextReady : ScanReady answers view next subs := ready.next started
      exact inductionHypothesis nextSound nextReady done

/-! ## Runs -/

theorem AllSound.step {state after : Backend} (sound : AllSound state)
    (wellFormed : WellFormed state) {input : Input} (guard : ReportGuard state input)
    (done : step state input = some after) : AllSound after := by
  cases input with
  | addSubscription address sub watch view =>
    simp only [Inotify.step, gamInotifyAddSubscription, Option.map_eq_some_iff] at done
    obtain ⟨added, ran, rfl⟩ := done
    rw [AllSound, ihSubAdd_sent ran]
    apply sound.append
    -- what is sent at once are the initial events
    intro report member
    obtain ⟨emission, _, rfl⟩ := List.mem_map.mp member
    trivial
  | cancel sub =>
    cases done
    rw [AllSound, ihSubCancel_sent]
    exact sound
  | event event answers =>
    simp only [Inotify.step, Option.map_eq_some_iff] at done
    obtain ⟨dispatched, ran, rfl⟩ := done
    have kept : AllSound dispatched := by
      unfold ipEventCallback at ran
      split at ran
      case isTrue =>
        cases ran
        exact sound
      case isFalse notIgnored =>
        simp only [Option.map_eq_some_iff] at ran
        obtain ⟨middle, ran, rfl⟩ := ran
        have middleSound : AllSound middle ∧ WellFormed middle := by
          split at ran
          case isTrue interesting =>
            refine ⟨?_, wellFormed.ipEventDispatch ran⟩
            rw [AllSound, ipEventDispatch_sent ran]
            exact sound.append (forwardedReports_sound (guard notIgnored interesting))
          case isFalse =>
            cases ran
            exact ⟨sound, wellFormed⟩
        split
        case isTrue =>
          have sent := (middleSound.2.toLinked.deleted event.wd).sent
          rw [AllSound, ipUnmapWd, sent]
          exact middleSound.1
        case isFalse => exact middleSound.1
    split <;> exact kept
  | scanMissing answers view =>
    simp only [Inotify.step, imScanMissing, Option.map_eq_some_iff] at done
    obtain ⟨⟨final, missing⟩, ran, rfl⟩ := done
    have scanned := sound.scanLoop guard ran
    exact scanned
  | inodeDeleted inode =>
    cases done
    exact sound

/-- In every run in which nothing happens in a directory that those who wait there would be told, and a scan finds
subscriptions that are there, or can watch nothing for them, every event is about the path that it names. -/
theorem events_sound (inputs : List Input)
    (guarded : Guarded (partialStep step) (GuardIfAny ReportGuard) (some .new) inputs) :
    Throughout (partialStep step) (IfAny AllSound) (some .new) inputs := by
  have start : WellFormed .new ∧ AllSound .new :=
    ⟨wellFormed_new, fun report member => by simp [Backend.new] at member⟩
  have both : Throughout (partialStep step) (IfAny fun state => WellFormed state ∧ AllSound state)
      (some .new) inputs := by
    refine Throughout.of_partial ?_ start guarded
    rintro state input after ⟨wellFormed, sound⟩ guard done
    exact ⟨wellFormed.step done, sound.step wellFormed guard done⟩
  exact both.imp (IfAny.imp fun _ => And.right)

/-- A directory that cannot be watched is found by a scan; another subscription waits in it for a directory below,
and is told when that is created, and of a file that is created there. -/
def foundAgain : List Input :=
  [.addSubscription 2 (directorySubscription 1 [47, 97] 1) (fun _ => .failed) emptyView,
    .scanMissing (fun _ => watchIn [([47, 97], 1)])
      fun _ => { present := fun path => path = [47, 97], listing := fun _ => some [] },
    .addSubscription 4 (directorySubscription 3 [47, 97, 47, 98] 2) (watchIn [([47, 97], 1)]) emptyView,
    .event { wd := 1, mask := inCreate ||| inIsdir, name := [98], pair := none }
      fun _ => watchIn [([47, 97], 1), ([47, 97, 47, 98], 2)],
    .event { wd := 2, mask := inCreate, name := [120], pair := none }
      fun _ => watchIn [([47, 97], 1), ([47, 97, 47, 98], 2)]]

theorem foundAgain_sound :
    Throughout (partialStep step) (IfAny AllSound) (some .new) foundAgain :=
  events_sound foundAgain (by decide +kernel)

/-- A subscription waits for `/a/b` in `/a`, and `/a/x` is created. -/
def createdElsewhere : List Input :=
  [.addSubscription 2 (directorySubscription 1 [47, 97, 47, 98] 1) (watchIn [([47, 97], 1)])
      emptyView,
    .event { wd := 1, mask := inCreate, name := [120], pair := none }
      fun _ => watchIn [([47, 97], 1)]]

/-- It is told that `/a/b/x` was created. -/
theorem createdElsewhere_misnamed :
    ¬ Throughout (partialStep step) (IfAny AllSound) (some .new) createdElsewhere := by
  intro throughout
  exact absurd throughout.last (by decide +kernel)

end Gamin.Inotify
