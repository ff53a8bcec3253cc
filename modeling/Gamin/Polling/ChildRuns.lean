import Gamin.Polling.ChildRegistrations

/-! # The reports about a child in every run

The backend is called for one thing after the other.  As long as the scans find what they announce, and the other
clients neither put the child into the tree nor take it out, the reports about it alternate.
-/

namespace Gamin.Polling

open Gamin Gamin.Server Gamin.Inotify Gamin.Library

/-- The condition on one step while the subscription is at its directory.  Its object is not used for a new
subscription. -/
def ChildGuard (sub : GamSubscription) (name : Bytes) (state : BasicState) : BasicInput → Prop
  | .subscribe now other =>
    other ∉ state.subs → other ≠ sub ∧ (sub ∈ state.subs → RegistersBeside sub name state.poll now other)
  | .cancel other => other ∈ state.subs → other ≠ sub → sub ∈ state.subs → CancelsBeside sub name state.poll other
  | .tick now rounds =>
    state.scheduled = true → scanCallbackSafe (announceGuard sub name) state.poll now rounds = true

/-- What the subscription has been told of the child since there were so many emissions. -/
def ReportsAlternate (sub : GamSubscription) (name : Bytes) (since : Nat) (state : BasicState) : Prop :=
  Alternating false (childReports sub name (state.poll.sent.drop since))

instance (sub : GamSubscription) (name : Bytes) (since : Nat) : DecidablePred (ReportsAlternate sub name since) :=
  fun _ => inferInstanceAs (Decidable (Alternating _ _))

section

variable {sub : GamSubscription} {name : Bytes} {prior : List Emission} {state after : BasicState}

theorem InStep.reportsAlternate (inStep : InStep sub name prior state.poll) :
    ReportsAlternate sub name prior.length state := by
  obtain ⟨told, sent, alternating, -⟩ := inStep
  rw [ReportsAlternate, sent, List.drop_left]
  exact alternating

/-- Whoever is at a node has not been cancelled. -/
theorem Seated.mem_of_subsAt (seated : Seated state) {path : Bytes} (subscribed : sub ∈ subsAt state.poll path) :
    sub ∈ state.subs := by
  obtain ⟨node, found, listed⟩ := mem_subsAt.mp subscribed
  exact (seated.known node (gamTreeGetAtPath_mem found) sub listed).1

section

variable (listens : ListensTo sub) (entry : EntryName name)

include listens entry

/-- A call keeps what its operation keeps, and leaves no node that waits. -/
theorem Telling.step_of {guard : WriteGuard} {property : Poll → Prop} (rule : AnnounceRule guard property)
    (telling : Telling property noneWaits state.poll) {input : BasicInput} (stepped : state.step input = some after)
    (adds : ∀ {now other poll}, input = .subscribe now other → other ∉ state.subs →
      gamPollBasicAddSubscription state.poll now other = some poll → property poll)
    (removes : ∀ {other poll}, input = .cancel other → other ∈ state.subs →
      gamPollBasicRemoveSubscription state.poll other = some poll → property poll)
    (safe : ∀ {now rounds}, input = .tick now rounds → state.scheduled = true →
      scanCallbackSafe guard state.poll now rounds = true) :
    Telling property noneWaits after.poll := by
  cases input with
  | subscribe now other =>
    simp only [BasicState.step] at stepped
    split at stepped
    case isTrue =>
      cases stepped
      exact telling
    case isFalse new =>
      obtain ⟨poll, added, rfl⟩ := Option.map_eq_some_iff.mp stepped
      exact telling.subscribe listens entry added (adds rfl new added)
  | cancel other =>
    simp only [BasicState.step] at stepped
    split at stepped
    case isTrue there =>
      obtain ⟨poll, removed, rfl⟩ := Option.map_eq_some_iff.mp stepped
      exact telling.cancel removed (removes rfl there removed)
    case isFalse =>
      cases stepped
      exact telling
  | tick now rounds =>
    simp only [BasicState.step] at stepped
    split at stepped
    case isTrue scheduled =>
      cases stepped
      exact telling.scanCallback rule (safe rfl scheduled)
    case isFalse =>
      cases stepped
      exact telling

theorem Telling.step_settled (telling : Telling (fun _ => True) noneWaits state.poll) {input : BasicInput}
    (stepped : state.step input = some after) : Telling (fun _ => True) noneWaits after.poll :=
  telling.step_of listens entry announceRule_true stepped (fun _ _ _ => trivial) (fun _ _ _ => trivial)
    fun _ _ => scanCallbackSafe_free _ _ _

theorem Telling.step (telling : Telling (InStep sub name prior) noneWaits state.poll) (seated : Seated state)
    {input : BasicInput} (guard : ChildGuard sub name state input) (stepped : state.step input = some after) :
    Telling (InStep sub name prior) noneWaits after.poll := by
  have announced : ∀ node ∈ state.poll.nodes, node.newNode = false := fun _ => telling.announced_of_none
  refine telling.step_of listens entry (announceRule_inStep listens entry prior) stepped ?_ ?_ ?_
  · rintro now other poll rfl new added
    obtain ⟨different, beside⟩ := guard new
    exact telling.holds.subscribe listens entry telling.rooted telling.spelled announced added different
      fun subscribed => beside (seated.mem_of_subsAt subscribed)
  · rintro other poll rfl there removed
    exact telling.holds.cancel telling.rooted telling.spelled removed
      fun different subscribed => guard there different (seated.mem_of_subsAt subscribed)
  · rintro now rounds rfl scheduled
    exact guard scheduled

end

end

/-! ## Every run -/

/-- In every run, from the registration of a directory on. -/
theorem child_reports_alternate {views : Nat → FsView} (proper : ∀ call, ProperListings (views call))
    {earlier : List BasicInput} {start : BasicState}
    (reached : run (partialStep BasicState.step) (some (.new views)) earlier = some start)
    {sub : GamSubscription} {address : Pointer} {path : Bytes} {reqno options : Nat}
    (isDirectory : sub = gamSubscriptionNew address path requestedEvents reqno true options)
    (absolute : path.head? = some slash) (wanted : options &&& gamOptNoexists = 0) (new : sub ∉ start.subs)
    {name : Bytes} (entry : EntryName name) {now : Nat} (registers : RegistersIn sub name start.poll now)
    {inputs : List BasicInput}
    (guarded : Guarded (partialStep BasicState.step) (GuardIfAny (ChildGuard sub name))
      (start.step (.subscribe now sub)) inputs) :
    Throughout (partialStep BasicState.step) (IfAny (ReportsAlternate sub name start.poll.sent.length))
      (start.step (.subscribe now sub)) inputs := by
  have listens : ListensTo sub := isDirectory ▸ listensTo_directory absolute wanted
  have wantedSub : sub.options &&& gamOptNoexists = 0 := isDirectory ▸ wanted
  have fresh : Telling (fun _ => True) noneWaits (BasicState.new views).poll :=
    ⟨trivial, rooted_new views, spelled_new proper, fun _ member => absurd member List.not_mem_nil⟩
  -- up to the registration nothing is asked of the run
  have before : Throughout (partialStep BasicState.step)
      (IfAny fun state => Seated state ∧ Telling (fun _ => True) noneWaits state.poll) (some (.new views)) earlier :=
    .of_partial_kept (fun state input after kept stepped =>
      ⟨kept.1.step stepped, kept.2.step_settled listens entry stepped⟩) ⟨seated_new views, fresh⟩ earlier
  have last := before.last
  rw [reached] at last
  obtain ⟨seated, settled⟩ := last
  have unsubscribed : Unsubscribed start.poll sub := fun node member listed =>
    new (seated.known node member sub listed).1
  obtain ⟨poll, added, -⟩ := gamPollBasicAddSubscription_subscribes now unsubscribed listens.nonempty
  have stepped : start.step (.subscribe now sub) =
      some { poll := poll, subs := sub :: start.subs, scheduled := true } := by
    rw [BasicState.step, if_neg new, added, Option.map_some]
  -- from there on the reports and what is known of the child go together
  have telling : Telling (InStep sub name start.poll.sent) noneWaits poll :=
    settled.subscribe listens entry added (registers.inStep listens entry wantedSub settled.spelled added)
  rw [stepped] at guarded ⊢
  have throughout : Throughout (partialStep BasicState.step)
      (IfAny fun state => Seated state ∧ Telling (InStep sub name start.poll.sent) noneWaits state.poll)
      (some { poll := poll, subs := sub :: start.subs, scheduled := true }) inputs := by
    apply Throughout.of_partial _ ⟨seated.step stepped, telling⟩ guarded
    rintro state input after ⟨seated, telling⟩ guard stepped
    exact ⟨seated.step stepped, telling.step listens entry seated guard stepped⟩
  exact throughout.imp (IfAny.imp fun state kept => kept.2.holds.reportsAlternate)

/-! ## A file that comes and goes -/

/-- `/d` is a directory with the given names; `x` can be found in it or not. -/
def directoryShows (names : List Bytes) (found : Bool) : FsView where
  stat path :=
    if path = [47, 100] then .found { StatBuf.zero with isDir := true }
    else if path = [47, 100, 47, 120] ∧ found = true then .found .zero
    else .noent
  listing path := if path = [47, 100] then some names else none
  excluded _ := false
  monType _ := .poll
  pollTimeout _ := 1

theorem directoryShows_proper {names : List Bytes} (entries : ∀ name ∈ names, EntryName name) (found : Bool) :
    ProperListings (directoryShows names found) := by
  intro dir read listing name member
  simp only [directoryShows] at listing
  split at listing
  case isTrue =>
    cases listing
    exact entries name member
  case isFalse => contradiction

/-- The file is there for the second scan, gone for the third, and back for the last. -/
def comesAndGoes (call : Nat) : FsView :=
  if call < 6 then directoryShows [] false
  else if call < 10 then directoryShows [[120]] true
  else if call < 13 then directoryShows [] false
  else directoryShows [[120]] true

theorem comesAndGoes_proper (call : Nat) : ProperListings (comesAndGoes call) := by
  have plain : EntryName [120] := ⟨by decide, by decide⟩
  unfold comesAndGoes
  split
  · exact directoryShows_proper (by simp) _
  · split
    · exact directoryShows_proper (by simpa using plain) _
    · split
      · exact directoryShows_proper (by simp) _
      · exact directoryShows_proper (by simpa using plain) _

def watchingSubscription : GamSubscription := gamSubscriptionNew 1 [47, 100] requestedEvents 1 true 0

theorem guardIfAny_tick {sub : GamSubscription} {name : Bytes} {state : Option BasicState} {now rounds : Nat}
    (safe : state.all (fun state => scanCallbackSafe (announceGuard sub name) state.poll now rounds) = true) :
    GuardIfAny (ChildGuard sub name) state (.tick now rounds) := by
  cases state with
  | none => trivial
  | some state => exact fun _ => safe

theorem comesAndGoes_alternates :
    Throughout (partialStep BasicState.step) (IfAny (ReportsAlternate watchingSubscription [120] 0))
      ((BasicState.new comesAndGoes).step (.subscribe 1000 watchingSubscription))
      [.tick 1002 10, .tick 1004 10, .tick 1006 10] :=
  @child_reports_alternate comesAndGoes comesAndGoes_proper [] (.new comesAndGoes) rfl watchingSubscription 1 [47, 100]
    1 0 rfl rfl rfl List.not_mem_nil [120] ⟨by decide, by decide⟩ 1000
    ⟨by decide +kernel, by decide +kernel, by decide +kernel⟩ [.tick 1002 10, .tick 1004 10, .tick 1006 10]
    ⟨guardIfAny_tick (by decide +kernel), guardIfAny_tick (by decide +kernel), guardIfAny_tick (by decide +kernel),
      trivial⟩

/-- A link to nothing is listed from the second scan on, and it has a target from the third. -/
def danglingLink (call : Nat) : FsView :=
  if call < 6 then directoryShows [] false
  else if call < 10 then directoryShows [[120]] false
  else directoryShows [[120]] true

/-- The client is told twice that the link has been created. -/
theorem dangling_link_created_twice :
    (run (partialStep BasicState.step) (some (.new danglingLink))
        [.subscribe 1000 watchingSubscription, .tick 1002 10, .tick 1004 10]).map
          (fun state => childReports watchingSubscription [120] state.poll.sent) = some [.present, .present] ∧
      ¬ Throughout (partialStep BasicState.step) (IfAny (ReportsAlternate watchingSubscription [120] 0))
        (some (.new danglingLink)) [.subscribe 1000 watchingSubscription, .tick 1002 10, .tick 1004 10] := by
  have final : (run (partialStep BasicState.step) (some (.new danglingLink))
      [.subscribe 1000 watchingSubscription, .tick 1002 10, .tick 1004 10]).map
        (fun state => childReports watchingSubscription [120] state.poll.sent) = some [.present, .present] := by
    decide +kernel
  refine ⟨final, fun holds => ?_⟩
  obtain ⟨state, reached, told⟩ := Option.map_eq_some_iff.mp final
  have last := holds.last
  rw [reached] at last
  have alternating : Alternating false (childReports watchingSubscription [120] state.poll.sent) := last
  rw [told] at alternating
  exact absurd alternating (by decide)

end Gamin.Polling
