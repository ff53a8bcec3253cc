import Gamin.Server.Backends
import Gamin.Server.EventQueue

/-! # Which requests find a backend

A monitor request is accepted if `gam_add_subscription` returns `TRUE`, the subscription is
registered in a backend that has been initialised, and a later `CANCEL` finds it on the list
of its listener.  Whether this happens depends on which backend has been selected at the start
and on the method for the path, and the two are not made to fit each other: a path may be left
to the kernel although only polling is running, or be polled beside kqueue, which has no poll
hooks.
-/

namespace Gamin.Server

open Gamin

/-! ## One request -/

/-- The subscription is in the registry of a backend that has been initialised. -/
def Registered (hooks : Hooks) (registries : Registries) (sub : GamSubscription) : Prop :=
  (hooks.inotifyRunning ∧ ∃ isub ∈ registries.inotify.subList, isub.usersubdata = sub) ∨
    (hooks.kqueueRunning ∧ ∃ smon ∈ registries.kqueue, sub ∈ smon.subs) ∨
    ((hooks.poll = some .basic ∧ hooks.pollBasicRunning ∨
        hooks.poll = some .dnotify ∧ hooks.dnotifyRunning) ∧
      Polling.SubscribedAt registries.poll sub.path sub)

/-- What a `CANCEL` writes for the subscription it has found; `gam_send_ack` asserts that the
path is not empty. -/
def cancelAnswer (sub : GamSubscription) : Option GAMPacket :=
  if sub.path = [] then none else gamSendAck sub.reqno sub.path

/-- The request is accepted, and a `CANCEL` for it is acknowledged. -/
def Accepted (hooks : Hooks) (excluded : Bytes → Bool) (around : Surroundings)
    (registries : Registries) (sub : GamSubscription) : Prop :=
  ∃ after, gamAddSubscription hooks excluded around registries sub = some (after, true) ∧
    Registered hooks after sub ∧ sub ∈ after.subs ∧
    gamListenerGetSubscriptionByReqno after.subs sub.reqno = some sub ∧
    (cancelAnswer sub).isSome

/-- The subscription of a new request is nowhere yet. -/
structure Fresh (around : Surroundings) (registries : Registries) (sub : GamSubscription) :
    Prop where
  listener : sub ∉ registries.subs
  inotify : ∀ isub ∈ registries.inotify.subList, isub.usersubdata ≠ sub
  poll : Polling.Unsubscribed registries.poll sub
  kqueue : ∀ smon ∈ registries.kqueue, sub ∉ smon.subs

/-! ## The backend for a path -/

inductive Selected where
  | inotify
  | dnotify
  | kqueue
  | poll
  deriving DecidableEq, Repr

/-- The first backend that is compiled in, not ruled out, and works. -/
def selected (build : Build) (startup : Startup) : Selected :=
  if startup.pollOnly then .poll
  else if build.inotify ∧ ¬ startup.gamTestDnotify ∧ startup.inotifyInit then .inotify
  else if build.dnotify ∧ startup.pipe then .dnotify
  else if build.kqueue ∧ startup.kqueue then .kqueue
  else .poll

/-- The kind of hook that is called for a path: an excluded path is polled beside inotify, and
left to the kernel otherwise. -/
def method (build : Build) (startup : Startup) (excluded : Bytes → Bool) (registries : Registries)
    (path : Bytes) : GamFsMonType :=
  if excluded path then
    if selected build startup = .inotify then .poll else .kernel
  else (gamFsGetMonType registries.mounts path).2

/-- `ip_start_watching` comes to an end: the directory is watched already, or the kernel does
not report it as missing, or the search for an ancestor ends. -/
def SearchEnds (around : Surroundings) (registries : Registries) (sub : GamSubscription) : Prop :=
  let dirname := (Inotify.ihSubNew around.address sub.path sub.isDir sub).dirname
  registries.inotify.pathDirHash dirname ≠ none ∨ around.watch dirname ≠ .noent ∨
    Inotify.ipWatchParent around.watch dirname ≠ none

/-- The selected backend has a hook for the method, and the hook takes the path.  Beside
kqueue there are the hooks of basic polling if inotify has been tried before and dnotify has
not. -/
def Served (build : Build) (startup : Startup) (type : GamFsMonType) (around : Surroundings)
    (registries : Registries) (sub : GamSubscription) : Prop :=
  match selected build startup, type with
  | .inotify, .kernel => SearchEnds around registries sub
  | .inotify, .poll | .kqueue, .kernel | .poll, .poll => True
  | .dnotify, .kernel | .dnotify, .poll => sub.path.head? = some Inotify.slash
  | .kqueue, .poll => build.inotify ∧ ¬ startup.gamTestDnotify ∧ ¬ build.dnotify
  | .poll, .kernel => False
  | _, .none => False

/-! ## Initialisation -/

/-- The hooks that each selected backend ends up with. -/
structure Installed (build : Build) (startup : Startup) (hooks : Hooks) : Prop where
  inotify : hooks.inotifyRunning = decide (selected build startup = .inotify)
  dnotify : hooks.dnotifyRunning = decide (selected build startup = .dnotify)
  kqueue : hooks.kqueueRunning = decide (selected build startup = .kqueue)
  inotifyHook : selected build startup = .inotify → hooks.kernel = some .inotify2
  dnotifyHook : selected build startup = .dnotify →
    hooks.kernel = some .dnotify ∧ hooks.poll = some .dnotify
  kqueueHook : selected build startup = .kqueue → hooks.kernel = some .kqueue
  pollHook : selected build startup = .poll → hooks.kernel = none ∨ hooks.kernel = some .inotify2
  basicHook : hooks.poll = some .basic ↔
    selected build startup = .inotify ∨ selected build startup = .poll ∨
      selected build startup = .kqueue ∧ build.inotify ∧ ¬ startup.gamTestDnotify ∧ ¬ build.dnotify
  basicRunning : hooks.poll = some .basic → hooks.pollBasicRunning = true

/-- Some backend is always initialised, and these are the hooks. -/
theorem gamInitSubscriptions_installed (build : Build) (startup : Startup) :
    (gamInitSubscriptions build startup).2 = true ∧
      Installed build startup (gamInitSubscriptions build startup).1 := by
  obtain ⟨inotify, dnotify, kqueue, linux⟩ := build
  obtain ⟨pollOnly, gamTestDnotify, inotifyInit, pipe, kqueueInit⟩ := startup
  refine ⟨?_, ?_, ?_, ?_, ?_, ?_, ?_, ?_, ?_, ?_⟩ <;>
    revert inotify dnotify kqueue linux pollOnly gamTestDnotify inotifyInit pipe kqueueInit <;>
    decide +kernel

/-! ## The hooks -/

section

variable {hooks : Hooks} {around : Surroundings} {registries : Registries} {sub : GamSubscription}

theorem addToListener_fresh (fresh : sub ∉ registries.subs) :
    registries.addToListener sub = some { registries with subs := sub :: registries.subs } := by
  simp only [Registries.addToListener, gamListenerAddSubscription, if_neg fresh, Option.map_some]

theorem addByPollBasic_takes (fresh : Fresh around registries sub) (nonempty : sub.path ≠ []) :
    ∃ after, addByPollBasic around registries sub = some (after, true) ∧
      Polling.SubscribedAt after.poll sub.path sub := by
  obtain ⟨poll, added, subscribed⟩ :=
    Polling.gamPollBasicAddSubscription_subscribes around.now fresh.poll nonempty
  refine ⟨{ registries with subs := sub :: registries.subs, poll := poll }, ?_, subscribed⟩
  simp only [addByPollBasic, addToListener_fresh fresh.listener, Option.bind_some, added,
    Option.map_some]

theorem addByPollDnotify_takes (fresh : Fresh around registries sub) (nonempty : sub.path ≠ []) :
    ∃ after, addByPollDnotify hooks around registries sub =
        some (after, decide (sub.path.head? = some Inotify.slash)) ∧
      after.kqueue = registries.kqueue ∧
      (sub.path.head? = some Inotify.slash → Polling.SubscribedAt after.poll sub.path sub) := by
  obtain ⟨poll, added, subscribed⟩ :=
    Polling.gamPollDnotifyAddSubscription_subscribes (hooks.kernel = some .dnotify) around.now
      fresh.poll nonempty
  refine ⟨{ registries with subs := sub :: registries.subs, poll := poll }, ?_, rfl, subscribed⟩
  simp only [addByPollDnotify, addToListener_fresh fresh.listener, Option.bind_some, added,
    Option.map_some]

theorem addByKqueue_takes (fresh : Fresh around registries sub) :
    ∃ after, addByKqueue registries sub = some (after, true) ∧
      ∃ smon ∈ after.kqueue, sub ∈ smon.subs := by
  refine ⟨{ registries with
      subs := sub :: registries.subs
      kqueue := gamKqueueAddSubscription registries.kqueue sub }, ?_, ?_⟩
  · simp only [addByKqueue, addToListener_fresh fresh.listener, Option.map_some]
  · simp only [gamKqueueAddSubscription]
    split
    case isTrue present =>
      obtain ⟨smon, member, same⟩ := List.any_eq_true.mp present
      refine ⟨_, List.mem_map_of_mem member, ?_⟩
      rw [if_pos (by simpa using same)]
      exact List.mem_append_right _ (List.mem_singleton_self sub)
    case isFalse => exact ⟨_, List.mem_cons_self, List.mem_singleton_self sub⟩

theorem ipStartWatching_returns (isub : Inotify.IhSub) (state : Inotify.Backend)
    (watch : Bytes → Inotify.WatchAnswer) :
    (∃ started, Inotify.ipStartWatching state isub watch = some started) ↔
      state.pathDirHash isub.dirname ≠ none ∨ watch isub.dirname ≠ .noent ∨
        Inotify.ipWatchParent watch isub.dirname ≠ none := by
  simp only [Inotify.ipStartWatching]
  cases mapped : state.pathDirHash isub.dirname with
  | some address => simp
  | none =>
    cases answer : watch isub.dirname with
    | watched inode => simp
    | failed => simp
    | noent =>
      cases parent : Inotify.ipWatchParent watch isub.dirname with
      | none => simp
      | some found => cases found <;> simp

/-- Inotify takes a subscription if its search for a directory ends. -/
theorem addByInotify_takes (running : hooks.inotifyRunning = true)
    (fresh : Fresh around registries sub) (ends : SearchEnds around registries sub) :
    ∃ after, addByInotify hooks around registries sub = some (after, true) ∧
      ∃ isub ∈ after.inotify.subList, isub.usersubdata = sub := by
  have new : Inotify.ihSubNew around.address sub.path sub.isDir sub ∉ registries.inotify.subList :=
    fun member => fresh.inotify _ member rfl
  obtain ⟨⟨started, result⟩, ran⟩ := (ipStartWatching_returns _ _ _).mpr ends
  simp only [addByInotify, addToListener_fresh fresh.listener, Option.bind_some, running,
    not_true_eq_false, if_false, Inotify.gamInotifyAddSubscription, Inotify.ihSubAdd, if_neg new,
    ran, Option.map_some]
  exact ⟨_, rfl, _, List.mem_cons_self, rfl⟩

theorem addByInotify_searches (fresh : Fresh around registries sub)
    {outcome : Registries × Bool}
    (added : addByInotify hooks around registries sub = some outcome) :
    SearchEnds around registries sub := by
  have new : Inotify.ihSubNew around.address sub.path sub.isDir sub ∉ registries.inotify.subList :=
    fun member => fresh.inotify _ member rfl
  simp only [addByInotify, addToListener_fresh fresh.listener, Option.bind_some] at added
  split at added
  case isTrue => contradiction
  case isFalse =>
    obtain ⟨inotify, ran, _⟩ := Option.map_eq_some_iff.mp added
    obtain ⟨state, started, _⟩ := Option.map_eq_some_iff.mp ran
    simp only [Inotify.ihSubAdd, if_neg new] at started
    split at started
    case h_1 => contradiction
    case h_2 returned => exact (ipStartWatching_returns _ _ _).mp ⟨_, returned⟩

end

/-! ## The listener -/

section

variable {hooks : Hooks} {around : Surroundings} {registries after : Registries}
  {sub : GamSubscription}

theorem addToListener_subs {outcome : Registries × Bool}
    {rest : Registries → Option (Registries × Bool)}
    (keeps : ∀ listed outcome, rest listed = some outcome → outcome.1.subs = listed.subs)
    (added : (registries.addToListener sub).bind rest = some outcome) :
    outcome.1.subs = sub :: registries.subs := by
  obtain ⟨listed, fresh, ran⟩ := Option.bind_eq_some_iff.mp added
  rw [keeps listed outcome ran]
  simp only [Registries.addToListener, gamListenerAddSubscription] at fresh
  split at fresh
  · contradiction
  · cases fresh
    rfl

/-- A hook that returns `TRUE` has put the subscription on the list of its listener. -/
theorem gamPollAddSubscription_listed
    (added : gamPollAddSubscription hooks around registries sub = some (after, true)) :
    after.subs = sub :: registries.subs := by
  simp only [gamPollAddSubscription] at added
  split at added
  case h_1 => simp at added
  case h_2 =>
    refine addToListener_subs ?_ added
    intro listed outcome ran
    obtain ⟨poll, _, rfl⟩ := Option.map_eq_some_iff.mp ran
    rfl
  case h_3 =>
    refine addToListener_subs ?_ added
    intro listed outcome ran
    obtain ⟨poll, _, rfl⟩ := Option.map_eq_some_iff.mp ran
    rfl

theorem gamKernelAddSubscription_listed
    (added : gamKernelAddSubscription hooks around registries sub = some (after, true)) :
    after.subs = sub :: registries.subs := by
  simp only [gamKernelAddSubscription] at added
  split at added
  case h_1 => simp at added
  case h_2 =>
    refine addToListener_subs ?_ added
    intro listed outcome ran
    split at ran
    · contradiction
    · obtain ⟨inotify, _, rfl⟩ := Option.map_eq_some_iff.mp ran
      rfl
  case h_3 => exact gamPollAddSubscription_listed added
  case h_4 =>
    rw [addByKqueue, Option.map_eq_bind] at added
    refine addToListener_subs ?_ added
    intro listed outcome ran
    cases ran
    rfl

theorem gamAddSubscription_listed {excluded : Bytes → Bool}
    (added : gamAddSubscription hooks excluded around registries sub = some (after, true)) :
    after.subs = sub :: registries.subs := by
  simp only [gamAddSubscription] at added
  split at added
  · split at added
    · exact gamPollAddSubscription_listed added
    · exact gamKernelAddSubscription_listed added
  · split at added
    · have listed := gamKernelAddSubscription_listed added
      exact listed
    · have listed := gamPollAddSubscription_listed added
      exact listed
    · simp at added

end

/-! ## Every request -/

section

variable {build : Build} {startup : Startup} {hooks : Hooks} {around : Surroundings}
  {registries : Registries} {sub : GamSubscription}

/-- A hook has taken the subscription for a backend that is running. -/
def Reached (hooks : Hooks) (sub : GamSubscription) (outcome : Option (Registries × Bool)) : Prop :=
  ∃ after, outcome = some (after, true) ∧ Registered hooks after sub

theorem pollHook_reached_iff (installed : Installed build startup hooks)
    (fresh : Fresh around registries sub) (nonempty : sub.path ≠ []) :
    Reached hooks sub (gamPollAddSubscription hooks around registries sub) ↔
      Served build startup .poll around registries sub := by
  by_cases basic : hooks.poll = some .basic
  · -- basic polling is always running where its hooks are installed
    obtain ⟨after, added, subscribed⟩ := addByPollBasic_takes fresh nonempty
    have reached : Reached hooks sub (gamPollAddSubscription hooks around registries sub) := by
      simp only [gamPollAddSubscription, basic]
      exact ⟨after, added, .inr (.inr ⟨.inl ⟨basic, installed.basicRunning basic⟩, subscribed⟩)⟩
    refine ⟨fun _ => ?_, fun _ => reached⟩
    obtain isInotify | isPoll | ⟨isKqueue, tried⟩ := installed.basicHook.mp basic
    · simp only [Served, isInotify]
    · simp only [Served, isPoll]
    · simpa only [Served, isKqueue] using tried
  · have notBasic := mt installed.basicHook.mpr basic
    simp only [not_or] at notBasic
    obtain ⟨notInotify, notPoll, notTried⟩ := notBasic
    cases chosen : selected build startup with
    | inotify => exact absurd chosen notInotify
    | poll => exact absurd chosen notPoll
    | dnotify =>
      obtain ⟨after, added, _, subscribed⟩ :=
        @addByPollDnotify_takes hooks around registries sub fresh nonempty
      have running : hooks.dnotifyRunning = true := by rw [installed.dnotify, chosen]; rfl
      have hook := (installed.dnotifyHook chosen).2
      simp only [gamPollAddSubscription, hook, added, Served, chosen]
      constructor
      · rintro ⟨_, same, _⟩
        simp only [Option.some.injEq, Prod.mk.injEq, decide_eq_true_eq] at same
        exact same.2
      · intro absolute
        exact ⟨after, by simp [absolute], .inr (.inr ⟨.inr ⟨hook, running⟩, subscribed absolute⟩)⟩
    | kqueue =>
      have stopped : hooks.inotifyRunning = false ∧ hooks.dnotifyRunning = false := by
        rw [installed.inotify, installed.dnotify, chosen]
        exact ⟨rfl, rfl⟩
      simp only [Served, chosen]
      refine ⟨fun reached => ?_, fun tried => absurd ⟨chosen, tried⟩ notTried⟩
      obtain ⟨after, added, registered⟩ := reached
      exfalso
      simp only [gamPollAddSubscription] at added
      split at added
      case h_1 => simp at added
      case h_2 hook => exact basic hook
      case h_3 hook =>
        -- the hooks are left over from dnotify, which is not running
        obtain ⟨same, addedHere, kqueue, _⟩ :=
          @addByPollDnotify_takes hooks around registries sub fresh nonempty
        rw [addedHere] at added
        have isAfter := (Prod.mk.inj (Option.some.inj added)).1
        subst isAfter
        simp only [Registered, stopped, hook, kqueue] at registered
        obtain impossible | ⟨_, smon, member, monitored⟩ | ⟨impossible, _⟩ := registered
        · simp at impossible
        · exact fresh.kqueue smon member monitored
        · simp at impossible

theorem kernelHook_reached_iff (installed : Installed build startup hooks)
    (fresh : Fresh around registries sub) (nonempty : sub.path ≠ []) :
    Reached hooks sub (gamKernelAddSubscription hooks around registries sub) ↔
      Served build startup .kernel around registries sub := by
  cases chosen : selected build startup with
  | inotify =>
    have running : hooks.inotifyRunning = true := by rw [installed.inotify, chosen]; rfl
    simp only [gamKernelAddSubscription, installed.inotifyHook chosen, Served, chosen]
    constructor
    · rintro ⟨after, added, _⟩
      exact addByInotify_searches fresh added
    · intro ends
      obtain ⟨after, added, member⟩ := addByInotify_takes running fresh ends
      exact ⟨after, added, .inl ⟨running, member⟩⟩
  | dnotify =>
    have same : gamKernelAddSubscription hooks around registries sub =
        gamPollAddSubscription hooks around registries sub := by
      simp only [gamKernelAddSubscription, (installed.dnotifyHook chosen).1]
    rw [same, pollHook_reached_iff installed fresh nonempty]
    simp only [Served, chosen]
  | kqueue =>
    have running : hooks.kqueueRunning = true := by rw [installed.kqueue, chosen]; rfl
    obtain ⟨after, added, member⟩ := addByKqueue_takes fresh
    simp only [gamKernelAddSubscription, installed.kqueueHook chosen, Served, chosen, iff_true]
    exact ⟨after, added, .inr (.inl ⟨running, member⟩)⟩
  | poll =>
    have stopped : hooks.inotifyRunning = false := by rw [installed.inotify, chosen]; rfl
    simp only [Served, chosen, iff_false]
    rintro ⟨after, added, _⟩
    simp only [gamKernelAddSubscription] at added
    cases installed.pollHook chosen with
    | inl none =>
      simp only [none] at added
      simp at added
    | inr inotify =>
      -- the hooks are left over from inotify, which is not running
      simp only [inotify, addByInotify, addToListener_fresh fresh.listener, stopped] at added
      simp at added

theorem cancelAnswer_isSome : (cancelAnswer sub).isSome ↔
    sub.path ≠ [] ∧ sub.path.length < maxPathLen := by
  simp only [cancelAnswer, gamSendAck]
  by_cases empty : sub.path = []
  · simp [empty]
  · by_cases long : sub.path.length ≥ maxPathLen
    · simp [empty, long]
    · simp [empty, long, Nat.lt_of_not_ge long]

theorem accepted_iff_reached {excluded : Bytes → Bool} :
    Accepted hooks excluded around registries sub ↔
      (cancelAnswer sub).isSome ∧
        Reached hooks sub (gamAddSubscription hooks excluded around registries sub) := by
  constructor
  · rintro ⟨after, added, registered, _, _, answered⟩
    exact ⟨answered, after, added, registered⟩
  · rintro ⟨answered, after, added, registered⟩
    have listed := gamAddSubscription_listed added
    refine ⟨after, added, registered, ?_, ?_, answered⟩
    · rw [listed]
      exact List.mem_cons_self
    · simp [listed, gamListenerGetSubscriptionByReqno]

/-- A request for a path whose file system is monitored is accepted and can be cancelled if
and only if its path has a length that can be acknowledged and the selected backend serves the
method for it. -/
theorem request_accepted_iff (build : Build) (startup : Startup)
    (gPatternMatch : Bytes → Bytes → Bool) (patterns : List (Bytes × Bool))
    (around : Surroundings) (registries : Registries) (sub : GamSubscription)
    (fresh : Fresh around registries sub)
    (monitored : (gamFsGetMonType registries.mounts sub.path).2 ≠ .none) :
    Accepted (gamInitSubscriptions build startup).1
        (gamExcludeCheck gPatternMatch (gamExcludeInit build patterns)) around registries sub ↔
      (sub.path ≠ [] ∧ sub.path.length < maxPathLen) ∧
        Served build startup
          (method build startup (gamExcludeCheck gPatternMatch (gamExcludeInit build patterns))
            registries sub.path) around registries sub := by
  have installed := (gamInitSubscriptions_installed build startup).2
  generalize gamExcludeCheck gPatternMatch (gamExcludeInit build patterns) = excluded
  rw [accepted_iff_reached, cancelAnswer_isSome]
  refine and_congr_right fun ⟨nonempty, _⟩ => ?_
  -- each of the two hooks decides as the table says; the method is which of them is called
  have byPoll := pollHook_reached_iff installed fresh nonempty
  have byKernel := kernelHook_reached_iff installed fresh nonempty
  simp only [gamAddSubscription, method, installed.inotify, decide_eq_true_eq]
  cases excluded sub.path with
  | true =>
    simp only [if_true]
    split
    · exact byPoll
    · exact byKernel
  | false =>
    simp only [Bool.false_eq_true, if_false]
    cases looked : gamFsGetMonType registries.mounts sub.path with
    | mk mounts type =>
      have freshMounts : Fresh around { registries with mounts := mounts } sub := { fresh with }
      cases type with
      | kernel => exact kernelHook_reached_iff installed freshMounts nonempty
      | poll => exact pollHook_reached_iff installed freshMounts nonempty
      | none => simp [looked] at monitored

end

/-! ## Two builds -/

/-- No file system is mounted, and nothing is registered. -/
def noRegistries (build : Build) : Registries where
  subs := []
  inotify := .new
  poll := .new fun _ =>
    { stat := fun _ => .noent
      listing := fun _ => none
      excluded := fun _ => false
      monType := fun _ => build.defaultType
      pollTimeout := fun _ => 0 }
  kqueue := []
  mounts :=
    { state :=
        { defaultType := build.defaultType
          initialized := false
          filesystems := []
          fsProps := []
          mtabMtime := 0 }
      mtab := fun _ => { mtime := 0, contents := none } }

theorem fresh_noRegistries (build : Build) (around : Surroundings) (sub : GamSubscription) :
    Fresh around (noRegistries build) sub where
  listener := List.not_mem_nil
  inotify := fun _ member => absurd member List.not_mem_nil
  poll := fun _ member => absurd member List.not_mem_nil
  kqueue := fun _ member => absurd member List.not_mem_nil

/-- Patterns that end in an asterisk, such as those of `static_excludes`. -/
def matchesPrefix (pattern path : Bytes) : Bool := pattern.dropLast.isPrefixOf path

/-- `/a` is a directory that inotify can watch. -/
def aroundA : Surroundings where
  watch := Inotify.watchIn [([47, 97], 1)]
  view := Inotify.emptyView
  address := 2
  now := 10

/-- Linux with inotify. -/
def inotifyBuild : Build := { inotify := true, dnotify := false, kqueue := false, linux := true }

/-- A directory subscription to `/a`. -/
def subscriptionA : GamSubscription := Inotify.directorySubscription 1 [47, 97] 1

theorem request_accepted_by_inotify :
    Accepted (gamInitSubscriptions inotifyBuild ⟨false, false, true, true, false⟩).1
      (gamExcludeCheck matchesPrefix (gamExcludeInit inotifyBuild [])) aroundA
      (noRegistries inotifyBuild) subscriptionA := by
  refine (request_accepted_iff inotifyBuild ⟨false, false, true, true, false⟩ matchesPrefix [] aroundA
    (noRegistries inotifyBuild) subscriptionA (fresh_noRegistries _ _ _) (by decide +kernel)).mpr ?_
  refine ⟨by decide, ?_⟩
  have chosen : method inotifyBuild ⟨false, false, true, true, false⟩
      (gamExcludeCheck matchesPrefix (gamExcludeInit inotifyBuild [])) (noRegistries inotifyBuild)
      subscriptionA.path = .kernel := by decide +kernel
  rw [chosen]
  exact .inr (.inl (by decide))

/-- With `--pollonly` the same path is left to a kernel hook that nobody has installed. -/
theorem pollonly_request_refused :
    (gamInitSubscriptions inotifyBuild ⟨true, false, true, true, false⟩).2 = true ∧
      (gamFsGetMonType (noRegistries inotifyBuild).mounts subscriptionA.path).2 ≠ .none ∧
      ¬ Accepted (gamInitSubscriptions inotifyBuild ⟨true, false, true, true, false⟩).1
        (gamExcludeCheck matchesPrefix (gamExcludeInit inotifyBuild [])) aroundA
        (noRegistries inotifyBuild) subscriptionA := by
  refine ⟨by decide, by decide +kernel, ?_⟩
  rintro ⟨after, added, _⟩
  have refused : (gamAddSubscription
      (gamInitSubscriptions inotifyBuild ⟨true, false, true, true, false⟩).1
      (gamExcludeCheck matchesPrefix (gamExcludeInit inotifyBuild [])) aroundA
      (noRegistries inotifyBuild) subscriptionA).map (·.2) = some false := by decide +kernel
  simp [added] at refused

end Gamin.Server
