import Gamin.Server.Removal

/-! # Who refers to a subscription

Adding and removing a subscription write to one registry, that of the hook which is called.  From
this it follows which registries refer to a subscription afterwards, and how often it has been
freed.
-/

namespace Gamin.Server

open Gamin

/-! ## What adding writes -/

/-- A subscription has been handed to a hook that writes to a registry, if there is one. -/
structure AddedTo (hooks : Hooks) (registries : Registries) (sub : GamSubscription)
    (registry : Option Registry) (after : Registries) : Prop where
  placed : after.Placed hooks
  refers : ∀ other place, after.Refers other place →
    registries.Refers other place ∨ other = sub ∧ registry = some place
  subs : after.subs = if registry.isSome then sub :: registries.subs else registries.subs
  running : registry = some .inotify → hooks.inotifyRunning = true

section

variable {hooks : Hooks} {excluded : Bytes → Bool} {around : Surroundings} {registries after : Registries}
  {sub : GamSubscription}

theorem addToListener_eq (listed : registries.addToListener sub = some after) :
    after = { registries with subs := sub :: registries.subs } := by
  obtain ⟨subs, added, rfl⟩ := Option.map_eq_some_iff.mp listed
  unfold gamListenerAddSubscription at added
  split at added
  · contradiction
  · cases added
    rfl

theorem addByInotify_adds (placed : registries.Placed hooks) {result : Bool}
    (added : addByInotify hooks around registries sub = some (after, result)) :
    AddedTo hooks registries sub (some .inotify) after := by
  obtain ⟨next, listed, rest⟩ := Option.bind_eq_some_iff.mp added
  rw [addToListener_eq listed] at rest
  split at rest
  · contradiction
  case isFalse running =>
    obtain ⟨inotify, watched, same⟩ := Option.map_eq_some_iff.mp rest
    cases same
    refine ⟨⟨placed.poll, placed.absolute, placed.kqueue⟩, fun other place refers => ?_, rfl,
      fun _ => not_not.mp running⟩
    cases place with
    | poll => exact .inl refers
    | kqueue => exact .inl refers
    | inotify =>
      obtain ⟨isub, member, data⟩ := refers
      rw [Inotify.gamInotifyAddSubscription_subList watched] at member
      cases List.mem_cons.mp member with
      | inl new =>
        rw [new] at data
        exact .inr ⟨data.symm, rfl⟩
      | inr old => exact .inl ⟨isub, old, data⟩

/-- Both polling backends write to the tree only. -/
theorem addedToPoll (placed : registries.Placed hooks) {poll : Polling.Poll}
    (subscribed : Polling.SubsWith registries.poll sub poll)
    (absolute : hooks.poll = some .dnotify → sub.path.head? ≠ some Inotify.slash →
      Polling.SubsFrom registries.poll poll) :
    AddedTo hooks registries sub (some .poll)
      { registries with subs := sub :: registries.subs, poll := poll } := by
  refine ⟨⟨fun other node member refers => ?_, fun dnotify other refers => ?_, placed.kqueue⟩,
    fun other place refers => ?_, rfl, fun impossible => by contradiction⟩
  · rcases subscribed node member other refers with ⟨old, memberOld, samePath, refersOld⟩ | ⟨rfl, path⟩
    · rw [← samePath]
      exact placed.poll other old memberOld refersOld
    · exact path
  · obtain ⟨node, member, atNode⟩ := refers
    rcases subscribed node member other atNode with ⟨old, memberOld, _, refersOld⟩ | ⟨rfl, _⟩
    · exact placed.absolute dnotify other ⟨old, memberOld, refersOld⟩
    · by_contra relative
      obtain ⟨old, memberOld, _, refersOld⟩ := absolute dnotify relative node member other atNode
      exact relative (placed.absolute dnotify other ⟨old, memberOld, refersOld⟩)
  · cases place with
    | inotify => exact .inl refers
    | kqueue => exact .inl refers
    | poll =>
      obtain ⟨node, member, atNode⟩ := refers
      rcases subscribed node member other atNode with ⟨old, memberOld, _, refersOld⟩ | ⟨rfl, _⟩
      · exact .inl ⟨old, memberOld, refersOld⟩
      · exact .inr ⟨rfl, rfl⟩

theorem gamPollAddSubscription_adds (placed : registries.Placed hooks) {result : Bool}
    (added : gamPollAddSubscription hooks around registries sub = some (after, result)) :
    AddedTo hooks registries sub (hooks.registry .poll) after := by
  unfold gamPollAddSubscription at added
  unfold Hooks.registry
  split at added
  case h_1 none =>
    cases added
    simp only [none, Option.map_none]
    exact ⟨placed, fun other place refers => .inl refers, rfl, fun impossible => by contradiction⟩
  case h_2 basic =>
    simp only [basic, Option.map_some]
    obtain ⟨next, listed, rest⟩ := Option.bind_eq_some_iff.mp added
    rw [addToListener_eq listed] at rest
    obtain ⟨poll, subscribed, same⟩ := Option.map_eq_some_iff.mp rest
    cases same
    refine addedToPoll placed (Polling.gamPollBasicAddSubscription_with subscribed) fun dnotify => ?_
    rw [basic] at dnotify
    contradiction
  case h_3 dnotify =>
    simp only [dnotify, Option.map_some]
    obtain ⟨next, listed, rest⟩ := Option.bind_eq_some_iff.mp added
    rw [addToListener_eq listed] at rest
    obtain ⟨⟨poll, taken⟩, subscribed, same⟩ := Option.map_eq_some_iff.mp rest
    cases same
    obtain ⟨withSub, refused⟩ := Polling.gamPollDnotifyAddSubscription_with subscribed
    exact addedToPoll placed withSub fun _ => refused

theorem addByKqueue_adds (placed : registries.Placed hooks) {result : Bool}
    (added : addByKqueue registries sub = some (after, result)) :
    AddedTo hooks registries sub (some .kqueue) after := by
  obtain ⟨next, listed, same⟩ := Option.map_eq_some_iff.mp added
  rw [addToListener_eq listed] at same
  cases same
  -- a monitor for the path is extended or made, and the others are as they were
  have monitored : ∀ smon ∈ gamKqueueAddSubscription registries.kqueue sub, ∀ other ∈ smon.subs,
      (∃ old ∈ registries.kqueue, old.isdir = smon.isdir ∧ old.pathname = smon.pathname ∧ other ∈ old.subs) ∨
        other = sub ∧ smon.isdir = sub.isDir ∧ smon.pathname = sub.path := by
    intro smon member other refers
    unfold gamKqueueAddSubscription at member
    split at member
    · obtain ⟨old, memberOld, rfl⟩ := List.mem_map.mp member
      split at refers
      case isTrue same =>
        rw [if_pos same]
        cases List.mem_append.mp refers with
        | inl listed => exact .inl ⟨old, memberOld, rfl, rfl, listed⟩
        | inr new => exact .inr ⟨List.mem_singleton.mp new, same⟩
      case isFalse different =>
        rw [if_neg different]
        exact .inl ⟨old, memberOld, rfl, rfl, refers⟩
    · cases List.mem_cons.mp member with
      | inl new =>
        subst new
        exact .inr ⟨List.mem_singleton.mp refers, rfl, rfl⟩
      | inr old => exact .inl ⟨smon, old, rfl, rfl, refers⟩
  refine ⟨⟨placed.poll, placed.absolute, fun smon member other refers => ?_⟩,
    fun other place refers => ?_, rfl, fun impossible => by contradiction⟩
  · rcases monitored smon member other refers with ⟨old, memberOld, isdir, path, refersOld⟩ | ⟨rfl, same⟩
    · rw [← isdir, ← path]
      exact placed.kqueue old memberOld other refersOld
    · exact same
  · cases place with
    | inotify => exact .inl refers
    | poll => exact .inl refers
    | kqueue =>
      obtain ⟨smon, member, listed⟩ := refers
      rcases monitored smon member other listed with ⟨old, memberOld, _, _, refersOld⟩ | ⟨rfl, _⟩
      · exact .inl ⟨old, memberOld, refersOld⟩
      · exact .inr ⟨rfl, rfl⟩

theorem gamKernelAddSubscription_adds (placed : registries.Placed hooks) {result : Bool}
    (added : gamKernelAddSubscription hooks around registries sub = some (after, result)) :
    AddedTo hooks registries sub (hooks.registry .kernel) after := by
  unfold gamKernelAddSubscription at added
  split at added
  case h_1 none =>
    cases added
    simp only [Hooks.registry, none]
    exact ⟨placed, fun other place refers => .inl refers, rfl, fun impossible => by contradiction⟩
  case h_2 inotify =>
    simp only [Hooks.registry, inotify]
    exact addByInotify_adds placed added
  case h_3 dnotify =>
    simp only [Hooks.registry, dnotify]
    exact gamPollAddSubscription_adds placed added
  case h_4 kqueue =>
    simp only [Hooks.registry, kqueue]
    exact addByKqueue_adds placed added

/-- `gam_add_subscription` writes to the registry of the hook that it calls. -/
theorem gamAddSubscription_adds (placed : registries.Placed hooks) {result : Bool}
    (added : gamAddSubscription hooks excluded around registries sub = some (after, result)) :
    AddedTo hooks registries sub (hooks.registry (hookFor hooks excluded registries.mounts sub.path))
      after := by
  unfold gamAddSubscription at added
  unfold hookFor
  split at added
  case isTrue isExcluded =>
    rw [if_pos isExcluded]
    split at added
    case isTrue running =>
      rw [if_pos running]
      exact gamPollAddSubscription_adds placed added
    case isFalse stopped =>
      rw [if_neg stopped]
      exact gamKernelAddSubscription_adds placed added
  case isFalse included =>
    rw [if_neg included]
    have moved (mounts : Mounts) : Registries.Placed hooks { registries with mounts := mounts } :=
      ⟨placed.poll, placed.absolute, placed.kqueue⟩
    split at added
    case h_1 mounts asked =>
      obtain ⟨placedAfter, refers, subs, running⟩ := gamKernelAddSubscription_adds (moved mounts) added
      rw [asked]
      exact ⟨placedAfter, refers, subs, running⟩
    case h_2 mounts asked =>
      obtain ⟨placedAfter, refers, subs, running⟩ := gamPollAddSubscription_adds (moved mounts) added
      rw [asked]
      exact ⟨placedAfter, refers, subs, running⟩
    case h_3 mounts asked =>
      cases added
      rw [asked]
      refine ⟨moved mounts, fun other place refers => .inl refers, rfl, fun impossible => ?_⟩
      simp [Hooks.registry] at impossible

/-! ## What removing writes -/

/-- A subscription has been handed to the removing hook of a registry, if there is one, which has
freed something. -/
structure RemovedFrom (hooks : Hooks) (registries : Registries) (sub : GamSubscription)
    (registry : Option Registry) (after : Registries) (freed : List Pointer) : Prop where
  placed : after.Placed hooks
  refers : ∀ other place, after.Refers other place →
    registries.Refers other place ∧ (other = sub → registry ≠ some place)
  subs : after.subs = registries.subs
  freed : freed = if registry = some .poll then [sub.address] else []
  mounts : after.mounts = registries.mounts

/-- Without a hook nothing happens. -/
theorem removedFromNothing (placed : registries.Placed hooks) (sub : GamSubscription) :
    RemovedFrom hooks registries sub none registries [] :=
  ⟨placed, fun other place refers => ⟨refers, fun _ impossible => by contradiction⟩, rfl, rfl, rfl⟩

theorem removeByInotify_removes (placed : registries.Placed hooks) (sub : GamSubscription) :
    RemovedFrom hooks registries sub (some .inotify) (removeByInotify registries sub) [] := by
  refine ⟨⟨placed.poll, placed.absolute, placed.kqueue⟩, fun other place refers => ?_, rfl, rfl, rfl⟩
  cases place with
  | poll => exact ⟨refers, fun _ impossible => by contradiction⟩
  | kqueue => exact ⟨refers, fun _ impossible => by contradiction⟩
  | inotify =>
    obtain ⟨isub, member, data⟩ := refers
    obtain ⟨listed, unselected⟩ := (Inotify.ihSubForeachFree_subList _ _).mp member
    refine ⟨⟨isub, listed, data⟩, fun same => ?_⟩
    simp [data, same] at unselected

/-- Both polling backends take the subscription out of the tree. -/
theorem removedFromPoll (placed : registries.Placed hooks) {poll : Polling.Poll}
    (removed : Polling.SubsFrom registries.poll poll ∧ Polling.Unsubscribed poll sub) :
    RemovedFrom hooks registries sub (some .poll) { registries with poll := poll } [sub.address] := by
  obtain ⟨source, unsubscribed⟩ := removed
  refine ⟨⟨fun other node member refers => ?_, fun dnotify other refers => ?_, placed.kqueue⟩,
    fun other place refers => ?_, rfl, rfl, rfl⟩
  · obtain ⟨old, memberOld, samePath, refersOld⟩ := source node member other refers
    rw [← samePath]
    exact placed.poll other old memberOld refersOld
  · obtain ⟨node, member, atNode⟩ := refers
    obtain ⟨old, memberOld, _, refersOld⟩ := source node member other atNode
    exact placed.absolute dnotify other ⟨old, memberOld, refersOld⟩
  · cases place with
    | inotify => exact ⟨refers, fun _ impossible => by contradiction⟩
    | kqueue => exact ⟨refers, fun _ impossible => by contradiction⟩
    | poll =>
      obtain ⟨node, member, atNode⟩ := refers
      obtain ⟨old, memberOld, _, refersOld⟩ := source node member other atNode
      refine ⟨⟨old, memberOld, refersOld⟩, ?_⟩
      rintro rfl
      exact absurd atNode (unsubscribed node member)

theorem gamPollRemoveSubscription_removes (placed : registries.Placed hooks) {freed : List Pointer}
    (removed : gamPollRemoveSubscription hooks registries sub = some (after, freed)) :
    RemovedFrom hooks registries sub (hooks.registry .poll) after freed := by
  unfold gamPollRemoveSubscription at removed
  unfold Hooks.registry
  split at removed
  case h_1 none =>
    cases removed
    simp only [none, Option.map_none]
    exact removedFromNothing placed sub
  case h_2 basic =>
    simp only [basic, Option.map_some]
    obtain ⟨poll, gone, same⟩ := Option.map_eq_some_iff.mp removed
    cases same
    exact removedFromPoll placed (Polling.gamPollBasicRemoveSubscription_removes (placed.poll sub) gone)
  case h_3 dnotify =>
    simp only [dnotify, Option.map_some]
    obtain ⟨poll, gone, same⟩ := Option.map_eq_some_iff.mp removed
    cases same
    refine removedFromPoll placed
      (Polling.gamPollDnotifyRemoveSubscription_removes (placed.poll sub) (fun subscribed => ?_) gone)
    exact placed.absolute dnotify sub (not_not.mp fun absent => subscribed (not_refers_poll.mp absent))

theorem removeByKqueue_removes (placed : registries.Placed hooks) (sub : GamSubscription) :
    RemovedFrom hooks registries sub (some .kqueue) (removeByKqueue registries sub) [] := by
  -- a monitor of another path has not had it, and one that is empty goes
  have monitored : ∀ smon ∈ gamKqueueRemoveSubscription registries.kqueue sub,
      ∃ old ∈ registries.kqueue, old.isdir = smon.isdir ∧ old.pathname = smon.pathname ∧
        ∀ other ∈ smon.subs, other ∈ old.subs ∧ other ≠ sub := by
    intro smon member
    obtain ⟨old, memberOld, kept⟩ := List.mem_filterMap.mp member
    refine ⟨old, memberOld, ?_⟩
    split at kept
    case isTrue same =>
      simp only at kept
      split at kept
      · contradiction
      · cases kept
        refine ⟨rfl, rfl, fun other listed => ?_⟩
        obtain ⟨listedOld, different⟩ := List.mem_filter.mp listed
        exact ⟨listedOld, by simpa using different⟩
    case isFalse different =>
      cases kept
      refine ⟨rfl, rfl, fun other listed => ⟨listed, fun same => ?_⟩⟩
      exact different (same ▸ placed.kqueue smon memberOld other listed)
  refine ⟨⟨placed.poll, placed.absolute, fun smon member other refers => ?_⟩,
    fun other place refers => ?_, rfl, rfl, rfl⟩
  · obtain ⟨old, memberOld, isdir, path, fewer⟩ := monitored smon member
    rw [← isdir, ← path]
    exact placed.kqueue old memberOld other (fewer other refers).1
  · cases place with
    | inotify => exact ⟨refers, fun _ impossible => by contradiction⟩
    | poll => exact ⟨refers, fun _ impossible => by contradiction⟩
    | kqueue =>
      obtain ⟨smon, member, listed⟩ := refers
      obtain ⟨old, memberOld, _, _, fewer⟩ := monitored smon member
      exact ⟨⟨old, memberOld, (fewer other listed).1⟩, fun same => absurd same (fewer other listed).2⟩

theorem gamKernelRemoveSubscription_removes (placed : registries.Placed hooks) {freed : List Pointer}
    (removed : gamKernelRemoveSubscription hooks registries sub = some (after, freed)) :
    RemovedFrom hooks registries sub (hooks.registry .kernel) after freed := by
  unfold gamKernelRemoveSubscription at removed
  split at removed
  case h_1 none =>
    cases removed
    simp only [Hooks.registry, none]
    exact removedFromNothing placed sub
  case h_2 inotify =>
    cases removed
    simp only [Hooks.registry, inotify]
    exact removeByInotify_removes placed sub
  case h_3 dnotify =>
    simp only [Hooks.registry, dnotify]
    exact gamPollRemoveSubscription_removes placed removed
  case h_4 kqueue =>
    cases removed
    simp only [Hooks.registry, kqueue]
    exact removeByKqueue_removes placed sub

/-- The mount table after the question of `gam_remove_subscription`, if it asks. -/
def mountsAfter (excluded : Bytes → Bool) (mounts : Mounts) (path : Bytes) : Mounts :=
  if excluded path then mounts else (gamFsGetMonType mounts path).1

/-- `gam_remove_subscription` takes the subscription out of the registry of the hook that it calls
now. -/
theorem gamRemoveSubscription_removes (placed : registries.Placed hooks) {freed : List Pointer}
    (removed : hooks.gamRemoveSubscription excluded registries sub = some (after, freed)) :
    RemovedFrom hooks { registries with mounts := mountsAfter excluded registries.mounts sub.path } sub
      (hooks.registry (hookFor hooks excluded registries.mounts sub.path)) after freed := by
  have moved (mounts : Mounts) : Registries.Placed hooks { registries with mounts := mounts } :=
    ⟨placed.poll, placed.absolute, placed.kqueue⟩
  unfold Hooks.gamRemoveSubscription at removed
  unfold hookFor mountsAfter
  split at removed
  case isTrue isExcluded =>
    simp only [if_pos isExcluded]
    split at removed
    case isTrue running =>
      rw [if_pos running]
      exact gamPollRemoveSubscription_removes placed removed
    case isFalse stopped =>
      rw [if_neg stopped]
      exact gamKernelRemoveSubscription_removes placed removed
  case isFalse included =>
    simp only [if_neg included]
    split at removed
    case h_1 mounts asked =>
      rw [asked]
      exact gamKernelRemoveSubscription_removes (moved mounts) removed
    case h_2 mounts asked =>
      rw [asked]
      exact gamPollRemoveSubscription_removes (moved mounts) removed
    case h_3 mounts asked =>
      cases removed
      rw [asked]
      exact removedFromNothing (moved mounts) sub

/-- The caller frees a subscription beside inotify unless it is polled now. -/
def callerFrees (hooks : Hooks) (excluded : Bytes → Bool) (mounts : Mounts) (path : Bytes) : Bool :=
  hooks.inotifyRunning && !excluded path && decide ((gamFsGetMonType mounts path).2 ≠ .poll)

/-- What freeing a subscription comes to: who refers to it afterwards, and how often it has been
freed. -/
theorem gamListenerFreeSubscription_frees (placed : registries.Placed hooks) {freed : List Pointer}
    (removed : gamListenerFreeSubscription hooks excluded registries sub = some (after, freed)) :
    let registry := hooks.registry (hookFor hooks excluded registries.mounts sub.path)
    let mounts := mountsAfter excluded registries.mounts sub.path
    after.Placed hooks ∧
      (∀ other place, after.Refers other place →
        registries.Refers other place ∧ (other = sub → registry ≠ some place)) ∧
      after.subs = registries.subs ∧
      freed = (if registry = some .poll then [sub.address] else []) ++
        if callerFrees hooks excluded mounts sub.path then [sub.address] else [] := by
  obtain ⟨⟨next, first⟩, done, same⟩ := Option.map_eq_some_iff.mp removed
  obtain ⟨placedNext, refers, subs, freedFirst, mounts⟩ := gamRemoveSubscription_removes placed done
  have second : ∃ later, freedByCaller hooks excluded next sub =
      ({ next with mounts := later },
        if callerFrees hooks excluded (mountsAfter excluded registries.mounts sub.path) sub.path then
          [sub.address] else []) := by
    unfold freedByCaller callerFrees
    rw [mounts]
    split
    case isTrue asked =>
      exact ⟨(gamFsGetMonType (mountsAfter excluded registries.mounts sub.path) sub.path).1,
        by simp [asked]⟩
    case isFalse unasked =>
      have quiet : ¬ (hooks.inotifyRunning && !excluded sub.path) := by simpa using unasked
      exact ⟨next.mounts, by simp [quiet]⟩
  obtain ⟨later, second⟩ := second
  simp only [second] at same
  cases same
  refine ⟨⟨placedNext.poll, placedNext.absolute, placedNext.kqueue⟩, refers, subs, ?_⟩
  rw [freedFirst]

end

end Gamin.Server
