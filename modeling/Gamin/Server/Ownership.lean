import Gamin.Polling.Scanning
import Gamin.Server.Acceptance
import Gamin.Server.Daemon
import Gamin.Server.References

/-! # Who frees a subscription

A subscription belongs to the listener of its client, and the backend that it was handed to refers
to it.  Which backend that is nobody writes down: it is found out from the exclude list and the
mount table when the subscription is added, when it is removed, and once more to decide who frees
it.  While the answers agree, it is freed once, and nobody refers to it any more.
-/

namespace Gamin.Server

open Gamin Gamin.Library

section

variable (hooks : Hooks) (excluded : Bytes → Bool)

/-! ## Rightly freed subscriptions -/

/-- The subscription is on the list of the client. -/
def ListedIn (listeners : Nat → Option (List GamSubscription)) (client : Nat) (sub : GamSubscription) :
    Prop :=
  ∃ subs, listeners client = some subs ∧ sub ∈ subs

/-- Every subscription is removed by the backend that it was registered with, and it is freed when
it is removed, once; whom a backend refers to is on the list of an open listener. -/
structure RightlyFreed (server : GamServer) : Prop where
  sameRegistry : ∀ sub first hook, .registered sub first ∈ server.log → .removed sub hook ∈ server.log →
    hooks.registry hook = hooks.registry first
  freedOnce : ∀ sub hook, .removed sub hook ∈ server.log → server.log.count (.freed sub.address) = 1
  kept : ∀ client sub, ListedIn server.listeners client sub → .freed sub.address ∉ server.log
  referred : ∀ sub place, (server.registries []).Refers sub place →
    .freed sub.address ∉ server.log ∧ ∃ client, ListedIn server.listeners client sub

/-- The hooks that a subscription has been registered with. -/
def GamServer.hooksOf (server : GamServer) (sub : GamSubscription) : List GamFsMonType :=
  server.log.filterMap fun
    | .registered other hook => if other = sub then some hook else none
    | _ => none

theorem mem_hooksOf {server : GamServer} {sub : GamSubscription} {hook : GamFsMonType} :
    hook ∈ server.hooksOf sub ↔ .registered sub hook ∈ server.log := by
  unfold GamServer.hooksOf
  rw [List.mem_filterMap]
  constructor
  · rintro ⟨transfer, member, selected⟩
    cases transfer with
    | registered other used =>
      simp only at selected
      split at selected
      · rename_i same
        cases selected
        exact same ▸ member
      · contradiction
    | removed => contradiction
    | freed => contradiction
  · exact fun member => ⟨_, member, if_pos rfl⟩

/-- The exclude list and the mount table say the same of a path as when the subscription was
registered, twice.  With dnotify it is enough that they name a hook, since both hooks are its own.
Nobody frees what kqueue has had. -/
def Steady (server : GamServer) (sub : GamSubscription) : Prop :=
  ∀ first ∈ server.hooksOf sub,
    hooks.registry first ≠ some .kqueue ∧
      (hookFor hooks excluded server.mounts sub.path = first ∨
        hooks.kernel = some .dnotify ∧ hookFor hooks excluded server.mounts sub.path ≠ .none) ∧
      (hooks.inotifyRunning = true → excluded sub.path = false →
        ((gamFsGetMonType (mountsAfter excluded server.mounts sub.path) sub.path).2 = .poll ↔
          first = .poll))

instance (server : GamServer) (sub : GamSubscription) : Decidable (Steady hooks excluded server sub) :=
  inferInstanceAs (Decidable (∀ first ∈ server.hooksOf sub, _))

/-- So it is for every subscription of a listener that is freed, one after the other. -/
def SteadyClose (client : Nat) : List GamSubscription → GamServer → Prop
  | [], _ => True
  | sub :: subs, server =>
    Steady hooks excluded server sub ∧
      ∀ after ∈ server.free hooks excluded client subs sub, SteadyClose client subs after

instance decidableSteadyClose (client : Nat) :
    (subs : List GamSubscription) → (server : GamServer) →
      Decidable (SteadyClose hooks excluded client subs server)
  | [], _ => .isTrue trivial
  | sub :: subs, server =>
    have := fun after => decidableSteadyClose client subs after
    inferInstanceAs (Decidable (_ ∧ ∀ after ∈ server.free hooks excluded client subs sub,
      SteadyClose hooks excluded client subs after))

/-- The condition on a cancel request, with the subscription that it has found. -/
def SteadyCancel (client : Nat) (subs : List GamSubscription) (server : GamServer) :
    Option GamSubscription → Prop
  | none => SteadyClose hooks excluded client subs server
  | some sub => Steady hooks excluded server sub

instance (client : Nat) (subs : List GamSubscription) (server : GamServer) :
    (found : Option GamSubscription) → Decidable (SteadyCancel hooks excluded client subs server found)
  | none => inferInstanceAs (Decidable (SteadyClose hooks excluded client subs server))
  | some sub => inferInstanceAs (Decidable (Steady hooks excluded server sub))

/-- The condition on a step. -/
def RemovalGuard (server : GamServer) : ServerInput → Prop
  | .cancel client reqno =>
    ∀ subs ∈ server.listeners client,
      SteadyCancel hooks excluded client subs server (gamListenerGetSubscriptionByReqno subs reqno)
  | .close client => ∀ subs ∈ server.listeners client, SteadyClose hooks excluded client subs server
  | _ => True

instance (server : GamServer) : (input : ServerInput) → Decidable (RemovalGuard hooks excluded server input)
  | .cancel client reqno => inferInstanceAs (Decidable (∀ subs ∈ server.listeners client,
      SteadyCancel hooks excluded client subs server (gamListenerGetSubscriptionByReqno subs reqno)))
  | .close client => inferInstanceAs (Decidable (∀ subs ∈ server.listeners client,
      SteadyClose hooks excluded client subs server))
  | .connect _ | .monitor .. | .background _ => .isTrue trivial

end

/-! ## One subscription -/

/-- A hook that has taken a subscription: it writes to a registry, and if that is the one of
inotify, then inotify is running and the path is not excluded. -/
def Takes (hooks : Hooks) (excluded : Bytes → Bool) (sub : GamSubscription) (hook : GamFsMonType) : Prop :=
  hooks.registry hook ≠ none ∧
    (hooks.registry hook = some .inotify → hooks.inotifyRunning = true ∧ excluded sub.path = false)

theorem registry_poll {hooks : Hooks} {registry : Registry} (writes : hooks.registry .poll = some registry) :
    registry = .poll := by
  obtain ⟨_, _, rfl⟩ := Option.map_eq_some_iff.mp writes
  rfl

/-- The hooks of dnotify are both its own. -/
theorem registry_dnotify {hooks : Hooks} (dnotify : hooks.kernel = some .dnotify) {hook : GamFsMonType}
    (named : hook ≠ .none) : hooks.registry hook = hooks.registry .poll := by
  cases hook with
  | kernel => simp only [Hooks.registry, dnotify]
  | poll => rfl
  | none => exact absurd rfl named

section

variable {hooks : Hooks} {excluded : Bytes → Bool} {server after : GamServer} {client : Nat}
  {sub : GamSubscription}

/-- The hook that adds a subscription takes it. -/
theorem AddedTo.takes {registries next : Registries} {registry : Registry}
    (added : AddedTo hooks registries sub
      (hooks.registry (hookFor hooks excluded registries.mounts sub.path)) next)
    (writes : hooks.registry (hookFor hooks excluded registries.mounts sub.path) = some registry) :
    Takes hooks excluded sub (hookFor hooks excluded registries.mounts sub.path) := by
  refine ⟨fun nothing => ?_, fun inotify => ?_⟩
  · rw [nothing] at writes
    contradiction
  · have running := added.running inotify
    refine ⟨running, ?_⟩
    by_contra isExcluded
    rw [Bool.not_eq_false] at isExcluded
    rw [hookFor, if_pos isExcluded, if_pos running] at inotify
    exact absurd (registry_poll inotify) (by decide)

/-- While the answers agree, the right hook is called, and the subscription is freed once: a
polling backend does it itself, and otherwise the caller does. -/
theorem Steady.frees (runs : hooks.inotifyRunning = true → hooks.kernel = some .inotify2)
    (steady : Steady hooks excluded server sub) {first : GamFsMonType}
    (registered : .registered sub first ∈ server.log) (takes : Takes hooks excluded sub first) :
    hooks.registry (hookFor hooks excluded server.mounts sub.path) = hooks.registry first ∧
      ((if hooks.registry (hookFor hooks excluded server.mounts sub.path) = some .poll then [sub.address]
          else []) ++
        if callerFrees hooks excluded (mountsAfter excluded server.mounts sub.path) sub.path then
          [sub.address] else []) = [sub.address] := by
  obtain ⟨notKqueue, again, later⟩ := steady first (mem_hooksOf.mpr registered)
  have same : hooks.registry (hookFor hooks excluded server.mounts sub.path) = hooks.registry first := by
    rcases again with same | ⟨dnotify, named⟩
    · rw [same]
    · have firstNamed : first ≠ .none := by
        rintro rfl
        exact takes.1 rfl
      rw [registry_dnotify dnotify named, registry_dnotify dnotify firstNamed]
  refine ⟨same, ?_⟩
  rw [same]
  -- polling frees it itself; for inotify the caller does, if it takes the hook for one of the kernel
  cases place : hooks.registry first with
  | none => exact absurd place takes.1
  | some registry =>
    cases registry with
    | kqueue => exact absurd place notKqueue
    | inotify =>
      obtain ⟨running, included⟩ := takes.2 place
      have notPolled : first ≠ .poll := by
        rintro rfl
        exact absurd (registry_poll place) (by decide)
      have kernel := mt (later running included).mp notPolled
      simp [callerFrees, running, included, kernel]
    | poll =>
      have quiet : callerFrees hooks excluded (mountsAfter excluded server.mounts sub.path) sub.path = false := by
        by_contra frees
        simp only [callerFrees, Bool.not_eq_false, Bool.and_eq_true, Bool.not_eq_true',
          decide_eq_true_eq] at frees
        obtain ⟨⟨running, included⟩, notPolled⟩ := frees
        have polled : first = .poll := by
          cases first with
          | poll => rfl
          | kernel => simp [Hooks.registry, runs running] at place
          | none => simp [Hooks.registry] at place
        exact notPolled ((later running included).mpr polled)
      simp [quiet]

/-! ## The invariant -/

section

variable {listeners : Nat → Option (List GamSubscription)} {other : Nat} {one : GamSubscription}

theorem listedIn_update {subs : Option (List GamSubscription)} :
    ListedIn (Function.update listeners client subs) other sub ↔
      (other = client ∧ ∃ listed ∈ subs, sub ∈ listed) ∨ other ≠ client ∧ ListedIn listeners other sub := by
  unfold ListedIn
  by_cases own : other = client
  · subst own
    simp [Function.update_self]
  · simp [own]

theorem nodup_update {subs : Option (List GamSubscription)}
    (nodup : ∀ client subs, listeners client = some subs → subs.Nodup) (now : ∀ listed ∈ subs, listed.Nodup) :
    ∀ other listed, Function.update listeners client subs other = some listed → listed.Nodup := by
  intro other listed found
  by_cases own : other = client
  · rw [own, Function.update_self] at found
    exact now listed found
  · rw [Function.update_of_ne own] at found
    exact nodup other listed found

/-- A list gets longer by one. -/
theorem listedIn_cons {subs : List GamSubscription} (found : listeners client = some subs) :
    ListedIn (Function.update listeners client (some (sub :: subs))) other one ↔
      other = client ∧ one = sub ∨ ListedIn listeners other one := by
  rw [listedIn_update]
  by_cases own : other = client
  · subst own
    simp [ListedIn, found]
  · simp [own]

/-- Every subscription is on one list, once. -/
structure ListedOnce (listeners : Nat → Option (List GamSubscription)) : Prop where
  nodup : ∀ client subs, listeners client = some subs → subs.Nodup
  apart : ∀ client other sub, ListedIn listeners client sub → ListedIn listeners other sub → client = other

theorem ListedOnce.cons (once : ListedOnce listeners) {subs : List GamSubscription}
    (found : listeners client = some subs) (unlisted : ∀ other, ¬ ListedIn listeners other sub) :
    ListedOnce (Function.update listeners client (some (sub :: subs))) where
  nodup := by
    refine nodup_update once.nodup fun listed isListed => ?_
    cases isListed
    exact List.nodup_cons.mpr ⟨fun member => unlisted client ⟨subs, found, member⟩, once.nodup client subs found⟩
  apart := by
    intro one other both inOne inOther
    rcases (listedIn_cons found).mp inOne with ⟨rfl, rfl⟩ | oneOld
    · exact ((listedIn_cons found).mp inOther).elim (fun new => new.1.symm) fun old => absurd old (unlisted other)
    · rcases (listedIn_cons found).mp inOther with ⟨_, same⟩ | otherOld
      · exact absurd (same ▸ oneOld) (unlisted one)
      · exact once.apart one other both oneOld otherOld

/-- A list loses one. -/
theorem ListedOnce.listedIn_removed (once : ListedOnce listeners) {before subs : List GamSubscription}
    (found : listeners client = some before) (parts : before.Perm (sub :: subs)) :
    ListedIn (Function.update listeners client (some subs)) other one ↔
      ListedIn listeners other one ∧ one ≠ sub := by
  have unlisted := (List.nodup_cons.mp (parts.nodup_iff.mp (once.nodup client before found))).1
  rw [listedIn_update]
  by_cases own : other = client
  · subst own
    simp only [ne_eq, not_true_eq_false, false_and, or_false, true_and, Option.mem_def, Option.some.injEq,
      exists_eq_left', ListedIn, found, parts.mem_iff, List.mem_cons]
    constructor
    · exact fun inSubs => ⟨.inr inSubs, fun same => unlisted (same ▸ inSubs)⟩
    · exact fun ⟨listed, different⟩ => listed.resolve_left different
  · simp only [own, false_and, false_or, ne_eq, not_false_eq_true, true_and]
    refine ⟨fun listed => ⟨listed, ?_⟩, fun both => both.1⟩
    rintro rfl
    have member : ListedIn listeners client one := ⟨before, found, parts.mem_iff.mpr List.mem_cons_self⟩
    exact own (once.apart other client one listed member)

theorem ListedOnce.removed (once : ListedOnce listeners) {before subs : List GamSubscription}
    (found : listeners client = some before) (parts : before.Perm (sub :: subs)) :
    ListedOnce (Function.update listeners client (some subs)) where
  nodup := by
    refine nodup_update once.nodup fun listed isListed => ?_
    cases isListed
    exact (List.nodup_cons.mp (parts.nodup_iff.mp (once.nodup client before found))).2
  apart one other both inOne inOther :=
    once.apart one other both ((once.listedIn_removed found parts).mp inOne).1
      ((once.listedIn_removed found parts).mp inOther).1

end

/-- Who owns what, as long as the answers have agreed. -/
structure Owned (hooks : Hooks) (excluded : Bytes → Bool) (server : GamServer) : Prop where
  placed : (server.registries []).Placed hooks
  registered : ∀ sub hook, .registered sub hook ∈ server.log →
    sub.address < server.created ∧ Takes hooks excluded sub hook
  once : ∀ sub hook other otherHook, .registered sub hook ∈ server.log →
    .registered other otherHook ∈ server.log → sub.address = other.address →
      sub = other ∧ hook = otherHook
  nodup : ∀ client subs, server.listeners client = some subs → subs.Nodup
  listed : ∀ client sub, ListedIn server.listeners client sub →
    (∃ hook, .registered sub hook ∈ server.log) ∧ ∀ hook, .removed sub hook ∉ server.log
  apart : ∀ client other sub, ListedIn server.listeners client sub → ListedIn server.listeners other sub →
    client = other
  referred : ∀ sub place, (server.registries []).Refers sub place →
    (∃ client, ListedIn server.listeners client sub) ∧
      ∃ hook, .registered sub hook ∈ server.log ∧ hooks.registry hook = some place
  removed : ∀ sub hook, .removed sub hook ∈ server.log →
    (∃ first, .registered sub first ∈ server.log ∧ hooks.registry hook = hooks.registry first) ∧
      server.log.count (.freed sub.address) = 1
  freed : ∀ address, .freed address ∈ server.log →
    ∃ sub hook, .removed sub hook ∈ server.log ∧ sub.address = address

theorem Owned.lists (owned : Owned hooks excluded server) : ListedOnce server.listeners :=
  ⟨owned.nodup, owned.apart⟩

/-- What has been registered and not removed has not been freed. -/
theorem Owned.unfreed (owned : Owned hooks excluded server) {hook : GamFsMonType}
    (registered : .registered sub hook ∈ server.log) (kept : ∀ hook, .removed sub hook ∉ server.log) :
    .freed sub.address ∉ server.log := by
  intro freed
  obtain ⟨other, otherHook, removed, sameAddress⟩ := owned.freed _ freed
  obtain ⟨⟨first, otherRegistered, _⟩, _⟩ := owned.removed other otherHook removed
  obtain ⟨rfl, _⟩ := owned.once other first sub hook otherRegistered registered sameAddress
  exact kept otherHook removed

theorem Owned.rightlyFreed (owned : Owned hooks excluded server) : RightlyFreed hooks server where
  sameRegistry := by
    intro sub first hook registered removed
    obtain ⟨⟨other, otherRegistered, same⟩, _⟩ := owned.removed sub hook removed
    obtain ⟨_, rfl⟩ := owned.once sub first sub other registered otherRegistered rfl
    exact same
  freedOnce := fun sub hook removed => (owned.removed sub hook removed).2
  kept := by
    intro client sub listed
    obtain ⟨⟨hook, registered⟩, kept⟩ := owned.listed client sub listed
    exact owned.unfreed registered kept
  referred := by
    intro sub place refers
    obtain ⟨⟨client, listed⟩, _⟩ := owned.referred sub place refers
    obtain ⟨⟨hook, registered⟩, kept⟩ := owned.listed client sub listed
    exact ⟨owned.unfreed registered kept, client, listed⟩

/-- Neither the log nor the lists of the clients gain anything, and nobody comes to refer to a
subscription. -/
theorem Owned.quiet (owned : Owned hooks excluded server) (log : after.log = server.log)
    (created : server.created ≤ after.created)
    (nodup : ∀ client subs, after.listeners client = some subs → subs.Nodup)
    (lists : ∀ client sub, ListedIn after.listeners client sub ↔ ListedIn server.listeners client sub)
    (placed : (after.registries []).Placed hooks)
    (refers : ∀ sub place, (after.registries []).Refers sub place → (server.registries []).Refers sub place) :
    Owned hooks excluded after := by
  refine ⟨placed, ?_, ?_, nodup, ?_, ?_, ?_, ?_, ?_⟩ <;> simp only [log, lists]
  · intro sub hook registered
    obtain ⟨older, takes⟩ := owned.registered sub hook registered
    exact ⟨Nat.lt_of_lt_of_le older created, takes⟩
  · exact owned.once
  · exact owned.listed
  · exact owned.apart
  · exact fun sub place now => owned.referred sub place (refers sub place now)
  · exact owned.removed
  · exact owned.freed

/-- Nor do the lists change. -/
theorem Owned.elsewhere (owned : Owned hooks excluded server) (log : after.log = server.log)
    (created : after.created = server.created) (listeners : after.listeners = server.listeners)
    (placed : (after.registries []).Placed hooks)
    (refers : ∀ sub place, (after.registries []).Refers sub place → (server.registries []).Refers sub place) :
    Owned hooks excluded after := by
  apply owned.quiet log created.ge _ _ placed refers <;> rw [listeners]
  · exact owned.nodup
  · exact fun _ _ => Iff.rfl

/-! ## Requests -/

/-- A new subscription comes to the front of its list. -/
theorem Owned.register (owned : Owned hooks excluded server) {subs : List GamSubscription} {hook : GamFsMonType}
    (found : server.listeners client = some subs) (address : sub.address = server.created)
    (takes : Takes hooks excluded sub hook) (log : after.log = server.log ++ [.registered sub hook])
    (created : after.created = server.created + 1)
    (lists : after.listeners = Function.update server.listeners client (some (sub :: subs)))
    (placed : (after.registries []).Placed hooks)
    (refers : ∀ other place, (after.registries []).Refers other place →
      (server.registries []).Refers other place ∨ other = sub ∧ hooks.registry hook = some place) :
    Owned hooks excluded after := by
  -- its address is that of nobody in the log, and so it is on no list
  have unknown {other : GamSubscription} {otherHook : GamFsMonType}
      (registered : .registered other otherHook ∈ server.log) : other.address ≠ sub.address :=
    address ▸ (owned.registered other otherHook registered).1.ne
  have unlisted (other : Nat) : ¬ ListedIn server.listeners other sub := by
    intro listed
    obtain ⟨⟨otherHook, registered⟩, _⟩ := owned.listed other sub listed
    exact unknown registered rfl
  have once : ListedOnce after.listeners := lists ▸ owned.lists.cons found unlisted
  have inLog {other : GamSubscription} {otherHook : GamFsMonType} :
      .registered other otherHook ∈ after.log ↔
        .registered other otherHook ∈ server.log ∨ other = sub ∧ otherHook = hook := by
    simp [log]
  have removedInLog {other : GamSubscription} {otherHook : GamFsMonType} :
      .removed other otherHook ∈ after.log ↔ .removed other otherHook ∈ server.log := by
    simp [log]
  have nowListed {other : Nat} {one : GamSubscription} : ListedIn after.listeners other one ↔
      other = client ∧ one = sub ∨ ListedIn server.listeners other one :=
    lists ▸ listedIn_cons found
  refine ⟨placed, fun other otherHook registered => ?_, fun one oneHook other otherHook oneIn otherIn same => ?_,
    once.nodup, fun other one listed => ?_, once.apart, fun other place now => ?_,
    fun other otherHook removed => ?_, fun freed gone => ?_⟩
  · rw [created]
    rcases inLog.mp registered with old | ⟨rfl, rfl⟩
    · obtain ⟨older, oldTakes⟩ := owned.registered other otherHook old
      exact ⟨Nat.lt_succ_of_lt older, oldTakes⟩
    · exact ⟨address ▸ Nat.lt_succ_self _, takes⟩
  · rcases inLog.mp oneIn with oneOld | ⟨rfl, rfl⟩ <;> rcases inLog.mp otherIn with otherOld | ⟨rfl, rfl⟩
    · exact owned.once one oneHook other otherHook oneOld otherOld same
    · exact absurd same (unknown oneOld)
    · exact absurd same.symm (unknown otherOld)
    · exact ⟨rfl, rfl⟩
  · rcases nowListed.mp listed with ⟨_, rfl⟩ | old
    · refine ⟨⟨hook, inLog.mpr (.inr ⟨rfl, rfl⟩)⟩, fun otherHook removed => ?_⟩
      obtain ⟨⟨first, registered, _⟩, _⟩ := owned.removed one otherHook (removedInLog.mp removed)
      exact unknown registered rfl
    · obtain ⟨⟨otherHook, registered⟩, kept⟩ := owned.listed other one old
      exact ⟨⟨otherHook, inLog.mpr (.inl registered)⟩, fun otherHook removed => kept _ (removedInLog.mp removed)⟩
  · rcases refers other place now with old | ⟨rfl, same⟩
    · obtain ⟨⟨owner, listed⟩, otherHook, registered, otherPlace⟩ := owned.referred other place old
      exact ⟨⟨owner, nowListed.mpr (.inr listed)⟩, otherHook, inLog.mpr (.inl registered), otherPlace⟩
    · exact ⟨⟨client, nowListed.mpr (.inl ⟨rfl, rfl⟩)⟩, hook, inLog.mpr (.inr ⟨rfl, rfl⟩), same⟩
  · obtain ⟨⟨first, registered, same⟩, count⟩ := owned.removed other otherHook (removedInLog.mp removed)
    refine ⟨⟨first, inLog.mpr (.inl registered), same⟩, ?_⟩
    simpa [log, List.count_append] using count
  · simp only [log, List.mem_append, List.mem_singleton, reduceCtorEq, or_false] at gone
    obtain ⟨other, otherHook, removed, same⟩ := owned.freed freed gone
    exact ⟨other, otherHook, removedInLog.mpr removed, same⟩

/-- A new subscription is registered with the hook that takes it, or forgotten. -/
theorem Owned.monitor (owned : Owned hooks excluded server) {path : Bytes} {reqno options : Nat}
    {isDir : Bool} {around : Surroundings}
    (served : server.monitor hooks excluded client path reqno isDir options around = some after) :
    Owned hooks excluded after := by
  unfold GamServer.monitor at served
  split at served
  · cases served
    exact owned
  case h_2 subs found =>
    obtain ⟨⟨registries, result⟩, handed, rfl⟩ := Option.map_eq_some_iff.mp served
    clear served
    generalize name : gamSubscriptionNew server.created path requestedEvents reqno isDir options = sub at handed ⊢
    have address : sub.address = server.created := name ▸ rfl
    have samePath : path = sub.path := name ▸ rfl
    subst samePath
    have added := gamAddSubscription_adds
      (show (server.registries subs).Placed hooks from
        ⟨owned.placed.poll, owned.placed.absolute, owned.placed.kqueue⟩) handed
    have placed := added.placed
    have refers := added.refers
    cases writes : hooks.registry (hookFor hooks excluded server.mounts sub.path) with
    | none =>
      -- no hook has taken it, and the lists are as they were
      have same : registries.subs = subs := by
        simpa only [GamServer.registries, writes, Option.isSome_none, Bool.false_eq_true, if_false]
          using added.subs
      have lists : Function.update server.listeners client (some registries.subs) = server.listeners := by
        rw [same, ← found, Function.update_eq_self]
      have absent : sub ∉ registries.subs := by
        intro member
        obtain ⟨⟨hook, registered⟩, _⟩ := owned.listed client sub ⟨subs, found, same ▸ member⟩
        exact absurd address (owned.registered sub hook registered).1.ne
      refine owned.quiet (by simp [absent]) (Nat.le_succ _) ?_ ?_
        ⟨placed.poll, placed.absolute, placed.kqueue⟩ fun other place now => ?_
      · simp only [GamServer.serve, lists]
        exact owned.nodup
      · simp [GamServer.serve, lists]
      · rcases refers other place now with old | ⟨_, impossible⟩
        · exact old
        · exact absurd (writes.symm.trans impossible) (by simp)
    | some registry =>
      have longer : registries.subs = sub :: subs := by
        simpa only [GamServer.registries, writes, Option.isSome_some, if_true] using added.subs
      have takes : Takes hooks excluded sub (hookFor hooks excluded server.mounts sub.path) :=
        added.takes writes
      exact owned.register found address takes (by simp [longer]) rfl (by rw [← longer]; rfl)
        ⟨placed.poll, placed.absolute, placed.kqueue⟩ refers

/-- A subscription that is taken off its list while the answers agree is handed to its backend and
freed. -/
theorem Owned.free (runs : hooks.inotifyRunning = true → hooks.kernel = some .inotify2)
    (owned : Owned hooks excluded server) {before subs : List GamSubscription}
    (found : server.listeners client = some before) (parts : before.Perm (sub :: subs))
    (steady : Steady hooks excluded server sub)
    (freed : server.free hooks excluded client subs sub = some after) :
    Owned hooks excluded after ∧ after.listeners client = some subs := by
  obtain ⟨⟨registries, gone⟩, handed, rfl⟩ := Option.map_eq_some_iff.mp freed
  clear freed
  have member : ListedIn server.listeners client sub :=
    ⟨before, found, parts.mem_iff.mpr List.mem_cons_self⟩
  obtain ⟨⟨first, registered⟩, kept⟩ := owned.listed client sub member
  obtain ⟨placed, refers, sameSubs, freedNow⟩ := gamListenerFreeSubscription_frees
    (show (server.registries subs).Placed hooks from
      ⟨owned.placed.poll, owned.placed.absolute, owned.placed.kqueue⟩) handed
  obtain ⟨sameRegistry, freedOnce⟩ := steady.frees runs registered (owned.registered sub first registered).2
  have goneOnce : gone = [sub.address] := freedNow.trans freedOnce
  subst goneOnce
  have inLog {transfer : Transfer} : transfer ∈ server.log ++
      .removed sub (hookFor hooks excluded server.mounts sub.path) :: [sub.address].map .freed ↔
        transfer ∈ server.log ∨ transfer = .removed sub (hookFor hooks excluded server.mounts sub.path) ∨
          transfer = .freed sub.address := by
    simp
  have listeners : (server.serve client registries).listeners =
      Function.update server.listeners client (some subs) := by
    simp only [GamServer.serve, sameSubs]
    rfl
  have once : ListedOnce (server.serve client registries).listeners := listeners ▸ owned.lists.removed found parts
  have nowListed {other : Nat} {one : GamSubscription} :
      ListedIn (server.serve client registries).listeners other one ↔
        ListedIn server.listeners other one ∧ one ≠ sub :=
    listeners ▸ owned.lists.listedIn_removed found parts
  -- it is removed for the first time
  have removedBefore {other : GamSubscription} {hook : GamFsMonType}
      (removed : .removed other hook ∈ server.log) : sub.address ≠ other.address := by
    intro sameAddress
    obtain ⟨⟨otherFirst, otherRegistered, _⟩, _⟩ := owned.removed other hook removed
    obtain ⟨rfl, _⟩ := owned.once sub first other otherFirst registered otherRegistered sameAddress
    exact kept hook removed
  refine ⟨⟨⟨placed.poll, placed.absolute, placed.kqueue⟩, fun other hook otherIn => ?_,
    fun one hook other otherHook oneIn otherIn => ?_, once.nodup, fun other one listed => ?_, once.apart,
    fun other place now => ?_, fun other hook removed => ?_, fun address isFreed => ?_⟩, ?_⟩
  · exact owned.registered other hook (by simpa using inLog.mp otherIn)
  · exact owned.once one hook other otherHook (by simpa using inLog.mp oneIn) (by simpa using inLog.mp otherIn)
  · obtain ⟨listedBefore, different⟩ := nowListed.mp listed
    obtain ⟨⟨hook, oneRegistered⟩, oneKept⟩ := owned.listed other one listedBefore
    refine ⟨⟨hook, inLog.mpr (.inl oneRegistered)⟩, fun hook removed => ?_⟩
    rcases inLog.mp removed with old | new | impossible
    · exact oneKept hook old
    · cases new
      exact different rfl
    · contradiction
  · obtain ⟨referred, elsewhere⟩ := refers other place now
    obtain ⟨⟨owner, listed⟩, hook, otherRegistered, otherPlace⟩ := owned.referred other place referred
    have different : other ≠ sub := by
      rintro rfl
      obtain ⟨_, rfl⟩ := owned.once other hook other first otherRegistered registered rfl
      exact elsewhere rfl (sameRegistry.trans otherPlace)
    exact ⟨⟨owner, nowListed.mpr ⟨listed, different⟩⟩, hook, inLog.mpr (.inl otherRegistered), otherPlace⟩
  · rcases inLog.mp removed with old | new | impossible
    · obtain ⟨⟨otherFirst, otherRegistered, same⟩, count⟩ := owned.removed other hook old
      refine ⟨⟨otherFirst, inLog.mpr (.inl otherRegistered), same⟩, ?_⟩
      simpa [List.count_append, List.count_cons, removedBefore old] using count
    · cases new
      refine ⟨⟨first, inLog.mpr (.inl registered), sameRegistry⟩, ?_⟩
      simp [List.count_append, List.count_eq_zero.mpr (owned.unfreed registered kept)]
    · contradiction
  · rcases inLog.mp isFreed with old | impossible | new
    · obtain ⟨other, hook, removed, same⟩ := owned.freed address old
      exact ⟨other, hook, inLog.mpr (.inl removed), same⟩
    · contradiction
    · cases new
      exact ⟨sub, _, inLog.mpr (.inr (.inl rfl)), rfl⟩
  · simp only [GamServer.serve, Function.update_self, sameSubs]
    rfl

/-- A listener without subscriptions comes or goes. -/
theorem Owned.relist (owned : Owned hooks excluded server) {subs : Option (List GamSubscription)}
    (was : ∀ listed ∈ server.listeners client, listed = []) (is : ∀ listed ∈ subs, listed = []) :
    Owned hooks excluded { server with listeners := Function.update server.listeners client subs } := by
  refine owned.quiet rfl le_rfl (nodup_update owned.nodup fun listed isListed => ?_) (fun other sub => ?_)
    owned.placed fun sub place refers => refers
  · rw [is listed isListed]
    exact List.nodup_nil
  · rw [listedIn_update]
    by_cases own : other = client
    · subst own
      constructor
      · rintro (⟨_, listed, isListed, member⟩ | ⟨different, _⟩)
        · rw [is listed isListed] at member
          contradiction
        · exact absurd rfl different
      · rintro ⟨listed, wasListed, member⟩
        rw [was listed wasListed] at member
        contradiction
    · simp [own]

/-- A listener goes when its subscriptions have been freed. -/
theorem Owned.close (runs : hooks.inotifyRunning = true → hooks.kernel = some .inotify2)
    {subs : List GamSubscription} (owned : Owned hooks excluded server)
    (found : server.listeners client = some subs)
    (steady : SteadyClose hooks excluded client subs server)
    (closed : GamServer.close hooks excluded client subs server = some after) :
    Owned hooks excluded after := by
  induction subs generalizing server with
  | nil =>
    cases closed
    refine owned.relist (fun listed isListed => ?_) fun listed impossible => by contradiction
    rw [found] at isListed
    exact (Option.some.inj isListed).symm
  | cons sub subs inductionHypothesis =>
    obtain ⟨next, freed, rest⟩ := Option.bind_eq_some_iff.mp closed
    obtain ⟨ownedNext, foundNext⟩ := owned.free runs found (List.Perm.refl _) steady.1 freed
    exact inductionHypothesis ownedNext foundNext (steady.2 next freed) rest

theorem Owned.cancel (runs : hooks.inotifyRunning = true → hooks.kernel = some .inotify2)
    (owned : Owned hooks excluded server) {reqno : Nat}
    (guard : RemovalGuard hooks excluded server (.cancel client reqno))
    (cancelled : server.cancel hooks excluded client reqno = some after) : Owned hooks excluded after := by
  unfold GamServer.cancel at cancelled
  split at cancelled
  · cases cancelled
    exact owned
  case h_2 subs found =>
    have steady := guard subs found
    split at cancelled
    case h_1 unknown =>
      rw [unknown] at steady
      exact owned.close runs found steady cancelled
    case h_2 sub known =>
      rw [known] at steady
      obtain ⟨next, freed, rest⟩ := Option.bind_eq_some_iff.mp cancelled
      have member := (getSubscriptionByReqno_mem known).1
      split at rest
      · contradiction
      · cases rest
        exact (owned.free runs found (List.perm_cons_erase member) steady freed).1

/-! ## Every run -/

/-- Nobody comes to refer to a subscription through a scan. -/
theorem Owned.polled (owned : Owned hooks excluded server) {poll : Polling.Poll}
    (same : Polling.SameSubs server.poll poll) : Owned hooks excluded { server with poll := poll } := by
  have earlier {node : Polling.GamNode} (member : node ∈ poll.nodes) {sub : GamSubscription}
      (subscribed : sub ∈ node.subs) :
      node.path = sub.path ∧ (server.registries []).Refers sub .poll := by
    obtain ⟨old, memberOld, samePath, subscribedOld⟩ := same.source node member sub subscribed
    rw [← samePath]
    exact ⟨owned.placed.poll sub old memberOld subscribedOld, old, memberOld, subscribedOld⟩
  refine owned.elsewhere rfl rfl rfl ⟨fun sub node member subscribed => (earlier member subscribed).1,
    fun dnotify sub ⟨node, member, subscribed⟩ => ?_, owned.placed.kqueue⟩ fun sub place refers => ?_
  · exact owned.placed.absolute dnotify sub (earlier member subscribed).2
  · cases place with
    | inotify => exact refers
    | kqueue => exact refers
    | poll =>
      obtain ⟨node, member, subscribed⟩ := refers
      exact (earlier member subscribed).2

/-- Nor through an event of inotify. -/
theorem Owned.notified (owned : Owned hooks excluded server) {inotify : Inotify.Backend}
    (same : inotify.subList = server.inotify.subList) :
    Owned hooks excluded { server with inotify := inotify } := by
  refine owned.elsewhere rfl rfl rfl ⟨owned.placed.poll, owned.placed.absolute, owned.placed.kqueue⟩
    fun sub place refers => ?_
  cases place with
  | poll => exact refers
  | kqueue => exact refers
  | inotify =>
    obtain ⟨isub, member, data⟩ := refers
    exact ⟨isub, same ▸ member, data⟩

/-- What the server does on its own account: a backend changes something and keeps its
subscriptions, or the mount table is looked at. -/
theorem background_effect {event : Background} (done : server.background hooks event = some after) :
    (∃ poll, Polling.SameSubs server.poll poll ∧ after = { server with poll := poll }) ∨
      (∃ inotify : Inotify.Backend, inotify.subList = server.inotify.subList ∧
        after = { server with inotify := inotify }) ∨
      after = { server with mounts := server.mounts.init } := by
  cases event with
  | inotifyEvent event answers =>
    obtain ⟨inotify, dispatched, rfl⟩ := Option.map_eq_some_iff.mp done
    obtain ⟨next, called, rfl⟩ := Option.map_eq_some_iff.mp dispatched
    refine .inr (.inl ⟨_, ?_, rfl⟩)
    have same := Inotify.ipEventCallback_subList called
    split <;> exact same
  | inotifyScan answers view =>
    obtain ⟨inotify, scanned, rfl⟩ := Option.map_eq_some_iff.mp done
    exact .inr (.inl ⟨_, Inotify.imScanMissing_subList scanned, rfl⟩)
  | pollScan now rounds =>
    cases done
    exact .inl ⟨_, Polling.gamPollBasicScanCallback_same _ now rounds, rfl⟩
  | dnotifyScan now rounds =>
    cases done
    exact .inl ⟨_, Polling.gamPollDnotifyScanCallback_same _ _ now rounds, rfl⟩
  | dnotifyChange now path =>
    cases done
    exact .inl ⟨_, Polling.gamPollGenericScanDirectory_same (Polling.gamPollDnotifyPollFile_keeps _) _ now path,
      rfl⟩
  | mountTable =>
    cases done
    exact .inr (.inr rfl)

theorem Owned.background (owned : Owned hooks excluded server) {event : Background}
    (done : server.background hooks event = some after) : Owned hooks excluded after := by
  rcases background_effect done with ⟨poll, same, rfl⟩ | ⟨inotify, same, rfl⟩ | rfl
  · exact owned.polled same
  · exact owned.notified same
  · exact owned.elsewhere rfl rfl rfl
      ⟨owned.placed.poll, owned.placed.absolute, owned.placed.kqueue⟩ fun sub place refers => refers

theorem Owned.connect (owned : Owned hooks excluded server) (client : Nat) :
    Owned hooks excluded (server.connect client) := by
  unfold GamServer.connect
  split
  case h_1 unconnected =>
    refine owned.relist (fun listed isListed => ?_) fun listed isListed => (Option.some.inj isListed).symm
    rw [unconnected] at isListed
    contradiction
  case h_2 => exact owned

theorem Owned.hangup (runs : hooks.inotifyRunning = true → hooks.kernel = some .inotify2)
    (owned : Owned hooks excluded server) (guard : RemovalGuard hooks excluded server (.close client))
    (gone : server.hangup hooks excluded client = some after) : Owned hooks excluded after := by
  unfold GamServer.hangup at gone
  split at gone
  · cases gone
    exact owned
  case h_2 subs found => exact owned.close runs found (guard subs found) gone

theorem serverStep_owned (runs : hooks.inotifyRunning = true → hooks.kernel = some .inotify2)
    (server : GamServer) (input : ServerInput) (after : GamServer) (owned : Owned hooks excluded server)
    (guard : RemovalGuard hooks excluded server input)
    (returned : serverStep hooks excluded server input = some after) : Owned hooks excluded after := by
  cases input with
  | connect client =>
    cases returned
    exact owned.connect client
  | monitor client path reqno isDir options around => exact owned.monitor returned
  | cancel client reqno => exact owned.cancel runs guard returned
  | close client => exact owned.hangup runs guard returned
  | background event => exact owned.background returned

theorem gamServerNew_owned (hooks : Hooks) (excluded : Bytes → Bool) (views : Nat → Polling.FsView)
    (mounts : Mounts) : Owned hooks excluded (gamServerNew views mounts) := by
  have empty : ∀ sub place, ¬ ((gamServerNew views mounts).registries []).Refers sub place := by
    intro sub place refers
    cases place <;> obtain ⟨_, member, _⟩ := refers <;> exact absurd member List.not_mem_nil
  have unlisted : ∀ client sub, ¬ ListedIn (gamServerNew views mounts).listeners client sub :=
    fun client sub ⟨_, found, _⟩ => nomatch found
  exact ⟨⟨fun sub node member => (nomatch member), fun _ sub refers => absurd refers (empty sub .poll),
      fun smon member => (nomatch member)⟩, fun _ _ member => (nomatch member),
    fun _ _ _ _ member => (nomatch member), fun _ _ found => (nomatch found),
    fun client sub listed => absurd listed (unlisted client sub),
    fun client _ sub listed => absurd listed (unlisted client sub),
    fun sub place refers => absurd refers (empty sub place), fun _ _ member => (nomatch member),
    fun _ member => (nomatch member)⟩

end

/-- While the exclude list and the mount table say of each path what they said when its
subscription was registered, and kqueue is not asked, every subscription is removed by the backend
that it was registered with and freed once, and no backend refers to one that has been freed or
whose listener has gone. -/
theorem subscriptions_rightly_freed (build : Build) (startup : Startup) (excluded : Bytes → Bool)
    (views : Nat → Polling.FsView) (mounts : Mounts) (inputs : List ServerInput)
    (guarded : Guarded (partialStep (serverStep (gamInitSubscriptions build startup).1 excluded))
      (GuardIfAny (RemovalGuard (gamInitSubscriptions build startup).1 excluded))
      (some (gamServerNew views mounts)) inputs) :
    Throughout (partialStep (serverStep (gamInitSubscriptions build startup).1 excluded))
      (IfAny (RightlyFreed (gamInitSubscriptions build startup).1)) (some (gamServerNew views mounts))
      inputs := by
  have installed := (gamInitSubscriptions_installed build startup).2
  have runs : (gamInitSubscriptions build startup).1.inotifyRunning = true →
      (gamInitSubscriptions build startup).1.kernel = some .inotify2 := by
    intro running
    rw [installed.inotify, decide_eq_true_eq] at running
    exact installed.inotifyHook running
  apply (Throughout.of_partial (serverStep_owned runs) (gamServerNew_owned _ excluded views mounts)
    guarded).imp
  exact IfAny.imp fun server owned => owned.rightlyFreed

/-! ## A mount in between -/

/-- `/a` lies on ext3 for so many looks at the mount table, and on nfs afterwards. -/
def mountedOver (looks : Nat) : Mounts where
  state := (noRegistries inotifyBuild).mounts.state
  mtab look :=
    if look < looks then
      { mtime := 1, contents := some [100, 32, 47, 97, 32, 101, 120, 116, 51] }
    else { mtime := 2, contents := some [100, 32, 47, 97, 32, 110, 102, 115] }

/-- A client subscribes to the directory `/a`, and cancels. -/
def cancelledDirectory : List ServerInput :=
  [.connect 0, .monitor 0 [47, 97] 1 true 0 aroundA, .cancel 0 1]

/-- The whole run takes place before the mount. -/
theorem cancelledDirectory_rightly_freed :
    Throughout (partialStep (serverStep (gamInitSubscriptions inotifyBuild ⟨false, false, true, true, false⟩).1
        (gamExcludeCheck matchesPrefix (gamExcludeInit inotifyBuild []))))
      (IfAny (RightlyFreed (gamInitSubscriptions inotifyBuild ⟨false, false, true, true, false⟩).1))
      (some (gamServerNew (noRegistries inotifyBuild).poll.views (mountedOver 6))) cancelledDirectory :=
  subscriptions_rightly_freed inotifyBuild ⟨false, false, true, true, false⟩ _ _ _ _ (by decide +kernel)

/-- The mount comes between the two requests: polling frees the subscription, and inotify keeps it
on its list. -/
theorem mount_leaves_freed_subscription :
    (run (partialStep (serverStep (gamInitSubscriptions inotifyBuild ⟨false, false, true, true, false⟩).1
        (gamExcludeCheck matchesPrefix (gamExcludeInit inotifyBuild []))))
      (some (gamServerNew (noRegistries inotifyBuild).poll.views (mountedOver 2))) cancelledDirectory).map
        (fun server => (server.log, server.inotify.subList.map (·.usersubdata))) =
      some ([.registered (gamSubscriptionNew 0 [47, 97] requestedEvents 1 true 0) .kernel,
          .removed (gamSubscriptionNew 0 [47, 97] requestedEvents 1 true 0) .poll, .freed 0],
        [gamSubscriptionNew 0 [47, 97] requestedEvents 1 true 0]) ∧
      ¬ Throughout (partialStep (serverStep (gamInitSubscriptions inotifyBuild ⟨false, false, true, true, false⟩).1
          (gamExcludeCheck matchesPrefix (gamExcludeInit inotifyBuild []))))
        (IfAny (RightlyFreed (gamInitSubscriptions inotifyBuild ⟨false, false, true, true, false⟩).1))
        (some (gamServerNew (noRegistries inotifyBuild).poll.views (mountedOver 2))) cancelledDirectory := by
  have outcome : (run (partialStep (serverStep
      (gamInitSubscriptions inotifyBuild ⟨false, false, true, true, false⟩).1
        (gamExcludeCheck matchesPrefix (gamExcludeInit inotifyBuild []))))
      (some (gamServerNew (noRegistries inotifyBuild).poll.views (mountedOver 2))) cancelledDirectory).map
        (fun server => (server.log, server.inotify.subList.map (·.usersubdata))) =
      some ([.registered (gamSubscriptionNew 0 [47, 97] requestedEvents 1 true 0) .kernel,
          .removed (gamSubscriptionNew 0 [47, 97] requestedEvents 1 true 0) .poll, .freed 0],
        [gamSubscriptionNew 0 [47, 97] requestedEvents 1 true 0]) := by
    decide +kernel
  refine ⟨outcome, fun rightly => ?_⟩
  obtain ⟨server, reached, found⟩ := Option.map_eq_some_iff.mp outcome
  obtain ⟨log, listed⟩ := Prod.mk.inj found
  have final := rightly.last
  rw [reached] at final
  have member : gamSubscriptionNew 0 [47, 97] requestedEvents 1 true 0 ∈
      server.inotify.subList.map (·.usersubdata) := by
    rw [listed]
    exact List.mem_cons_self
  obtain ⟨isub, inList, data⟩ := List.mem_map.mp member
  have unfreed := (final.referred (gamSubscriptionNew 0 [47, 97] requestedEvents 1 true 0) .inotify
    ⟨isub, inList, data⟩).1
  rw [log] at unfreed
  exact unfreed (by decide)

end Gamin.Server
