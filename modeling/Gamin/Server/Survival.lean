import Gamin.Server.Intake

/-! # Requests that the server survives

Where polling has registered a subscription of a client, the node of its path has it, and a backend
refers to no other subscriptions than those that it has registered.  So a hook finds what it asserts,
as long as the requests are safe, and nobody refers to a subscription that has been freed.
-/

namespace Gamin.Server

open Gamin Gamin.Library

section

variable {hooks : Hooks} {excluded : Bytes → Bool} {server after : GamServer} {client : Nat}
  {sub : GamSubscription}

/-! ## The invariant -/

/-- Every subscription of a client has been registered, and sits where polling has put it; and nobody
else refers to one. -/
structure Seated (hooks : Hooks) (server : GamServer) : Prop where
  placed : (server.registries []).Placed hooks
  registered : ∀ sub hook, .registered sub hook ∈ server.log → sub.address < server.created
  sole : ∀ sub hook other otherHook, .registered sub hook ∈ server.log →
    .registered other otherHook ∈ server.log → sub.address = other.address → sub = other ∧ hook = otherHook
  referred : ∀ sub place, (server.registries []).Refers sub place →
    ∃ hook, .registered sub hook ∈ server.log ∧ hooks.registry hook = some place
  freed : ∀ address, .freed address ∈ server.log → address < server.created
  unfreed : Unfreed server
  nodup : ∀ client subs, server.listeners client = some subs → subs.Nodup
  apart : ∀ client other sub, ListedIn server.listeners client sub → ListedIn server.listeners other sub →
    client = other
  listed : ∀ client sub, ListedIn server.listeners client sub →
    ∃ hook, .registered sub hook ∈ server.log ∧ Attached hooks server.poll sub hook

theorem Seated.lists (seated : Seated hooks server) : ListedOnce server.listeners :=
  ⟨seated.nodup, seated.apart⟩

theorem Seated.older (seated : Seated hooks server) (listed : ListedIn server.listeners client sub) :
    sub.address < server.created := by
  obtain ⟨hook, registered, _⟩ := seated.listed client sub listed
  exact seated.registered sub hook registered

/-- A new subscription is nowhere yet. -/
theorem Seated.fresh (seated : Seated hooks server) {subs : List GamSubscription}
    (found : server.listeners client = some subs) (address : sub.address = server.created)
    (around : Surroundings) : Fresh around (server.registries subs) sub := by
  have unknown : ∀ place, ¬ (server.registries []).Refers sub place := by
    intro place refers
    obtain ⟨hook, registered, _⟩ := seated.referred sub place refers
    exact absurd address (seated.registered sub hook registered).ne
  refine ⟨fun member => ?_, fun isub member data => ?_, ?_, fun smon member monitored => ?_⟩
  · exact absurd address (seated.older ⟨subs, found, member⟩).ne
  · exact unknown .inotify ⟨isub, member, data⟩
  · exact not_refers_poll.mp (unknown .poll)
  · exact unknown .kqueue ⟨smon, member, monitored⟩

/-- Neither the registrations nor the lists nor the backends gain anybody, and who is still listed keeps
its seat. -/
theorem Seated.fewer (seated : Seated hooks server) (placed : (after.registries []).Placed hooks)
    (created : server.created ≤ after.created)
    (log : ∀ sub hook, .registered sub hook ∈ after.log ↔ .registered sub hook ∈ server.log)
    (freed : ∀ address, .freed address ∈ after.log → address < after.created) (unfreed : Unfreed after)
    (refers : ∀ sub place, (after.registries []).Refers sub place → (server.registries []).Refers sub place)
    (nodup : ∀ client subs, after.listeners client = some subs → subs.Nodup)
    (listed : ∀ client sub, ListedIn after.listeners client sub → ListedIn server.listeners client sub ∧
      ∀ hook, Attached hooks server.poll sub hook → Attached hooks after.poll sub hook) :
    Seated hooks after := by
  refine { placed := placed, freed := freed, unfreed := unfreed, nodup := nodup
           registered := ?registered, sole := ?sole, referred := ?referred, apart := ?apart, listed := ?listed }
  case registered =>
    intro sub hook registered
    exact (seated.registered sub hook ((log sub hook).mp registered)).trans_le created
  case sole =>
    intro sub hook other otherHook one two same
    exact seated.sole sub hook other otherHook ((log sub hook).mp one) ((log other otherHook).mp two) same
  case referred =>
    intro sub place now
    obtain ⟨hook, registered, same⟩ := seated.referred sub place (refers sub place now)
    exact ⟨hook, (log sub hook).mpr registered, same⟩
  case apart =>
    intro one other sub inOne inOther
    exact seated.apart one other sub (listed one sub inOne).1 (listed other sub inOther).1
  case listed =>
    intro one sub now
    obtain ⟨before, stay⟩ := listed one sub now
    obtain ⟨hook, registered, attached⟩ := seated.listed one sub before
    exact ⟨hook, (log sub hook).mpr registered, stay hook attached⟩

/-- Nor does the log. -/
theorem Seated.quiet (seated : Seated hooks server) (placed : (after.registries []).Placed hooks)
    (created : server.created ≤ after.created) (log : after.log = server.log)
    (refers : ∀ sub place, (after.registries []).Refers sub place → (server.registries []).Refers sub place)
    (nodup : ∀ client subs, after.listeners client = some subs → subs.Nodup)
    (listed : ∀ client sub, ListedIn after.listeners client sub → ListedIn server.listeners client sub ∧
      ∀ hook, Attached hooks server.poll sub hook → Attached hooks after.poll sub hook) :
    Seated hooks after := by
  refine seated.fewer placed created (fun sub hook => by rw [log]) (fun address isFreed => ?_)
    { listed := ?listed, referred := ?referred, once := ?once } refers nodup listed
  · exact (seated.freed address (log ▸ isFreed)).trans_le created
  case listed => exact fun one sub now => log ▸ seated.unfreed.listed one sub (listed one sub now).1
  case referred => exact fun sub place now => log ▸ seated.unfreed.referred sub place (refers sub place now)
  case once => exact fun address => log ▸ seated.unfreed.once address

theorem Attached.kept {before poll : Polling.Poll} {other : GamSubscription} {hook : GamFsMonType}
    (attached : Attached hooks before other hook) (stay : Polling.OthersStay before sub poll)
    (different : other ≠ sub) : Attached hooks poll other hook :=
  fun polled absolute => stay other.path other different (attached polled absolute)

/-! ## Requests -/

/-- A new subscription comes to the front of its list. -/
theorem Seated.register (seated : Seated hooks server) {subs : List GamSubscription} {hook : GamFsMonType}
    (found : server.listeners client = some subs) (address : sub.address = server.created)
    (log : after.log = server.log ++ [.registered sub hook]) (created : after.created = server.created + 1)
    (lists : after.listeners = Function.update server.listeners client (some (sub :: subs)))
    (placed : (after.registries []).Placed hooks)
    (refers : ∀ other place, (after.registries []).Refers other place →
      (server.registries []).Refers other place ∨ other = sub ∧ hooks.registry hook = some place)
    (attached : Attached hooks after.poll sub hook) (stay : Polling.OthersStay server.poll sub after.poll) :
    Seated hooks after := by
  have unlisted (other : Nat) : ¬ ListedIn server.listeners other sub :=
    fun listed => absurd address (seated.older listed).ne
  have once : ListedOnce after.listeners := lists ▸ seated.lists.cons found unlisted
  have nowListed {other : Nat} {one : GamSubscription} (listed : ListedIn after.listeners other one) :
      other = client ∧ one = sub ∨ ListedIn server.listeners other one :=
    (listedIn_cons found).mp (lists ▸ listed)
  have inLog {other : GamSubscription} {otherHook : GamFsMonType} :
      .registered other otherHook ∈ after.log ↔
        .registered other otherHook ∈ server.log ∨ other = sub ∧ otherHook = hook := by
    simp [log]
  have freedInLog {gone : Pointer} : .freed gone ∈ after.log ↔ .freed gone ∈ server.log := by
    simp [log]
  have unknown {other : GamSubscription} {otherHook : GamFsMonType}
      (registered : .registered other otherHook ∈ server.log) : other.address ≠ sub.address :=
    address ▸ (seated.registered other otherHook registered).ne
  have unfreed : .freed sub.address ∉ server.log := fun gone => absurd address (seated.freed _ gone).ne
  have stillUnfreed : Unfreed after := {
    listed := by
      intro owner one listed
      rw [freedInLog]
      rcases nowListed listed with ⟨_, rfl⟩ | old
      · exact unfreed
      · exact seated.unfreed.listed owner one old
    referred := by
      intro other place now
      rw [freedInLog]
      rcases refers other place now with old | ⟨rfl, _⟩
      · exact seated.unfreed.referred other place old
      · exact unfreed
    once := fun gone => by simpa [log, List.count_append] using seated.unfreed.once gone }
  refine { placed := placed, unfreed := stillUnfreed, nodup := once.nodup, apart := once.apart
           registered := ?registered, sole := ?sole, referred := ?referred, freed := ?freed, listed := ?listed }
  case registered =>
    intro other otherHook registered
    rw [created]
    rcases inLog.mp registered with old | ⟨rfl, rfl⟩
    · exact Nat.lt_succ_of_lt (seated.registered other otherHook old)
    · exact address ▸ Nat.lt_succ_self _
  case sole =>
    -- the address of the new subscription is nobody else's
    intro one oneHook other otherHook oneIn otherIn same
    rcases inLog.mp oneIn with oneOld | ⟨rfl, rfl⟩ <;> rcases inLog.mp otherIn with otherOld | ⟨rfl, rfl⟩
    · exact seated.sole one oneHook other otherHook oneOld otherOld same
    · exact absurd same (unknown oneOld)
    · exact absurd same.symm (unknown otherOld)
    · exact ⟨rfl, rfl⟩
  case referred =>
    intro other place now
    rcases refers other place now with old | ⟨rfl, same⟩
    · obtain ⟨otherHook, registered, otherPlace⟩ := seated.referred other place old
      exact ⟨otherHook, inLog.mpr (.inl registered), otherPlace⟩
    · exact ⟨hook, inLog.mpr (.inr ⟨rfl, rfl⟩), same⟩
  case freed =>
    intro gone isFreed
    rw [created]
    exact Nat.lt_succ_of_lt (seated.freed gone (freedInLog.mp isFreed))
  case listed =>
    intro owner one listed
    rcases nowListed listed with ⟨_, rfl⟩ | old
    · exact ⟨hook, inLog.mpr (.inr ⟨rfl, rfl⟩), attached⟩
    · obtain ⟨otherHook, registered, seat⟩ := seated.listed owner one old
      exact ⟨otherHook, inLog.mpr (.inl registered), seat.kept stay fun same => unlisted owner (same ▸ old)⟩

/-- A monitor request whose hook comes back is served. -/
theorem Seated.monitor (beside : hooks.kernel = some .dnotify → hooks.poll = some .dnotify)
    (seated : Seated hooks server) {subs : List GamSubscription}
    (found : server.listeners client = some subs) {path : Bytes} {reqno options : Nat} {isDir : Bool}
    {around : Surroundings}
    (returns : AddReturns hooks around (server.registries subs)
      (gamSubscriptionNew server.created path requestedEvents reqno isDir options)
      (hookFor hooks excluded server.mounts path)) :
    ∃ after, server.monitor hooks excluded client path reqno isDir options around = some after ∧
      Seated hooks after := by
  generalize name : gamSubscriptionNew server.created path requestedEvents reqno isDir options = sub at returns
  have address : sub.address = server.created := name ▸ rfl
  have samePath : path = sub.path := name ▸ rfl
  obtain ⟨⟨registries, taken⟩, handed, attached, stay⟩ := gamAddSubscription_comesBack beside
    (seated.fresh found address around) (samePath ▸ returns)
  have added := gamAddSubscription_adds
    (show (server.registries subs).Placed hooks from
      ⟨seated.placed.poll, seated.placed.absolute, seated.placed.kqueue⟩) handed
  have placed : registries.Placed hooks := added.placed
  have served : server.monitor hooks excluded client path reqno isDir options around =
      some { server.serve client registries with
        created := server.created + 1
        log := server.log ++
          if sub ∈ registries.subs then [.registered sub (hookFor hooks excluded server.mounts path)]
          else [] } := by
    simp only [GamServer.monitor, found, name, handed, Option.map_some]
  refine ⟨_, served, ?_⟩
  -- whether the subscription comes to the list depends on whether a hook is installed
  cases writes : hooks.registry (hookFor hooks excluded server.mounts sub.path) with
  | none =>
    -- no hook has taken it, and the lists are as they were
    have same : registries.subs = subs := by
      simpa only [GamServer.registries, writes, Option.isSome_none, Bool.false_eq_true, if_false]
        using added.subs
    have lists : Function.update server.listeners client (some registries.subs) = server.listeners := by
      rw [same, ← found, Function.update_eq_self]
    have unlisted (other : Nat) : ¬ ListedIn server.listeners other sub :=
      fun listed => absurd address (seated.older listed).ne
    have absent : sub ∉ registries.subs := fun member => unlisted client ⟨subs, found, same ▸ member⟩
    refine seated.quiet ⟨placed.poll, placed.absolute, placed.kqueue⟩ (Nat.le_succ _)
      (by simp [absent]) (fun other place now => ?_) ?_ fun other one listed => ?_
    · refine (added.refers other place now).resolve_right fun both => ?_
      exact absurd (writes.symm.trans both.2) (by simp)
    · simp only [GamServer.serve, lists]
      exact seated.nodup
    · simp only [GamServer.serve, lists] at listed
      exact ⟨listed, fun hook seat => seat.kept stay fun same => unlisted other (same ▸ listed)⟩
  | some registry =>
    have longer : registries.subs = sub :: subs := by
      simpa only [GamServer.registries, writes, Option.isSome_some, if_true] using added.subs
    refine seated.register found address ?_ rfl ?_ ⟨placed.poll, placed.absolute, placed.kqueue⟩ added.refers
      attached stay
    · simp only [longer, List.mem_cons_self, if_true, samePath]
      rfl
    · rw [← longer]
      rfl

/-- What a safe removal frees: nothing, or the subscription once, and then its registry is asked. -/
theorem RemovalSafe.frees (safe : RemovalSafe hooks excluded server sub) {first : GamFsMonType}
    (registered : .registered sub first ∈ server.log) :
    let freed := (if remover hooks excluded server sub = some .poll then [sub.address] else []) ++
      if callerFrees hooks excluded (mountsAfter excluded server.mounts sub.path) sub.path then [sub.address]
      else []
    freed = [] ∨ freed = [sub.address] ∧ remover hooks excluded server sub = hooks.registry first := by
  have known := mem_hooksOf.mpr registered
  by_cases polled : remover hooks excluded server sub = some .poll
  · simp only [if_pos polled, (safe.2 polled).1]
    exact .inr ⟨rfl, safe.1 (.inl polled) first known⟩
  · simp only [if_neg polled, List.nil_append]
    split
    case isTrue caller => exact .inr ⟨rfl, safe.1 (.inr caller) first known⟩
    case isFalse => exact .inl rfl

/-- The node at the path of a listed subscription that is safe to remove is ready for it. -/
theorem Seated.ready (seated : Seated hooks server) (listed : ListedIn server.listeners client sub)
    (safe : RemovalSafe hooks excluded server sub) (polled : remover hooks excluded server sub = some .poll) :
    NodeReady hooks server.poll sub := by
  obtain ⟨first, registered, attached⟩ := seated.listed client sub listed
  refine ⟨fun node found absolute => ?_, fun basic node found => (safe.2 polled).2 basic node found⟩
  have place : hooks.registry first = some .poll :=
    (safe.1 (.inl polled) first (mem_hooksOf.mpr registered)).symm.trans polled
  obtain ⟨seat, foundSeat, member⟩ := attached place absolute
  rw [found] at foundSeat
  cases foundSeat
  exact member

/-- A subscription that is taken off its list and safe to remove is freed. -/
theorem Seated.free (seated : Seated hooks server) {before subs : List GamSubscription}
    (found : server.listeners client = some before) (parts : before.Perm (sub :: subs))
    (safe : RemovalSafe hooks excluded server sub) :
    ∃ after, server.free hooks excluded client subs sub = some after ∧ Seated hooks after ∧
      after.listeners client = some subs := by
  have listed : ListedIn server.listeners client sub := ⟨before, found, parts.mem_iff.mpr List.mem_cons_self⟩
  obtain ⟨first, registered, _⟩ := seated.listed client sub listed
  obtain ⟨⟨registries, freed⟩, handed, stay⟩ :=
    @gamListenerFreeSubscription_returns hooks excluded (server.registries subs) sub (seated.ready listed safe)
  obtain ⟨placed, refers, sameSubs, freedIs⟩ := gamListenerFreeSubscription_frees
    (show (server.registries subs).Placed hooks from
      ⟨seated.placed.poll, seated.placed.absolute, seated.placed.kqueue⟩) handed
  have frees : freed = [] ∨ freed = [sub.address] ∧ remover hooks excluded server sub = hooks.registry first :=
    freedIs ▸ safe.frees registered
  have listeners : (server.serve client registries).listeners =
      Function.update server.listeners client (some subs) := by
    simp only [GamServer.serve, sameSubs]
    rfl
  have nowListed {other : Nat} {one : GamSubscription}
      (now : ListedIn (server.serve client registries).listeners other one) :
      ListedIn server.listeners other one ∧ one ≠ sub :=
    (seated.lists.listedIn_removed found parts).mp (listeners ▸ now)
  -- whoever has been registered and is another subscription has another address
  have another {other : GamSubscription} {hook : GamFsMonType} (isRegistered : .registered other hook ∈ server.log)
      (different : other ≠ sub) : other.address ∉ freed := by
    intro gone
    have same : other.address = sub.address := by
      rcases frees with rfl | ⟨rfl, _⟩
      · contradiction
      · exact List.mem_singleton.mp gone
    exact different (seated.sole other hook sub first isRegistered registered same).1
  have unfreed : Unfreed { server.serve client registries with
      log := server.log ++ .removed sub (hookFor hooks excluded server.mounts sub.path) :: freed.map .freed } := {
    listed := by
      intro other one now
      obtain ⟨old, different⟩ := nowListed now
      obtain ⟨hook, isRegistered, _⟩ := seated.listed other one old
      have kept := seated.unfreed.listed other one old
      simpa [kept] using another isRegistered different
    referred := by
      intro other place now
      obtain ⟨old, elsewhere⟩ := refers other place now
      have kept := seated.unfreed.referred other place old
      obtain ⟨hook, isRegistered, somewhere⟩ := seated.referred other place old
      suffices other.address ∉ freed by simpa [kept] using this
      by_cases same : other = sub
      · rcases frees with rfl | ⟨_, asked⟩
        · exact List.not_mem_nil
        · -- the registry that is asked is the one that refers to it
          subst same
          obtain ⟨_, rfl⟩ := seated.sole other hook other first isRegistered registered rfl
          exact absurd (asked.trans somewhere) (elsewhere rfl)
      · exact another isRegistered same
    once := by
      intro gone
      have kept := List.count_eq_zero.mpr (seated.unfreed.listed client sub listed)
      rcases frees with rfl | ⟨rfl, _⟩
      · simpa [List.count_append, List.count_cons] using seated.unfreed.once gone
      · by_cases same : sub.address = gone
        · subst same
          simp [List.count_append, kept]
        · simpa [List.count_append, List.count_cons, same] using seated.unfreed.once gone }
  refine ⟨_, by rw [GamServer.free, handed, Option.map_some], ?_, ?_⟩
  · refine seated.fewer ⟨placed.poll, placed.absolute, placed.kqueue⟩ le_rfl (by simp) (fun gone isFreed => ?_)
      unfreed (fun other place now => (refers other place now).1)
      (listeners ▸ (seated.lists.removed found parts).nodup) fun other one now => ?_
    · simp only [List.mem_append, List.mem_cons, reduceCtorEq, List.mem_map, Transfer.freed.injEq,
        exists_eq_right, false_or] at isFreed
      rcases isFreed with old | new
      · exact seated.freed gone old
      · rcases frees with rfl | ⟨rfl, _⟩
        · contradiction
        · cases List.mem_singleton.mp new
          exact seated.registered sub first registered
    · obtain ⟨old, different⟩ := nowListed now
      exact ⟨old, fun hook seat => seat.kept stay different⟩
  · simp only [listeners, Function.update_self]

/-- A listener without subscriptions comes or goes. -/
theorem Seated.relist (seated : Seated hooks server) {subs : Option (List GamSubscription)}
    (is : ∀ listed ∈ subs, listed = []) :
    Seated hooks { server with listeners := Function.update server.listeners client subs } := by
  refine seated.quiet seated.placed le_rfl rfl (fun _ _ refers => refers)
    (nodup_update seated.nodup fun listed isListed => ?_) fun other one now => ?_
  · rw [is listed isListed]
    exact List.nodup_nil
  · rw [listedIn_update] at now
    rcases now with ⟨_, listed, isListed, member⟩ | ⟨_, old⟩
    · rw [is listed isListed] at member
      contradiction
    · exact ⟨old, fun _ seat => seat⟩

/-- A listener is freed when all its subscriptions are safe to remove, one after the other. -/
theorem Seated.close (seated : Seated hooks server) {subs : List GamSubscription}
    (found : server.listeners client = some subs) (safe : SafeClose hooks excluded client subs server) :
    ∃ after, GamServer.close hooks excluded client subs server = some after ∧ Seated hooks after := by
  induction subs generalizing server with
  | nil => exact ⟨_, rfl, seated.relist fun listed impossible => by contradiction⟩
  | cons sub subs inductionHypothesis =>
    obtain ⟨next, freed, seatedNext, foundNext⟩ := seated.free found (List.Perm.refl _) safe.1
    obtain ⟨after, closed, seatedAfter⟩ := inductionHypothesis seatedNext foundNext (safe.2 next freed)
    exact ⟨after, by rw [GamServer.close, freed, Option.bind_some, closed], seatedAfter⟩

theorem Seated.hangup (seated : Seated hooks server)
    (safe : ∀ subs ∈ server.listeners client, SafeClose hooks excluded client subs server) :
    ∃ after, server.hangup hooks excluded client = some after ∧ Seated hooks after := by
  unfold GamServer.hangup
  cases found : server.listeners client with
  | none => exact ⟨server, rfl, seated⟩
  | some subs => exact seated.close found (safe subs found)

theorem Seated.connect (seated : Seated hooks server) (client : Nat) : Seated hooks (server.connect client) := by
  unfold GamServer.connect
  split
  · exact seated.relist fun listed isListed => (Option.some.inj isListed).symm
  · exact seated

/-- A cancel request that finds a subscription which is safe to remove is acknowledged. -/
theorem Seated.acknowledge (seated : Seated hooks server) {subs : List GamSubscription}
    (found : server.listeners client = some subs) {reqno : Nat}
    (known : gamListenerGetSubscriptionByReqno subs reqno = some sub) (nonempty : sub.path ≠ [])
    (safe : RemovalSafe hooks excluded server sub) :
    ∃ after, server.acknowledge hooks excluded client reqno = some (some after) ∧ Seated hooks after := by
  have member := (getSubscriptionByReqno_mem known).1
  obtain ⟨after, freed, seatedAfter, _⟩ := seated.free found (List.perm_cons_erase member) safe
  refine ⟨after, ?_, seatedAfter⟩
  simp only [GamServer.acknowledge, found, Option.bind_some, known, Option.map_some]
  rw [gamListenerRemoveSubscription, freed, Option.bind_some, if_neg nonempty]

/-! ## The backends on their own account -/

theorem Seated.polled (seated : Seated hooks server) {poll : Polling.Poll}
    (same : Polling.SameSubs server.poll poll) : Seated hooks { server with poll := poll } := by
  have earlier {node : Polling.GamNode} (member : node ∈ poll.nodes) {sub : GamSubscription}
      (subscribed : sub ∈ node.subs) :
      node.path = sub.path ∧ (server.registries []).Refers sub .poll := by
    obtain ⟨old, memberOld, samePath, subscribedOld⟩ := same.source node member sub subscribed
    rw [← samePath]
    exact ⟨seated.placed.poll sub old memberOld subscribedOld, old, memberOld, subscribedOld⟩
  refine seated.quiet ⟨fun sub node member subscribed => (earlier member subscribed).1,
      fun dnotify sub ⟨node, member, subscribed⟩ => ?_, seated.placed.kqueue⟩ le_rfl rfl
    (fun sub place refers => ?_) seated.nodup fun one sub now => ⟨now, fun hook seat place absolute => ?_⟩
  · exact seated.placed.absolute dnotify sub (earlier member subscribed).2
  · cases place with
    | inotify => exact refers
    | kqueue => exact refers
    | poll =>
      obtain ⟨node, member, subscribed⟩ := refers
      exact (earlier member subscribed).2
  · exact (seat place absolute).kept same

theorem Seated.notified (seated : Seated hooks server) {inotify : Inotify.Backend}
    (same : inotify.subList = server.inotify.subList) : Seated hooks { server with inotify := inotify } := by
  refine seated.quiet ⟨seated.placed.poll, seated.placed.absolute, seated.placed.kqueue⟩ le_rfl rfl
    (fun sub place refers => ?_) seated.nodup fun one sub now => ⟨now, fun _ seat => seat⟩
  cases place with
  | poll => exact refers
  | kqueue => exact refers
  | inotify =>
    obtain ⟨isub, member, data⟩ := refers
    exact ⟨isub, same ▸ member, data⟩

theorem Seated.background (seated : Seated hooks server) {event : Background}
    (done : server.background hooks event = some after) : Seated hooks after := by
  rcases background_effect done with ⟨poll, same, rfl⟩ | ⟨inotify, same, rfl⟩ | rfl
  · exact seated.polled same
  · exact seated.notified same
  · exact seated.quiet ⟨seated.placed.poll, seated.placed.absolute, seated.placed.kqueue⟩ le_rfl rfl
      (fun _ _ refers => refers) seated.nodup fun one sub now => ⟨now, fun _ seat => seat⟩

/-! ## Reads -/

/-- The server is there and seated. -/
def Serving (hooks : Hooks) (left : Option GamServer) : Prop :=
  ∃ server, left = some server ∧ Seated hooks server

/-- A safe request leaves the server standing. -/
theorem serving_request (beside : hooks.kernel = some .dnotify → hooks.poll = some .dnotify)
    {around : Pointer → Surroundings} {state : List GAMPacket × Option GamServer} {packet : GAMPacket}
    (serving : Serving hooks state.2) (safe : RequestSafe hooks excluded client around state packet) :
    Serving hooks (consumeRequest (requestHandlers hooks excluded client around) state packet).1.2 := by
  obtain ⟨requests, left⟩ := state
  obtain ⟨server, rfl, seated⟩ := serving
  simp only [consumeRequest]
  rcases @serveRequest_effect hooks excluded client server around packet with
    same | ⟨short, ⟨monitor, same⟩ | ⟨cancel, acknowledged⟩⟩
  · exact ⟨server, same, seated⟩
  · rw [same]
    cases found : server.listeners client with
    | none => exact ⟨server, by simp only [GamServer.monitor, found], seated⟩
    | some subs => exact seated.monitor beside found ((safe short server rfl subs found).1 monitor)
  · obtain ⟨subs, found, rest⟩ := Option.bind_eq_some_iff.mp acknowledged
    obtain ⟨sub, known, _⟩ := Option.map_eq_some_iff.mp rest
    obtain ⟨nonempty, removable⟩ := (safe short server rfl subs found).2 cancel sub known
    obtain ⟨after, answered, seatedAfter⟩ := seated.acknowledge found known nonempty removable
    exact ⟨after, Option.some.inj (acknowledged.symm.trans answered), seatedAfter⟩

/-- A read whose requests are safe leaves the server standing. -/
theorem serving_read (beside : hooks.kernel = some .dnotify → hooks.poll = some .dnotify)
    {variant : BuildVariant} {daemon : GamDaemon} {bytes : Bytes} {around : Pointer → Surroundings}
    (serving : Serving hooks daemon.server)
    (safe : IntakeGuard hooks excluded variant daemon (.read client bytes around)) :
    Serving hooks (daemon.read hooks excluded variant client bytes around).server := by
  unfold GamDaemon.read
  split
  case h_1 okay =>
    obtain ⟨requestsSafe, closeSafe⟩ := safe okay
    have served : Serving hooks (daemon.served hooks excluded variant client bytes around).server :=
      gamClientConnRead_guarded (fun state => Serving hooks state.2)
        (fun state packet serving safe => serving_request beside serving safe) serving requestsSafe
    simp only
    split
    case isTrue => exact served
    case isFalse closed =>
      obtain ⟨server, left, seated⟩ := served
      rw [left, Option.bind_some]
      exact seated.hangup (closeSafe closed server left)
  case h_2 => exact serving

/-- Whatever a client sends, the others keep their connections and their lists. -/
theorem read_elsewhere (variant : BuildVariant) {daemon : GamDaemon} (standing : daemon.server = some server)
    (bytes : Bytes) (around : Pointer → Surroundings) {other : Nat} (different : other ≠ client) :
    (daemon.read hooks excluded variant client bytes around).conns other = daemon.conns other ∧
      ∀ after ∈ (daemon.read hooks excluded variant client bytes around).server,
        after.listeners other = server.listeners other := by
  unfold GamDaemon.read
  split
  case h_1 =>
    refine ⟨Function.update_of_ne different _ _, fun after left => ?_⟩
    have start : ListsElsewhere server.listeners client daemon.server := by
      rw [standing]
      rintro _ ⟨⟩ _ _
      rfl
    have served : ListsElsewhere server.listeners client
        (daemon.served hooks excluded variant client bytes around).server := by
      have unconditional : ∀ (state : List GAMPacket × Option GamServer) (packet : GAMPacket), True :=
        fun _ _ => trivial
      exact gamClientConnRead_guarded (fun state => ListsElsewhere server.listeners client state.2)
        (fun state packet elsewhere _ => listsElsewhere_request packet elsewhere) start
        (Framing.drainGuarded_of_all unconditional _ _)
    simp only at left
    split at left
    case isTrue => exact served after left other different
    case isFalse =>
      obtain ⟨middle, isMiddle, gone⟩ := Option.bind_eq_some_iff.mp left
      rw [listsElsewhere_hangup after gone other different, served middle isMiddle other different]
  case h_2 =>
    refine ⟨rfl, fun after left => ?_⟩
    cases standing.symm.trans left
    rfl

end

/-! ## Every run -/

theorem daemonStep_serving {hooks : Hooks} {excluded : Bytes → Bool} {variant : BuildVariant}
    (beside : hooks.kernel = some .dnotify → hooks.poll = some .dnotify) (daemon : GamDaemon)
    (input : DaemonInput) (after : GamDaemon) (serving : Serving hooks daemon.server)
    (safe : IntakeGuard hooks excluded variant daemon input)
    (returned : daemonStep hooks excluded variant daemon input = some after) : Serving hooks after.server := by
  obtain ⟨server, standing, seated⟩ := serving
  cases input with
  | connect client =>
    cases returned
    unfold GamDaemon.connect
    split
    · exact ⟨server, standing, seated⟩
    · exact ⟨server.connect client, by simp only [standing, Option.map_some], seated.connect client⟩
  | read client bytes around =>
    cases returned
    exact serving_read beside ⟨server, standing, seated⟩ safe
  | background event =>
    simp only [daemonStep, standing] at returned
    obtain ⟨next, done, rfl⟩ := Option.map_eq_some_iff.mp returned
    exact ⟨next, rfl, seated.background done⟩

theorem gamServerNew_seated (hooks : Hooks) (views : Nat → Polling.FsView) (mounts : Mounts) :
    Seated hooks (gamServerNew views mounts) := by
  have owned := gamServerNew_owned hooks (fun _ => false) views mounts
  have rightly := owned.rightlyFreed
  refine ⟨owned.placed, fun _ _ member => (nomatch member), fun _ _ _ _ member => (nomatch member),
    fun sub place refers => (owned.referred sub place refers).2, fun _ member => (nomatch member),
    ⟨rightly.kept, fun sub place refers => (rightly.referred sub place refers).1, fun _ => Nat.zero_le _⟩,
    owned.nodup, owned.apart, fun client sub ⟨_, found, _⟩ => nomatch found⟩

/-- The hooks of dnotify come together. -/
theorem gamInitSubscriptions_beside (build : Build) (startup : Startup) :
    (gamInitSubscriptions build startup).1.kernel = some .dnotify →
      (gamInitSubscriptions build startup).1.poll = some .dnotify := by
  obtain ⟨inotify, dnotify, kqueue, linux⟩ := build
  obtain ⟨pollOnly, gamTestDnotify, inotifyInit, pipe, kqueueInit⟩ := startup
  revert inotify dnotify kqueue linux pollOnly gamTestDnotify inotifyInit pipe kqueueInit
  decide +kernel

/-- While every request that is served is safe, and so is every connection that is closed, no assertion
fails and no search goes on for ever, whatever the clients send and however it is cut into reads; nobody
refers to a subscription that has been freed; and a read never touches the connection and the
subscriptions of another client. -/
theorem requests_withstood (variant : BuildVariant) (build : Build) (startup : Startup)
    (excluded : Bytes → Bool) (views : Nat → Polling.FsView) (mounts : Mounts) (inputs : List DaemonInput)
    (safe : Guarded (partialStep (daemonStep (gamInitSubscriptions build startup).1 excluded variant))
      (GuardIfAny (IntakeGuard (gamInitSubscriptions build startup).1 excluded variant))
      (some (gamDaemonNew views mounts)) inputs) :
    Throughout (partialStep (daemonStep (gamInitSubscriptions build startup).1 excluded variant))
      (IfAny (Withstands (gamInitSubscriptions build startup).1 excluded variant))
      (some (gamDaemonNew views mounts)) inputs := by
  have start : Serving (gamInitSubscriptions build startup).1 (gamDaemonNew views mounts).server :=
    ⟨_, rfl, gamServerNew_seated _ views mounts⟩
  refine (Throughout.of_partial (daemonStep_serving (gamInitSubscriptions_beside build startup)) start
    safe).imp (IfAny.imp fun daemon serving => ?_)
  obtain ⟨server, standing, seated⟩ := serving
  exact ⟨server, standing, seated.unfreed, fun client bytes around other different =>
    read_elsewhere variant standing bytes around different⟩

/-! ## Two connections -/

/-- A server that can only poll. -/
def pollBuild : Build := { inotify := false, dnotify := false, kqueue := false, linux := true }

def pollStartup : Startup :=
  { pollOnly := false, gamTestDnotify := false, inotifyInit := false, pipe := false, kqueue := false }

/-- A client sends these bytes in one piece. -/
def sendingBytes (bytes : Bytes) : List DaemonInput :=
  [.connect 0, .read 0 bytes fun _ => aroundA]

/-- A request for the file `/a`, and a cancel request behind it. -/
def monitorAndCancel : Bytes := [12, 0, 1, 0, 7, 0, 1, 0, 2, 0, 47, 97, 10, 0, 1, 0, 7, 0, 3, 0, 0, 0]

/-- Both requests are served. -/
theorem monitorAndCancel_withstood :
    Throughout (partialStep (daemonStep (gamInitSubscriptions pollBuild pollStartup).1
        (gamExcludeCheck matchesPrefix (gamExcludeInit pollBuild [])) .inPlace))
      (IfAny (Withstands (gamInitSubscriptions pollBuild pollStartup).1
        (gamExcludeCheck matchesPrefix (gamExcludeInit pollBuild [])) .inPlace))
      (some (gamDaemonNew (noRegistries pollBuild).poll.views (noRegistries pollBuild).mounts))
      (sendingBytes monitorAndCancel) := by
  refine requests_withstood .inPlace pollBuild pollStartup _ _ _ _ ⟨trivial, fun _ => ⟨?_, fun closed => ?_⟩, trivial⟩
  · refine (Framing.drainGuarded_frame (show requestFraming.scan _ = .frame ⟨1, 7, 1, [47, 97]⟩ 12 from rfl)).mpr
      ⟨by decide +kernel, fun _ => ?_⟩
    refine (Framing.drainGuarded_frame (show requestFraming.scan _ = .frame ⟨1, 7, 3, []⟩ 10 from rfl)).mpr
      ⟨by decide +kernel, fun _ => ?_⟩
    exact Framing.drainGuarded_incomplete requestFraming.scan_nil
  · exact absurd (by decide +kernel) closed

/-- A request for a file whose path begins with a NUL. -/
def emptyPath : Bytes := [11, 0, 1, 0, 7, 0, 1, 0, 1, 0, 0]

/-- `gam_node_add_subscription` asserts that there is a node. -/
theorem emptyPath_brings_down :
    (run (partialStep (daemonStep (gamInitSubscriptions pollBuild pollStartup).1
        (gamExcludeCheck matchesPrefix (gamExcludeInit pollBuild [])) .inPlace))
      (some (gamDaemonNew (noRegistries pollBuild).poll.views (noRegistries pollBuild).mounts))
      (sendingBytes emptyPath)).map (·.server.isNone) = some true ∧
    ¬ Throughout (partialStep (daemonStep (gamInitSubscriptions pollBuild pollStartup).1
        (gamExcludeCheck matchesPrefix (gamExcludeInit pollBuild [])) .inPlace))
      (IfAny (Withstands (gamInitSubscriptions pollBuild pollStartup).1
        (gamExcludeCheck matchesPrefix (gamExcludeInit pollBuild [])) .inPlace))
      (some (gamDaemonNew (noRegistries pollBuild).poll.views (noRegistries pollBuild).mounts))
      (sendingBytes emptyPath) := by
  have outcome : (run (partialStep (daemonStep (gamInitSubscriptions pollBuild pollStartup).1
        (gamExcludeCheck matchesPrefix (gamExcludeInit pollBuild [])) .inPlace))
      (some (gamDaemonNew (noRegistries pollBuild).poll.views (noRegistries pollBuild).mounts))
      (sendingBytes emptyPath)).map (·.server.isNone) = some true := by
    decide +kernel
  refine ⟨outcome, fun withstood => ?_⟩
  obtain ⟨daemon, reached, gone⟩ := Option.map_eq_some_iff.mp outcome
  have final := withstood.last
  rw [reached] at final
  obtain ⟨server, standing, _⟩ := final
  rw [standing] at gone
  contradiction

end Gamin.Server
