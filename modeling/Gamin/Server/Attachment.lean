import Gamin.Polling.Staying
import Gamin.Server.Acceptance
import Gamin.Server.References

/-! # Hooks that come back

The hooks of the backends assert what they expect of a request.  A hook that adds a subscription
comes back if it can find a node or a directory for the path, and a hook that removes one if the tree
has it where the path says.  Whoever else is polled stays where it was.
-/

namespace Gamin.Server

open Gamin

/-- Polling has the subscription at the node of its path, if it is polling that has registered it;
dnotify refuses a path that does not start with a slash. -/
def Attached (hooks : Hooks) (poll : Polling.Poll) (sub : GamSubscription) (hook : GamFsMonType) : Prop :=
  hooks.registry hook = some .poll → (hooks.poll = some .dnotify → sub.path.head? = some Inotify.slash) →
    Polling.SubscribedAt poll sub.path sub

/-! ## Adding -/

instance (around : Surroundings) (registries : Registries) (sub : GamSubscription) :
    Decidable (SearchEnds around registries sub) :=
  inferInstanceAs (Decidable (_ ∨ _ ∨ ¬ _))

/-- The hook that is called for a new subscription comes back: `gam_tree_add_at_path` makes no node
for an empty path, and inotify needs its instance and the end of its search. -/
def AddReturns (hooks : Hooks) (around : Surroundings) (registries : Registries) (sub : GamSubscription) :
    GamFsMonType → Prop
  | .kernel => hooks.kernel = some .inotify2 → hooks.inotifyRunning = true ∧ SearchEnds around registries sub
  | .poll => hooks.poll = some .basic → sub.path ≠ []
  | .none => True

instance (hooks : Hooks) (around : Surroundings) (registries : Registries) (sub : GamSubscription) :
    (hook : GamFsMonType) → Decidable (AddReturns hooks around registries sub hook)
  | .kernel => inferInstanceAs (Decidable (_ = _ → _ ∧ SearchEnds around registries sub))
  | .poll => inferInstanceAs (Decidable (_ = _ → _ ≠ _))
  | .none => .isTrue trivial

section

variable {hooks : Hooks} {excluded : Bytes → Bool} {around : Surroundings} {registries : Registries}
  {sub : GamSubscription}

/-- A hook has come back with the subscription at its place and the others at theirs. -/
def ComesBack (hooks : Hooks) (registries : Registries) (sub : GamSubscription) (hook : GamFsMonType)
    (outcome : Option (Registries × Bool)) : Prop :=
  ∃ after, outcome = some after ∧ Attached hooks after.1.poll sub hook ∧
    Polling.OthersStay registries.poll sub after.1.poll

theorem gamPollAddSubscription_comesBack (fresh : Fresh around registries sub)
    (returns : hooks.poll = some .basic → sub.path ≠ []) (hook : GamFsMonType)
    (registry : hooks.registry hook = hooks.registry .poll) :
    ComesBack hooks registries sub hook (gamPollAddSubscription hooks around registries sub) := by
  have stay {poll : Polling.Poll} (same : poll = registries.poll) : Polling.OthersStay registries.poll sub poll := by
    rw [same]
    exact (Polling.SameSubs.refl _).othersStay sub
  unfold gamPollAddSubscription
  split
  case h_1 none =>
    refine ⟨_, rfl, fun polled => ?_, stay rfl⟩
    rw [registry, Hooks.registry, none] at polled
    contradiction
  case h_2 basic =>
    obtain ⟨poll, added, subscribed⟩ :=
      Polling.gamPollBasicAddSubscription_subscribes around.now fresh.poll (returns basic)
    refine ⟨({ registries with subs := sub :: registries.subs, poll := poll }, true), ?_,
      fun _ _ => subscribed, Polling.gamPollBasicAddSubscription_stay added⟩
    simp only [addByPollBasic, addToListener_fresh fresh.listener, Option.bind_some, added, Option.map_some]
  case h_3 dnotify =>
    obtain ⟨poll, taken, added, subscribed⟩ :=
      Polling.gamPollDnotifyAddSubscription_returns (hooks.kernel = some .dnotify) around.now fresh.poll
    refine ⟨({ registries with subs := sub :: registries.subs, poll := poll }, taken), ?_,
      fun _ absolute => subscribed (absolute dnotify), Polling.gamPollDnotifyAddSubscription_stay added⟩
    simp only [addByPollDnotify, addToListener_fresh fresh.listener, Option.bind_some, added, Option.map_some]

theorem gamKernelAddSubscription_comesBack (beside : hooks.kernel = some .dnotify → hooks.poll = some .dnotify)
    (fresh : Fresh around registries sub) (returns : AddReturns hooks around registries sub .kernel) :
    ComesBack hooks registries sub .kernel (gamKernelAddSubscription hooks around registries sub) := by
  have stay := (Polling.SameSubs.refl registries.poll).othersStay sub
  unfold gamKernelAddSubscription
  split
  case h_1 none =>
    refine ⟨_, rfl, fun polled => ?_, stay⟩
    simp [Hooks.registry, none] at polled
  case h_2 inotify =>
    obtain ⟨running, ends⟩ := returns inotify
    obtain ⟨after, added, _⟩ := addByInotify_takes running fresh ends
    -- inotify does not touch the tree of polling
    have same : after.poll = registries.poll := by
      obtain ⟨next, listed, rest⟩ := Option.bind_eq_some_iff.mp added
      rw [addToListener_eq listed] at rest
      split at rest
      · contradiction
      · obtain ⟨_, _, same⟩ := Option.map_eq_some_iff.mp rest
        cases same
        rfl
    refine ⟨_, added, fun polled => ?_, same ▸ stay⟩
    simp [Hooks.registry, inotify] at polled
  case h_3 dnotify =>
    have registry : hooks.registry .kernel = hooks.registry .poll := by simp only [Hooks.registry, dnotify]
    refine gamPollAddSubscription_comesBack fresh (fun basic => ?_) .kernel registry
    rw [beside dnotify] at basic
    contradiction
  case h_4 kqueue =>
    refine ⟨({ registries with
        subs := sub :: registries.subs
        kqueue := gamKqueueAddSubscription registries.kqueue sub }, true), ?_, fun polled => ?_, stay⟩
    · simp only [addByKqueue, addToListener_fresh fresh.listener, Option.map_some]
    · simp [Hooks.registry, kqueue] at polled

/-- `gam_add_subscription` comes back if its hook does. -/
theorem gamAddSubscription_comesBack (beside : hooks.kernel = some .dnotify → hooks.poll = some .dnotify)
    (fresh : Fresh around registries sub)
    (returns : AddReturns hooks around registries sub (hookFor hooks excluded registries.mounts sub.path)) :
    ComesBack hooks registries sub (hookFor hooks excluded registries.mounts sub.path)
      (gamAddSubscription hooks excluded around registries sub) := by
  unfold gamAddSubscription
  unfold hookFor at returns ⊢
  by_cases isExcluded : excluded sub.path = true
  · simp only [if_pos isExcluded] at returns ⊢
    by_cases running : hooks.inotifyRunning = true
    · simp only [if_pos running] at returns ⊢
      exact gamPollAddSubscription_comesBack fresh returns .poll rfl
    · simp only [if_neg running] at returns ⊢
      exact gamKernelAddSubscription_comesBack beside fresh returns
  · simp only [if_neg isExcluded] at returns ⊢
    cases asked : gamFsGetMonType registries.mounts sub.path with
    | mk mounts hook =>
      rw [asked] at returns
      have freshMounts : Fresh around { registries with mounts := mounts } sub := { fresh with }
      cases hook with
      | kernel => exact gamKernelAddSubscription_comesBack beside freshMounts returns
      | poll => exact gamPollAddSubscription_comesBack freshMounts returns .poll rfl
      | none =>
        refine ⟨_, rfl, fun polled => ?_, (Polling.SameSubs.refl _).othersStay sub⟩
        simp [Hooks.registry] at polled

/-! ## Removing -/

/-- The node at the path of a polled subscription, if there is one, has it, and if it is a file that
nobody else has subscribed to, it has no children. -/
structure NodeReady (hooks : Hooks) (poll : Polling.Poll) (sub : GamSubscription) : Prop where
  listed : ∀ node, Polling.gamTreeGetAtPath poll sub.path = some node →
    (hooks.poll = some .dnotify → sub.path.head? = some Inotify.slash) → sub ∈ node.subs
  childless : hooks.poll = some .basic → ∀ node, Polling.gamTreeGetAtPath poll sub.path = some node →
    node.isDir = true ∨ Polling.Shared node sub ∨ Polling.gamTreeHasChildren poll sub.path = false

/-- A hook has removed the subscription and left the others where they were. -/
def LeavesOthers (registries : Registries) (sub : GamSubscription)
    (outcome : Option (Registries × List Pointer)) : Prop :=
  ∃ after, outcome = some after ∧ Polling.OthersStay registries.poll sub after.1.poll

theorem gamPollRemoveSubscription_returns
    (ready : hooks.registry .poll = some .poll → NodeReady hooks registries.poll sub) :
    LeavesOthers registries sub (gamPollRemoveSubscription hooks registries sub) := by
  unfold gamPollRemoveSubscription
  split
  case h_1 => exact ⟨_, rfl, (Polling.SameSubs.refl _).othersStay sub⟩
  case h_2 basic =>
    obtain ⟨listed, childless⟩ := ready (by simp only [Hooks.registry, basic, Option.map_some])
    obtain ⟨poll, removed⟩ := Polling.gamPollBasicRemoveSubscription_returns
      (fun node found => listed node found fun dnotify => by rw [basic] at dnotify; contradiction)
      (childless basic)
    refine ⟨({ registries with poll := poll }, [sub.address]), ?_,
      Polling.gamPollBasicRemoveSubscription_stay removed⟩
    simp only [removeByPollBasic, removed, Option.map_some]
  case h_3 dnotify =>
    obtain ⟨listed, _⟩ := ready (by simp only [Hooks.registry, dnotify, Option.map_some])
    obtain ⟨poll, removed⟩ := Polling.gamPollDnotifyRemoveSubscription_returns (hooks.kernel = some .dnotify)
      fun node found absolute => listed node found fun _ => absolute
    refine ⟨({ registries with poll := poll }, [sub.address]), ?_,
      Polling.gamPollDnotifyRemoveSubscription_stay removed⟩
    simp only [removeByPollDnotify, removed, Option.map_some]

theorem gamKernelRemoveSubscription_returns
    (ready : hooks.registry .kernel = some .poll → NodeReady hooks registries.poll sub) :
    LeavesOthers registries sub (gamKernelRemoveSubscription hooks registries sub) := by
  have stay := (Polling.SameSubs.refl registries.poll).othersStay sub
  unfold gamKernelRemoveSubscription
  split
  case h_1 => exact ⟨_, rfl, stay⟩
  case h_2 => exact ⟨_, rfl, stay⟩
  case h_3 dnotify =>
    simp only [Hooks.registry, dnotify] at ready
    exact gamPollRemoveSubscription_returns ready
  case h_4 => exact ⟨_, rfl, stay⟩

/-- `gam_remove_subscription` comes back if the polled subscription is where its path says, and so do
the lines behind it. -/
theorem gamListenerFreeSubscription_returns
    (ready : hooks.registry (hookFor hooks excluded registries.mounts sub.path) = some .poll →
      NodeReady hooks registries.poll sub) :
    LeavesOthers registries sub (gamListenerFreeSubscription hooks excluded registries sub) := by
  have removal : LeavesOthers registries sub (hooks.gamRemoveSubscription excluded registries sub) := by
    unfold Hooks.gamRemoveSubscription
    unfold hookFor at ready
    by_cases isExcluded : excluded sub.path = true
    · simp only [if_pos isExcluded] at ready ⊢
      by_cases running : hooks.inotifyRunning = true
      · simp only [if_pos running] at ready ⊢
        exact gamPollRemoveSubscription_returns ready
      · simp only [if_neg running] at ready ⊢
        exact gamKernelRemoveSubscription_returns ready
    · simp only [if_neg isExcluded] at ready ⊢
      cases asked : gamFsGetMonType registries.mounts sub.path with
      | mk mounts hook =>
        rw [asked] at ready
        cases hook with
        | kernel => exact @gamKernelRemoveSubscription_returns _ { registries with mounts := mounts } _ ready
        | poll => exact @gamPollRemoveSubscription_returns _ { registries with mounts := mounts } _ ready
        | none => exact ⟨_, rfl, (Polling.SameSubs.refl _).othersStay sub⟩
  obtain ⟨⟨after, freed⟩, removed, stay⟩ := removal
  have samePoll : (freedByCaller hooks excluded after sub).1.poll = after.poll := by
    unfold freedByCaller
    split <;> rfl
  refine ⟨((freedByCaller hooks excluded after sub).1, freed ++ (freedByCaller hooks excluded after sub).2),
    ?_, samePoll ▸ stay⟩
  rw [gamListenerFreeSubscription, removed, Option.map_some]

end

end Gamin.Server
