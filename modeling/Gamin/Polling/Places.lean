import Gamin.Polling.DnotifyRules
import Gamin.Polling.ResourceLists

/-! # The places of the nodes

A node stays at its path and below its parent for as long as it is in the tree.  Polling writes nodes back
to where they were, and a scan adds new ones behind them.
-/

namespace Gamin.Polling

open Gamin Gamin.Server Gamin.Inotify Gamin.Library

/-! ## Places -/

/-- The parent of the node at a path, if there is a node. -/
def parentAt (poll : Poll) (path : Bytes) : Option (Option Bytes) :=
  (gamTreeGetAtPath poll path).map (·.parent)

theorem parentAt_found {poll : Poll} {path : Bytes} {node : GamNode}
    (found : gamTreeGetAtPath poll path = some node) : parentAt poll path = some node.parent := by
  rw [parentAt, found]
  rfl

/-- The same nodes, as far as their paths and parents go. -/
structure SamePlaces (before after : Poll) : Prop where
  paths : after.paths = before.paths
  parents : ∀ path, parentAt after path = parentAt before path

section

variable {before poll after : Poll}

theorem SamePlaces.refl (poll : Poll) : SamePlaces poll poll := ⟨rfl, fun _ => rfl⟩

theorem SamePlaces.trans (first : SamePlaces before poll) (second : SamePlaces poll after) :
    SamePlaces before after where
  paths := second.paths.trans first.paths
  parents path := (second.parents path).trans (first.parents path)

/-- What is not in the tree does not matter. -/
theorem SamePlaces.of_nodes (same : SamePlaces before poll) (nodes : after.nodes = poll.nodes) :
    SamePlaces before after where
  paths := by rw [Poll.paths, nodes, ← same.paths, Poll.paths]
  parents path := by rw [← same.parents path, parentAt, gamTreeGetAtPath, nodes, parentAt, gamTreeGetAtPath]

/-- A node is written back below the parent that it had. -/
theorem SamePlaces.setNode (same : SamePlaces before poll) {node : GamNode}
    (place : parentAt before node.path = some node.parent) : SamePlaces before (poll.setNode node) where
  paths := by rw [Poll.setNode_paths, same.paths]
  parents path := by
    rw [← same.parents path]
    by_cases here : path = node.path
    · obtain ⟨old, found, parent⟩ := Option.map_eq_some_iff.mp ((same.parents node.path).trans place)
      rw [here, parentAt, gamTreeGetAtPath_setNode, parentAt, found, Option.map_some, Option.map_some,
        if_pos (gamTreeGetAtPath_path found), Option.map_some, parent]
    · rw [parentAt, gamTreeGetAtPath_setNode_other poll here, parentAt]

/-- Only a path without a node gets a new one. -/
theorem parentAt_gamTreeAdd (poll : Poll) (child : GamNode) (path : Bytes) :
    parentAt (gamTreeAdd poll child) path =
      (parentAt poll path).or (if child.path = path then some child.parent else none) := by
  by_cases here : child.path = path
  · subst here
    rw [if_pos rfl]
    cases found : gamTreeGetAtPath poll child.path with
    | none => rw [parentAt, gamTreeAdd_self found, parentAt, found, Option.map_some, Option.map_none, Option.none_or]
    | some node =>
      rw [gamTreeAdd, found, Option.isSome_some, if_pos rfl, parentAt_found found, Option.some_or]
  · rw [if_neg here, Option.or_none, parentAt, gamTreeAdd_other poll here, parentAt]

theorem nodup_gamTreeAdd (distinct : poll.paths.Nodup) (child : GamNode) : (gamTreeAdd poll child).paths.Nodup := by
  unfold gamTreeAdd
  split
  case isTrue => exact distinct
  case isFalse absent =>
    have paths : ({ poll with nodes := poll.nodes ++ [child] } : Poll).paths = poll.paths ++ [child.path] :=
      List.map_append
    rw [paths]
    refine List.Nodup.append distinct (List.nodup_singleton _) ?_
    rw [gamTreeGetAtPath_isSome] at absent
    simpa using absent

end

/-! ## Polling a node -/

theorem samePlaces_frame : NodeFrame SamePlaces where
  refl := .refl
  trans first second := first.trans second
  known same there := by
    rwa [gamTreeGetAtPath_isSome, same.paths, ← gamTreeGetAtPath_isSome]
  write write := (SamePlaces.refl _).of_nodes write.nodes
  of_nodes same nodes := same.of_nodes nodes
  setNode same found rewrites := by
    apply same.setNode
    rw [rewrites.path, rewrites.parent]
    exact parentAt_found found

/-- A hook that polls a node of the tree and moves none. -/
def PlacingHook (pollFile : PollFile) : Prop :=
  ∀ poll node, gamTreeGetAtPath poll node.path = some node → SamePlaces poll (pollFile poll node).1

theorem gamPollBasicPollFile_places : PlacingHook gamPollBasicPollFile :=
  fun _ _ found => samePlaces_frame.basicPollFile found

theorem gamPollDnotifyPollFile_places (handler : Bool) : PlacingHook (gamPollDnotifyPollFile handler) :=
  fun _ _ found => samePlaces_frame.dnotifyPollFile handler found

/-! ## What a poll keeps -/

/-- A hook that changes the state as a poll of a node does. -/
def WritingHook (pollFile : PollFile) : Prop :=
  ∀ {Same : Poll → Poll → Prop}, PollFrame Same → ∀ poll node, gamTreeGetAtPath poll node.path = some node →
    Same poll (pollFile poll node).1

theorem gamPollBasicPollFile_writing : WritingHook gamPollBasicPollFile :=
  fun frame _ _ found => frame.basicPollFile found

theorem gamPollDnotifyPollFile_writing (handler : Bool) : WritingHook (gamPollDnotifyPollFile handler) :=
  fun frame _ _ found => frame.dnotifyPollFile handler found

theorem WritingHook.keeps {pollFile : PollFile} (hook : WritingHook pollFile) : KeepingHook pollFile :=
  hook sameSubs_frame.toPollFrame

/-- A property that no write takes away, nor a node that is written back to its place. -/
structure PollKept (property : Poll → Prop) : Prop where
  write : ∀ {poll after}, Write poll after → property poll → property after
  setNode : ∀ {poll node}, parentAt poll node.path = some node.parent → subsAt poll node.path = node.subs →
    property poll → property (poll.setNode node)

section

variable {property : Poll → Prop}

theorem PollKept.setFound (kept : PollKept property) {poll : Poll} {node next : GamNode}
    (found : gamTreeGetAtPath poll node.path = some node) (rewrites : Rewrites node next) (holds : property poll) :
    property (poll.setNode next) := by
  apply kept.setNode _ _ holds
  · rw [rewrites.path, rewrites.parent]
    exact parentAt_found found
  · rw [rewrites.path, rewrites.subs, subsAt, found, Option.map_some, Option.getD_some]

theorem PollKept.called (kept : PollKept property) {poll : Poll} (holds : property poll) : property poll.called :=
  kept.write (.watches (watchesOnly_called poll)) holds

theorem PollKept.frame (kept : PollKept property) :
    PollFrame fun before after => (SameSubs before after ∧ SamePlaces before after) ∧
      (property before → property after) where
  refl poll := ⟨⟨.refl poll, .refl poll⟩, id⟩
  trans first second := ⟨⟨first.1.1.trans second.1.1, first.1.2.trans second.1.2⟩, second.2 ∘ first.2⟩
  known same := sameSubs_frame.known same.1.1
  write write := ⟨⟨sameSubs_frame.write write, samePlaces_frame.write write⟩, kept.write write⟩
  setNode {before poll node next} same found rewrites := by
    refine ⟨⟨sameSubs_frame.setNode same.1.1 found rewrites, samePlaces_frame.setNode same.1.2 found rewrites⟩,
      fun holds => ?_⟩
    obtain ⟨other, foundOther, subs⟩ := same.1.1.keeps _ _ found
    apply kept.setNode _ _ (same.2 holds)
    · rw [rewrites.path, rewrites.parent, same.1.2.parents]
      exact parentAt_found found
    · rw [rewrites.path, rewrites.subs, subsAt, foundOther, Option.map_some, Option.getD_some, subs]

theorem PollKept.polled (kept : PollKept property) {pollFile : PollFile} (hook : WritingHook pollFile) {poll : Poll}
    {node : GamNode} (found : gamTreeGetAtPath poll node.path = some node) (holds : property poll) :
    property (pollFile poll node).1 :=
  (hook kept.frame poll node found).2 holds

theorem PollKept.addMissing (kept : PollKept property) {poll : Poll} {path : Bytes}
    (known : (gamTreeGetAtPath poll path).isSome) (holds : property poll) :
    property (gamPollGenericAddMissing poll path) :=
  (kept.frame.addMissing (kept.frame.refl poll) known).2 holds

theorem PollKept.flowControl (kept : PollKept property) {poll : Poll} (handler : Bool) (node : GamNode) (start : Bool)
    (holds : property poll) : property (flowControl handler poll node start) :=
  (kept.frame.flowControl (kept.frame.refl poll) handler node start).2 holds

theorem PollKept.relisted (kept : PollKept property) {poll : Poll} (handler : Bool) (node : GamNode)
    (holds : property poll) :
    property
      (let poll := gamPollGenericRemoveMissing poll node.path
      if node.subs ≠ [] then gamPollDnotifyRelistNode handler poll node else poll) := by
  have unlisted := kept.write (.found node.path) holds
  dsimp only
  split
  · exact kept.write (.watches (watchesOnly_relist handler _ node)) unlisted
  · exact unlisted

/-- A first scan that does not find its directory has told so before it writes. -/
theorem PollKept.firstScanMissing (kept : PollKept property) {poll : Poll} {sub : GamSubscription} {dpath : Bytes}
    (told : property (gamServerEmitEvent poll dpath true .deleted [sub] true)) :
    property (firstScanMissing poll sub dpath) := by
  simp only [Polling.firstScanMissing]
  split
  · exact told
  case h_2 node found =>
    have path := gamTreeGetAtPath_path found
    have here : gamTreeGetAtPath (gamServerEmitEvent poll dpath true .deleted [sub] true).called.called node.path =
        some node := by
      rw [path]
      exact found
    have called := kept.called (kept.called told)
    split
    · exact kept.setFound here ⟨rfl, rfl, rfl⟩ called
    · refine kept.addMissing ?_ (kept.setFound here ⟨rfl, rfl, rfl⟩ called)
      rw [← path]
      exact sameSubs_frame.known (sameSubs_frame.setNode (.refl _) here ⟨rfl, rfl, rfl⟩)
        (Option.isSome_of_eq_some here)

end

theorem SamePlaces.gamNodeEmitEvent {before poll : Poll} (same : SamePlaces before poll) (path : Bytes)
    (event : Option GaminEventType) : SamePlaces before (gamNodeEmitEvent poll path event) := by
  unfold Polling.gamNodeEmitEvent
  split
  · exact same.of_nodes rfl
  · exact same

/-! ## What depends on the places alone -/

/-- A property of the places that new nodes do not take away is kept by every scan. -/
theorem placesRule {pollFile : PollFile} (hook : KeepingHook pollFile) (places : PlacingHook pollFile)
    {property : Poll → Prop} (same : ∀ {before after}, SamePlaces before after → property before → property after)
    (added : ∀ {poll} child, property poll → property (gamTreeAdd poll child)) :
    PlainRule pollFile .free property where
  hook := hook
  elsewhere {poll} time views sent holds := same ((SamePlaces.refl poll).of_nodes rfl) holds
  polled found _ holds := same (places _ _ found) holds
  added _ _ _ _ holds := added _ holds
  cleared found holds := by
    have place := parentAt_found found
    exact same ((SamePlaces.refl _).setNode place) holds
  missed _ holds := same (samePlaces_frame.firstScanMissing _ _ _) holds

theorem distinctRule {pollFile : PollFile} (hook : KeepingHook pollFile) (places : PlacingHook pollFile) :
    PlainRule pollFile .free fun poll => poll.paths.Nodup :=
  placesRule hook places (fun same distinct => by rwa [same.paths]) fun child distinct =>
    nodup_gamTreeAdd distinct child

/-- A node keeps its parent. -/
theorem parentRule {pollFile : PollFile} (hook : KeepingHook pollFile) (places : PlacingHook pollFile)
    (path : Bytes) (parent : Option Bytes) :
    PlainRule pollFile .free fun poll => parentAt poll path = some parent :=
  placesRule hook places (fun same place => (same.parents path).trans place) fun child place => by
    rw [parentAt_gamTreeAdd, place, Option.some_or]

end Gamin.Polling
