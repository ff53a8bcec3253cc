import Gamin.Polling.Tree

/-! # Who is told of an event

`gam_node_emit_event` puts the subscriptions of the parent in front of those of the node, but for those
that are there already, and `gam_server_emit_event` asks each of them whether it wants the event.
-/

namespace Gamin.Polling

open Gamin Gamin.Server Gamin.Inotify

/-! ## The merged list -/

section

variable {told others : List GamSubscription}

/-- Nobody is left out, and nobody else comes in. -/
theorem mem_receivers {sub : GamSubscription} :
    sub ∈ others.foldl (fun subs sub => if sub ∈ subs then subs else sub :: subs) told ↔
      sub ∈ told ∨ sub ∈ others := by
  induction others generalizing told with
  | nil => simp only [List.foldl_nil, List.not_mem_nil, or_false]
  | cons other others inductionHypothesis =>
    rw [List.foldl_cons, inductionHypothesis, List.mem_cons, ← or_assoc]
    refine or_congr_left ?_
    split
    case isTrue already =>
      constructor
      · exact .inl
      · rintro (here | rfl)
        · exact here
        · exact already
    case isFalse => rw [List.mem_cons, or_comm]

/-- Nobody comes in twice. -/
theorem nodup_receivers (distinct : told.Nodup) :
    (others.foldl (fun subs sub => if sub ∈ subs then subs else sub :: subs) told).Nodup := by
  induction others generalizing told with
  | nil => exact distinct
  | cons other others inductionHypothesis =>
    apply inductionHypothesis
    dsimp only
    split
    case isTrue => exact distinct
    case isFalse new => exact List.nodup_cons.mpr ⟨new, distinct⟩

end

/-- The subscriptions of the parent of a node. -/
def parentSubs (poll : Poll) (node : GamNode) : List GamSubscription :=
  (node.parent.map (subsAt poll)).getD []

theorem mem_emitReceivers_iff {poll : Poll} {node : GamNode} {sub : GamSubscription} :
    sub ∈ emitReceivers poll node ↔ sub ∈ node.subs ∨ sub ∈ parentSubs poll node :=
  mem_receivers

/-- The subscriptions of the parent are told about a node. -/
theorem mem_emitReceivers {poll : Poll} {node : GamNode} {parent : Bytes} (isParent : node.parent = some parent)
    {sub : GamSubscription} (subscribed : sub ∈ subsAt poll parent) : sub ∈ emitReceivers poll node := by
  rw [mem_emitReceivers_iff, parentSubs, isParent]
  exact .inr subscribed

/-! ## What is sent -/

/-- Each receiver is asked in turn. -/
theorem emitted_subs (path : Bytes) (isDir : Bool) (event : GaminEventType) (subs : List GamSubscription)
    (force : Bool) :
    (subs.flatMap fun sub => gamServerEmitOneEvent path isDir event sub force).map Emission.sub =
      subs.filter fun sub => gamSubscriptionWantsEvent sub path isDir event force := by
  induction subs with
  | nil => rfl
  | cons sub subs inductionHypothesis =>
    rw [List.flatMap_cons, List.map_append, inductionHypothesis, List.filter_cons, gamServerEmitOneEvent]
    split
    · rfl
    · rfl

/-- What a subscription must be to be told of an event about a node. -/
structure Recipient (poll : Poll) (node : GamNode) (event : GaminEventType) (sub : GamSubscription) : Prop where
  listed : sub ∈ node.subs ∨ sub ∈ parentSubs poll node
  active : sub.cancelled = false
  wants : gamSubscriptionWantsEvent sub node.path node.isDir event false = true

/-- The event has been sent once to each recipient and to nobody else. -/
structure ToldOnce (poll after : Poll) (node : GamNode) (event : GaminEventType)
    (emissions : List Emission) : Prop where
  sent : after.sent = poll.sent ++ emissions
  about : ∀ emission ∈ emissions, emission.path = node.path ∧ emission.event = event
  once : (emissions.map Emission.sub).Nodup
  recipients : ∀ sub, sub ∈ emissions.map Emission.sub ↔ Recipient poll node event sub

theorem gamSubscriptionWantsEvent_active {sub : GamSubscription} {name : Bytes} {isDirNode force : Bool}
    {event : GaminEventType} (wants : gamSubscriptionWantsEvent sub name isDirNode event force = true) :
    sub.cancelled = false := by
  unfold gamSubscriptionWantsEvent at wants
  split at wants
  case isTrue => contradiction
  case isFalse active => exact eq_false_of_ne_true active

/-- A subscription to a file only wants events about its own path. -/
theorem gamSubscriptionWantsEvent_file {sub : GamSubscription} (file : sub.isDir = false) {name : Bytes}
    (other : name ≠ sub.path) (isDirNode : Bool) (event : GaminEventType) (force : Bool) :
    gamSubscriptionWantsEvent sub name isDirNode event force = false := by
  unfold gamSubscriptionWantsEvent
  split
  · rfl
  · split
    · rfl
    · rw [if_pos ⟨by rw [file]; exact Bool.false_ne_true, other⟩]

/-- An event goes exactly once to each subscription of the node or its parent that has not been cancelled
and wants it, and to no other; a file subscription of the parent is not among them. -/
theorem gamNodeEmitEvent_toldOnce (poll : Poll) (node : GamNode)
    (inTree : gamTreeGetAtPath poll node.path = some node) (distinct : node.subs.Nodup)
    (event : GaminEventType) :
    ∃ emissions, ToldOnce poll (gamNodeEmitEvent poll node.path (some event)) node event emissions ∧
      ∀ sub parent, node.parent = some parent → sub ∈ subsAt poll parent → sub.path = parent →
        node.path ≠ parent → sub.isDir = false → sub ∉ emissions.map Emission.sub := by
  have emitted : gamNodeEmitEvent poll node.path (some event) =
      gamServerEmitEvent poll node.path node.isDir event (emitReceivers poll node) false := by
    simp only [gamNodeEmitEvent, inTree]
  have told (sub : GamSubscription) :
      sub ∈ ((emitReceivers poll node).flatMap fun sub =>
          gamServerEmitOneEvent node.path node.isDir event sub false).map Emission.sub ↔
        Recipient poll node event sub := by
    rw [emitted_subs, List.mem_filter, mem_emitReceivers_iff]
    constructor
    · rintro ⟨listed, wants⟩
      exact ⟨listed, gamSubscriptionWantsEvent_active wants, wants⟩
    · rintro ⟨listed, _, wants⟩
      exact ⟨listed, wants⟩
  refine ⟨(emitReceivers poll node).flatMap fun sub =>
    gamServerEmitOneEvent node.path node.isDir event sub false, ⟨?_, ?_, ?_, told⟩, ?_⟩
  · rw [emitted]
    rfl
  · intro emission member
    obtain ⟨sub, _, isSent⟩ := List.mem_flatMap.mp member
    obtain ⟨_, rfl⟩ := mem_gamServerEmitOneEvent.mp isSent
    exact ⟨rfl, rfl⟩
  · rw [emitted_subs]
    exact (nodup_receivers distinct).filter _
  · intro sub parent _ _ own different file member
    have wants := ((told sub).mp member).wants
    rw [gamSubscriptionWantsEvent_file file (by rwa [own])] at wants
    contradiction

/-! ## A file and its directory -/

/-- A node with one client. -/
def clientNode (number : Nat) (path : Bytes) (isDir : Bool) (parent : Option Bytes) : GamNode where
  path := path
  parent := parent
  subs := [gamSubscriptionNew number path requestedEvents number isDir 0]
  isDir := isDir
  newNode := false
  pollTime := 1
  monType := .poll
  checks := 0
  pflags := .none
  lasttime := 0
  sbuf := .zero

/-- The file `/d/f` below `/d`, each with a client. -/
def fileBelowDirectory : Poll :=
  { Poll.new fun _ => {
      stat := fun _ => .noent
      listing := fun _ => none
      excluded := fun _ => false
      monType := fun _ => .poll
      pollTimeout := fun _ => 1 } with
    nodes := [clientNode 1 [47, 100] true none, clientNode 2 [47, 100, 47, 102] false (some [47, 100])] }

theorem fileBelowDirectory_toldOnce : ∃ emissions,
    ToldOnce fileBelowDirectory (gamNodeEmitEvent fileBelowDirectory [47, 100, 47, 102] (some .changed))
      (clientNode 2 [47, 100, 47, 102] false (some [47, 100])) .changed emissions := by
  obtain ⟨emissions, told, _⟩ := gamNodeEmitEvent_toldOnce fileBelowDirectory
    (clientNode 2 [47, 100, 47, 102] false (some [47, 100])) rfl (by decide) .changed
  exact ⟨emissions, told⟩

end Gamin.Polling
