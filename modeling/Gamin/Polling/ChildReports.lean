import Gamin.Library.Presence
import Gamin.Polling.Announcing

/-! # What a subscription is told about a child

A subscription to a directory hears of a child in the first scan, and then whenever the node of the child
is polled.  What it has heard last should be what the node says: the backend keeps the presence of a file in
`MON_MISSING`, in `FLAG_NEW_NODE`, and in whether there is a node at all.
-/

namespace Gamin.Polling

open Gamin Gamin.Server Gamin.Inotify Gamin.Library

/-! ## Reports about a child -/

/-- What an event says about the presence of what it is about. -/
def reportOf : GaminEventType → Notice
  | .exists | .created => .present
  | .changed => .changed
  | .deleted => .absent
  | _ => .other

instance (emission : Emission) (name : Bytes) : Decidable (AboutEntry emission name) :=
  inferInstanceAs (Decidable (_ ∨ _ ∨ _))

section

variable (sub : GamSubscription) (name : Bytes)

/-- The path of the child, as the scans spell it. -/
def childPath : Bytes := gBuildFilename sub.path name

/-- What the subscription has been told about the child. -/
def childReports (sent : List Emission) : List Notice :=
  (sent.filter fun emission => emission.sub = sub ∧ AboutEntry emission name).map fun emission =>
    reportOf emission.event

/-- The node is a child of the directory that is not marked missing and does not wait to be announced. -/
def countsPresent (node : GamNode) : Bool :=
  node.parent = some sub.path ∧ node.pflags.missing = false ∧ node.newNode = false

/-- The tree has the child as present. -/
def childKnown (poll : Poll) : Bool := (gamTreeGetAtPath poll (childPath sub name)).any (countsPresent sub)

end

/-- A subscription to a directory that wants every event about the entries. -/
structure ListensTo (sub : GamSubscription) : Prop where
  isDir : sub.isDir = true
  absolute : sub.path.head? = some slash
  wants : ∀ {path event} isDirNode force, path ≠ sub.path → reportOf event ≠ .other →
    gamSubscriptionWantsEvent sub path isDirNode event force = true

theorem listensTo_directory {address : Pointer} {path : Bytes} {reqno options : Nat}
    (absolute : path.head? = some slash) (wanted : options &&& gamOptNoexists = 0) :
    ListensTo (gamSubscriptionNew address path requestedEvents reqno true options) where
  isDir := rfl
  absolute := absolute
  wants {other event} isDirNode force different reported := by
    have asked : gamSubscriptionHasEvent (gamSubscriptionNew address path requestedEvents reqno true options) event =
        true := by
      show decide ((requestedEvents ||| (GaminEventType.exists.code ||| GaminEventType.endexists.code)) &&&
        event.code ≠ 0) = true
      revert reported
      cases event <;> decide
    have elsewhere : other ≠ path := different
    unfold gamSubscriptionWantsEvent
    rw [asked]
    simp [gamSubscriptionNew, wanted, elsewhere]

/-! ### Paths -/

section

variable {sub : GamSubscription} {name : Bytes}

theorem ListensTo.nonempty (listens : ListensTo sub) : sub.path ≠ [] := by
  intro empty
  have absolute := listens.absolute
  rw [empty] at absolute
  contradiction

/-- The name of an entry is no path of a directory. -/
theorem ListensTo.ne_name (listens : ListensTo sub) (entry : EntryName name) : sub.path ≠ name := by
  rintro rfl
  exact entry.2 (List.mem_of_head? listens.absolute)

/-- Behind the last separator stands the name. -/
theorem gBuildFilename_splits {dir : Bytes} (absolute : dir.head? = some slash) (entry : EntryName name) :
    ∃ above, gBuildFilename dir name = above ++ slash :: name := by
  unfold gBuildFilename
  rw [if_neg entry.1]
  dsimp only
  split
  case isTrue bare =>
    -- the directory is made of separators
    have nonempty : dir ≠ [] := by
      rintro rfl
      contradiction
    obtain ⟨above, last, rfl⟩ := (List.eq_nil_or_concat' dir).resolve_left nonempty
    have isSlash := of_decide_eq_true (List.rdropWhile_eq_nil_iff.mp bare last (by simp))
    exact ⟨above, by rw [isSlash, List.append_assoc, List.singleton_append]⟩
  case isFalse => exact ⟨_, rfl⟩

theorem append_slash_inj {first second other : Bytes} (plain : slash ∉ name) (plainOther : slash ∉ other)
    (same : first ++ slash :: name = second ++ slash :: other) : name = other := by
  have behind {above name : Bytes} (plain : slash ∉ name) :
      (above ++ slash :: name).reverse.takeWhile (· ≠ slash) = name.reverse := by
    have others : ∀ byte ∈ name.reverse, decide (byte ≠ slash) = true := by
      intro byte member
      have different : byte ≠ slash := by
        rintro rfl
        exact plain (List.mem_reverse.mp member)
      exact decide_eq_true different
    rw [List.reverse_append, List.reverse_cons, List.append_assoc, List.takeWhile_append_of_pos others]
    simp
  have reversed : name.reverse = other.reverse := by rw [← behind plain, same, behind plainOther]
  exact List.reverse_injective reversed

/-- Different names have different paths. -/
theorem gBuildFilename_inj {dir other : Bytes} (absolute : dir.head? = some slash) (entry : EntryName name)
    (entryOther : EntryName other) (same : gBuildFilename dir name = gBuildFilename dir other) : name = other := by
  obtain ⟨above, shape⟩ := gBuildFilename_splits absolute entry
  obtain ⟨aboveOther, shapeOther⟩ := gBuildFilename_splits absolute entryOther
  rw [shape, shapeOther] at same
  exact append_slash_inj entry.2 entryOther.2 same

/-- No directory is an entry of itself. -/
theorem gBuildFilename_ne {dir : Bytes} (absolute : dir.head? = some slash) (entry : EntryName name) :
    gBuildFilename dir name ≠ dir := by
  intro itself
  obtain ⟨above, shape⟩ := gBuildFilename_splits absolute entry
  rw [itself] at shape
  by_cases ends : EndsInSlash dir
  · -- the path ends as the name does
    rw [EndsInSlash, shape, List.getLast?_append_of_ne_nil _ (List.cons_ne_nil _ _),
      List.getLast?_cons_of_ne_nil entry.1] at ends
    exact entry.2 (List.mem_of_getLast? ends)
  · have nonempty : dir ≠ [] := by
      rintro rfl
      contradiction
    rw [gBuildFilename_plain nonempty ends entry] at itself
    simpa using congrArg List.length itself

section

variable (listens : ListensTo sub) (entry : EntryName name)

include listens entry

theorem ListensTo.childPath_ne : childPath sub name ≠ sub.path := gBuildFilename_ne listens.absolute entry

theorem ListensTo.slash_mem_childPath : slash ∈ childPath sub name := by
  obtain ⟨above, shape⟩ := gBuildFilename_splits listens.absolute entry
  rw [childPath, shape]
  exact List.mem_append_right _ List.mem_cons_self

end

/-! ### Emissions -/

theorem childReports_append (first second : List Emission) :
    childReports sub name (first ++ second) = childReports sub name first ++ childReports sub name second := by
  simp [childReports]

theorem childReports_flatMap (receivers : List GamSubscription) (told : GamSubscription → List Emission) :
    childReports sub name (receivers.flatMap told) =
      receivers.flatMap fun other => childReports sub name (told other) := by
  induction receivers with
  | nil => rfl
  | cons first receivers inductionHypothesis =>
    rw [List.flatMap_cons, childReports_append, inductionHypothesis, List.flatMap_cons]

/-- What others are told does not count. -/
theorem childReports_others {emissions : List Emission} (others : ∀ emission ∈ emissions, emission.sub ≠ sub) :
    childReports sub name emissions = [] := by
  rw [childReports, List.map_eq_nil_iff, List.filter_eq_nil_iff]
  intro emission member about
  exact others emission member (of_decide_eq_true about).1

theorem childReports_other {other : GamSubscription} (different : other ≠ sub) (path : Bytes) (isDirNode : Bool)
    (event : GaminEventType) (force : Bool) :
    childReports sub name (gamServerEmitOneEvent path isDirNode event other force) = [] := by
  apply childReports_others
  intro emission member
  obtain ⟨_, rfl⟩ := mem_gamServerEmitOneEvent.mp member
  exact different

/-- Nor do events about the directory itself. -/
theorem ListensTo.childReports_own (listens : ListensTo sub) (entry : EntryName name) (isDirNode : Bool)
    (event : GaminEventType) (force : Bool) :
    childReports sub name (gamServerEmitOneEvent sub.path isDirNode event sub force) = [] := by
  rw [childReports, List.map_eq_nil_iff, List.filter_eq_nil_iff]
  intro emission member about
  obtain ⟨_, rfl⟩ := mem_gamServerEmitOneEvent.mp member
  rcases (of_decide_eq_true about).2 with built | longer | ⟨_, bare⟩
  · exact listens.childPath_ne entry built.symm
  · exact absurd (congrArg List.length longer) (by simp)
  · exact listens.ne_name entry bare

theorem ListensTo.childReports_told (listens : ListensTo sub) {path : Bytes} (different : path ≠ sub.path)
    {event : GaminEventType} (reported : reportOf event ≠ .other) (isDirNode force : Bool) :
    childReports sub name (gamServerEmitOneEvent path isDirNode event sub force) =
      if path = childPath sub name ∨ path = sub.path ++ slash :: name ∨ event = .exists ∧ path = name then
        [reportOf event]
      else [] := by
  rw [gamServerEmitOneEvent, if_pos (listens.wants isDirNode force different reported), childReports]
  have isAbout : AboutEntry { sub := sub, path := path, subpath := relativePath sub path, event := event } name ↔
      (path = childPath sub name ∨ path = sub.path ++ slash :: name ∨ event = .exists ∧ path = name) := Iff.rfl
  split
  case isTrue about => simp [isAbout.mpr about]
  case isFalse about => simp [mt isAbout.mp about]

/-- Whoever is listed once is asked once. -/
theorem receivers_flatMap {reports : GamSubscription → List Notice} (others : ∀ other, other ≠ sub → reports other = [])
    {told subs : List GamSubscription} (once : told.flatMap reports = if sub ∈ told then reports sub else []) :
    (subs.foldl (fun subs sub => if sub ∈ subs then subs else sub :: subs) told).flatMap reports =
      if sub ∈ told ∨ sub ∈ subs then reports sub else [] := by
  induction subs generalizing told with
  | nil => simpa using once
  | cons first subs inductionHypothesis =>
    rw [List.foldl_cons]
    by_cases already : first ∈ told
    · rw [if_pos already, inductionHypothesis once]
      by_cases here : first = sub
      · subst here
        simp [already]
      · simp [Ne.symm here]
    · rw [if_neg already, inductionHypothesis]
      · by_cases here : first = sub
        · simp [here]
        · simp [Ne.symm here]
      · rw [List.flatMap_cons, once]
        by_cases here : first = sub
        · subst here
          simp [already]
        · simp [others first here, Ne.symm here]

/-- The subscription hears of the children of its directory. -/
theorem Spelled.mem_parentSubs {poll : Poll} (spelled : Spelled poll) {node : GamNode} :
    sub ∈ parentSubs poll node ↔ node.parent = some sub.path ∧ sub ∈ Polling.subsAt poll sub.path := by
  unfold parentSubs
  constructor
  · intro above
    cases isParent : node.parent with
    | none => simp [isParent] at above
    | some parent =>
      rw [isParent, Option.map_some, Option.getD_some] at above
      have own := spelled.subsAt above
      exact ⟨by rw [own], by rwa [own]⟩
  · rintro ⟨isParent, subscribed⟩
    rw [isParent]
    exact subscribed

/-- An event about a node is a report about the child if it is the node of the child, below the
directory. -/
theorem ListensTo.childReports_emit (listens : ListensTo sub) (entry : EntryName name) {poll : Poll}
    (spelled : Spelled poll) {node : GamNode} (found : gamTreeGetAtPath poll node.path = some node)
    {event : GaminEventType} (reported : reportOf event ≠ .other) (later : event ≠ .exists)
    (single : sub ∈ subsAt poll sub.path → node.parent = some sub.path → node.path = sub.path ++ slash :: name →
      node.path = childPath sub name) :
    ∃ more, (gamNodeEmitEvent poll node.path (some event)).sent = poll.sent ++ more ∧
      childReports sub name more =
        if sub ∈ subsAt poll sub.path ∧ node.parent = some sub.path ∧ node.path = childPath sub name then
          [reportOf event]
        else [] := by
  refine ⟨(emitReceivers poll node).flatMap fun sub => gamServerEmitOneEvent node.path node.isDir event sub false,
    by simp only [gamNodeEmitEvent, found]; rfl, ?_⟩
  rw [childReports_flatMap]
  -- an event about the directory itself is none about a child
  by_cases own : node.path = sub.path
  · have silent (other : GamSubscription) :
        childReports sub name (gamServerEmitOneEvent node.path node.isDir event other false) = [] := by
      by_cases here : other = sub
      · rw [here, own]
        exact listens.childReports_own entry _ _ _
      · exact childReports_other here _ _ _ _
    rw [List.flatMap_eq_nil_iff.mpr fun other _ => silent other, if_neg]
    rintro ⟨-, -, isChild⟩
    exact listens.childPath_ne entry (isChild.symm.trans own)
  · have unlisted : sub ∉ node.subs := fun listed =>
      own (spelled.own node (gamTreeGetAtPath_mem found) sub listed).symm
    have silent (other : GamSubscription) (different : other ≠ sub) :=
      @childReports_other sub name other different node.path node.isDir event false
    unfold emitReceivers
    rw [receivers_flatMap silent]
    · -- it is not on the node, so it hears of it only as a subscription of the parent
      have receives : sub ∈ node.subs ∨ sub ∈ (node.parent.map (subsAt poll)).getD [] ↔
          node.parent = some sub.path ∧ sub ∈ subsAt poll sub.path := by
        rw [or_iff_right unlisted]
        exact spelled.mem_parentSubs
      simp only [receives]
      by_cases below : node.parent = some sub.path ∧ sub ∈ subsAt poll sub.path
      · rw [if_pos below, listens.childReports_told own reported]
        have about : (node.path = childPath sub name ∨ node.path = sub.path ++ slash :: name ∨
            event = .exists ∧ node.path = name) ↔
              sub ∈ subsAt poll sub.path ∧ node.parent = some sub.path ∧ node.path = childPath sub name := by
          constructor
          · rintro (built | longer | bare)
            · exact ⟨below.2, below.1, built⟩
            · exact ⟨below.2, below.1, single below.2 below.1 longer⟩
            · exact absurd bare.1 later
          · exact fun isChild => .inl isChild.2.2
        simp only [about]
      · rw [if_neg below, if_neg]
        exact fun isChild => below ⟨isChild.2.1, isChild.1⟩
    · rw [if_neg unlisted, List.flatMap_eq_nil_iff]
      intro other listed
      refine silent other ?_
      rintro rfl
      exact unlisted listed

/-! ## In step -/

/-- What the subscription has been told of the child since it was made, after `prior`, alternates; and while it
is at its directory, the last report is what the tree has. -/
def InStep (sub : GamSubscription) (name : Bytes) (prior : List Emission) (poll : Poll) : Prop :=
  ∃ told, poll.sent = prior ++ told ∧ Alternating false (childReports sub name told) ∧
    (sub ∈ subsAt poll sub.path → lastReported false (childReports sub name told) = childKnown sub name poll)

/-- What is asked of the polls of a scan.  A poll that announces the child finds it; a child that is marked
missing has been polled before, or is found; and the child has no node below the directory under another
spelling of its path. -/
def announceGuard (sub : GamSubscription) (name : Bytes) : WriteGuard where
  polls poll node := sub ∈ subsAt poll sub.path → node.parent = some sub.path →
    (node.path = sub.path ++ slash :: name → node.path = childPath sub name) ∧
      (node.path = childPath sub name → node.newNode = true ∨ node.lasttime = 0 ∧ node.pflags.missing = true →
        (poll.view.stat node.path).exists = true)
  adds _ _ := true
  misses _ _ := true

section

variable {prior : List Emission} {poll after : Poll} {node next : GamNode}

theorem childKnown_congr
    (same : gamTreeGetAtPath after (childPath sub name) = gamTreeGetAtPath poll (childPath sub name)) :
    childKnown sub name after = childKnown sub name poll := by
  rw [childKnown, same, childKnown]

theorem childKnown_found (found : gamTreeGetAtPath poll (childPath sub name) = some node) :
    childKnown sub name poll = countsPresent sub node := by
  rw [childKnown, found, Option.any_some]

/-- Nothing is said about the child, and nothing becomes of it. -/
theorem InStep.quiet (inStep : InStep sub name prior poll) {more : List Emission}
    (sent : after.sent = poll.sent ++ more) (silent : childReports sub name more = [])
    (subs : sub ∈ subsAt after sub.path → sub ∈ subsAt poll sub.path)
    (known : sub ∈ subsAt after sub.path → childKnown sub name after = childKnown sub name poll) :
    InStep sub name prior after := by
  obtain ⟨told, whole, alternating, last⟩ := inStep
  have same : childReports sub name (told ++ more) = childReports sub name told := by
    rw [childReports_append, silent, List.append_nil]
  refine ⟨told ++ more, by rw [sent, whole, List.append_assoc], ?_, fun subscribed => ?_⟩
  · rw [same]
    exact alternating
  · rw [same, known subscribed]
    exact last (subs subscribed)

/-- What becomes of the child is said. -/
theorem InStep.report (inStep : InStep sub name prior poll) (subscribed : sub ∈ subsAt poll sub.path)
    {more : List Emission} {report : Notice} (sent : after.sent = poll.sent ++ more)
    (said : childReports sub name more = [report]) (fits : report.Fits (childKnown sub name poll))
    (leaves : childKnown sub name after = report.leaves (childKnown sub name poll)) : InStep sub name prior after := by
  obtain ⟨told, whole, alternating, last⟩ := inStep
  have reports : childReports sub name (told ++ more) = childReports sub name told ++ [report] := by
    rw [childReports_append, said]
  refine ⟨told ++ more, by rw [sent, whole, List.append_assoc], ?_, fun _ => ?_⟩
  · rw [reports, alternating_concat, last subscribed]
    exact ⟨alternating, fits⟩
  · rw [reports, lastReported_concat, last subscribed, leaves]

theorem childKnown_nodes (nodes : after.nodes = poll.nodes) : childKnown sub name after = childKnown sub name poll := by
  apply childKnown_congr
  rw [gamTreeGetAtPath, nodes, ← gamTreeGetAtPath]

theorem MarkMoves.said {event : GaminEventType} (moves : MarkMoves poll node next (some event)) :
    reportOf event ≠ .other ∧ event ≠ .exists := by
  cases moves with
  | changed | created | deleted => exact ⟨by decide, by decide⟩

/-- The mark moves as the event says. -/
theorem MarkMoves.fits {event : GaminEventType} (moves : MarkMoves poll node next (some event))
    (asked : node.lasttime = 0 ∧ node.pflags.missing = true → (poll.view.stat node.path).exists = true) :
    (reportOf event).Fits (!node.pflags.missing) ∧
      (!next.pflags.missing) = (reportOf event).leaves (!node.pflags.missing) := by
  cases moves with
  | changed before after => simp [reportOf, Notice.Fits, Notice.leaves, before, after]
  | created before after => simp [reportOf, Notice.Fits, Notice.leaves, before, after]
  | deleted before after =>
    have present : node.pflags.missing = false := by
      cases marked : node.pflags.missing with
      | false => rfl
      | true =>
        obtain ⟨first, gone⟩ := before marked
        rw [asked ⟨first, marked⟩] at gone
        contradiction
    simp [reportOf, Notice.Fits, Notice.leaves, present, after]

/-- A child of the directory that has been announced is present unless it is marked. -/
theorem countsPresent_announced (isParent : node.parent = some sub.path) (announced : node.newNode = false) :
    countsPresent sub node = !node.pflags.missing := by
  simp [countsPresent, isParent, announced]

theorem countsPresent_elsewhere (elsewhere : node.parent ≠ some sub.path) : countsPresent sub node = false := by
  simp [countsPresent, elsewhere]

/-- A node has been written back, and an event is sent about it. -/
theorem InStep.emitted (listens : ListensTo sub) (entry : EntryName name) (inStep : InStep sub name prior poll)
    (spelled : Spelled after) (sent : after.sent = poll.sent) (subs : subsAt after sub.path = subsAt poll sub.path)
    (elsewhere : childPath sub name ≠ node.path →
      gamTreeGetAtPath after (childPath sub name) = gamTreeGetAtPath poll (childPath sub name))
    (found : gamTreeGetAtPath poll node.path = some node) (here : gamTreeGetAtPath after node.path = some next)
    (rewrites : Rewrites node next) {event : GaminEventType} (reported : reportOf event ≠ .other)
    (later : event ≠ .exists)
    (single : sub ∈ subsAt poll sub.path → node.parent = some sub.path → node.path = sub.path ++ slash :: name →
      node.path = childPath sub name)
    (fits : sub ∈ subsAt poll sub.path → node.parent = some sub.path → node.path = childPath sub name →
      (reportOf event).Fits (countsPresent sub node) ∧
        countsPresent sub next = (reportOf event).leaves (countsPresent sub node)) :
    InStep sub name prior (gamNodeEmitEvent after node.path (some event)) := by
  have nodes := gamNodeEmitEvent_nodes after node.path (some event)
  have hereNext : gamTreeGetAtPath after next.path = some next := by rwa [rewrites.path]
  have known (isChild : node.path = childPath sub name) : childKnown sub name poll = countsPresent sub node ∧
      childKnown sub name after = countsPresent sub next :=
    ⟨childKnown_found (isChild ▸ found), childKnown_found (isChild ▸ here)⟩
  obtain ⟨more, sentMore, said⟩ := listens.childReports_emit entry spelled hereNext reported later (by
    rwa [subs, rewrites.parent, rewrites.path])
  rw [rewrites.path, sent] at sentMore
  rw [subs, rewrites.parent, rewrites.path] at said
  by_cases told : sub ∈ subsAt poll sub.path ∧ node.parent = some sub.path ∧ node.path = childPath sub name
  · -- the subscription is told of the child, and what it knows follows
    rw [if_pos told] at said
    obtain ⟨subscribed, isParent, isChild⟩ := told
    obtain ⟨before, now⟩ := known isChild
    obtain ⟨fit, leaves⟩ := fits subscribed isParent isChild
    refine inStep.report subscribed sentMore said (before ▸ fit) ?_
    rw [childKnown_nodes nodes, now, before, leaves]
  · rw [if_neg told] at said
    refine inStep.quiet sentMore said (fun subscribed => ?_) fun subscribed => ?_
    · rwa [subsAt_congr nodes, subs] at subscribed
    · rw [subsAt_congr nodes, subs] at subscribed
      rw [childKnown_nodes nodes]
      by_cases isChild : node.path = childPath sub name
      · have notParent : node.parent ≠ some sub.path := fun isParent => told ⟨subscribed, isParent, isChild⟩
        obtain ⟨before, now⟩ := known isChild
        rw [before, now, countsPresent_elsewhere notParent, countsPresent_elsewhere (rewrites.parent ▸ notParent)]
      · exact childKnown_congr (elsewhere (Ne.symm isChild))

section

variable (listens : ListensTo sub) (entry : EntryName name) (inStep : InStep sub name prior poll)
  (spelled : Spelled poll) (found : gamTreeGetAtPath poll node.path = some node)
  (asked : (announceGuard sub name).polls poll node = true)

include listens entry inStep spelled found asked

/-- A node that has been announced is polled, and what the poll says is sent. -/
theorem InStep.reported (announced : node.newNode = false) :
    InStep sub name prior
      (gamNodeEmitEvent (gamPollBasicPollFile poll node).1 node.path (gamPollBasicPollFile poll node).2) := by
  have spelledAfter : Spelled (gamPollBasicPollFile poll node).1 := basicRule_spelled.polled found rfl spelled
  obtain ⟨next, polled⟩ := gamPollBasicPollFile_polled found
  have asked := of_decide_eq_true asked
  generalize (gamPollBasicPollFile poll node).1 = after, (gamPollBasicPollFile poll node).2 = event at *
  have sameSubs := polled.subsAt found sub.path
  cases event with
  | none =>
    have same : next.pflags.missing = node.pflags.missing := by
      cases polled.moves
      assumption
    show InStep sub name prior after
    refine inStep.quiet (by rw [polled.sent, List.append_nil]) rfl (fun subscribed => sameSubs ▸ subscribed) fun _ => ?_
    by_cases isChild : childPath sub name = node.path
    · rw [childKnown_found (isChild ▸ polled.here), childKnown_found (isChild ▸ found), countsPresent, countsPresent,
        polled.rewrites.parent, polled.newNode, same]
    · exact childKnown_congr (polled.elsewhere isChild)
  | some event =>
    obtain ⟨reported, later⟩ := polled.moves.said
    refine inStep.emitted listens entry spelledAfter polled.sent sameSubs polled.elsewhere found polled.here
      polled.rewrites reported later (fun subscribed isParent => (asked subscribed isParent).1)
      fun subscribed isParent isChild => ?_
    have fits := polled.moves.fits fun first => (asked subscribed isParent).2 isChild (.inr first)
    rwa [countsPresent_announced isParent announced, countsPresent_announced
      (polled.rewrites.parent.trans isParent) (polled.newNode.trans announced)]

/-- A new node is polled, loses its flag and is announced, whatever the poll has said. -/
theorem InStep.announced (new : node.newNode = true) (unmarked : node.pflags.missing = false)
    (polled : Polled poll node next (gamPollBasicPollFile poll node).1 (gamPollBasicPollFile poll node).2) :
    InStep sub name prior (gamNodeEmitEvent
      ((gamPollBasicPollFile poll node).1.setNode { next with newNode := false }) node.path (some .created)) := by
  have spelledAfter : Spelled (gamPollBasicPollFile poll node).1 := basicRule_spelled.polled found rfl spelled
  have asked := of_decide_eq_true asked
  generalize (gamPollBasicPollFile poll node).1 = after, (gamPollBasicPollFile poll node).2 = event at *
  have hereNext : gamTreeGetAtPath after next.path = some next := by
    rw [polled.rewrites.path]
    exact polled.here
  have written := polled.rewrites.trans (show Rewrites next { next with newNode := false } from ⟨rfl, rfl, rfl⟩)
  have here : gamTreeGetAtPath (after.setNode { next with newNode := false }) node.path =
      some { next with newNode := false } := by
    rw [gamTreeGetAtPath_setNode, polled.here, Option.map_some, if_pos rfl]
  have elsewhere {path : Bytes} (different : path ≠ node.path) :
      gamTreeGetAtPath (after.setNode { next with newNode := false }) path = gamTreeGetAtPath poll path := by
    have other : path ≠ ({ next with newNode := false } : GamNode).path := by
      rw [written.path]
      exact different
    rw [gamTreeGetAtPath_setNode_other after other, polled.elsewhere different]
  have subs : subsAt (after.setNode { next with newNode := false }) sub.path = subsAt poll sub.path := by
    by_cases own : sub.path = node.path
    · rw [own, subsAt, here, subsAt, found, Option.map_some, Option.map_some, written.subs]
    · rw [subsAt, elsewhere own, subsAt]
  refine inStep.emitted listens entry (basicRule_spelled.cleared hereNext spelledAfter) polled.sent subs elsewhere found
    here written (by decide) (by decide) (fun subscribed isParent => (asked subscribed isParent).1)
    fun subscribed isParent isChild => ?_
  -- the poll has found it
  have present := (asked subscribed isParent).2 isChild (.inl new)
  have stays : next.pflags.missing = false := by
    rw [polled.missing, missingAfter]
    split
    · exact unmarked
    · cases answer : poll.view.stat node.path with
      | found sbuf => simp [unmarked]
      | noent | failed =>
        rw [answer] at present
        contradiction
  have before : countsPresent sub node = false := by simp [countsPresent, new]
  have now : countsPresent sub { next with newNode := false } = true := by
    simp [countsPresent, stays, polled.rewrites.parent, isParent]
  rw [before, now]
  exact ⟨rfl, rfl⟩

end

/-! ## Scans stay in step -/

theorem InStep.of_nodes (inStep : InStep sub name prior poll) (nodes : after.nodes = poll.nodes)
    (sent : after.sent = poll.sent) : InStep sub name prior after :=
  inStep.quiet (by rw [sent, List.append_nil]) rfl (fun subscribed => by rwa [subsAt_congr nodes] at subscribed)
    fun _ => childKnown_nodes nodes

theorem gamTreeAdd_sent (poll : Poll) (child : GamNode) : (gamTreeAdd poll child).sent = poll.sent := by
  unfold gamTreeAdd
  split <;> rfl

theorem subsAt_gamTreeAdd (poll : Poll) {child : GamNode} (bare : child.subs = []) (path : Bytes) :
    subsAt (gamTreeAdd poll child) path = subsAt poll path := by
  by_cases here : child.path = path
  · subst here
    cases found : gamTreeGetAtPath poll child.path with
    | none => rw [subsAt, gamTreeAdd_self found, subsAt, found, Option.map_some, bare]; rfl
    | some node => rw [gamTreeAdd, found, Option.isSome_some, if_pos rfl]
  · rw [subsAt, gamTreeAdd_other poll here, subsAt]

theorem childKnown_gamTreeAdd_iff (child : GamNode) :
    childKnown sub name (gamTreeAdd poll child) = true ↔ childKnown sub name poll = true ∨
      gamTreeGetAtPath poll (childPath sub name) = none ∧ child.path = childPath sub name ∧
        countsPresent sub child = true := by
  by_cases isChild : child.path = childPath sub name
  · cases found : gamTreeGetAtPath poll (childPath sub name) with
    | none =>
      rw [childKnown_found (isChild ▸ gamTreeAdd_self (isChild ▸ found)), childKnown, found]
      simp [isChild]
    | some node =>
      rw [gamTreeAdd, isChild, found, Option.isSome_some, if_pos rfl]
      simp
  · rw [childKnown_congr (gamTreeAdd_other poll isChild)]
    simp [isChild]

/-- A new node that does not count as present leaves the child as it is. -/
theorem childKnown_gamTreeAdd {child : GamNode}
    (uncounted : gamTreeGetAtPath poll child.path = none → child.path = childPath sub name →
      countsPresent sub child = false) :
    childKnown sub name (gamTreeAdd poll child) = childKnown sub name poll := by
  rw [Bool.eq_iff_iff, childKnown_gamTreeAdd_iff, or_iff_left]
  rintro ⟨absent, isChild, counts⟩
  rw [uncounted (isChild ▸ absent) isChild] at counts
  contradiction

theorem InStep.gamTreeAdd (inStep : InStep sub name prior poll) {child : GamNode} (bare : child.subs = [])
    (uncounted : gamTreeGetAtPath poll child.path = none → child.path = childPath sub name →
      countsPresent sub child = false) : InStep sub name prior (gamTreeAdd poll child) :=
  inStep.quiet (by rw [gamTreeAdd_sent, List.append_nil]) rfl
    (fun subscribed => by rwa [subsAt_gamTreeAdd poll bare] at subscribed) fun _ => childKnown_gamTreeAdd uncounted

theorem announceRule_inStep (listens : ListensTo sub) (entry : EntryName name) (prior : List Emission) :
    AnnounceRule (announceGuard sub name) (InStep sub name prior) where
  still nodes sent inStep := inStep.of_nodes nodes sent
  entered bare new inStep := inStep.gamTreeAdd bare fun _ _ => by simp [countsPresent, new]
  reported spelled found asked announced inStep := inStep.reported listens entry spelled found asked announced
  announced spelled found asked new unmarked polled inStep :=
    inStep.announced listens entry spelled found asked new unmarked polled

end

end

end Gamin.Polling
