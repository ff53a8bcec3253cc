import Gamin.Polling.ChildReports
import Gamin.Polling.Entries

/-! # Other clients and a child

The other clients of the backend share its nodes.  The cancellation of one of them may take the node of a child out of
the tree, without a word to the subscription to the directory.  A registration says something about the child to
nobody but the subscription that it is for.
-/

namespace Gamin.Polling

open Gamin Gamin.Server Gamin.Inotify Gamin.Library Relation

/-! ## Cancelling -/

/-- What is asked of the cancellation of another subscription: if the child is present, its node does not leave
the tree with the subscription, nor by the pruning above it. -/
def CancelsBeside (sub : GamSubscription) (name : Bytes) (poll : Poll) (other : GamSubscription) : Prop :=
  childKnown sub name poll = true → ∀ node, gamTreeGetAtPath poll other.path = some node → Goes poll other node →
    node.path ≠ childPath sub name ∧ ¬ TransGen (OnlyAbove poll) node.path (childPath sub name)

section

variable {sub other : GamSubscription} {name : Bytes} {prior : List Emission} {property : Poll → Prop}
  {poll after : Poll}

theorem mem_subsAt {path : Bytes} : sub ∈ subsAt poll path ↔ SubscribedAt poll path sub := by
  unfold subsAt SubscribedAt
  cases found : gamTreeGetAtPath poll path with
  | none => simp
  | some node => simp

theorem childKnown_iff : childKnown sub name poll = true ↔
    ∃ node, gamTreeGetAtPath poll (childPath sub name) = some node ∧ countsPresent sub node = true := by
  unfold childKnown
  cases found : gamTreeGetAtPath poll (childPath sub name) with
  | none => simp
  | some node => simp

theorem countsPresent_parent {node : GamNode} (counts : countsPresent sub node = true) : node.parent = some sub.path :=
  (of_decide_eq_true counts).1

/-- The child stays if it is present and its directory keeps the subscription. -/
theorem Rooted.childKept (rooted : Rooted poll) (different : other ≠ sub)
    (beside : sub ∈ subsAt poll sub.path → CancelsBeside sub name poll other) {node : GamNode}
    (found : gamTreeGetAtPath poll other.path = some node)
    (cancelled : Cancelled (node.without other) (poll.setNode (node.without other)) after)
    (subscribed : sub ∈ subsAt after sub.path) (before : sub ∈ subsAt poll sub.path)
    (known : childKnown sub name poll = true) : (gamTreeGetAtPath after (childPath sub name)).isSome := by
  have path := gamTreeGetAtPath_path found
  have here : gamTreeGetAtPath poll node.path = some node := by rwa [path]
  obtain ⟨child, foundChild, counts⟩ := childKnown_iff.mp known
  have isChild := gamTreeGetAtPath_path foundChild
  have isParent := countsPresent_parent counts
  have member := gamTreeGetAtPath_mem foundChild
  obtain ⟨dirNode, foundDir, listedDir⟩ := mem_subsAt.mp subscribed
  by_cases bare : (node.without other).subs = []
  · -- the directory is another node, since the subscription is still there
    have elsewhere : node.path ≠ sub.path := by
      intro own
      obtain ⟨sameNode, foundSame, listed⟩ := mem_subsAt.mp before
      rw [← own, here] at foundSame
      cases foundSame
      exact different (without_subs_eq_nil.mp bare sub listed).symm
    rw [gamTreeGetAtPath_isSome, ← isChild]
    rcases cancelled.goes rooted here other with ⟨-, kept⟩ | ⟨goes, gone, tree, uprooted, rfl⟩
    · refine (kept child member).resolve_right ?_
      rintro ⟨below, -⟩
      rw [isParent, Option.some.injEq] at below
      exact elsewhere below.symm
    · obtain ⟨notSelf, noWay⟩ := beside before known node found goes
      refine List.mem_map_of_mem ((uprooted.pruneTree rooted).mpr ⟨member, fun isGone => ?_, isChild ▸ noWay⟩)
      rcases uprooted.closed child member isGone with rfl | ⟨parent, parentGone, below⟩
      · exact notSelf isChild
      · -- then the directory would be gone
        rw [isParent, Option.some.injEq] at below
        have kept := ((uprooted.pruneTree rooted).mp (gamTreeGetAtPath_mem foundDir)).2.1
        rw [gamTreeGetAtPath_path foundDir, below] at kept
        exact kept parentGone
  · -- the node has other subscriptions, and nothing is removed
    have same : after = poll.setNode (node.without other) := by
      cases cancelled with
      | shared => rfl
      | fileKept empty | fileGone empty | dirKept empty | dirParent empty | dirGone empty => exact absurd empty bare
    rw [same, gamTreeGetAtPath_isSome, Poll.setNode_paths, ← isChild]
    exact List.mem_map_of_mem member

/-- What a cancellation leaves alone: what has been sent, and that no node waits. -/
theorem removalRule_quiet (sent : List Emission) (announced : Prop) : RemovalRule fun poll =>
    poll.sent = sent ∧ (announced → ∀ node ∈ poll.nodes, node.newNode = false) where
  unregistered _ quiet := quiet
  removed _ _ quiet := ⟨quiet.1, fun before node member => quiet.2 before node (List.mem_of_mem_filter member)⟩

theorem gamPollBasicRemoveSubscription_quiet (removed : gamPollBasicRemoveSubscription poll other = some after) :
    after.sent = poll.sent ∧
      ((∀ node ∈ poll.nodes, node.newNode = false) → ∀ node ∈ after.nodes, node.newNode = false) := by
  refine (removalRule_quiet poll.sent _).removeSubscription removed (fun _ => ⟨rfl, id⟩) fun node next found lost => ?_
  unfold gamNodeRemoveSubscription at lost
  split at lost
  case isTrue =>
    cases lost
    refine ⟨rfl, fun announced written member => ?_⟩
    obtain ⟨earlier, memberEarlier, rfl⟩ := List.mem_map.mp member
    split
    · have known := announced node (gamTreeGetAtPath_mem found)
      exact known
    · exact announced earlier memberEarlier
  case isFalse => contradiction

theorem Telling.cancel (telling : Telling property noneWaits poll)
    (removed : gamPollBasicRemoveSubscription poll other = some after) (holds : property after) :
    Telling property noneWaits after where
  holds := holds
  rooted := basicRule_rooted.removeSubscription subsRule_rooted removed telling.rooted
  spelled := basicRule_spelled.removeSubscription subsRule_spelled removed telling.spelled
  waiting node member new := absurd new (ne_true_of_eq_false
    ((gamPollBasicRemoveSubscription_quiet removed).2 (fun _ => telling.announced_of_none) node member))

theorem InStep.cancel (inStep : InStep sub name prior poll) (rooted : Rooted poll) (spelled : Spelled poll)
    (removed : gamPollBasicRemoveSubscription poll other = some after)
    (beside : other ≠ sub → sub ∈ subsAt poll sub.path → CancelsBeside sub name poll other) :
    InStep sub name prior after := by
  have placed : Placed poll other := fun node member listed => (spelled.own node member other listed).symm
  obtain ⟨source, gone⟩ := gamPollBasicRemoveSubscription_removes placed removed
  have fewer (subscribed : sub ∈ subsAt after sub.path) : sub ∈ subsAt poll sub.path := by
    obtain ⟨node, found, listed⟩ := mem_subsAt.mp subscribed
    obtain ⟨old, member, path, listedOld⟩ := source node (gamTreeGetAtPath_mem found) sub listed
    refine mem_subsAt.mpr ⟨old, ?_, listedOld⟩
    rw [← gamTreeGetAtPath_path found, ← path]
    exact gamTreeGetAtPath_of_mem rooted.distinct member
  have sent := (gamPollBasicRemoveSubscription_quiet removed).1
  refine inStep.quiet (by rw [sent, List.append_nil]) rfl fewer fun subscribed => ?_
  have different : other ≠ sub := by
    rintro rfl
    obtain ⟨node, found, listed⟩ := mem_subsAt.mp subscribed
    exact gone node (gamTreeGetAtPath_mem found) listed
  -- a subscription that was on no node leaves the tree as it is
  rcases gamPollBasicRemoveSubscription_cancelled removed with ⟨-, rfl⟩ | ⟨node, found, listed, cancelled⟩
  · rfl
  · have here : gamTreeGetAtPath poll node.path = some node := by rwa [gamTreeGetAtPath_path found]
    have written : childKnown sub name (poll.setNode (node.without other)) = childKnown sub name poll := by
      by_cases isChild : node.path = childPath sub name
      · rw [childKnown_found (isChild ▸ found_without here other), childKnown_found (isChild ▸ here)]
        rfl
      · exact childKnown_congr (gamTreeGetAtPath_setNode_other poll (Ne.symm isChild))
    have kept := rooted.childKept different (beside different) found cancelled subscribed (fewer subscribed)
    have prunes := (prunesRule (poll.setNode (node.without other))).removeSubscription removed
      (fun absent => absurd (absent.symm.trans found) (by simp)) fun same next foundSame lost => by
        cases foundSame.symm.trans found
        rw [gamNodeRemoveSubscription, if_pos listed] at lost
        cases lost
        exact .refl _
    rcases prunes (childPath sub name) with same | ⟨absent, -⟩
    · rw [childKnown_congr same, written]
    · rw [childKnown, absent, Option.any_none]
      cases known : childKnown sub name poll with
      | false => rfl
      | true =>
        have there := kept known
        rw [absent] at there
        contradiction

end

/-! ## Registering -/

/-- The names that the first scan of a registration reads. -/
def firstNamesRead (poll : Poll) (now : Nat) (sub : GamSubscription) : List Bytes :=
  match gamNodeAddSubscription (gamTreeAddAtPath { poll with currentTime := now } sub.path sub.isDir) sub.path sub with
  | none => []
  | some poll =>
    match gamTreeGetAtPath poll sub.path with
    | none => []
    | some node => if node.isDir then firstEntriesRead gamPollBasicPollFile poll sub.path else []

/-- The parts of a registration: the tree with the subscription, and the node at its path. -/
structure RegistrationParts (poll : Poll) (now : Nat) (sub : GamSubscription) (tree : Poll) (node : GamNode)
    (after : Poll) : Prop where
  inTree : gamNodeAddSubscription (gamTreeAddAtPath { poll with currentTime := now } sub.path sub.isDir) sub.path sub =
    some tree
  found : gamTreeGetAtPath tree node.path = some node
  own : node.path = sub.path
  ends : after = subscribedNode tree sub node
  names : firstNamesRead poll now sub =
    if node.isDir then firstEntriesRead gamPollBasicPollFile tree sub.path else []
  spelled : Spelled poll → Spelled tree

theorem gamPollBasicAddSubscription_registered {poll after : Poll} {now : Nat} {sub : GamSubscription}
    (added : gamPollBasicAddSubscription poll now sub = some after) :
    ∃ tree node, RegistrationParts poll now sub tree node after := by
  obtain ⟨tree, inTree, subscribed⟩ := Option.bind_eq_some_iff.mp added
  obtain ⟨node, found, rfl⟩ := Option.map_eq_some_iff.mp subscribed
  have own := gamTreeGetAtPath_path found
  refine ⟨tree, node, inTree, own ▸ found, own, rfl, by simp only [firstNamesRead, inTree, found], fun spelled => ?_⟩
  exact subsRule_spelled.gamNodeAddSubscription inTree
    (basicRule_spelled.gamTreeAddAtPath sub.isDir (addAtPathSafe_free _ sub.path) (basicRule_spelled.clock now spelled))

/-- What a registration says about the child to the subscription; and it leaves no node waiting. -/
structure Serves (sub : GamSubscription) (name : Bytes) (reports : List Notice) (poll after : Poll) : Prop where
  sent : ∃ more, after.sent = poll.sent ++ more ∧ childReports sub name more = reports
  announced : (∀ node ∈ poll.nodes, node.newNode = false) → ∀ node ∈ after.nodes, node.newNode = false

section

variable {sub other : GamSubscription} {name : Bytes} {before poll after : Poll} {first second reports : List Notice}

theorem Serves.trans (earlier : Serves sub name first before poll) (later : Serves sub name second poll after) :
    Serves sub name (first ++ second) before after where
  sent := by
    obtain ⟨more, sent, said⟩ := earlier.sent
    obtain ⟨last, sentLast, saidLast⟩ := later.sent
    exact ⟨more ++ last, by rw [sentLast, sent, List.append_assoc], by rw [childReports_append, said, saidLast]⟩
  announced := later.announced ∘ earlier.announced

/-- Silence adds nothing. -/
theorem Serves.then (earlier : Serves sub name reports before poll) (later : Serves sub name [] poll after) :
    Serves sub name reports before after := by
  have both := earlier.trans later
  rwa [List.append_nil] at both

theorem serves_of_nodes (nodes : after.nodes = poll.nodes) (sent : after.sent = poll.sent) :
    Serves sub name [] poll after where
  sent := ⟨[], by rw [sent, List.append_nil], rfl⟩
  announced announced := nodes ▸ announced

theorem serves_written {old node : GamNode} (found : gamTreeGetAtPath poll old.path = some old)
    (newNode : node.newNode = old.newNode) (nodes : after.nodes = (poll.setNode node).nodes)
    (sent : after.sent = poll.sent) : Serves sub name [] poll after where
  sent := ⟨[], by rw [sent, List.append_nil], rfl⟩
  announced announced written member := by
    rw [nodes] at member
    obtain ⟨earlier, memberEarlier, rfl⟩ := List.mem_map.mp member
    split
    · rw [newNode]
      exact announced old (gamTreeGetAtPath_mem found)
    · exact announced earlier memberEarlier

theorem serves_gamTreeAdd {child : GamNode} (old : child.newNode = false) :
    Serves sub name [] poll (gamTreeAdd poll child) where
  sent := ⟨[], by rw [gamTreeAdd_sent, List.append_nil], rfl⟩
  announced announced node member := by
    unfold gamTreeAdd at member
    split at member
    · exact announced node member
    · cases List.mem_append.mp member with
      | inl before => exact announced node before
      | inr added =>
        rw [List.mem_singleton.mp added]
        exact old

theorem serves_told (path : Bytes) (isDirNode : Bool) (event : GaminEventType) (other : GamSubscription)
    (force : Bool) :
    Serves sub name (childReports sub name (gamServerEmitOneEvent path isDirNode event other force)) poll
      (gamServerEmitEvent poll path isDirNode event [other] force) where
  sent := ⟨_, by rw [gamServerEmitEvent_one], rfl⟩
  announced announced := announced

theorem serves_polled {node : GamNode} (found : gamTreeGetAtPath poll node.path = some node) :
    Serves sub name [] poll (gamPollBasicPollFile poll node).1 := by
  obtain ⟨next, write, polledAs⟩ := gamPollBasicPollFile_writes poll node
  generalize (gamPollBasicPollFile poll node).1 = after at write ⊢
  cases write with
  | nothing => exact serves_of_nodes rfl rfl
  | written | appeared => exact serves_written found polledAs.newNode rfl rfl
  | vanished =>
    obtain ⟨nodes, sent⟩ :=
      gamPollGenericAddMissing_nodes (gamPollGenericRemoveBusy (poll.called.setNode next) node.path)
      node.path
    exact serves_written found polledAs.newNode nodes sent

theorem spelled_firstPolled (spelled : Spelled poll) (dpath : Bytes) :
    Spelled (firstPolled gamPollBasicPollFile poll dpath) := by
  unfold firstPolled
  cases found : gamTreeGetAtPath poll dpath with
  | none => exact spelled
  | some node =>
    have here : gamTreeGetAtPath poll node.path = some node := by rwa [gamTreeGetAtPath_path found]
    dsimp only
    split
    · exact basicRule_spelled.polled here rfl spelled
    · exact spelled

theorem serves_firstPolled (dpath : Bytes) : Serves sub name [] poll (firstPolled gamPollBasicPollFile poll dpath) := by
  unfold firstPolled
  cases found : gamTreeGetAtPath poll dpath with
  | none => exact serves_of_nodes rfl rfl
  | some node =>
    have here : gamTreeGetAtPath poll node.path = some node := by rwa [gamTreeGetAtPath_path found]
    dsimp only
    split
    · exact serves_polled here
    · exact serves_of_nodes rfl rfl

theorem serves_addParents (parent : Option Bytes) (paths : List Bytes) :
    Serves sub name [] poll (addParents poll parent paths).1 := by
  induction paths generalizing poll parent with
  | nil => exact serves_of_nodes rfl rfl
  | cons path paths inductionHypothesis =>
    have grown : Serves sub name [] poll (gamTreeAdd poll (gamNodeNew poll path true parent)) := serves_gamTreeAdd rfl
    exact grown.then (inductionHypothesis (some path))

theorem serves_gamTreeAddAtPath (path : Bytes) (isDir : Bool) :
    Serves sub name [] poll (gamTreeAddAtPath poll path isDir) := by
  have still : Serves sub name [] poll poll := serves_of_nodes rfl rfl
  unfold gamTreeAddAtPath
  split
  · exact still
  · split
    · exact still
    · have looked : Serves sub name [] poll
          (if (poll.view.stat path).exists then poll.called.called else poll.called) := by
        split
        · exact serves_of_nodes rfl rfl
        · exact serves_of_nodes rfl rfl
      exact (looked.then (serves_addParents none (pathParents path))).then (serves_gamTreeAdd rfl)

theorem serves_gamNodeAddSubscription {path : Bytes} (added : gamNodeAddSubscription poll path other = some after) :
    Serves sub name [] poll after := by
  unfold gamNodeAddSubscription at added
  split at added
  case h_1 => contradiction
  case h_2 node found =>
    split at added
    case isTrue => contradiction
    case isFalse =>
      cases added
      rw [← gamTreeGetAtPath_path found] at found
      refine serves_written found ?_ rfl rfl
      rfl

section

variable (listens : ListensTo sub) (entry : EntryName name)

include listens entry

/-- Nobody hears of the child in an event about the path that has been subscribed to. -/
theorem ListensTo.childReports_self (other : GamSubscription) (isDirNode : Bool) (event : GaminEventType)
    (force : Bool) :
    childReports sub name (gamServerEmitOneEvent other.path isDirNode event other force) = [] := by
  by_cases own : other = sub
  · rw [own]
    exact listens.childReports_own entry isDirNode event force
  · exact childReports_other own _ _ _ _

theorem ListensTo.serves_self (isDirNode : Bool) (event : GaminEventType) (force : Bool) :
    Serves sub name [] poll (gamServerEmitEvent poll other.path isDirNode event [other] force) := by
  have told := @serves_told sub name poll other.path isDirNode event other force
  rwa [listens.childReports_self entry] at told

/-- What a name of the first scan says about the child. -/
theorem ListensTo.childReports_first {dirEntry : Bytes} (entryFirst : EntryName dirEntry) :
    childReports sub name (gamServerEmitOneEvent dirEntry true .exists other true) =
      if other = sub ∧ dirEntry = name then [.present] else [] := by
  by_cases own : other = sub
  · subst own
    rw [listens.childReports_told (listens.ne_name entryFirst).symm (by decide)]
    have built : dirEntry ≠ childPath other name := by
      rintro rfl
      exact entryFirst.2 (listens.slash_mem_childPath entry)
    have longer : dirEntry ≠ other.path ++ slash :: name := by
      rintro rfl
      exact entryFirst.2 (List.mem_append_right _ List.mem_cons_self)
    simp only [built, longer, false_or, true_and]
    rfl
  · rw [childReports_other own, if_neg fun told => own told.1]

/-- What the names of a first scan say about the child. -/
def firstReports (sub : GamSubscription) (name : Bytes) (other : GamSubscription) (withExists : Bool)
    (names : List Bytes) : List Notice :=
  names.flatMap fun dirEntry => if withExists = true ∧ other = sub ∧ dirEntry = name then [.present] else []

theorem ListensTo.serves_firstScanNames {withExists : Bool} {dpath : Bytes} {names : List Bytes}
    (entries : ∀ dirEntry ∈ names, EntryName dirEntry) :
    Serves sub name (firstReports sub name other withExists names) poll
      (names.foldl (firstScanName other withExists dpath) poll) := by
  induction names generalizing poll with
  | nil => exact serves_of_nodes rfl rfl
  | cons dirEntry names inductionHypothesis =>
    obtain ⟨entryFirst, entriesRest⟩ := List.forall_mem_cons.mp entries
    rw [List.foldl_cons, firstReports, List.flatMap_cons]
    refine Serves.trans ?_ (inductionHypothesis entriesRest)
    unfold firstScanName
    extract_lets path isDir called node sbuf flags known
    have entered : Serves sub name [] poll known := by
      simp only [known]
      split
      · exact serves_of_nodes rfl rfl
      · have statted : Serves sub name [] poll called.called := serves_of_nodes rfl rfl
        exact statted.trans (serves_gamTreeAdd rfl)
    cases withExists with
    | false => simpa using entered
    | true =>
      have told := @serves_told sub name known dirEntry true .exists other true
      rw [listens.childReports_first entry entryFirst] at told
      simpa using entered.trans told

theorem ListensTo.serves_firstScanMissing :
    Serves sub name [] poll (firstScanMissing poll other other.path) := by
  unfold firstScanMissing
  extract_lets told
  have served : Serves sub name [] poll told := listens.serves_self entry true .deleted true
  split
  · exact served
  case h_2 node found =>
    have here : gamTreeGetAtPath told.called.called node.path = some node := by
      rw [gamTreeGetAtPath_path found]
      exact found
    have called : Serves sub name [] poll told.called.called := served.then (serves_of_nodes rfl rfl)
    simp only
    split
    · refine called.then (serves_written here ?_ rfl rfl)
      rfl
    · refine called.then (serves_written here ?_ (gamPollGenericAddMissing_nodes _ _).1
        (gamPollGenericAddMissing_nodes _ _).2)
      rfl

theorem ListensTo.serves_firstScanPresent (spelled : Spelled poll) (withExists : Bool) :
    Serves sub name (firstReports sub name other withExists
        (((firstPolled gamPollBasicPollFile poll other.path).view.listing other.path).getD [])) poll
      (firstScanPresent gamPollBasicPollFile poll other withExists other.path) := by
  have spelledFirst := spelled_firstPolled spelled other.path
  have servedFirst := @serves_firstPolled sub name poll other.path
  unfold firstScanPresent
  extract_lets first announced
  rw [show firstPolled gamPollBasicPollFile poll other.path = first from rfl] at spelledFirst servedFirst ⊢
  have servedAnnounced : Serves sub name [] poll announced := by
    simp only [announced]
    split
    · exact servedFirst.then (listens.serves_self entry _ _ _)
    · exact servedFirst
  have called : Serves sub name [] announced announced.called := serves_of_nodes rfl rfl
  have served := servedAnnounced.then called
  have view : announced.view = first.view := by
    simp only [announced]
    split <;> rfl
  rw [view]
  cases listing : first.view.listing other.path with
  | none => exact served
  | some names =>
    exact served.trans (listens.serves_firstScanNames entry (spelledFirst.listings 0 other.path names listing))

/-- What a first scan says about the child. -/
theorem ListensTo.serves_firstScanDir (spelled : Spelled poll) :
    Serves sub name (firstReports sub name other (other.options &&& gamOptNoexists = 0)
        (firstEntriesRead gamPollBasicPollFile poll other.path)) poll
      (gamPollGenericFirstScanDir gamPollBasicPollFile poll other other.path) := by
  have called : Serves sub name [] poll poll.called := serves_of_nodes rfl rfl
  unfold firstEntriesRead gamPollGenericFirstScanDir
  extract_lets withExists found calledPoll scanned
  have served : Serves sub name (firstReports sub name other withExists
      (if (poll.view.stat other.path).exists = true then
        ((firstPolled gamPollBasicPollFile poll.called other.path).view.listing other.path).getD []
      else [])) poll scanned := by
    simp only [scanned, found]
    split
    · exact called.trans (listens.serves_firstScanPresent entry (basicRule_spelled.called spelled) withExists)
    · exact called.trans (listens.serves_firstScanMissing entry)
  refine served.then ?_
  split
  · exact listens.serves_self entry _ _ _
  · exact serves_of_nodes rfl rfl

theorem ListensTo.serves_subscribedNode (spelled : Spelled poll) {node : GamNode}
    (found : gamTreeGetAtPath poll node.path = some node) (own : node.path = other.path) :
    Serves sub name (firstReports sub name other (other.options &&& gamOptNoexists = 0)
        (if node.isDir then firstEntriesRead gamPollBasicPollFile poll other.path else [])) poll
      (subscribedNode poll other node) := by
  unfold subscribedNode
  extract_lets looked missing listed
  have servedLooked : Serves sub name (firstReports sub name other (other.options &&& gamOptNoexists = 0)
      (if node.isDir then firstEntriesRead gamPollBasicPollFile poll other.path else [])) poll looked := by
    simp only [looked, own]
    split
    · exact listens.serves_firstScanDir entry spelled
    · refine (serves_polled found).trans ⟨⟨_, List.append_assoc _ _ _, ?_⟩, fun announced => announced⟩
      rw [childReports_append, listens.childReports_self entry, listens.childReports_self entry]
      rfl
  have servedListed : Serves sub name [] looked listed := by
    simp only [listed]
    split
    · obtain ⟨nodes, sent⟩ := gamPollGenericAddMissing_nodes looked node.path
      exact serves_of_nodes nodes sent
    · exact serves_of_nodes rfl rfl
  refine (servedLooked.then servedListed).then ?_
  unfold gamPollGenericAdd
  split
  · exact serves_of_nodes rfl rfl
  · exact serves_of_nodes rfl rfl

/-- What a registration says about the child. -/
theorem ListensTo.serves_add (spelled : Spelled poll) {now : Nat}
    (added : gamPollBasicAddSubscription poll now other = some after) :
    Serves sub name (firstReports sub name other (other.options &&& gamOptNoexists = 0) (firstNamesRead poll now other))
      poll after := by
  obtain ⟨tree, node, registered⟩ := gamPollBasicAddSubscription_registered added
  have clock : Serves sub name [] poll { poll with currentTime := now } := serves_of_nodes rfl rfl
  have prepared := (clock.then (serves_gamTreeAddAtPath other.path other.isDir)).then
    (serves_gamNodeAddSubscription registered.inTree)
  rw [registered.ends, registered.names]
  exact prepared.trans
    (listens.serves_subscribedNode entry (registered.spelled spelled) registered.found registered.own)

end

end

end Gamin.Polling
