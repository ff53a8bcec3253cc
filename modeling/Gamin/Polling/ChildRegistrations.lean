import Gamin.Polling.ChildClients

/-! # What becomes of a child in a registration

A registration puts nodes for the parts of its path into the tree, polls the node at its path, and puts nodes
for the names that it reads below it.  Any of these may be the child of another directory.
-/

namespace Gamin.Polling

open Gamin Gamin.Server Gamin.Inotify Gamin.Library

section

variable {sub other : GamSubscription} {name : Bytes} {poll after : Poll}

theorem subscriptions_uncounted (node : GamNode) (subs : List GamSubscription) :
    countsPresent sub { node with subs := subs } = countsPresent sub node := rfl

theorem childKnown_setNode_elsewhere {node : GamNode} (elsewhere : node.path ≠ childPath sub name) :
    childKnown sub name (poll.setNode node) = childKnown sub name poll :=
  childKnown_congr (gamTreeGetAtPath_setNode_other poll (Ne.symm elsewhere))

theorem childKnown_gamNodeAddSubscription {path : Bytes} (added : gamNodeAddSubscription poll path other = some after) :
    childKnown sub name after = childKnown sub name poll := by
  unfold gamNodeAddSubscription at added
  split at added
  case h_1 => contradiction
  case h_2 node found =>
    split at added
    case isTrue => contradiction
    case isFalse =>
      cases added
      rw [← gamTreeGetAtPath_path found] at found
      by_cases isChild : node.path = childPath sub name
      · rw [isChild] at found
        have written : gamTreeGetAtPath (poll.setNode { node with subs := other :: node.subs }) (childPath sub name) =
            some { node with subs := other :: node.subs } := by
          rw [gamTreeGetAtPath_setNode, found, Option.map_some, if_pos rfl]
        rw [childKnown_found written, childKnown_found found, subscriptions_uncounted]
      · exact childKnown_setNode_elsewhere isChild

/-- The condition under which no node for the child is put below the directory on the way to another path. -/
def GrowsBeside (sub : GamSubscription) (name : Bytes) (poll : Poll) (path : Bytes) : Prop :=
  childPath sub name ∈ pathParents path → ¬ EndsInSlash sub.path →
    (gamTreeGetAtPath poll (childPath sub name)).isSome

theorem gamTreeAdd_keeps_isSome {child : GamNode} {path : Bytes} (there : (gamTreeGetAtPath poll path).isSome) :
    (gamTreeGetAtPath (gamTreeAdd poll child) path).isSome := by
  by_cases here : child.path = path
  · rw [← here]
    exact gamTreeAdd_isSome poll child
  · rwa [gamTreeAdd_other poll here]

theorem childKnown_addParents (entry : EntryName name) {parent : Option Bytes} {paths : List Bytes}
    (parts : Parts parent paths)
    (grows : childPath sub name ∈ paths → ¬ EndsInSlash sub.path →
      (gamTreeGetAtPath poll (childPath sub name)).isSome) :
    childKnown sub name (addParents poll parent paths).1 = childKnown sub name poll := by
  induction paths generalizing poll parent with
  | nil => rfl
  | cons path paths inductionHypothesis =>
    rw [addParents, inductionHypothesis parts.2 fun member plain =>
      gamTreeAdd_keeps_isSome (grows (List.mem_cons_of_mem _ member) plain)]
    refine childKnown_gamTreeAdd fun absent isChild => ?_
    have here : path = childPath sub name := isChild
    by_cases below : parent = some sub.path
    · obtain ⟨rest, separate, shape⟩ := parts.1 sub.path below
      by_cases ends : EndsInSlash sub.path
      · -- behind the directory there is no second separator
        have separated := (gBuildFilename_endsInSlash ends entry).1
        rw [show gBuildFilename sub.path name = sub.path ++ slash :: rest from here.symm.trans shape] at separated
        exact absurd (by simp) separated
      · have there := grows (here ▸ List.mem_cons_self) ends
        rw [← isChild, absent] at there
        contradiction
    · exact countsPresent_elsewhere below

theorem childKnown_gamTreeAddAtPath (entry : EntryName name) {path : Bytes} (elsewhere : path ≠ childPath sub name)
    (isDir : Bool) (grows : GrowsBeside sub name poll path) :
    childKnown sub name (gamTreeAddAtPath poll path isDir) = childKnown sub name poll := by
  unfold gamTreeAddAtPath
  split
  · rfl
  · split
    · rfl
    · extract_lets found called isDirNow looked
      have same : childKnown sub name looked = childKnown sub name poll := by
        apply childKnown_nodes
        simp only [looked]
        split <;> rfl
      have there : gamTreeGetAtPath looked (childPath sub name) = gamTreeGetAtPath poll (childPath sub name) := by
        simp only [looked]
        split <;> rfl
      have parents : childKnown sub name (addParents looked none (pathParents path)).1 = childKnown sub name looked :=
        childKnown_addParents entry ((parts_pathParents path).addParents looked).1
          fun member plain => there ▸ grows member plain
      rw [childKnown_gamTreeAdd fun _ isChild => absurd isChild elsewhere, parents, same]

/-- A name of a first scan gets a node below the directory, unless its path has one. -/
theorem firstScanName_nodes (poll : Poll) (other : GamSubscription) (withExists : Bool) (dpath dirEntry : Bytes) :
    ∃ child : GamNode, child.path = gBuildFilename dpath dirEntry ∧
      countsPresent sub child = decide (dpath = sub.path) ∧
      (firstScanName other withExists dpath poll dirEntry).nodes = (gamTreeAdd poll child).nodes := by
  unfold firstScanName
  extract_lets path isDir called node sbuf flags known
  refine ⟨{ node with
    sbuf := sbuf
    isDir := sbuf.isDir
    pflags := { flags with nokernel := called.view.excluded path ∨ called.view.monType path ≠ .kernel }
    lasttime := called.currentTime }, rfl, ?_, ?_⟩
  · simp [countsPresent, node, flags, gamNodeNew, MonFlags.none]
  · have announced : (if withExists = true then gamServerEmitEvent known dirEntry true .exists [other] true
        else known).nodes = known.nodes := by
      split <;> rfl
    rw [announced]
    simp only [known]
    cases found : gamTreeGetAtPath poll path with
    | some there =>
      rw [Option.isSome_some, if_pos rfl, gamTreeAdd, show gamTreeGetAtPath poll node.path = some there from found,
        Option.isSome_some, if_pos rfl]
    | none =>
      have foundCalled : gamTreeGetAtPath called.called node.path = none := found
      rw [Option.isSome_none, if_neg Bool.false_ne_true, gamTreeAdd, foundCalled, gamTreeAdd,
        show gamTreeGetAtPath poll node.path = none from found]
      rfl

theorem gamTreeAdd_none_iff {child : GamNode} {path : Bytes} :
    gamTreeGetAtPath (gamTreeAdd poll child) path = none ↔ gamTreeGetAtPath poll path = none ∧ child.path ≠ path := by
  by_cases here : child.path = path
  · have there := gamTreeAdd_isSome poll child
    rw [here] at there
    simp [here, Option.isSome_iff_ne_none.mp there]
  · rw [gamTreeAdd_other poll here]
    simp [here]

/-- The child is present after the names have been read if it was before, or if it is one of them and had no
node. -/
theorem childKnown_firstScanNames (listens : ListensTo sub) (entry : EntryName name) {withExists : Bool} {dpath : Bytes}
    {names : List Bytes} (entries : ∀ dirEntry ∈ names, EntryName dirEntry) :
    childKnown sub name (names.foldl (firstScanName other withExists dpath) poll) = true ↔
      childKnown sub name poll = true ∨
        gamTreeGetAtPath poll (childPath sub name) = none ∧ dpath = sub.path ∧ name ∈ names := by
  induction names generalizing poll with
  | nil => simp
  | cons dirEntry names inductionHypothesis =>
    obtain ⟨entryFirst, entriesRest⟩ := List.forall_mem_cons.mp entries
    obtain ⟨child, path, counts, nodes⟩ := @firstScanName_nodes sub poll other withExists dpath dirEntry
    have lookup : gamTreeGetAtPath (firstScanName other withExists dpath poll dirEntry) (childPath sub name) =
        gamTreeGetAtPath (gamTreeAdd poll child) (childPath sub name) := by
      rw [gamTreeGetAtPath, nodes, ← gamTreeGetAtPath]
    rw [List.foldl_cons, inductionHypothesis entriesRest, childKnown_nodes nodes, childKnown_gamTreeAdd_iff, lookup,
      gamTreeAdd_none_iff, path, counts, decide_eq_true_eq, List.mem_cons]
    by_cases own : dpath = sub.path
    · subst own
      have same : gBuildFilename sub.path dirEntry = childPath sub name ↔ name = dirEntry := by
        constructor
        · exact fun built => (gBuildFilename_inj listens.absolute entryFirst entry built).symm
        · rintro rfl
          rfl
      rw [Ne, same]
      tauto
    · simp only [own, false_and, and_false, or_false]

theorem firstPolled_elsewhere {dpath path : Bytes} (different : path ≠ dpath) :
    gamTreeGetAtPath (firstPolled gamPollBasicPollFile poll dpath) path = gamTreeGetAtPath poll path := by
  unfold firstPolled
  cases found : gamTreeGetAtPath poll dpath with
  | none => rfl
  | some node =>
    have here := gamTreeGetAtPath_path found
    subst here
    dsimp only
    split
    · obtain ⟨next, polled⟩ := gamPollBasicPollFile_polled found
      exact polled.elsewhere different
    · rfl

theorem gamPollGenericAdd_nodes (poll : Poll) (path : Bytes) : (gamPollGenericAdd poll path).nodes = poll.nodes := by
  unfold gamPollGenericAdd
  split <;> rfl

/-- Behind the first look at the path, a registration changes only the lists. -/
theorem subscribedNode_nodes (poll : Poll) (other : GamSubscription) (node : GamNode) :
    (subscribedNode poll other node).nodes =
      (if node.isDir then gamPollGenericFirstScanDir gamPollBasicPollFile poll other node.path
        else (gamPollBasicPollFile poll node).1).nodes := by
  unfold subscribedNode
  extract_lets looked missing listed
  have same : listed.nodes = looked.nodes := by
    simp only [listed]
    split
    · exact (gamPollGenericAddMissing_nodes _ _).1
    · rfl
  rw [gamPollGenericAdd_nodes, same]
  simp only [looked]
  split
  · rfl
  · rfl

theorem firstScanPresent_eq (poll : Poll) (other : GamSubscription) (withExists : Bool) (dpath : Bytes) :
    ∃ start, start.nodes = (firstPolled gamPollBasicPollFile poll dpath).nodes ∧
      firstScanPresent gamPollBasicPollFile poll other withExists dpath =
        (((firstPolled gamPollBasicPollFile poll dpath).view.listing dpath).getD []).foldl
          (firstScanName other withExists dpath) start := by
  unfold firstScanPresent
  extract_lets first announced
  have same : announced.nodes = first.nodes := by
    simp only [announced]
    split <;> rfl
  have view : announced.view = first.view := by
    simp only [announced]
    split <;> rfl
  rw [view]
  refine ⟨announced.called, same, ?_⟩
  rw [show firstPolled gamPollBasicPollFile poll dpath = first from rfl]
  cases listing : first.view.listing dpath with
  | none => rfl
  | some names => rfl

/-- The names that a first scan reads do not matter, unless it is one of the directory. -/
theorem ListensTo.childKnown_firstScanPresent (listens : ListensTo sub) (entry : EntryName name)
    (spelled : Spelled poll) (withExists : Bool) (dpath : Bytes) :
    childKnown sub name (firstScanPresent gamPollBasicPollFile poll other withExists dpath) = true ↔
      childKnown sub name (firstPolled gamPollBasicPollFile poll dpath) = true ∨
        gamTreeGetAtPath (firstPolled gamPollBasicPollFile poll dpath) (childPath sub name) = none ∧ dpath = sub.path ∧
          name ∈ ((firstPolled gamPollBasicPollFile poll dpath).view.listing dpath).getD [] := by
  obtain ⟨start, nodesStart, read⟩ := firstScanPresent_eq poll other withExists dpath
  have spelledFirst := spelled_firstPolled spelled dpath
  have entries : ∀ dirEntry ∈ ((firstPolled gamPollBasicPollFile poll dpath).view.listing dpath).getD [],
      EntryName dirEntry := by
    intro dirEntry member
    cases listing : (firstPolled gamPollBasicPollFile poll dpath).view.listing dpath with
    | none => simp [listing] at member
    | some names =>
      rw [listing] at member
      exact spelledFirst.listings 0 dpath names listing dirEntry member
  rw [read, childKnown_firstScanNames listens entry entries, childKnown_nodes nodesStart, gamTreeGetAtPath, nodesStart,
    ← gamTreeGetAtPath]

theorem childKnown_firstScanDir (poll : Poll) (other : GamSubscription) (dpath : Bytes) :
    childKnown sub name (gamPollGenericFirstScanDir gamPollBasicPollFile poll other dpath) =
      if (poll.view.stat dpath).exists then
        childKnown sub name
          (firstScanPresent gamPollBasicPollFile poll.called other (other.options &&& gamOptNoexists = 0) dpath)
      else childKnown sub name (firstScanMissing poll.called other dpath) := by
  unfold gamPollGenericFirstScanDir
  extract_lets withExists found called scanned
  have nodes : (if withExists = true then gamServerEmitEvent scanned dpath true .endexists [other] true
      else scanned).nodes = scanned.nodes := by
    split <;> rfl
  rw [childKnown_nodes nodes]
  simp only [scanned, found]
  split <;> rfl

/-- A registration for another path than that of the child. -/
theorem ListensTo.childKnown_subscribedNode (listens : ListensTo sub) (entry : EntryName name) (spelled : Spelled poll)
    {node : GamNode} (found : gamTreeGetAtPath poll node.path = some node) (own : node.path = other.path)
    (elsewhere : other.path ≠ childPath sub name) :
    childKnown sub name (subscribedNode poll other node) = true ↔ childKnown sub name poll = true ∨
      gamTreeGetAtPath poll (childPath sub name) = none ∧ other.path = sub.path ∧
        name ∈ (if node.isDir then firstEntriesRead gamPollBasicPollFile poll other.path else []) := by
  have different : childPath sub name ≠ other.path := elsewhere.symm
  rw [childKnown_nodes (subscribedNode_nodes poll other node)]
  cases directory : node.isDir with
  | false =>
    obtain ⟨next, polled⟩ := gamPollBasicPollFile_polled found
    have same : childKnown sub name (gamPollBasicPollFile poll node).1 = childKnown sub name poll :=
      childKnown_congr (polled.elsewhere (own ▸ different))
    simp [same]
  | true =>
    simp only [if_true, own, childKnown_firstScanDir, firstEntriesRead]
    by_cases present : (poll.view.stat other.path).exists = true
    · have lookup : gamTreeGetAtPath (firstPolled gamPollBasicPollFile poll.called other.path) (childPath sub name) =
          gamTreeGetAtPath poll (childPath sub name) := firstPolled_elsewhere different
      rw [if_pos present, if_pos present, listens.childKnown_firstScanPresent entry (basicRule_spelled.called spelled),
        childKnown_congr lookup, lookup]
    · have same : childKnown sub name (firstScanMissing poll.called other other.path) = childKnown sub name poll :=
        childKnown_congr (firstScanMissing_elsewhere other different)
      rw [if_neg present, if_neg present, same]
      simp

/-- On the way to a directory there is no child of it. -/
theorem childPath_not_above (entry : EntryName name) : childPath sub name ∉ pathParents sub.path := by
  intro above
  obtain ⟨i, chosen, cut⟩ := List.mem_map.mp above
  have inside : i < sub.path.length := List.mem_range.mp (List.mem_filter.mp chosen).1
  obtain ⟨rest, whole⟩ : ∃ rest, sub.path = childPath sub name ++ rest :=
    ⟨sub.path.drop i, by rw [← cut, List.take_append_drop]⟩
  have shorter : (childPath sub name).length < sub.path.length := by
    rw [← cut, List.length_take]
    omega
  have tail := List.rdropWhile_append_rtakeWhile (p := fun byte => decide (byte = slash)) (l := sub.path)
  unfold childPath gBuildFilename at whole shorter
  rw [if_neg entry.1] at whole shorter
  dsimp only at whole shorter
  split at whole
  case isTrue bare =>
    rw [if_pos bare, List.length_append] at shorter
    omega
  case isFalse =>
    -- behind the core of the directory there are only separators
    rw [List.append_assoc, List.cons_append] at whole
    have separators := List.append_cancel_left (tail.trans whole)
    obtain ⟨first, nameRest, rfl⟩ := List.exists_cons_of_ne_nil entry.1
    have member : first ∈ sub.path.rtakeWhile fun byte => decide (byte = slash) := by
      rw [separators]
      simp
    have isSlash := of_decide_eq_true (List.mem_rtakeWhile_imp (p := fun byte => decide (byte = slash)) member)
    exact entry.2 (isSlash ▸ List.mem_cons_self)

theorem gamTreeAddAtPath_elsewhere {path above : Bytes} (different : path ≠ above) (notAbove : above ∉ pathParents path)
    (isDir : Bool) : gamTreeGetAtPath (gamTreeAddAtPath poll path isDir) above = gamTreeGetAtPath poll above := by
  unfold gamTreeAddAtPath
  split
  · rfl
  · split
    · rfl
    · extract_lets found called isDirNow looked
      have same : gamTreeGetAtPath looked above = gamTreeGetAtPath poll above := by
        simp only [looked]
        split <;> rfl
      rw [← same, ← addParents_other (pathParents path) notAbove looked none]
      exact gamTreeAdd_other _ different

theorem gamNodeAddSubscription_isSome {path place : Bytes}
    (added : gamNodeAddSubscription poll path other = some after) :
    (gamTreeGetAtPath after place).isSome = (gamTreeGetAtPath poll place).isSome := by
  unfold gamNodeAddSubscription at added
  split at added
  case h_1 => contradiction
  case h_2 node found =>
    split at added
    case isTrue => contradiction
    case isFalse =>
      cases added
      rw [Bool.eq_iff_iff, gamTreeGetAtPath_isSome, gamTreeGetAtPath_isSome, Poll.setNode_paths]

/-- A registration for another path puts the child into the tree if it reads its name in the directory. -/
theorem ListensTo.childKnown_elsewhere (listens : ListensTo sub) (entry : EntryName name) (spelled : Spelled poll)
    {now : Nat} (added : gamPollBasicAddSubscription poll now other = some after)
    (elsewhere : other.path ≠ childPath sub name) (grows : GrowsBeside sub name poll other.path) :
    childKnown sub name after = true ↔ childKnown sub name poll = true ∨
      gamTreeGetAtPath poll (childPath sub name) = none ∧ other.path = sub.path ∧
        name ∈ firstNamesRead poll now other := by
  obtain ⟨tree, node, registered⟩ := gamPollBasicAddSubscription_registered added
  have growsClock : GrowsBeside sub name { poll with currentTime := now } other.path := grows
  have before : childKnown sub name tree = childKnown sub name poll := by
    rw [childKnown_gamNodeAddSubscription registered.inTree,
      childKnown_gamTreeAddAtPath entry elsewhere other.isDir growsClock]
    exact childKnown_nodes rfl
  have absent : other.path = sub.path →
      (gamTreeGetAtPath tree (childPath sub name) = none ↔ gamTreeGetAtPath poll (childPath sub name) = none) := by
    intro same
    have notAbove : childPath sub name ∉ pathParents other.path := same ▸ childPath_not_above entry
    have kept : (gamTreeGetAtPath tree (childPath sub name)).isSome =
        (gamTreeGetAtPath poll (childPath sub name)).isSome :=
      (gamNodeAddSubscription_isSome registered.inTree).trans
        (congrArg Option.isSome (gamTreeAddAtPath_elsewhere elsewhere notAbove other.isDir))
    rw [← Option.not_isSome_iff_eq_none, kept, Option.not_isSome_iff_eq_none]
  rw [registered.ends, registered.names, listens.childKnown_subscribedNode entry (registered.spelled spelled)
    registered.found registered.own elsewhere, before]
  constructor
  · rintro (known | ⟨unknown, same, read⟩)
    · exact .inl known
    · exact .inr ⟨(absent same).mp unknown, same, read⟩
  · rintro (known | ⟨unknown, same, read⟩)
    · exact .inl known
    · exact .inr ⟨(absent same).mpr unknown, same, read⟩

end

/-! ## A registration for the child -/

/-- What is asked of a registration for the path of the child: it finds the child as the subscription below has
been told. -/
def findsGuard (sub : GamSubscription) (told : Bool) : WriteGuard where
  polls poll node := node.parent = some sub.path → missingAfter poll node = !told
  adds _ _ := true
  misses poll dpath := parentAt poll dpath = some (some sub.path) → (poll.called.view.stat dpath).exists = told

section

variable {sub other : GamSubscription} {name : Bytes} {poll after : Poll} {told : Bool} {node : GamNode}

/-- A node of the child before it is looked at: one that is new, or one that the subscription knows. -/
structure FoundAs (sub : GamSubscription) (told : Bool) (node : GamNode) : Prop where
  announced : node.newNode = false
  outside : node.parent ≠ some sub.path → told = false
  polled : node.lasttime ≠ 0 → countsPresent sub node = told

theorem FoundAs.childKnown_polled (foundAs : FoundAs sub told node)
    (found : gamTreeGetAtPath poll node.path = some node)
    (isChild : node.path = childPath sub name) (asked : (findsGuard sub told).polls poll node = true) :
    childKnown sub name (gamPollBasicPollFile poll node).1 = told := by
  obtain ⟨next, polled⟩ := gamPollBasicPollFile_polled found
  have asked := of_decide_eq_true asked
  rw [childKnown_found (isChild ▸ polled.here)]
  by_cases below : node.parent = some sub.path
  · rw [countsPresent_announced (polled.rewrites.parent.trans below) (polled.newNode.trans foundAs.announced),
      polled.missing, asked below, Bool.not_not]
  · rw [countsPresent_elsewhere (polled.rewrites.parent ▸ below), foundAs.outside below]

theorem FoundAs.childKnown_firstPolled (foundAs : FoundAs sub told node)
    (found : gamTreeGetAtPath poll (childPath sub name) = some node)
    (asked : node.lasttime = 0 → (findsGuard sub told).polls poll node = true) :
    childKnown sub name (firstPolled gamPollBasicPollFile poll (childPath sub name)) = told := by
  have isChild := gamTreeGetAtPath_path found
  unfold firstPolled
  simp only [found]
  split
  case isTrue first => exact foundAs.childKnown_polled (isChild ▸ found) isChild (asked first)
  case isFalse later => rw [childKnown_found found, foundAs.polled later]

theorem FoundAs.childKnown_firstScanMissing (foundAs : FoundAs sub told node)
    (found : gamTreeGetAtPath poll (childPath sub name) = some node)
    (asked : (findsGuard sub told).misses poll (childPath sub name) = true) :
    childKnown sub name (firstScanMissing poll other (childPath sub name)) = told := by
  have isChild := gamTreeGetAtPath_path found
  have asked : node.parent = some sub.path → (poll.called.view.stat (childPath sub name)).exists = told := by
    intro below
    exact of_decide_eq_true asked (by rw [parentAt, found, Option.map_some, below])
  -- whichever way the node is marked, the mark is what the subscription has been told
  have written {next : GamNode} (path : next.path = node.path) (parent : next.parent = node.parent)
      (new : next.newNode = node.newNode)
      (marked : node.parent = some sub.path → (!next.pflags.missing) = told) {start : Poll}
      (nodes : start.nodes = poll.nodes) : childKnown sub name (start.setNode next) = told := by
    have here : gamTreeGetAtPath (start.setNode next) (childPath sub name) = some next := by
      rw [gamTreeGetAtPath_setNode, gamTreeGetAtPath, nodes, ← gamTreeGetAtPath, found, Option.map_some,
        if_pos path.symm]
    rw [childKnown_found here]
    by_cases below : node.parent = some sub.path
    · rw [countsPresent_announced (parent.trans below) (new.trans foundAs.announced), marked below]
    · rw [countsPresent_elsewhere (parent ▸ below), foundAs.outside below]
  unfold firstScanMissing
  extract_lets emitted
  have foundEmitted : gamTreeGetAtPath emitted (childPath sub name) = some node := found
  simp only [foundEmitted]
  split
  case isTrue present =>
    refine written ?_ ?_ ?_ (fun below => ?_) ?_
    · rfl
    · rfl
    · rfl
    · exact present.symm.trans (asked below)
    · rfl
  case isFalse absent =>
    refine (childKnown_nodes (gamPollGenericAddMissing_nodes _ _).1).trans (written ?_ ?_ ?_ (fun below => ?_) ?_)
    · rfl
    · rfl
    · rfl
    · exact (eq_false_of_ne_true absent).symm.trans (asked below)
    · rfl

theorem ListensTo.childKnown_foundNode (listens : ListensTo sub) (entry : EntryName name) (spelled : Spelled poll)
    (foundAs : FoundAs sub told node) (found : gamTreeGetAtPath poll node.path = some node)
    (own : node.path = other.path) (isChild : other.path = childPath sub name)
    (safe : subscribedNodeSafe (findsGuard sub told) poll other node = true) :
    childKnown sub name (subscribedNode poll other node) = told := by
  rw [childKnown_nodes (subscribedNode_nodes poll other node)]
  unfold subscribedNodeSafe at safe
  cases directory : node.isDir with
  | false =>
    simp only [directory] at safe
    exact foundAs.childKnown_polled found (own.trans isChild) safe
  | true =>
    rw [own, isChild] at found
    simp only [directory, if_true, own, isChild] at safe ⊢
    unfold firstScanDirSafe at safe
    have foundCalled : gamTreeGetAtPath poll.called (childPath sub name) = some node := found
    rw [childKnown_firstScanDir]
    by_cases present : (poll.view.stat (childPath sub name)).exists = true
    · rw [if_pos present] at safe ⊢
      unfold firstScanPresentSafe at safe
      simp only [foundCalled, Bool.and_eq_true] at safe
      have first : childKnown sub name (firstPolled gamPollBasicPollFile poll.called (childPath sub name)) = told :=
        foundAs.childKnown_firstPolled foundCalled fun unpolled => by
          have asked := safe.1
          rwa [if_pos unpolled] at asked
      rw [Bool.eq_iff_iff, listens.childKnown_firstScanPresent entry (basicRule_spelled.called spelled), first]
      simp [listens.childPath_ne entry]
    · rw [if_neg present] at safe ⊢
      exact foundAs.childKnown_firstScanMissing foundCalled safe

/-- A registration for the path of the child that finds it as the subscription has been told. -/
theorem ListensTo.childKnown_here (listens : ListensTo sub) (entry : EntryName name) (spelled : Spelled poll)
    (announced : ∀ node ∈ poll.nodes, node.newNode = false) {now : Nat}
    (added : gamPollBasicAddSubscription poll now other = some after) (isChild : other.path = childPath sub name)
    (safe : addSubscriptionSafe (findsGuard sub (childKnown sub name poll)) poll now other = true) :
    childKnown sub name after = childKnown sub name poll := by
  obtain ⟨tree, node, registered⟩ := gamPollBasicAddSubscription_registered added
  have found := registered.found
  rw [registered.own] at found
  obtain ⟨-, safe⟩ := Bool.and_eq_true_iff.mp safe
  simp only [registered.inTree, found] at safe
  rw [registered.ends]
  refine listens.childKnown_foundNode entry (registered.spelled spelled) ?_ registered.found registered.own isChild safe
  -- the node is there already, or the registration makes it
  cases known : gamTreeGetAtPath poll other.path with
  | some old =>
    have knownClock : gamTreeGetAtPath { poll with currentTime := now } other.path = some old := known
    have still :
        gamTreeGetAtPath (gamTreeAddAtPath { poll with currentTime := now } other.path other.isDir) other.path =
        some old := by
      rw [gamTreeAddAtPath_known knownClock]
      exact known
    rw [gamNodeAddSubscription_at still registered.inTree, Option.some.injEq] at found
    subst found
    have counts : childKnown sub name poll = countsPresent sub old := childKnown_found (isChild ▸ known)
    refine ⟨announced old (gamTreeGetAtPath_mem known), fun outside => ?_, fun _ => counts.symm⟩
    have elsewhere : old.parent ≠ some sub.path := outside
    rw [counts, countsPresent_elsewhere elsewhere]
  | none =>
    have nonempty : other.path ≠ [] := by
      intro empty
      have inside := listens.slash_mem_childPath entry
      rw [← isChild, empty] at inside
      exact List.not_mem_nil inside
    have absent : gamTreeGetAtPath { poll with currentTime := now } other.path = none := known
    obtain ⟨looked, isDirNow, parent, fresh⟩ := gamTreeAddAtPath_fresh nonempty absent other.isDir
    rw [gamNodeAddSubscription_at fresh registered.inTree, Option.some.injEq] at found
    subst found
    refine ⟨rfl, fun _ => ?_, fun polled => absurd rfl polled⟩
    rw [childKnown, ← isChild, known, Option.any_none]

end

/-! ## What is asked of a registration -/

/-- Of a registration beside the subscription: it puts no node for the child below the directory, neither on the way
to its own path nor for a name that it reads there; and if it is one for the child, it finds the child as the
subscription has been told. -/
structure RegistersBeside (sub : GamSubscription) (name : Bytes) (poll : Poll) (now : Nat) (other : GamSubscription) :
    Prop where
  grows : GrowsBeside sub name poll other.path
  reads : other.path = sub.path → name ∈ firstNamesRead poll now other →
    (gamTreeGetAtPath poll (childPath sub name)).isSome
  finds : other.path = childPath sub name →
    addSubscriptionSafe (findsGuard sub (childKnown sub name poll)) poll now other = true

/-- Of the registration of the subscription itself: it reads the name of the child once at most, and it reads it
just if the child is present, or has no node yet. -/
structure RegistersIn (sub : GamSubscription) (name : Bytes) (poll : Poll) (now : Nat) : Prop where
  once : (firstNamesRead poll now sub).count name ≤ 1
  listed : name ∈ firstNamesRead poll now sub → (gamTreeGetAtPath poll (childPath sub name)).isSome →
    childKnown sub name poll = true
  unlisted : childKnown sub name poll = true → name ∈ firstNamesRead poll now sub

section

variable {sub other : GamSubscription} {name : Bytes} {prior : List Emission} {property : Poll → Prop}
  {poll after : Poll} {now : Nat}

theorem firstReports_other (different : other ≠ sub) (withExists : Bool) (names : List Bytes) :
    firstReports sub name other withExists names = [] := by
  rw [firstReports, List.flatMap_eq_nil_iff]
  intro dirEntry _
  rw [if_neg fun told => different told.2.1]

theorem firstReports_own (names : List Bytes) :
    firstReports sub name sub true names = List.replicate (names.count name) .present := by
  induction names with
  | nil => rfl
  | cons first names inductionHypothesis =>
    rw [firstReports, List.flatMap_cons, ← firstReports, inductionHypothesis]
    by_cases here : first = name
    · subst here
      simp [List.replicate_succ]
    · simp [here]

/-- A subscription that a registration leaves at a node has been there, unless it is the new one. -/
theorem subscribedBefore (rooted : Rooted poll) (added : gamPollBasicAddSubscription poll now other = some after)
    (different : other ≠ sub) (subscribed : sub ∈ subsAt after sub.path) : sub ∈ subsAt poll sub.path := by
  obtain ⟨node, found, listed⟩ := mem_subsAt.mp subscribed
  rcases gamPollBasicAddSubscription_with added node (gamTreeGetAtPath_mem found) sub listed with
    ⟨old, member, path, listedOld⟩ | ⟨own, -⟩
  · refine mem_subsAt.mpr ⟨old, ?_, listedOld⟩
    rw [← gamTreeGetAtPath_path found, ← path]
    exact gamTreeGetAtPath_of_mem rooted.distinct member
  · exact absurd own.symm different

section

variable (listens : ListensTo sub) (entry : EntryName name)

include listens entry

theorem Telling.subscribe {before : Poll → Prop} (telling : Telling before noneWaits poll)
    (added : gamPollBasicAddSubscription poll now other = some after) (holds : property after) :
    Telling property noneWaits after where
  holds := holds
  rooted := basicRule_rooted.addSubscription subsRule_rooted added telling.rooted
  spelled := basicRule_spelled.addSubscription subsRule_spelled added telling.spelled
  waiting node member new := absurd new (ne_true_of_eq_false
    ((listens.serves_add entry telling.spelled added).announced (fun _ => telling.announced_of_none) node member))

theorem RegistersBeside.childKnown (beside : RegistersBeside sub name poll now other) (spelled : Spelled poll)
    (announced : ∀ node ∈ poll.nodes, node.newNode = false)
    (added : gamPollBasicAddSubscription poll now other = some after) :
    childKnown sub name after = Polling.childKnown sub name poll := by
  by_cases isChild : other.path = childPath sub name
  · exact listens.childKnown_here entry spelled announced added isChild (beside.finds isChild)
  · rw [Bool.eq_iff_iff, listens.childKnown_elsewhere entry spelled added isChild beside.grows, or_iff_left]
    rintro ⟨absent, own, read⟩
    have there := beside.reads own read
    rw [absent] at there
    contradiction

theorem InStep.subscribe (inStep : InStep sub name prior poll) (rooted : Rooted poll) (spelled : Spelled poll)
    (announced : ∀ node ∈ poll.nodes, node.newNode = false)
    (added : gamPollBasicAddSubscription poll now other = some after) (different : other ≠ sub)
    (beside : sub ∈ subsAt poll sub.path → RegistersBeside sub name poll now other) : InStep sub name prior after := by
  obtain ⟨more, sent, said⟩ := (listens.serves_add entry spelled added).sent
  rw [firstReports_other different] at said
  have before := subscribedBefore rooted added different
  exact inStep.quiet sent said before fun subscribed =>
    (beside (before subscribed)).childKnown listens entry spelled announced added

/-- The reports begin with the registration. -/
theorem RegistersIn.inStep (registers : RegistersIn sub name poll now) (wanted : sub.options &&& gamOptNoexists = 0)
    (spelled : Spelled poll) (added : gamPollBasicAddSubscription poll now sub = some after) :
    InStep sub name poll.sent after := by
  obtain ⟨more, sent, said⟩ := (listens.serves_add entry spelled added).sent
  rw [decide_eq_true wanted, firstReports_own] at said
  have notAbove : GrowsBeside sub name poll sub.path := fun above => absurd above (childPath_not_above entry)
  have known := listens.childKnown_elsewhere entry spelled added (listens.childPath_ne entry).symm notAbove
  have reads : Polling.childKnown sub name after = decide (name ∈ firstNamesRead poll now sub) := by
    rw [Bool.eq_iff_iff, known, decide_eq_true_iff]
    constructor
    · rintro (present | ⟨-, -, read⟩)
      · exact registers.unlisted present
      · exact read
    · intro read
      cases absent : gamTreeGetAtPath poll (childPath sub name) with
      | none => exact .inr ⟨rfl, rfl, read⟩
      | some node => exact .inl (registers.listed read (by rw [absent, Option.isSome_some]))
  refine ⟨more, sent, ?_⟩
  rw [said, reads]
  by_cases read : name ∈ firstNamesRead poll now sub
  · have once : (firstNamesRead poll now sub).count name = 1 :=
      Nat.le_antisymm registers.once (List.count_pos_iff.mpr read)
    rw [once, decide_eq_true read]
    exact ⟨⟨rfl, trivial⟩, fun _ => rfl⟩
  · rw [List.count_eq_zero.mpr read, decide_eq_false read]
    exact ⟨trivial, fun _ => rfl⟩

end

end

end Gamin.Polling
