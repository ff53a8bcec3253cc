import Gamin.Polling.ResourceLists

/-! # Assertions of the basic polling backend

`gam_poll_basic_remove_subscription` asserts that a node that is not a directory has no children.
But `is_dir` is written whenever the node is polled, and nodes are put below another one whatever
its `is_dir` is.  As long as neither goes wrong, no assertion fails.
-/

namespace Gamin.Polling

open Gamin Gamin.Server Gamin.Inotify Gamin.Library

/-! ## Operations with all their assertions -/

/-- `gam_tree_remove`, which asserts that there are no children, and `gam_node_free`, which asserts
that there are no subscriptions. -/
def gamTreeRemoveAsserting (poll : Poll) (path : Bytes) : Option Poll :=
  if gamTreeHasChildren poll path then none
  else if subsAt poll path ≠ [] then none
  else some (gamTreeRemove poll path)

theorem gamTreeRemoveAsserting_eq {poll : Poll} {path : Bytes} (bare : subsAt poll path = [])
    (childless : gamTreeHasChildren poll path = false) :
    gamTreeRemoveAsserting poll path = some (gamTreeRemove poll path) := by
  rw [gamTreeRemoveAsserting, childless, if_neg Bool.false_ne_true, if_neg (not_not.mpr bare)]

/-- `gam_poll_generic_prune_tree`. -/
def gamPollGenericPruneTreeAsserting (poll : Poll) (node : Option Bytes) : Option Poll :=
  match node with
  | none => some poll
  | some path =>
    match _lookup : gamTreeGetAtPath poll path with
    | none => some poll
    | some node =>
      if ¬ gamTreeHasChildren poll path ∧ node.subs = [] then
        match _removed : gamTreeRemoveAsserting (gamPollGenericUnregisterNode poll path) path with
        | none => none
        | some next => gamPollGenericPruneTreeAsserting next node.parent
      else some poll
termination_by poll.nodes.length
decreasing_by
  have same : gamTreeRemove (gamPollGenericUnregisterNode poll path) path = next := by
    unfold gamTreeRemoveAsserting at _removed
    split at _removed
    · contradiction
    · split at _removed
      · contradiction
      · exact Option.some.inj _removed
  rw [← same]
  have member := List.mem_of_find?_eq_some _lookup
  have here : node.path = path := by simpa using List.find?_some _lookup
  apply List.length_filter_lt_length_iff_exists.mpr
  exact ⟨node, member, by simp [here]⟩

/-- The removal of a child in `node_remove_directory_subscription`. -/
def removeChildAsserting (state : Poll × Bool) (child : Bytes) : Option (Poll × Bool) :=
  match state with
  | (poll, removeDir) =>
    if subsAt poll child = [] ∧ removeDir ∧ ¬ gamTreeHasChildren poll child then
      (gamTreeRemoveAsserting (gamPollGenericUnregisterNode poll child) child).map (·, removeDir)
    else some (poll, false)

/-- `node_remove_directory_subscription` after `gam_node_remove_subscription`. -/
def removeChildrenAsserting (poll : Poll) (node : GamNode) : Option (Poll × Bool) :=
  let bare : Bool := subsAt poll node.path = []
  ((gamTreeGetChildren poll node.path).foldlM removeChildAsserting (poll, bare)).map fun (poll, _) =>
    (poll, bare && ¬ parentHasDirSubscriptions poll node.parent)

/-- `gam_poll_basic_remove_subscription`. -/
def gamPollBasicRemoveSubscriptionAsserting (poll : Poll) (sub : GamSubscription) : Option Poll :=
  match gamTreeGetAtPath poll sub.path with
  | none => some poll
  | some node =>
    (gamNodeRemoveSubscription poll node sub).bind fun poll =>
      if ¬ node.isDir then
        if subsAt poll node.path = [] then
          let poll := gamPollGenericUnregisterNode poll node.path
          if gamTreeHasChildren poll node.path then none
          else if ¬ parentHasDirSubscriptions poll node.parent then
            (gamTreeRemoveAsserting poll node.path).bind
              (gamPollGenericPruneTreeAsserting · node.parent)
          else some poll
        else some poll
      else
        (removeChildrenAsserting poll node).bind fun
        | (poll, false) => some poll
        | (poll, true) =>
          let poll := gamPollGenericUnregisterNode poll node.path
          (if gamTreeHasChildren poll node.path then some poll
            else gamTreeRemoveAsserting poll node.path).bind
            (gamPollGenericPruneTreeAsserting · node.parent)

theorem gamPollGenericPruneTreeAsserting_eq (poll : Poll) (node : Option Bytes) :
    gamPollGenericPruneTreeAsserting poll node = some (gamPollGenericPruneTree poll node) := by
  fun_induction gamPollGenericPruneTree poll node with
  | case1 => rw [gamPollGenericPruneTreeAsserting]
  | case2 poll path absent =>
    rw [gamPollGenericPruneTreeAsserting]
    split
    · rfl
    case h_2 node found =>
      rw [absent] at found
      contradiction
  | case3 poll path node found bare inductionHypothesis =>
    rw [gamPollGenericPruneTreeAsserting]
    split
    case h_1 absent =>
      rw [found] at absent
      contradiction
    case h_2 other foundOther =>
      rw [found] at foundOther
      cases foundOther
      rw [if_pos bare]
      -- what is pruned has no subscriptions and no children, as the removal asserts
      have subs : subsAt (gamPollGenericUnregisterNode poll path) path = [] := by
        have same : subsAt (gamPollGenericUnregisterNode poll path) path = subsAt poll path := rfl
        rw [same, subsAt, found]
        exact bare.2
      have removed := gamTreeRemoveAsserting_eq subs (eq_false_of_ne_true bare.1)
      split
      case h_1 failed =>
        rw [removed] at failed
        contradiction
      case h_2 next done =>
        rw [removed] at done
        cases done
        exact inductionHypothesis
  | case4 poll path node found other =>
    rw [gamPollGenericPruneTreeAsserting]
    split
    · rfl
    case h_2 same foundSame =>
      rw [found] at foundSame
      cases foundSame
      rw [if_neg other]

theorem removeChildAsserting_eq (state : Poll × Bool) (child : Bytes) :
    removeChildAsserting state child = some (removeChild state child) := by
  obtain ⟨poll, removeDir⟩ := state
  simp only [removeChildAsserting, removeChild]
  split
  case isTrue removable =>
    have bare : subsAt (gamPollGenericUnregisterNode poll child) child = [] := removable.1
    rw [gamTreeRemoveAsserting_eq bare (eq_false_of_ne_true removable.2.2), Option.map_some]
  case isFalse => rfl

theorem foldlM_some {State Item : Type} {step : State → Item → Option State} {pure : State → Item → State}
    (same : ∀ state item, step state item = some (pure state item)) (state : State) (items : List Item) :
    items.foldlM step state = some (items.foldl pure state) := by
  induction items generalizing state with
  | nil => rfl
  | cons item items inductionHypothesis =>
    rw [List.foldlM_cons, same, List.foldl_cons]
    exact inductionHypothesis (pure state item)

theorem removeChildrenAsserting_eq (poll : Poll) (node : GamNode) :
    removeChildrenAsserting poll node = some (removeChildren poll node) := by
  rw [removeChildrenAsserting, foldlM_some removeChildAsserting_eq]
  rfl

/-- A directory is only removed if nobody has subscribed to it. -/
theorem removeChildren_bare {poll : Poll} {node : GamNode} (removeDir : (removeChildren poll node).2 = true) :
    subsAt (removeChildren poll node).1 node.path = [] := by
  have bare : subsAt poll node.path = [] := by
    by_contra subscribed
    simp [removeChildren, subscribed] at removeDir
  exact (removeChild_prunes poll (decide (subsAt poll node.path = []))
    (gamTreeGetChildren poll node.path)).bare bare

/-- Only two assertions can fail: those that the shorter definition has, too. -/
theorem gamPollBasicRemoveSubscriptionAsserting_eq (poll : Poll) (sub : GamSubscription) :
    gamPollBasicRemoveSubscriptionAsserting poll sub = gamPollBasicRemoveSubscription poll sub := by
  unfold gamPollBasicRemoveSubscriptionAsserting gamPollBasicRemoveSubscription
  cases gamTreeGetAtPath poll sub.path with
  | none => rfl
  | some node =>
    simp only
    refine congrArg (Option.bind _) (funext fun next => ?_)
    split
    · split
      case isTrue bare =>
        have stillBare : subsAt (gamPollGenericUnregisterNode next node.path) node.path = [] := bare
        split
        · rfl
        case isFalse childless =>
          split
          · rw [gamTreeRemoveAsserting_eq stillBare (eq_false_of_ne_true childless), Option.bind_some,
              gamPollGenericPruneTreeAsserting_eq]
          · rfl
      case isFalse => rfl
    · -- the directory goes only if all its children have gone
      have bare := @removeChildren_bare next node
      rw [removeChildrenAsserting_eq, Option.bind_some]
      generalize removeChildren next node = outcome at bare ⊢
      obtain ⟨last, removeDir⟩ := outcome
      cases removeDir with
      | false => rfl
      | true =>
        have stillBare : subsAt (gamPollGenericUnregisterNode last node.path) node.path = [] := bare rfl
        simp only
        split
        · exact gamPollGenericPruneTreeAsserting_eq _ _
        case isFalse childless =>
          rw [gamTreeRemoveAsserting_eq stillBare (eq_false_of_ne_true childless), Option.bind_some,
            gamPollGenericPruneTreeAsserting_eq]

/-! ## The shape of the tree -/

/-- A poll does not find that a node with children is no directory, nothing is put below a node that
is none, and the first scan does not find something else where it has missed a directory. -/
def treeGuard : WriteGuard where
  polls poll node :=
    tooSoon poll node || !gamTreeHasChildren poll node.path ||
      match poll.view.stat node.path with
      | .found sbuf => sbuf.isDir
      | _ => true
  adds poll parent :=
    match parent with
    | none => true
    | some path => ((gamTreeGetAtPath poll path).map (·.isDir)).getD false
  misses poll dpath := !gamTreeHasChildren poll dpath || !(poll.called.view.stat dpath).exists

/-- Parents are in the tree, and what is no directory has no children. -/
structure Shaped (poll : Poll) : Prop where
  distinct : poll.paths.Nodup
  parents : ∀ node ∈ poll.nodes, ∀ parent, node.parent = some parent → parent ∈ poll.paths
  bare : ∀ node ∈ poll.nodes, node.isDir = false → gamTreeHasChildren poll node.path = false

section

variable {poll : Poll}

theorem Shaped.elsewhere (shaped : Shaped poll) {after : Poll} (nodes : after.nodes = poll.nodes) :
    Shaped after := by
  have paths : after.paths = poll.paths := by rw [Poll.paths, nodes, Poll.paths]
  refine ⟨?_, ?_, ?_⟩
  · rw [paths]
    exact shaped.distinct
  · rw [paths, nodes]
    exact shaped.parents
  · simpa only [gamTreeHasChildren, nodes] using shaped.bare

theorem Shaped.gamPollGenericAddMissing (shaped : Shaped poll) (path : Bytes) :
    Shaped (gamPollGenericAddMissing poll path) := by
  unfold Polling.gamPollGenericAddMissing
  split
  · exact shaped
  · exact shaped.elsewhere rfl

/-- A node is written back where it was, as a directory if it has children. -/
theorem Shaped.setNode (shaped : Shaped poll) {old node : GamNode}
    (found : gamTreeGetAtPath poll old.path = some old) (path : node.path = old.path)
    (parent : node.parent = old.parent)
    (bare : node.isDir = false → gamTreeHasChildren poll old.path = false) : Shaped (poll.setNode node) := by
  refine ⟨?_, ?_, ?_⟩
  · rw [Poll.setNode_paths]
    exact shaped.distinct
  · intro other written above isParent
    rw [Poll.setNode_paths]
    obtain ⟨earlier, member, rfl⟩ := List.mem_map.mp written
    split at isParent
    · exact shaped.parents old (gamTreeGetAtPath_mem found) above (parent ▸ isParent)
    · exact shaped.parents earlier member above isParent
  · intro other written notDir
    have childless : gamTreeHasChildren poll other.path = false := by
      obtain ⟨earlier, member, rfl⟩ := List.mem_map.mp written
      split at notDir
      case isTrue same =>
        rw [if_pos same, path]
        exact bare notDir
      case isFalse different =>
        rw [if_neg different]
        exact shaped.bare earlier member notDir
    rw [hasChildren_false] at childless ⊢
    intro child writtenChild
    obtain ⟨earlier, member, rfl⟩ := List.mem_map.mp writtenChild
    split
    · rw [parent]
      exact childless old (gamTreeGetAtPath_mem found)
    · exact childless earlier member

/-- A new node comes below a directory. -/
theorem Shaped.gamTreeAdd (shaped : Shaped poll) {child : GamNode}
    (absent : gamTreeGetAtPath poll child.path = none)
    (parentThere : ∀ parent, child.parent = some parent → (gamTreeGetAtPath poll parent).isSome)
    (asked : treeGuard.adds poll child.parent = true) : Shaped (gamTreeAdd poll child) := by
  have new : child.path ∉ poll.paths := by
    rw [← gamTreeGetAtPath_isSome, absent]
    exact Bool.false_ne_true
  have paths : ({ poll with nodes := poll.nodes ++ [child] } : Poll).paths = poll.paths ++ [child.path] :=
    List.map_append
  rw [Polling.gamTreeAdd, absent, Option.isSome_none, if_neg Bool.false_ne_true]
  refine ⟨?_, ?_, ?_⟩
  · rw [paths]
    exact List.Nodup.append shaped.distinct (List.nodup_singleton _) (by simpa using new)
  · intro node member parent isParent
    rw [paths]
    refine List.mem_append_left _ ?_
    cases List.mem_append.mp member with
    | inl old => exact shaped.parents node old parent isParent
    | inr added =>
      rw [List.mem_singleton.mp added] at isParent
      exact gamTreeGetAtPath_isSome.mp (parentThere parent isParent)
  · intro node member notDir
    rw [hasChildren_false]
    intro other memberOther isParent
    cases List.mem_append.mp member with
    | inl old =>
      cases List.mem_append.mp memberOther with
      | inl oldChild => exact hasChildren_false.mp (shaped.bare node old notDir) other oldChild isParent
      | inr added =>
        -- the parent of the new node is found, and it is a directory
        rw [List.mem_singleton.mp added] at isParent
        simp only [treeGuard, isParent, gamTreeGetAtPath_of_mem shaped.distinct old, Option.map_some,
          Option.getD_some] at asked
        rw [notDir] at asked
        contradiction
    | inr here =>
      rw [List.mem_singleton.mp here] at isParent
      cases List.mem_append.mp memberOther with
      | inl oldChild => exact new (shaped.parents other oldChild _ isParent)
      | inr added =>
        rw [List.mem_singleton.mp added] at isParent
        exact new (gamTreeGetAtPath_isSome.mp (parentThere _ isParent))

theorem Shaped.removed (shaped : Shaped poll) {path : Bytes}
    (childless : gamTreeHasChildren poll path = false) :
    Shaped (gamTreeRemove (gamPollGenericUnregisterNode poll path) path) := by
  have paths : (gamTreeRemove (gamPollGenericUnregisterNode poll path) path).paths =
      poll.paths.filter (· ≠ path) := by
    simp only [Poll.paths, gamTreeRemove, List.filter_map]
    rfl
  have fewer : ∀ node ∈ (gamTreeRemove (gamPollGenericUnregisterNode poll path) path).nodes,
      node ∈ poll.nodes := fun node member => gamTreeRemove_fewer member
  refine ⟨?_, ?_, ?_⟩
  · rw [paths]
    exact shaped.distinct.filter _
  · intro node member parent isParent
    rw [paths]
    refine List.mem_filter.mpr ⟨shaped.parents node (fewer node member) parent isParent, ?_⟩
    have different : parent ≠ path := by
      rintro rfl
      exact hasChildren_false.mp childless node (fewer node member) isParent
    simpa using different
  · intro node member notDir
    rw [hasChildren_false]
    exact fun child memberChild =>
      hasChildren_false.mp (shaped.bare node (fewer node member) notDir) child (fewer child memberChild)

theorem shaped_firstScanMissing (shaped : Shaped poll) (sub : GamSubscription) {dpath : Bytes}
    (asked : treeGuard.misses poll dpath = true) : Shaped (firstScanMissing poll sub dpath) := by
  unfold firstScanMissing
  extract_lets sent
  split
  · exact shaped.elsewhere rfl
  case h_2 node found =>
    have path := gamTreeGetAtPath_path found
    have foundSent : gamTreeGetAtPath sent.called.called node.path = some node := by
      rw [path]
      exact found
    have shapedSent : Shaped sent.called.called := shaped.elsewhere rfl
    simp only
    split
    case isTrue present =>
      refine shapedSent.setNode foundSent rfl rfl fun _ => ?_
      have appeared : (poll.called.view.stat dpath).exists = true := present
      have childless : gamTreeHasChildren poll dpath = false := by
        simpa [treeGuard, appeared] using asked
      rw [path]
      exact childless
    case isFalse =>
      apply Shaped.gamPollGenericAddMissing
      exact shapedSent.setNode foundSent rfl rfl (shapedSent.bare node (gamTreeGetAtPath_mem foundSent))

theorem plainRule_shaped : PlainRule gamPollBasicPollFile treeGuard Shaped where
  hook := gamPollBasicPollFile_keeps
  elsewhere _ _ _ shaped := shaped.elsewhere rfl
  polled := by
    intro poll node found asked shaped
    cases late : tooSoon poll node with
    | true =>
      rw [gamPollBasicPollFile, if_pos late]
      exact shaped
    | false =>
      obtain ⟨next, write, polledAs⟩ := gamPollBasicPollFile_writes poll node
      have bare : next.isDir = false → gamTreeHasChildren poll node.path = false := by
        intro notDir
        cases polledAs.isDir with
        | inl same => exact shaped.bare node (gamTreeGetAtPath_mem found) (same ▸ notDir)
        | inr answered =>
          obtain ⟨sbuf, answer, same⟩ := answered
          simpa [treeGuard, late, answer, ← same, notDir] using asked
      have called : Shaped poll.called := shaped.elsewhere rfl
      have written : Shaped (poll.called.setNode next) :=
        called.setNode found polledAs.path polledAs.parent bare
      generalize (gamPollBasicPollFile poll node).1 = after at write ⊢
      cases write with
      | nothing => exact shaped
      | written => exact written
      | appeared => exact written.elsewhere rfl
      | vanished =>
        have unlisted : Shaped (gamPollGenericRemoveBusy (poll.called.setNode next) node.path) :=
          written.elsewhere rfl
        exact unlisted.gamPollGenericAddMissing node.path
  added absent _ parentThere asked shaped := shaped.gamTreeAdd absent parentThere asked
  cleared {poll node} found shaped :=
    shaped.setNode found rfl rfl (shaped.bare node (gamTreeGetAtPath_mem found))
  missed asked shaped := shaped_firstScanMissing shaped _ asked

theorem basicRule_shaped : BasicRule treeGuard Shaped where
  toFirstRule := plainRule_shaped.firstRule
  missing _ shaped := shaped.gamPollGenericAddMissing _
  listed _ shaped := by
    unfold gamPollGenericAdd
    split
    · exact shaped
    · exact shaped.elsewhere rfl
  found shaped := shaped.elsewhere rfl
  unregistered _ shaped := shaped.elsewhere rfl
  removed _ childless shaped := shaped.removed childless

end

/-! ## Operations -/

theorem Shaped.gamPollBasicAddSubscription {poll after : Poll} (shaped : Shaped poll) {now : Nat}
    {sub : GamSubscription} (safe : addSubscriptionSafe treeGuard poll now sub = true)
    (added : Polling.gamPollBasicAddSubscription poll now sub = some after) : Shaped after := by
  obtain ⟨tree, inTree, subscribed⟩ := Option.bind_eq_some_iff.mp added
  obtain ⟨node, found, rfl⟩ := Option.map_eq_some_iff.mp subscribed
  simp only [addSubscriptionSafe, inTree, found, Bool.and_eq_true] at safe
  have clock : Shaped { poll with currentTime := now } := shaped.elsewhere rfl
  have known := basicRule_shaped.gamTreeAddAtPath sub.isDir safe.1 clock
  have written : Shaped tree := by
    unfold gamNodeAddSubscription at inTree
    split at inTree
    case h_1 => contradiction
    case h_2 old foundOld =>
      split at inTree
      case isTrue => contradiction
      case isFalse =>
        cases inTree
        have here := gamTreeGetAtPath_of_mem known.distinct (gamTreeGetAtPath_mem foundOld)
        exact known.setNode here rfl rfl (known.bare old (gamTreeGetAtPath_mem foundOld))
  have own := gamTreeGetAtPath_path found
  rw [← own] at found
  exact basicRule_shaped.subscribedNode found own safe.2 written

theorem Shaped.gamPollBasicRemoveSubscription {poll after : Poll} (shaped : Shaped poll)
    {sub : GamSubscription} (removed : Polling.gamPollBasicRemoveSubscription poll sub = some after) :
    Shaped after := by
  refine basicRule_shaped.toRemovalRule.removeSubscription removed (fun _ => shaped) fun node next found lost => ?_
  unfold gamNodeRemoveSubscription at lost
  split at lost
  case isTrue =>
    cases lost
    rw [← gamTreeGetAtPath_path found] at found
    exact shaped.setNode found rfl rfl (shaped.bare node (gamTreeGetAtPath_mem found))
  case isFalse => contradiction

/-! ## Runs -/

/-- What is asked of the calls. -/
def ShapeGuard (state : BasicState) : BasicInput → Prop
  | .subscribe now sub =>
    sub ∉ state.subs → sub.path ≠ [] ∧ addSubscriptionSafe treeGuard state.poll now sub = true
  | .cancel _ => True
  | .tick now rounds => state.scheduled = true → scanCallbackSafe treeGuard state.poll now rounds = true

instance (state : BasicState) : (input : BasicInput) → Decidable (ShapeGuard state input)
  | .subscribe _ _ => inferInstanceAs (Decidable (_ → _))
  | .cancel _ => .isTrue trivial
  | .tick _ _ => inferInstanceAs (Decidable (_ → _))

/-- No assertion fails in a call. -/
def AssertionsHold (state : BasicState) : BasicInput → Prop
  | .subscribe now sub =>
    sub ∉ state.subs → (gamPollBasicAddSubscription state.poll now sub).isSome = true
  | .cancel sub =>
    sub ∈ state.subs → (gamPollBasicRemoveSubscriptionAsserting state.poll sub).isSome = true
  | .tick _ _ => True

instance (state : BasicState) : (input : BasicInput) → Decidable (AssertionsHold state input)
  | .subscribe _ _ => inferInstanceAs (Decidable (_ → _))
  | .cancel _ => inferInstanceAs (Decidable (_ → _))
  | .tick _ _ => .isTrue trivial

/-- A subscription that is there can be cancelled. -/
theorem Seated.cancels {state : BasicState} (seated : Seated state) (shaped : Shaped state.poll)
    {sub : GamSubscription} (member : sub ∈ state.subs) :
    ∃ after, gamPollBasicRemoveSubscription state.poll sub = some after := by
  obtain ⟨node, found, subscribed⟩ := seated.present sub member
  have only {other : GamNode} (foundOther : gamTreeGetAtPath state.poll sub.path = some other) :
      node = other := Option.some.inj (found.symm.trans foundOther)
  refine gamPollBasicRemoveSubscription_returns (fun other foundOther => only foundOther ▸ subscribed)
    fun other foundOther => ?_
  rw [← only foundOther]
  cases isDir : node.isDir with
  | true => exact .inl rfl
  | false =>
    refine .inr (.inr ?_)
    rw [← gamTreeGetAtPath_path found]
    exact shaped.bare node (gamTreeGetAtPath_mem found) isDir

theorem Seated.asserts {state : BasicState} (seated : Seated state) (shaped : Shaped state.poll)
    {input : BasicInput} (guard : ShapeGuard state input) : AssertionsHold state input := by
  cases input with
  | subscribe now sub =>
    intro new
    have unsubscribed : Unsubscribed state.poll sub :=
      fun node member subscribed => new (seated.known node member sub subscribed).1
    obtain ⟨after, added, _⟩ := gamPollBasicAddSubscription_subscribes now unsubscribed (guard new).1
    rw [added]
    rfl
  | cancel sub =>
    intro member
    obtain ⟨after, removed⟩ := seated.cancels shaped member
    rw [gamPollBasicRemoveSubscriptionAsserting_eq, removed]
    rfl
  | tick now rounds => trivial

theorem Shaped.step {state after : BasicState} (shaped : Shaped state.poll) {input : BasicInput}
    (guard : ShapeGuard state input) (stepped : state.step input = some after) : Shaped after.poll := by
  cases input with
  | subscribe now sub =>
    simp only [BasicState.step] at stepped
    split at stepped
    case isTrue =>
      cases stepped
      exact shaped
    case isFalse new =>
      obtain ⟨poll, added, rfl⟩ := Option.map_eq_some_iff.mp stepped
      exact shaped.gamPollBasicAddSubscription (guard new).2 added
  | cancel sub =>
    simp only [BasicState.step] at stepped
    split at stepped
    case isTrue =>
      obtain ⟨poll, removed, rfl⟩ := Option.map_eq_some_iff.mp stepped
      exact shaped.gamPollBasicRemoveSubscription removed
    case isFalse =>
      cases stepped
      exact shaped
  | tick now rounds =>
    simp only [BasicState.step] at stepped
    split at stepped
    case isTrue scheduled =>
      cases stepped
      exact basicRule_shaped.scanCallback (guard scheduled) shaped
    case isFalse =>
      cases stepped
      exact shaped

/-- In every run in which the tree keeps its shape no assertion fails. -/
theorem assertions_hold (views : Nat → FsView) (inputs : List BasicInput)
    (guarded : Guarded (partialStep BasicState.step) (GuardIfAny ShapeGuard) (some (.new views)) inputs) :
    Guarded (partialStep BasicState.step) (GuardIfAny AssertionsHold) (some (.new views)) inputs := by
  have start : Seated (.new views) ∧ Shaped (BasicState.new views).poll :=
    ⟨seated_new views, .nil, fun _ member => (nomatch member), fun _ member => (nomatch member)⟩
  refine @guarded_of_returns _ _ _ (fun state => Seated state ∧ Shaped state.poll) _ _ ?_ _ _ start guarded
  rintro state input ⟨seated, shaped⟩ guard
  exact ⟨seated.asserts shaped guard,
    fun after stepped => ⟨seated.step stepped, shaped.step guard stepped⟩⟩

/-- `/a` is a directory with one file in it. -/
def withDirectory : FsView where
  stat path :=
    if path = [47, 97] then .found { StatBuf.zero with isDir := true }
    else if path = [47, 97, 47, 120] then .found .zero
    else .noent
  listing path := if path = [47, 97] then some [[120]] else none
  excluded _ := false
  monType _ := .poll
  pollTimeout _ := 0

/-- `/a` is a file. -/
def withFile : FsView where
  stat path := if path = [47, 97] then .found .zero else .noent
  listing _ := none
  excluded _ := false
  monType _ := .poll
  pollTimeout _ := 0

/-- The directory is subscribed to, scanned once, and given up. -/
def directoryWatched : List BasicInput :=
  let sub := gamSubscriptionNew 1 [47, 97] requestedEvents 1 true 0
  [.subscribe 1 sub, .tick 2 4, .cancel sub]

theorem assertions_hold_directory :
    Guarded (partialStep BasicState.step) (GuardIfAny AssertionsHold)
      (some (.new fun _ => withDirectory)) directoryWatched :=
  assertions_hold _ _ (by decide +kernel)

/-- It becomes a file after the seven calls of the first scan. -/
theorem replaced_directory_asserts :
    ¬ Guarded (partialStep BasicState.step) (GuardIfAny AssertionsHold)
      (some (.new fun call => if call < 7 then withDirectory else withFile)) directoryWatched := by
  decide +kernel

end Gamin.Polling
