import Gamin.Polling.Cancelling

/-! # Nodes that nobody needs

A node is needed by its own subscriptions, as the parent of another one, or as an entry of a
directory that somebody has subscribed to.  What is needed no more is taken out when a subscription
is cancelled.  But the walk over the children of a directory stops taking them out at the first
one that has to stay, and nothing comes back for those behind it.
-/

namespace Gamin.Polling

open Gamin Gamin.Server Gamin.Inotify Gamin.Library

/-! ## What should hold, and when -/

/-- Once nobody has subscribed to anything, nothing is left but the root. -/
def NothingLeft (state : BasicState) : Prop :=
  state.subs = [] →
    state.poll.nodes = [] ∧ state.poll.all = [] ∧ state.poll.missing = [] ∧ state.poll.busy = []

/-- When the subscription is the last one of a directory, no child that can be taken out comes behind
one that must stay, in the order of `gam_tree_get_children`. -/
def StayingLast (poll : Poll) (sub : GamSubscription) : Prop :=
  ∀ node, gamTreeGetAtPath poll sub.path = some node → node.isDir = true → (∀ other ∈ node.subs, other = sub) →
    (gamTreeGetChildren poll node.path).Pairwise fun first second => Stays poll first → Stays poll second

/-- Of the parents of a path that is not in the tree, none is missing above one that is there. -/
def ParentsFirst (poll : Poll) (path : Bytes) : Prop :=
  gamTreeGetAtPath poll path = none →
    (pathParents path).Pairwise fun upper lower => lower ∈ poll.paths → upper ∈ poll.paths

/-- The condition on one step. -/
def LeakGuard (state : BasicState) : BasicInput → Prop
  | .subscribe _ sub => sub ∉ state.subs → ParentsFirst state.poll sub.path
  | .cancel sub => sub ∈ state.subs → StayingLast state.poll sub
  | .tick _ _ => True

instance (poll : Poll) (sub : GamSubscription) : Decidable (StayingLast poll sub) :=
  match found : gamTreeGetAtPath poll sub.path with
  | none => .isTrue fun _ other => nomatch found.symm.trans other
  | some node =>
    decidable_of_iff (node.isDir = true → (∀ other ∈ node.subs, other = sub) →
      (gamTreeGetChildren poll node.path).Pairwise fun first second => Stays poll first → Stays poll second)
      ⟨fun last _ foundOther => Option.some.inj (found.symm.trans foundOther) ▸ last, fun last => last node found⟩

instance (poll : Poll) (path : Bytes) : Decidable (ParentsFirst poll path) :=
  inferInstanceAs (Decidable (_ → _))

instance (state : BasicState) : (input : BasicInput) → Decidable (LeakGuard state input)
  | .subscribe _ sub => inferInstanceAs (Decidable (sub ∉ state.subs → ParentsFirst state.poll sub.path))
  | .cancel sub => inferInstanceAs (Decidable (sub ∈ state.subs → StayingLast state.poll sub))
  | .tick _ _ => .isTrue trivial

/-! ## What a write leaves as it is -/

/-- The paths, parents and subscriptions of the nodes, which is all that matters here. -/
def Poll.shape (poll : Poll) : List (Bytes × Option Bytes × List GamSubscription) :=
  poll.nodes.map fun node => (node.path, node.parent, node.subs)

theorem hasChildren_of_shape (poll : Poll) (path : Bytes) :
    gamTreeHasChildren poll path = poll.shape.any (·.2.1 = some path) := by
  rw [gamTreeHasChildren, Poll.shape, List.any_map]
  rfl

theorem subsAt_of_shape (poll : Poll) (path : Bytes) :
    subsAt poll path = ((poll.shape.find? (·.1 = path)).map (·.2.2)).getD [] := by
  rw [subsAt, gamTreeGetAtPath, Poll.shape, List.find?_map, Option.map_map]
  rfl

theorem setNode_shape {poll : Poll} (distinct : poll.paths.Nodup) {old node : GamNode}
    (found : gamTreeGetAtPath poll old.path = some old) (path : node.path = old.path)
    (parent : node.parent = old.parent) (subs : node.subs = old.subs) : (poll.setNode node).shape = poll.shape := by
  rw [Poll.shape, Poll.shape, Poll.setNode, List.map_map]
  refine List.map_congr_left fun other member => ?_
  simp only [Function.comp_apply]
  split
  case isTrue same =>
    have here : other = old :=
      List.inj_on_of_nodup_map distinct member (gamTreeGetAtPath_mem found) (same.trans path)
    rw [here, path, parent, subs]
  case isFalse => rfl

/-! ## Nodes that are needed -/

/-- Somebody needs the node. -/
def Needed (poll : Poll) (node : GamNode) : Prop :=
  node.subs ≠ [] ∨ gamTreeHasChildren poll node.path = true ∨
    ∃ parent, node.parent = some parent ∧ subsAt poll parent ≠ []

/-- Every node is needed, but perhaps some that an operation is about to deal with. -/
structure Tidy (exempt : Bytes → Prop) (poll : Poll) : Prop where
  rooted : Rooted poll
  needed : ∀ node ∈ poll.nodes, Needed poll node ∨ exempt node.path

def nobody : Bytes → Prop := fun _ => False

section

variable {exempt : Bytes → Prop} {poll : Poll}

theorem tidy_new (views : Nat → FsView) : Tidy nobody (.new views) :=
  ⟨rooted_new views, fun _ member => nomatch member⟩

theorem Tidy.weaken (tidy : Tidy exempt poll) {more : Bytes → Prop} (weaker : ∀ path, exempt path → more path) :
    Tidy more poll :=
  ⟨tidy.rooted, fun node member => (tidy.needed node member).imp_right (weaker node.path)⟩

/-- A node that is exempt and needed after all. -/
theorem Tidy.settle {path : Bytes} (tidy : Tidy (· = path) poll)
    (needed : ∀ node ∈ poll.nodes, node.path = path → Needed poll node) : Tidy nobody poll :=
  ⟨tidy.rooted, fun node member => .inl ((tidy.needed node member).elim id (needed node member))⟩

theorem Tidy.of_shape (tidy : Tidy exempt poll) {after : Poll} (rooted : Rooted after)
    (shape : after.shape = poll.shape) : Tidy exempt after := by
  refine ⟨rooted, fun node member => ?_⟩
  have there : (node.path, node.parent, node.subs) ∈ poll.shape := by
    rw [← shape]
    exact List.mem_map_of_mem member
  obtain ⟨earlier, memberEarlier, same⟩ := List.mem_map.mp there
  simp only [Prod.mk.injEq] at same
  obtain ⟨path, parent, subs⟩ := same
  have needed := tidy.needed earlier memberEarlier
  simp only [Needed, path, parent, subs, hasChildren_of_shape, subsAt_of_shape, ← shape] at needed
  simpa only [Needed, hasChildren_of_shape, subsAt_of_shape] using needed

theorem Tidy.elsewhere (tidy : Tidy exempt poll) {after : Poll} (nodes : after.nodes = poll.nodes) :
    Tidy exempt after :=
  tidy.of_shape (tidy.rooted.elsewhere nodes) (by rw [Poll.shape, nodes, Poll.shape])

theorem Tidy.rewritten (tidy : Tidy exempt poll) {old node : GamNode}
    (found : gamTreeGetAtPath poll old.path = some old) (path : node.path = old.path)
    (parent : node.parent = old.parent) (subs : node.subs = old.subs) : Tidy exempt (poll.setNode node) :=
  tidy.of_shape (tidy.rooted.setNode found path parent) (setNode_shape tidy.rooted.distinct found path parent subs)

theorem Tidy.gamPollGenericAddMissing (tidy : Tidy exempt poll) (path : Bytes) :
    Tidy exempt (gamPollGenericAddMissing poll path) := by
  unfold Polling.gamPollGenericAddMissing
  split
  · exact tidy
  · exact tidy.elsewhere rfl

/-- A new node needs its parent, and must itself be needed by then. -/
theorem Tidy.gamTreeAdd (tidy : Tidy exempt poll) {child : GamNode}
    (absent : gamTreeGetAtPath poll child.path = none)
    (parentThere : ∀ parent, child.parent = some parent → (gamTreeGetAtPath poll parent).isSome)
    {after : Bytes → Prop} (others : ∀ path, exempt path → child.parent = some path ∨ after path)
    (new : (∃ parent, child.parent = some parent ∧ subsAt poll parent ≠ []) ∨ after child.path) :
    Tidy after (gamTreeAdd poll child) := by
  have rooted := tidy.rooted.gamTreeAdd absent parentThere
  have unknown : child.path ∉ poll.paths := by
    rw [← gamTreeGetAtPath_isSome, absent]
    exact Bool.false_ne_true
  have subs {parent : Bytes} (there : parent ∈ poll.paths) :
      subsAt (Polling.gamTreeAdd poll child) parent = subsAt poll parent := by
    have different : child.path ≠ parent := by
      rintro rfl
      exact unknown there
    rw [subsAt, subsAt, gamTreeAdd_other poll different]
  have nodes : (Polling.gamTreeAdd poll child).nodes = poll.nodes ++ [child] := by
    rw [Polling.gamTreeAdd, absent, Option.isSome_none, if_neg Bool.false_ne_true]
  refine ⟨rooted, fun node member => ?_⟩
  rw [nodes] at member
  cases List.mem_append.mp member with
  | inl old =>
    -- what was needed still is, and the parent is now needed for its child
    have children (path : Bytes) : gamTreeHasChildren (Polling.gamTreeAdd poll child) path = true ↔
        gamTreeHasChildren poll path = true ∨ child.parent = some path := by
      simp [gamTreeHasChildren, nodes]
    cases tidy.needed node old with
    | inl needed =>
      refine .inl (needed.imp_right (Or.imp (fun parent => (children _).mpr (.inl parent)) ?_))
      rintro ⟨parent, isParent, subscribed⟩
      refine ⟨parent, isParent, ?_⟩
      rwa [subs (tidy.rooted.parents node old parent isParent)]
    | inr exempted =>
      cases others node.path exempted with
      | inl isParent => exact .inl (.inr (.inl ((children _).mpr (.inr isParent))))
      | inr later => exact .inr later
  | inr added =>
    rw [List.mem_singleton.mp added]
    refine new.imp_left ?_
    rintro ⟨parent, isParent, subscribed⟩
    refine .inr (.inr ⟨parent, isParent, ?_⟩)
    rwa [subs (gamTreeGetAtPath_isSome.mp (parentThere parent isParent))]

/-! ## Taking nodes out -/

/-- A node without subscriptions and children goes; then its parent may not be needed any more. -/
theorem Tidy.remove (tidy : Tidy exempt poll) {node : GamNode} (found : gamTreeGetAtPath poll node.path = some node)
    (bare : subsAt poll node.path = []) (childless : gamTreeHasChildren poll node.path = false)
    {after : Bytes → Prop} (others : ∀ path, exempt path → path = node.path ∨ after path)
    (parent : ∀ path, node.parent = some path → after path) :
    Tidy after (gamTreeRemove (gamPollGenericUnregisterNode poll node.path) node.path) := by
  refine ⟨tidy.rooted.removed childless, fun other member => ?_⟩
  have before : other ∈ poll.nodes := gamTreeRemove_fewer member
  have different : other.path ≠ node.path := by simpa using (List.mem_filter.mp member).2
  by_cases isParent : node.parent = some other.path
  · exact .inr (parent other.path isParent)
  cases tidy.needed other before with
  | inr exempted => exact .inr ((others other.path exempted).resolve_left different)
  | inl needed =>
    left
    have here (same : GamNode) (memberSame : same ∈ poll.nodes) (path : same.path = node.path) :
        same.parent ≠ some other.path := by
      rw [List.inj_on_of_nodup_map tidy.rooted.distinct memberSame (gamTreeGetAtPath_mem found) path]
      exact isParent
    refine needed.imp_right (Or.imp (fun children => ?_) ?_)
    · rwa [hasChildren_remove here]
    · rintro ⟨above, isAbove, subscribed⟩
      refine ⟨above, isAbove, ?_⟩
      rwa [subsAt_remove]
      rintro rfl
      exact subscribed bare

/-- Going up, nodes that are not needed are taken out, up to the first that is. -/
theorem Tidy.pruneTree {path : Option Bytes} (tidy : Tidy (path = some ·) poll) :
    Tidy nobody (gamPollGenericPruneTree poll path) := by
  fun_induction gamPollGenericPruneTree poll path with
  | case1 => exact tidy.weaken fun _ isNone => by cases isNone
  | case2 poll path absent =>
    refine ⟨tidy.rooted, fun node member => (tidy.needed node member).imp_right fun here => ?_⟩
    rw [Option.some.inj here, gamTreeGetAtPath_of_mem tidy.rooted.distinct member] at absent
    contradiction
  | case3 poll path node found prunable inductionHypothesis =>
    have here := gamTreeGetAtPath_path found
    subst here
    apply inductionHypothesis
    refine tidy.remove found ?_ (eq_false_of_ne_true prunable.1) ?_ fun _ isParent => isParent
    · rw [subsAt, found]
      exact prunable.2
    · exact fun path same => .inl (Option.some.inj same).symm
  | case4 poll path node found other =>
    have here := gamTreeGetAtPath_path found
    subst here
    have exempted : Tidy (· = node.path) poll := tidy.weaken fun path same => (Option.some.inj same).symm
    refine exempted.settle fun same member path => ?_
    have isNode := List.inj_on_of_nodup_map tidy.rooted.distinct member (gamTreeGetAtPath_mem found) path
    rw [isNode]
    by_cases children : gamTreeHasChildren poll node.path = true
    · exact .inr (.inl children)
    · exact .inl fun bare => other ⟨children, bare⟩

/-! ## The children of a directory -/

/-- When the children that stay come last, no child is left that is not needed. -/
theorem Tidy.removeChildren {dir : Bytes} (children : List Bytes)
    (ordered : children.Pairwise fun first second => Stays poll first → Stays poll second)
    (distinct : children.Nodup) (below : ∀ child ∈ children, ∃ node, gamTreeGetAtPath poll child = some node ∧
      node.parent = some dir)
    (tidy : Tidy (fun path => path = dir ∨ path ∈ children) poll) :
    Tidy (· = dir) (children.foldl removeChild (poll, true)).1 := by
  induction children generalizing poll with
  | nil => exact tidy.weaken fun path either => either.resolve_right List.not_mem_nil
  | cons child children inductionHypothesis =>
    rw [List.pairwise_cons] at ordered
    rw [List.nodup_cons] at distinct
    obtain ⟨node, found, isChild⟩ := below child List.mem_cons_self
    have here := gamTreeGetAtPath_path found
    subst here
    rw [List.foldl_cons, removeChild]
    split
    · rename_i removable
      obtain ⟨bare, _, childless⟩ := removable
      have elsewhere {other : Bytes} (member : other ∈ children) : other ≠ node.path := by
        rintro rfl
        exact distinct.1 member
      -- the other children are not touched
      have same {other : Bytes} (member : other ∈ children) :
          Stays (gamTreeRemove (gamPollGenericUnregisterNode poll node.path) node.path) other ↔
            Stays poll other :=
        stays_remove tidy.rooted found isChild (below other (List.mem_cons_of_mem _ member)) (elsewhere member)
      apply inductionHypothesis
      · refine ordered.2.imp_of_mem fun first second stays => ?_
        rw [same first, same second]
        exact stays
      · exact distinct.2
      · intro other member
        obtain ⟨sibling, foundSibling, isSibling⟩ := below other (List.mem_cons_of_mem _ member)
        refine ⟨sibling, ?_, isSibling⟩
        rwa [gamTreeGetAtPath_remove (elsewhere member)]
      · refine tidy.remove found bare (eq_false_of_ne_true childless) ?_ ?_
        · rintro path (isDir | listed)
          · exact .inr (.inl isDir)
          · exact (List.mem_cons.mp listed).imp_right .inr
        · rintro path isParent
          rw [isChild, Option.some.injEq] at isParent
          exact .inl isParent.symm
    · rename_i stays
      rw [removeChildren_stop]
      have staying : Stays poll node.path := by
        by_contra leaves
        rw [Stays, not_or, not_not] at leaves
        exact stays ⟨leaves.1, rfl, leaves.2⟩
      refine ⟨tidy.rooted, fun other member => ?_⟩
      have needs (stays : Stays poll other.path) : Needed poll other := by
        cases stays with
        | inl subscribed =>
          rw [subsAt, gamTreeGetAtPath_of_mem tidy.rooted.distinct member] at subscribed
          exact .inl subscribed
        | inr children => exact .inr (.inl children)
      rcases tidy.needed other member with needed | isDir | listed
      · exact .inl needed
      · exact .inr isDir
      · rcases List.mem_cons.mp listed with first | later
        · rw [← first] at staying
          exact .inl (needs staying)
        · exact .inl (needs (ordered.1 other.path later staying))

/-! ## Cancelling -/

/-- A node that loses a subscription may not be needed any more, and its children may not be. -/
theorem Tidy.lost (tidy : Tidy nobody poll) {node : GamNode} (found : gamTreeGetAtPath poll node.path = some node)
    (sub : GamSubscription) :
    Tidy (fun path => (node.without sub).subs = [] ∧
        (path = node.path ∨ path ∈ gamTreeGetChildren (poll.setNode (node.without sub)) node.path))
      (poll.setNode (node.without sub)) := by
  have children := children_without found sub tidy.rooted.distinct
  have own := subsAt_without_self found sub
  refine ⟨tidy.rooted.setNode found rfl rfl, fun other written => ?_⟩
  obtain ⟨earlier, member, rfl⟩ := List.mem_map.mp written
  split
  · -- the node itself
    by_cases bare : (node.without sub).subs = []
    · exact .inr ⟨bare, .inl rfl⟩
    · exact .inl (.inl bare)
  · rcases (tidy.needed earlier member).resolve_right id with subscribed | parent | ⟨parent, isParent, subscribed⟩
    · exact .inl (.inl subscribed)
    · exact .inl (.inr (.inl ((children earlier.path).2.trans parent)))
    · by_cases below : parent = node.path
      · subst below
        by_cases bare : (node.without sub).subs = []
        · refine .inr ⟨bare, .inr ?_⟩
          rw [(children node.path).1]
          exact mem_gamTreeGetChildren.mpr ⟨earlier, member, isParent, rfl⟩
        · refine .inl (.inr (.inr ⟨node.path, isParent, ?_⟩))
          rwa [own]
      · refine .inl (.inr (.inr ⟨parent, isParent, ?_⟩))
        rwa [subsAt_without below]

theorem subscribed_of_parentHasDirSubscriptions {parent : Option Bytes}
    (has : parentHasDirSubscriptions poll parent = true) : ∃ path, parent = some path ∧ subsAt poll path ≠ [] := by
  cases parent with
  | none => contradiction
  | some path =>
    refine ⟨path, rfl, fun bare => ?_⟩
    cases found : gamTreeGetAtPath poll path with
    | none => simp [parentHasDirSubscriptions, found] at has
    | some node =>
      rw [subsAt, found] at bare
      have none : node.subs = [] := bare
      simp [parentHasDirSubscriptions, found, gamNodeHasDirSubscriptions, none] at has

section

variable {node : GamNode} (tidy : Tidy (· = node.path) poll) (found : gamTreeGetAtPath poll node.path = some node)

include tidy found

/-- A node stays when its parent keeps it. -/
theorem Tidy.keptByParent (entry : parentHasDirSubscriptions poll node.parent = true) : Tidy nobody poll := by
  refine tidy.settle fun other member path => ?_
  rw [List.inj_on_of_nodup_map tidy.rooted.distinct member (gamTreeGetAtPath_mem found) path]
  exact .inr (.inr (subscribed_of_parentHasDirSubscriptions entry))

/-- A node stays above its children. -/
theorem Tidy.keptByChildren (children : gamTreeHasChildren poll node.path = true) : Tidy nobody poll := by
  refine tidy.settle fun other member path => ?_
  rw [List.inj_on_of_nodup_map tidy.rooted.distinct member (gamTreeGetAtPath_mem found) path]
  exact .inr (.inl children)

/-- A node that nobody needs goes, and so do those above it. -/
theorem Tidy.removeBare (bare : node.subs = []) (childless : gamTreeHasChildren poll node.path = false) :
    Tidy nobody (gamPollGenericPruneTree
      (gamTreeRemove (gamPollGenericUnregisterNode poll node.path) node.path) node.parent) := by
  apply Tidy.pruneTree
  refine tidy.remove found ?_ childless (fun path same => .inl same) fun path isParent => isParent
  rw [subsAt, found]
  exact bare

end

/-- The children of a directory that loses its last subscription are taken out, or are needed. -/
theorem Tidy.removedChildren {dir : Bytes} (tidy : Tidy (fun path => path = dir ∨
      path ∈ gamTreeGetChildren poll dir) poll)
    (ordered : (gamTreeGetChildren poll dir).Pairwise fun first second => Stays poll first → Stays poll second) :
    Tidy (· = dir) (childrenRemoved poll dir) :=
  Tidy.removeChildren _ ordered (tidy.rooted.children_nodup dir) (tidy.rooted.children_below dir) tidy

/-- Whatever the outcome is, every node that is left is needed. -/
theorem Tidy.cancelled {node : GamNode} {after : Poll} (outcome : Cancelled node poll after)
    (found : gamTreeGetAtPath poll node.path = some node)
    (tidy : Tidy (fun path => node.subs = [] ∧
      (path = node.path ∨ path ∈ gamTreeGetChildren poll node.path)) poll)
    (ordered : node.subs = [] → node.isDir = true →
      (gamTreeGetChildren poll node.path).Pairwise fun first second => Stays poll first → Stays poll second) :
    Tidy nobody after := by
  -- a file has no children that might not be needed
  have ofFile (childless : gamTreeHasChildren poll node.path = false) : Tidy (· = node.path) poll := by
    refine tidy.weaken fun path exempted => exempted.2.resolve_right fun child => ?_
    obtain ⟨below, member, isParent, _⟩ := mem_gamTreeGetChildren.mp child
    exact hasChildren_false.mp childless below member isParent
  have ofDirectory (bare : node.subs = []) (directory : node.isDir = true) :
      Tidy (· = node.path) (childrenRemoved poll node.path) ∧
        gamTreeGetAtPath (childrenRemoved poll node.path) node.path = some node := by
    refine ⟨(tidy.weaken fun _ exempted => exempted.2).removedChildren (ordered bare directory), ?_⟩
    rw [childrenRemoved, removeChildren_other _ (tidy.rooted.not_own_child node.path)]
    exact found
  cases outcome with
  | shared others => exact tidy.weaken fun _ exempted => others exempted.1
  | fileKept bare file childless entry => exact ((ofFile childless).keptByParent found entry).elsewhere rfl
  | fileGone bare file childless free => exact (ofFile childless).removeBare found bare childless
  | dirKept bare directory entry =>
    obtain ⟨left, foundLeft⟩ := ofDirectory bare directory
    exact left.keptByParent foundLeft entry
  | dirParent bare directory free children =>
    obtain ⟨left, foundLeft⟩ := ofDirectory bare directory
    apply Tidy.pruneTree
    exact ((left.keptByChildren foundLeft children).weaken fun _ none => none.elim).elsewhere rfl
  | dirGone bare directory free childless =>
    obtain ⟨left, foundLeft⟩ := ofDirectory bare directory
    exact left.removeBare foundLeft bare childless

theorem Tidy.gamPollBasicRemoveSubscription {after : Poll} {sub : GamSubscription} (tidy : Tidy nobody poll)
    (last : StayingLast poll sub) (removed : Polling.gamPollBasicRemoveSubscription poll sub = some after) :
    Tidy nobody after := by
  rcases gamPollBasicRemoveSubscription_cancelled removed with ⟨_, rfl⟩ | ⟨node, found, listed, outcome⟩
  · exact tidy
  · have ordered := last node found
    rw [← gamTreeGetAtPath_path found] at found
    have children := children_without found sub tidy.rooted.distinct
    refine Tidy.cancelled outcome (found_without found sub) (tidy.lost found sub) fun bare directory => ?_
    have pairs := ordered directory (without_subs_eq_nil.mp bare)
    rw [show (node.without sub).path = node.path from rfl, (children node.path).1]
    -- a child is not the node, so it stays or goes as before
    refine pairs.imp_of_mem fun {first second} memberFirst memberSecond stays => ?_
    rw [stays_without tidy.rooted found sub memberFirst, stays_without tidy.rooted found sub memberSecond]
    exact stays

end

/-! ## Scans -/

theorem tidy_firstScanMissing {exempt : Bytes → Prop} {poll : Poll} (tidy : Tidy exempt poll) (sub : GamSubscription)
    {dpath : Bytes} : Tidy exempt (firstScanMissing poll sub dpath) := by
  unfold firstScanMissing
  extract_lets sent
  split
  · exact tidy.elsewhere rfl
  case h_2 node found =>
    have foundSent : gamTreeGetAtPath sent.called.called node.path = some node := by
      rw [gamTreeGetAtPath_path found]
      exact found
    have tidySent : Tidy exempt sent.called.called := tidy.elsewhere rfl
    simp only
    split
    · exact tidySent.rewritten foundSent rfl rfl rfl
    · apply Tidy.gamPollGenericAddMissing
      exact tidySent.rewritten foundSent rfl rfl rfl

theorem plainRule_tidy : PlainRule gamPollBasicPollFile entryGuard (Tidy nobody) where
  hook := gamPollBasicPollFile_keeps
  elsewhere _ _ _ tidy := tidy.elsewhere rfl
  polled := by
    intro poll node found _ tidy
    obtain ⟨next, write, polledAs⟩ := gamPollBasicPollFile_writes poll node
    have called : Tidy nobody poll.called := tidy.elsewhere rfl
    have written : Tidy nobody (poll.called.setNode next) :=
      called.rewritten found polledAs.path polledAs.parent polledAs.subs
    generalize (gamPollBasicPollFile poll node).1 = after at write ⊢
    cases write with
    | nothing => exact tidy
    | written => exact written
    | appeared => exact written.elsewhere rfl
    | vanished =>
      apply Tidy.gamPollGenericAddMissing
      exact written.elsewhere rfl
  added := by
    intro poll child absent _ parentThere asked tidy
    refine tidy.gamTreeAdd absent parentThere (fun _ none => none.elim) (.inl ?_)
    cases isParent : child.parent with
    | none => simp [entryGuard, isParent] at asked
    | some parent => exact ⟨parent, rfl, by simpa [entryGuard, isParent] using asked⟩
  cleared found tidy := tidy.rewritten found rfl rfl rfl
  missed _ tidy := tidy_firstScanMissing tidy _

theorem pollRule_tidy : PollRule entryGuard (Tidy nobody) where
  toFirstRule := plainRule_tidy.firstRule
  missing _ tidy := tidy.gamPollGenericAddMissing _
  listed _ tidy := by
    unfold gamPollGenericAdd
    split
    · exact tidy
    · exact tidy.elsewhere rfl
  found tidy := tidy.elsewhere rfl

/-! ## Subscribing -/

section

variable {poll : Poll} {parent : Option Bytes}

theorem gamTreeAdd_known {path : Bytes} (known : path ∈ poll.paths) (isDir : Bool) :
    gamTreeAdd poll (gamNodeNew poll path isDir parent) = poll :=
  if_pos (gamTreeGetAtPath_isSome.mpr known)

/-- A chain of new parents: each is needed by the next. -/
theorem Tidy.addNewParents (parent : Option Bytes) (paths : List Bytes) (distinct : paths.Nodup)
    (absent : ∀ path ∈ paths, path ∉ poll.paths)
    (there : ∀ path, parent = some path → path ∈ poll.paths) (tidy : Tidy (parent = some ·) poll) :
    Tidy ((addParents poll parent paths).2 = some ·) (addParents poll parent paths).1 ∧
      ∀ path, (addParents poll parent paths).2 = some path → path ∈ (addParents poll parent paths).1.paths := by
  induction paths generalizing poll parent with
  | nil => exact ⟨tidy, there⟩
  | cons path paths inductionHypothesis =>
    rw [List.nodup_cons] at distinct
    have new : gamTreeGetAtPath poll path = none := by
      rw [← Option.not_isSome_iff_eq_none, gamTreeGetAtPath_isSome]
      exact absent path List.mem_cons_self
    have parentThere (above : Bytes) (isParent : parent = some above) : (gamTreeGetAtPath poll above).isSome :=
      gamTreeGetAtPath_isSome.mpr (there above isParent)
    apply inductionHypothesis _ distinct.2
    · intro later member
      rw [← gamTreeGetAtPath_isSome, gamTreeAdd_other poll, gamTreeGetAtPath_isSome]
      · exact absent later (List.mem_cons_of_mem _ member)
      · rintro rfl
        exact distinct.1 member
    · rintro _ ⟨⟩
      exact gamTreeGetAtPath_isSome.mp (gamTreeAdd_isSome poll (gamNodeNew poll path true parent))
    · exact tidy.gamTreeAdd new parentThere (fun _ isParent => .inl isParent) (.inr rfl)

/-- The loop of `gam_tree_add_at_path` goes over parents that are there, and then makes the others. -/
theorem Tidy.addParents (parent : Option Bytes) (paths : List Bytes) (distinct : paths.Nodup)
    (ordered : paths.Pairwise fun upper lower => lower ∈ poll.paths → upper ∈ poll.paths)
    (there : ∀ path, parent = some path → path ∈ poll.paths) (tidy : Tidy nobody poll) :
    Tidy ((addParents poll parent paths).2 = some ·) (addParents poll parent paths).1 ∧
      ∀ path, (addParents poll parent paths).2 = some path → path ∈ (addParents poll parent paths).1.paths := by
  induction paths generalizing parent with
  | nil => exact ⟨tidy.weaken fun _ none => none.elim, there⟩
  | cons path paths inductionHypothesis =>
    by_cases known : path ∈ poll.paths
    · rw [Polling.addParents, gamTreeAdd_known known]
      apply inductionHypothesis _ (List.nodup_cons.mp distinct).2 (List.pairwise_cons.mp ordered).2
      rintro _ ⟨⟩
      exact known
    · refine Tidy.addNewParents parent _ distinct (fun later member => ?_) there (tidy.weaken fun _ none => none.elim)
      rcases List.mem_cons.mp member with rfl | below
      · exact known
      · exact fun laterKnown => known ((List.pairwise_cons.mp ordered).1 later below laterKnown)

end

theorem pathParents_nodup (path : Bytes) : (pathParents path).Nodup := by
  unfold pathParents
  refine List.Nodup.map_on ?_ ((List.nodup_range).filter _)
  intro first memberFirst second memberSecond same
  have firstShort := List.mem_range.mp (List.mem_filter.mp memberFirst).1
  have secondShort := List.mem_range.mp (List.mem_filter.mp memberSecond).1
  have lengths := congrArg List.length same
  rw [List.length_take, List.length_take] at lengths
  omega

/-- A new node for a path is all that may not be needed. -/
theorem Tidy.gamTreeAddAtPath {poll : Poll} (tidy : Tidy nobody poll) {path : Bytes} (isDir : Bool)
    (ordered : ParentsFirst poll path) : Tidy (· = path) (gamTreeAddAtPath poll path isDir) := by
  unfold Polling.gamTreeAddAtPath
  split
  · exact tidy.weaken fun _ none => none.elim
  · split
    · exact tidy.weaken fun _ none => none.elim
    · rename_i absent
      rw [Option.not_isSome_iff_eq_none] at absent
      dsimp only
      -- the calls make no difference to the nodes
      generalize looked : (if (poll.view.stat path).exists then poll.called.called else poll.called) = next
      have nodes : next.nodes = poll.nodes := by
        rw [← looked]
        split <;> rfl
      have paths : next.paths = poll.paths := by rw [Poll.paths, nodes, Poll.paths]
      have pairs := ordered absent
      rw [← paths] at pairs
      obtain ⟨chain, there⟩ := (tidy.elsewhere nodes).addParents none (pathParents path)
        (pathParents_nodup path) pairs (fun _ isParent => by cases isParent)
      have stillAbsent : gamTreeGetAtPath (Polling.addParents next none (pathParents path)).1 path = none := by
        rw [addParents_other _ (not_mem_pathParents path), gamTreeGetAtPath, nodes]
        exact absent
      exact chain.gamTreeAdd stillAbsent (fun above isParent => gamTreeGetAtPath_isSome.mpr (there above isParent))
        (fun _ isParent => .inl isParent) (.inr rfl)

/-- A node that somebody subscribes to is needed. -/
theorem Tidy.gamNodeAddSubscription {poll after : Poll} {path : Bytes} (tidy : Tidy (· = path) poll)
    {sub : GamSubscription} (added : Polling.gamNodeAddSubscription poll path sub = some after) :
    Tidy nobody after ∧ subsAt after path ≠ [] := by
  unfold Polling.gamNodeAddSubscription at added
  split at added
  case h_1 => contradiction
  case h_2 node found =>
    split at added
    case isTrue => contradiction
    case isFalse =>
      cases added
      have here := gamTreeGetAtPath_path found
      subst here
      have rooted : Rooted (poll.setNode { node with subs := sub :: node.subs }) :=
        tidy.rooted.setNode found rfl rfl
      generalize isWritten : ({ node with subs := sub :: node.subs } : GamNode) = next at rooted ⊢
      have path : next.path = node.path := by rw [← isWritten]
      have subs : next.subs ≠ [] := by
        rw [← isWritten]
        exact List.cons_ne_nil _ _
      have links := setNode_links tidy.rooted.distinct found path (by rw [← isWritten])
      have own : subsAt (poll.setNode next) node.path ≠ [] := by
        rw [subsAt, gamTreeGetAtPath_setNode, found, Option.map_some, if_pos path.symm]
        exact subs
      refine ⟨⟨rooted, fun other written => .inl ?_⟩, own⟩
      obtain ⟨earlier, member, rfl⟩ := List.mem_map.mp written
      split
      · exact .inl subs
      case isFalse different =>
        -- the others have the same children, and parents with no fewer subscriptions
        have needed := (tidy.needed earlier member).resolve_right fun same => different (same.trans path.symm)
        refine needed.imp_right (Or.imp (fun children => ?_) ?_)
        · rwa [(children_of_links links earlier.path).2]
        · rintro ⟨parent, isParent, subscribed⟩
          refine ⟨parent, isParent, ?_⟩
          by_cases below : parent = node.path
          · rwa [below]
          · rwa [subsAt, gamTreeGetAtPath_setNode_other poll (by rwa [path]), ← subsAt]

theorem Tidy.gamPollBasicAddSubscription {poll after : Poll} (tidy : Tidy nobody poll) {now : Nat}
    {sub : GamSubscription} (ordered : ParentsFirst poll sub.path)
    (added : Polling.gamPollBasicAddSubscription poll now sub = some after) : Tidy nobody after := by
  obtain ⟨tree, inTree, subscribed⟩ := Option.bind_eq_some_iff.mp added
  obtain ⟨node, found, rfl⟩ := Option.map_eq_some_iff.mp subscribed
  have clock : Tidy nobody { poll with currentTime := now } := tidy.elsewhere rfl
  obtain ⟨settled, own⟩ := (clock.gamTreeAddAtPath sub.isDir ordered).gamNodeAddSubscription inTree
  have same := gamTreeGetAtPath_path found
  rw [← same] at own found
  exact pollRule_tidy.subscribedNode found same (entryGuard_easy.subscribedNode sub own) settled

/-! ## Every run -/

theorem Tidy.step {state after : BasicState} (tidy : Tidy nobody state.poll) {input : BasicInput}
    (guard : LeakGuard state input) (stepped : state.step input = some after) : Tidy nobody after.poll := by
  cases input with
  | subscribe now sub =>
    simp only [BasicState.step] at stepped
    split at stepped
    case isTrue =>
      cases stepped
      exact tidy
    case isFalse new =>
      obtain ⟨poll, added, rfl⟩ := Option.map_eq_some_iff.mp stepped
      exact tidy.gamPollBasicAddSubscription (guard new) added
  | cancel sub =>
    simp only [BasicState.step] at stepped
    split at stepped
    case isTrue there =>
      obtain ⟨poll, removed, rfl⟩ := Option.map_eq_some_iff.mp stepped
      exact tidy.gamPollBasicRemoveSubscription (guard there) removed
    case isFalse =>
      cases stepped
      exact tidy
  | tick now rounds =>
    simp only [BasicState.step] at stepped
    split at stepped
    case isTrue =>
      cases stepped
      exact pollRule_tidy.scanCallback (entryGuard_easy.scanCallback _ now rounds) tidy
    case isFalse =>
      cases stepped
      exact tidy

/-- Without subscriptions a node is only needed by those below it, and so by nobody. -/
theorem Tidy.nothingLeft {state : BasicState} (tidy : Tidy nobody state.poll) (seated : Seated state) :
    NothingLeft state := by
  intro ended
  have bare (node : GamNode) (member : node ∈ state.poll.nodes) : node.subs = [] := by
    rw [List.eq_nil_iff_forall_not_mem]
    intro sub subscribed
    have known := (seated.known node member sub subscribed).1
    rw [ended] at known
    exact List.not_mem_nil known
  have nodes : state.poll.nodes = [] := by
    by_contra nonempty
    obtain ⟨node, member, childless⟩ := tidy.rooted.exists_childless nonempty
    rcases (tidy.needed node member).resolve_right id with subscribed | children | ⟨parent, isParent, subscribed⟩
    · exact subscribed (bare node member)
    · exact absurd (childless.symm.trans children) (by decide)
    · cases found : gamTreeGetAtPath state.poll parent with
      | none => simp [subsAt, found] at subscribed
      | some above =>
        rw [subsAt, found] at subscribed
        exact subscribed (bare above (gamTreeGetAtPath_mem found))
  have empty {list : List Bytes} (lists : ListsNodes state.poll.paths list) : list = [] := by
    rw [List.eq_nil_iff_forall_not_mem]
    intro path member
    have there := lists.2 path member
    rw [Poll.paths, nodes] at there
    exact List.not_mem_nil there
  exact ⟨nodes, empty seated.order.all, empty seated.order.missing, empty seated.order.busy⟩

/-- As long as no directory loses its last subscription with a child to take out behind one that must
stay, nothing is left when the last subscription is gone. -/
theorem nothing_left (views : Nat → FsView) (inputs : List BasicInput)
    (guarded : Guarded (partialStep BasicState.step) (GuardIfAny LeakGuard) (some (.new views)) inputs) :
    Throughout (partialStep BasicState.step) (IfAny NothingLeft) (some (.new views)) inputs := by
  have sound : Throughout (partialStep BasicState.step)
      (IfAny fun state => Seated state ∧ Tidy nobody state.poll) (some (.new views)) inputs := by
    apply Throughout.of_partial _ ⟨seated_new views, tidy_new views⟩ guarded
    rintro state input after ⟨seated, tidy⟩ guard stepped
    exact ⟨seated.step stepped, tidy.step guard stepped⟩
  exact sound.imp (IfAny.imp fun state both => both.2.nothingLeft both.1)

/-! ## A directory and one below it -/

/-- `/a` is a directory with a file `y` and a directory `b`. -/
def nestedDirectories : FsView where
  stat path :=
    if path = [47, 97] ∨ path = [47, 97, 47, 98] then .found { StatBuf.zero with isDir := true }
    else if path = [47, 97, 47, 121] then .found .zero
    else .noent
  listing path :=
    if path = [47, 97] then some [[121], [98]]
    else if path = [47, 97, 47, 98] then some []
    else none
  excluded _ := false
  monType _ := .poll
  pollTimeout _ := 1

def outerSubscription : GamSubscription := gamSubscriptionNew 1 [47, 97] requestedEvents 1 true 0

def innerSubscription : GamSubscription := gamSubscriptionNew 2 [47, 97, 47, 98] requestedEvents 2 true 0

def bothMonitored : List BasicInput :=
  [.subscribe 1000 outerSubscription, .subscribe 1000 innerSubscription, .tick 1002 10]

/-- The inner directory is cancelled first. -/
theorem nothing_left_inner_first :
    Throughout (partialStep BasicState.step) (IfAny NothingLeft) (some (.new fun _ => nestedDirectories))
      (bothMonitored ++ [.cancel innerSubscription, .cancel outerSubscription]) :=
  nothing_left _ _ (by decide +kernel)

/-- The outer directory is cancelled first, and with nobody left the tree has two nodes. -/
theorem outer_first_leaks :
    (run (partialStep BasicState.step) (some (.new fun _ => nestedDirectories))
        (bothMonitored ++ [.cancel outerSubscription, .cancel innerSubscription])).map
          (fun state => (state.subs, state.poll.paths)) = some ([], [[47, 97], [47, 97, 47, 121]]) ∧
      ¬ Throughout (partialStep BasicState.step) (IfAny NothingLeft) (some (.new fun _ => nestedDirectories))
        (bothMonitored ++ [.cancel outerSubscription, .cancel innerSubscription]) := by
  have final : (run (partialStep BasicState.step) (some (.new fun _ => nestedDirectories))
      (bothMonitored ++ [.cancel outerSubscription, .cancel innerSubscription])).map
        (fun state => (state.subs, state.poll.paths)) = some ([], [[47, 97], [47, 97, 47, 121]]) := by
    decide +kernel
  refine ⟨final, fun holds => ?_⟩
  obtain ⟨state, reached, left⟩ := Option.map_eq_some_iff.mp final
  simp only [Prod.mk.injEq] at left
  have last := holds.last
  rw [reached] at last
  have empty := (last left.1).1
  rw [Poll.paths, empty] at left
  exact absurd left.2 (by decide)

end Gamin.Polling
