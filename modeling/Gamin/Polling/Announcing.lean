import Gamin.Polling.EntryNames
import Gamin.Polling.KeptEntries

/-! # Scans announce new nodes

A poll of a node moves its mark `MON_MISSING`, and says so.  Between its calls the backend has no node that waits
to be announced.  A scan of a directory puts such nodes below it, and then comes to each of them.
-/

namespace Gamin.Polling

open Gamin Gamin.Server Gamin.Inotify Gamin.Library

/-! ## Polling a node -/

/-- Whether a poll leaves the node marked missing. -/
def missingAfter (poll : Poll) (node : GamNode) : Bool :=
  if tooSoon poll node then node.pflags.missing
  else
    match poll.view.stat node.path with
    | .found _ => node.lasttime = 0 ∧ node.pflags.missing
    | .noent => true
    | .failed => node.lasttime = 0 ∨ node.pflags.missing

/-- What the event of a poll has to do with the mark. -/
inductive MarkMoves (poll : Poll) (node next : GamNode) : Option GaminEventType → Prop where
  | silent (same : next.pflags.missing = node.pflags.missing) : MarkMoves poll node next none
  | changed (before : node.pflags.missing = false) (after : next.pflags.missing = false) :
    MarkMoves poll node next (some .changed)
  | created (before : node.pflags.missing = true) (after : next.pflags.missing = false) :
    MarkMoves poll node next (some .created)
  | deleted (before : node.pflags.missing = true → node.lasttime = 0 ∧ (poll.view.stat node.path).exists = false)
    (after : next.pflags.missing = true) : MarkMoves poll node next (some .deleted)

/-- What a poll writes, and what it says. -/
structure Polled (poll : Poll) (node next : GamNode) (after : Poll) (event : Option GaminEventType) : Prop where
  here : gamTreeGetAtPath after node.path = some next
  elsewhere : ∀ {path}, path ≠ node.path → gamTreeGetAtPath after path = gamTreeGetAtPath poll path
  sent : after.sent = poll.sent
  rewrites : Rewrites node next
  newNode : next.newNode = node.newNode
  missing : next.pflags.missing = missingAfter poll node
  moves : MarkMoves poll node next event

section

variable {poll after : Poll} {node next : GamNode} {event : Option GaminEventType}

theorem gamPollGenericAddMissing_nodes (poll : Poll) (path : Bytes) :
    (gamPollGenericAddMissing poll path).nodes = poll.nodes ∧
      (gamPollGenericAddMissing poll path).sent = poll.sent := by
  obtain ⟨missing, written⟩ := gamPollGenericAddMissing_writes poll path
  rw [written]
  exact ⟨rfl, rfl⟩

/-- The node is written back; the lists do not matter. -/
theorem Polled.written (found : gamTreeGetAtPath poll node.path = some node)
    (nodes : after.nodes = (poll.setNode next).nodes) (sent : after.sent = poll.sent) (rewrites : Rewrites node next)
    (newNode : next.newNode = node.newNode) (missing : next.pflags.missing = missingAfter poll node)
    (moves : MarkMoves poll node next event) : Polled poll node next after event where
  here := by
    rw [gamTreeGetAtPath, nodes, ← gamTreeGetAtPath, gamTreeGetAtPath_setNode, found, Option.map_some,
      if_pos rewrites.path.symm]
  elsewhere {path} different := by
    have elsewhere : path ≠ next.path := rewrites.path ▸ different
    rw [gamTreeGetAtPath, nodes, ← gamTreeGetAtPath, gamTreeGetAtPath_setNode_other poll elsewhere]
  sent := sent
  rewrites := rewrites
  newNode := newNode
  missing := missing
  moves := moves

theorem gamPollBasicPollFile_polled (found : gamTreeGetAtPath poll node.path = some node) :
    ∃ next, Polled poll node next (gamPollBasicPollFile poll node).1 (gamPollBasicPollFile poll node).2 := by
  by_cases early : tooSoon poll node = true
  · rw [gamPollBasicPollFile, if_pos early]
    exact ⟨node, found, fun _ => rfl, rfl, .refl node, rfl, (if_pos early).symm, .silent rfl⟩
  · rw [gamPollBasicPollFile, if_neg early]
    have missing : missingAfter poll node =
        match poll.view.stat node.path with
        | .found _ => decide (node.lasttime = 0 ∧ node.pflags.missing = true)
        | .noent => true
        | .failed => decide (node.lasttime = 0 ∨ node.pflags.missing = true) := if_neg early
    -- a first poll tells only of what has gone; a later one compares with what was stored
    split
    case isTrue first =>
      simp only [pollNewFile]
      cases answer : poll.view.stat node.path with
      | found sbuf =>
        simp only [answer, first, true_and, Bool.decide_eq_true] at missing
        exact ⟨_, .written found rfl rfl ⟨rfl, rfl, rfl⟩ rfl missing.symm (.silent rfl)⟩
      | noent =>
        simp only [answer] at missing
        have gone : (poll.view.stat node.path).exists = false := by
          rw [answer]
          rfl
        exact ⟨_, .written found rfl rfl ⟨rfl, rfl, rfl⟩ rfl missing.symm (.deleted (fun _ => ⟨first, gone⟩) rfl)⟩
      | failed =>
        simp only [answer, first, true_or, decide_true] at missing
        have gone : (poll.view.stat node.path).exists = false := by
          rw [answer]
          rfl
        exact ⟨_, .written found rfl rfl ⟨rfl, rfl, rfl⟩ rfl missing.symm (.deleted (fun _ => ⟨first, gone⟩) rfl)⟩
    case isFalse later =>
      simp only [pollKnownFile]
      cases answer : poll.view.stat node.path with
      | found sbuf =>
        simp only [answer, later, false_and, decide_false] at missing
        cases marked : node.pflags.missing with
        | true => exact ⟨_, .written found rfl rfl ⟨rfl, rfl, rfl⟩ rfl missing.symm (.created marked rfl)⟩
        | false =>
          simp only [Bool.false_eq_true, if_false]
          split
          · exact ⟨_, .written found rfl rfl ⟨rfl, rfl, rfl⟩ rfl (marked.trans missing.symm) (.changed marked marked)⟩
          · exact ⟨_, .written found rfl rfl ⟨rfl, rfl, rfl⟩ rfl (marked.trans missing.symm) (.silent rfl)⟩
      | noent =>
        simp only [answer] at missing
        cases marked : node.pflags.missing with
        | true => exact ⟨_, .written found rfl rfl ⟨rfl, rfl, rfl⟩ rfl (marked.trans missing.symm) (.silent rfl)⟩
        | false =>
          simp only [Bool.false_eq_true, not_false_eq_true, and_self, if_true]
          obtain ⟨nodes, sent⟩ := gamPollGenericAddMissing_nodes (gamPollGenericRemoveBusy
            (poll.called.setNode { node with
              pflags := { MonFlags.none with missing := true }, sbuf := .zero, lasttime := poll.currentTime })
            node.path) node.path
          refine ⟨_, .written found nodes sent ⟨rfl, rfl, rfl⟩ rfl missing.symm (.deleted (fun isMarked => ?_) rfl)⟩
          rw [marked] at isMarked
          contradiction
      | failed =>
        simp only [answer, later, false_or, Bool.decide_eq_true] at missing
        simp only [reduceCtorEq, false_and, if_false]
        exact ⟨_, .written found rfl rfl ⟨rfl, rfl, rfl⟩ rfl missing.symm (.silent rfl)⟩

theorem Polled.subsAt {event : Option GaminEventType} (polled : Polled poll node next after event)
    (found : gamTreeGetAtPath poll node.path = some node) (path : Bytes) :
    subsAt after path = subsAt poll path := by
  by_cases here : path = node.path
  · rw [here, Polling.subsAt, polled.here, Polling.subsAt, found, Option.map_some, Option.map_some,
      polled.rewrites.subs]
  · rw [Polling.subsAt, polled.elsewhere here, Polling.subsAt]

theorem gamNodeEmitEvent_nodes (poll : Poll) (path : Bytes) (event : Option GaminEventType) :
    (gamNodeEmitEvent poll path event).nodes = poll.nodes := by
  unfold gamNodeEmitEvent
  split <;> rfl

theorem subsAt_congr {path : Bytes} (nodes : after.nodes = poll.nodes) : subsAt after path = subsAt poll path := by
  rw [Polling.subsAt, gamTreeGetAtPath, nodes, ← gamTreeGetAtPath, Polling.subsAt]

end

/-! ## The rule -/

/-- What a scan keeps, if the guard is met where it polls a node: a node that is known is reported on, a new one
is announced. -/
structure AnnounceRule (guard : WriteGuard) (property : Poll → Prop) : Prop where
  still : ∀ {poll after}, after.nodes = poll.nodes → after.sent = poll.sent → property poll → property after
  entered : ∀ {poll child}, child.subs = [] → child.newNode = true → property poll → property (gamTreeAdd poll child)
  reported : ∀ {poll node}, Spelled poll → gamTreeGetAtPath poll node.path = some node →
    guard.polls poll node = true → node.newNode = false → property poll →
    property (gamNodeEmitEvent (gamPollBasicPollFile poll node).1 node.path (gamPollBasicPollFile poll node).2)
  announced : ∀ {poll node next}, Spelled poll → gamTreeGetAtPath poll node.path = some node →
    guard.polls poll node = true → node.newNode = true → node.pflags.missing = false →
    Polled poll node next (gamPollBasicPollFile poll node).1 (gamPollBasicPollFile poll node).2 → property poll →
    property (gamNodeEmitEvent ((gamPollBasicPollFile poll node).1.setNode { next with newNode := false }) node.path
      (some .created))

/-- Nothing has to be kept. -/
theorem announceRule_true : AnnounceRule .free fun _ => True where
  still _ _ holds := holds
  entered _ _ holds := holds
  reported _ _ _ _ holds := holds
  announced _ _ _ _ _ _ holds := holds

/-- The state of a scan, and which nodes may still wait to be announced. -/
structure Telling (property : Poll → Prop) (waits : GamNode → Prop) (poll : Poll) : Prop where
  holds : property poll
  rooted : Rooted poll
  spelled : Spelled poll
  waiting : ∀ node ∈ poll.nodes, node.newNode = true → waits node ∧ node.subs = [] ∧ node.pflags.missing = false

/-- No node waits. -/
def noneWaits (_ : GamNode) : Prop := False

section

variable {guard : WriteGuard} {property : Poll → Prop} {waits : GamNode → Prop} {poll after : Poll}

theorem Telling.imp {others : GamNode → Prop} (telling : Telling property waits poll)
    (implies : ∀ node ∈ poll.nodes, waits node → others node) : Telling property others poll :=
  { telling with
    waiting := fun node member new =>
      (telling.waiting node member new).imp_left (implies node member) }

theorem Telling.announced_of_none (telling : Telling property noneWaits poll) {node : GamNode}
    (member : node ∈ poll.nodes) : node.newNode = false := by
  by_contra new
  exact (telling.waiting node member (eq_true_of_ne_false new)).1

theorem Telling.of_nodes (rule : AnnounceRule guard property) (telling : Telling property waits poll)
    (advanced : Advanced poll after) (nodes : after.nodes = poll.nodes) (sent : after.sent = poll.sent) :
    Telling property waits after where
  holds := rule.still nodes sent telling.holds
  rooted := telling.rooted.elsewhere nodes
  spelled := telling.spelled.elsewhere advanced nodes sent
  waiting := nodes ▸ telling.waiting

theorem Telling.called (rule : AnnounceRule guard property) (telling : Telling property waits poll) :
    Telling property waits poll.called := telling.of_nodes rule (advanced_called poll) rfl rfl

/-! ## A node -/

/-- After a poll there are the node that has been polled, and the others. -/
theorem Polled.mem {node next : GamNode} {event : Option GaminEventType} (polled : Polled poll node next after event)
    (distinct : after.paths.Nodup) {other : GamNode} (member : other ∈ after.nodes) :
    other = next ∨ other.path ≠ node.path ∧ other ∈ poll.nodes := by
  have found := gamTreeGetAtPath_of_mem distinct member
  by_cases here : other.path = node.path
  · rw [here, polled.here] at found
    exact .inl (Option.some.inj found).symm
  · rw [polled.elsewhere here] at found
    exact .inr ⟨here, gamTreeGetAtPath_mem found⟩

section

variable (rule : AnnounceRule guard property)

include rule

theorem Telling.reported {node : GamNode} (telling : Telling property waits poll)
    (found : gamTreeGetAtPath poll node.path = some node) (announced : node.newNode = false)
    (asked : guard.polls poll node = true) :
    Telling property (fun other => other.path ≠ node.path ∧ waits other)
      (gamNodeEmitEvent (gamPollBasicPollFile poll node).1 node.path (gamPollBasicPollFile poll node).2) := by
  have rooted := basicRule_rooted.polled found rfl telling.rooted
  have spelled := basicRule_spelled.polled found rfl telling.spelled
  refine ⟨rule.reported telling.spelled found asked announced telling.holds,
    basicRule_rooted.emitted _ _ rooted, basicRule_spelled.emitted _ _ spelled, fun other member new => ?_⟩
  obtain ⟨next, polled⟩ := gamPollBasicPollFile_polled found
  rw [gamNodeEmitEvent_nodes] at member
  rcases polled.mem rooted.distinct member with rfl | ⟨different, memberBefore⟩
  · rw [polled.newNode, announced] at new
    contradiction
  · exact (telling.waiting other memberBefore new).imp_left fun waits => ⟨different, waits⟩

theorem Telling.announced {node next : GamNode} (telling : Telling property waits poll)
    (found : gamTreeGetAtPath poll node.path = some node) (new : node.newNode = true)
    (asked : guard.polls poll node = true)
    (polled : Polled poll node next (gamPollBasicPollFile poll node).1 (gamPollBasicPollFile poll node).2) :
    Telling property (fun other => other.path ≠ node.path ∧ waits other) (gamNodeEmitEvent
      ((gamPollBasicPollFile poll node).1.setNode { next with newNode := false }) node.path (some .created)) := by
  have unmarked := (telling.waiting node (gamTreeGetAtPath_mem found) new).2.2
  have here : gamTreeGetAtPath (gamPollBasicPollFile poll node).1 next.path = some next := by
    rw [polled.rewrites.path]
    exact polled.here
  have rooted := basicRule_rooted.polled found rfl telling.rooted
  have spelled := basicRule_spelled.polled found rfl telling.spelled
  refine ⟨rule.announced telling.spelled found asked new unmarked polled telling.holds,
    basicRule_rooted.emitted _ _ (basicRule_rooted.cleared here rooted),
    basicRule_spelled.emitted _ _ (basicRule_spelled.cleared here spelled), fun other member newOther => ?_⟩
  rw [gamNodeEmitEvent_nodes] at member
  obtain ⟨earlier, memberAfter, rfl⟩ := List.mem_map.mp member
  split at newOther
  case isTrue => contradiction
  case isFalse different =>
    rw [if_neg different]
    have elsewhere : earlier.path ≠ node.path := polled.rewrites.path ▸ different
    rcases polled.mem rooted.distinct memberAfter with rfl | ⟨_, memberBefore⟩
    · exact absurd polled.rewrites.path elsewhere
    · exact (telling.waiting earlier memberBefore newOther).imp_left fun waits => ⟨elsewhere, waits⟩

/-- A child of a scanned node; a new one is not scanned in its turn, for nobody can have subscribed to it. -/
theorem Telling.scanChild {path : Bytes} (telling : Telling property waits poll)
    {rescan : Bytes → Poll → Poll} {rescanSafe : Bytes → Poll → Bool} {scannedIsDir : Poll → Bool}
    (safe : scanChildSafe guard gamPollBasicPollFile rescanSafe scannedIsDir poll path = true) :
    Telling property (fun other => other.path ≠ path ∧ waits other)
      (scanChildOf gamPollBasicPollFile rescan scannedIsDir poll path) := by
  unfold scanChildSafe at safe
  unfold scanChildOf
  cases found : gamTreeGetAtPath poll path with
  | none =>
    refine telling.imp fun other member waits => ⟨?_, waits⟩
    rintro rfl
    rw [gamTreeGetAtPath_of_mem telling.rooted.distinct member] at found
    contradiction
  | some node =>
    have here := gamTreeGetAtPath_path found
    subst here
    simp only [found, Bool.and_eq_true] at safe ⊢
    obtain ⟨next, polled⟩ := gamPollBasicPollFile_polled found
    simp only [polled.here]
    cases new : node.newNode with
    | true =>
      have bare := (telling.waiting node (gamTreeGetAtPath_mem found) new).2.1
      rw [if_pos (polled.newNode.trans new), if_neg fun waiting => waiting.2 (polled.rewrites.subs.trans bare)]
      exact telling.announced rule found new safe.1 polled
    | false =>
      rw [if_neg (ne_true_of_eq_false (polled.newNode.trans new))]
      exact telling.reported rule found new safe.1

/-- A walk over the children announces all that wait. -/
theorem Telling.scanChildren {paths : List Bytes}
    (telling : Telling property (fun node => node.path ∈ paths) poll) {rescan : Bytes → Poll → Poll}
    {rescanSafe : Bytes → Poll → Bool} {scannedIsDir : Poll → Bool}
    (safe : along (scanChildOf gamPollBasicPollFile rescan scannedIsDir)
      (scanChildSafe guard gamPollBasicPollFile rescanSafe scannedIsDir) poll paths = true) :
    Telling property noneWaits (paths.foldl (scanChildOf gamPollBasicPollFile rescan scannedIsDir) poll) := by
  induction paths generalizing poll with
  | nil => exact telling.imp fun _ _ waits => absurd waits List.not_mem_nil
  | cons path paths inductionHypothesis =>
    rw [along, Bool.and_eq_true] at safe
    refine inductionHypothesis ?_ safe.2
    exact (telling.scanChild rule safe.1).imp fun node _ waits => (List.mem_cons.mp waits.2).resolve_left waits.1

/-! ## New nodes -/

/-- The nodes that wait are below the directory. -/
def WaitingBelow (dirPath : Bytes) (poll : Poll) : Prop :=
  ∀ node ∈ poll.nodes, node.newNode = true →
    node.parent = some dirPath ∧ node.subs = [] ∧ node.pflags.missing = false

theorem WaitingBelow.scanName {dirPath : Bytes} (waiting : WaitingBelow dirPath poll) (holds : property poll)
    (first : Bytes) : property (scanName dirPath poll first) ∧ WaitingBelow dirPath (scanName dirPath poll first) := by
  unfold Polling.scanName
  extract_lets path isDir called
  split
  case isTrue => exact ⟨holds, waiting⟩
  case isFalse =>
    have nodes : called.nodes = poll.nodes := rfl
    have holdsCalled := rule.still nodes rfl holds
    refine ⟨rule.entered rfl rfl holdsCalled, fun node member new => ?_⟩
    unfold gamTreeAdd at member
    split at member
    · exact waiting node member new
    · cases List.mem_append.mp member with
      | inl old => exact waiting node old new
      | inr added =>
        rw [List.mem_singleton.mp added]
        exact ⟨rfl, rfl, rfl⟩

/-- The names that a scan reads get nodes that wait below the directory. -/
theorem Telling.scanNames (telling : Telling property noneWaits poll) {dirPath : Bytes}
    (there : (gamTreeGetAtPath poll dirPath).isSome) {names : List Bytes}
    (listing : poll.view.listing dirPath = some names) :
    Telling property (fun node => node.parent = some dirPath) (names.foldl (scanName dirPath) poll.called) := by
  have thereCalled : (gamTreeGetAtPath poll.called dirPath).isSome := there
  have free := @along_free _ _ (scanName dirPath) (scanNameSafe .free dirPath) (fun _ _ => Bool.or_true _)
    poll.called names
  have rooted := basicRule_rooted.scanNames thereCalled
    (fun _ member => ⟨poll, names, telling.rooted, listing, member⟩) free (telling.called rule).rooted
  have spelled := basicRule_spelled.scanNames thereCalled
    (fun _ member => ⟨poll, names, telling.spelled, listing, member⟩) free (telling.called rule).spelled
  have each (names : List Bytes) (poll : Poll) (holds : property poll) (waiting : WaitingBelow dirPath poll) :
      property (names.foldl (scanName dirPath) poll) ∧
        WaitingBelow dirPath (names.foldl (scanName dirPath) poll) := by
    induction names generalizing poll with
    | nil => exact ⟨holds, waiting⟩
    | cons first names inductionHypothesis =>
      obtain ⟨holdsNext, waitingNext⟩ := waiting.scanName rule holds first
      exact inductionHypothesis _ holdsNext waitingNext
  obtain ⟨holds, waiting⟩ := each names poll.called (telling.called rule).holds fun node member new =>
    absurd new (ne_true_of_eq_false (telling.announced_of_none member))
  exact ⟨holds, rooted, spelled, waiting⟩

/-! ## Directories and lists -/

theorem Telling.scanDirectory {depth : Nat} {dirPath : Bytes} (telling : Telling property noneWaits poll)
    (safe : scanDirectorySafe guard gamPollBasicPollFile depth dirPath poll = true) :
    Telling property noneWaits
      (gamPollGenericScanDirectoryInternal gamPollBasicPollFile depth dirPath poll) := by
  cases depth with
  | zero => exact telling
  | succ depth =>
    unfold scanDirectorySafe at safe
    unfold gamPollGenericScanDirectoryInternal
    extract_lets filesSafe at safe
    extract_lets scanFiles
    have files {next : Poll} (safe : filesSafe next = true)
        (telling : Telling property (fun node => node.parent = some dirPath) next) :
        Telling property noneWaits (scanFiles next) := by
      refine Telling.scanChildren rule ?_ safe
      exact telling.imp fun node member isChild => mem_gamTreeGetChildren.mpr ⟨node, member, isChild, rfl⟩
    cases found : gamTreeGetAtPath poll dirPath with
    | none => exact telling
    | some dirNode =>
      simp only [found] at safe ⊢
      split
      case isTrue unsubscribed =>
        rw [if_pos unsubscribed] at safe
        exact files safe (telling.imp fun _ _ => False.elim)
      case isFalse subscribed =>
        rw [if_neg subscribed] at safe
        split
        case isTrue => exact telling
        case isFalse late =>
          rw [if_neg late, Bool.and_eq_true] at safe
          obtain ⟨asked, later⟩ := safe
          have here := gamTreeGetAtPath_path found
          subst here
          -- the directory is polled and reported first, then its names, then its files
          have emitted := (telling.reported rule found
            (telling.announced_of_none (gamTreeGetAtPath_mem found)) asked).imp fun _ _ waits => waits.2
          have there : (gamTreeGetAtPath (gamNodeEmitEvent (gamPollBasicPollFile poll dirNode).1 dirNode.path
              (gamPollBasicPollFile poll dirNode).2) dirNode.path).isSome := by
            have same := (gamPollBasicPollFile_keeps.at_path found).gamNodeEmitEvent dirNode.path
              (gamPollBasicPollFile poll dirNode).2
            exact same.isSome (Option.isSome_of_eq_some found)
          cases listing : (gamNodeEmitEvent (gamPollBasicPollFile poll dirNode).1 dirNode.path
              (gamPollBasicPollFile poll dirNode).2).view.listing dirNode.path with
          | none => exact emitted.called rule
          | some names =>
            simp only [listing, Bool.and_eq_true] at later ⊢
            exact files later.2 (emitted.scanNames rule there listing)

theorem Telling.scanNode {path : Bytes} (telling : Telling property noneWaits poll)
    (safe : scanNodeSafe guard poll path = true) :
    Telling property noneWaits (scanNode poll path) := by
  unfold scanNodeSafe at safe
  unfold Polling.scanNode
  cases found : gamTreeGetAtPath poll path with
  | none => exact telling
  | some node =>
    simp only [found] at safe ⊢
    split
    case isTrue isDir =>
      rw [if_pos isDir] at safe
      exact telling.scanDirectory rule safe
    case isFalse file =>
      rw [if_neg file] at safe
      have here := gamTreeGetAtPath_path found
      subst here
      exact (telling.reported rule found (telling.announced_of_none (gamTreeGetAtPath_mem found)) safe).imp
        fun _ _ waits => waits.2

theorem Telling.scanAll {rounds idx : Nat} (telling : Telling property noneWaits poll)
    (safe : scanAllSafe guard rounds idx poll = true) :
    Telling property noneWaits (scanAll rounds idx poll) := by
  induction rounds generalizing idx poll with
  | zero => exact telling
  | succ rounds inductionHypothesis =>
    unfold scanAllSafe at safe
    unfold Polling.scanAll
    cases next : poll.all[idx]? with
    | none => exact telling
    | some path =>
      simp only [next, Bool.and_eq_true] at safe
      exact inductionHypothesis (telling.scanNode rule safe.1) safe.2

theorem Telling.scanMissingNode {path : Bytes} (telling : Telling property noneWaits poll)
    (safe : scanNodeSafe guard poll path = true) :
    Telling property noneWaits (scanMissingNode poll path) := by
  have scanned := telling.scanNode rule safe
  unfold Polling.scanMissingNode
  dsimp only
  split
  · exact scanned
  · split
    · exact scanned
    · -- only the lists change
      unfold gamPollGenericAdd
      split
      · exact scanned.of_nodes rule (.refl _) rfl rfl
      · exact scanned.of_nodes rule (.refl _) rfl rfl

theorem Telling.scanMissing {rounds idx : Nat} (telling : Telling property noneWaits poll)
    (safe : scanMissingSafe guard rounds idx poll = true) :
    Telling property noneWaits (scanMissing rounds idx poll) := by
  induction rounds generalizing idx poll with
  | zero => exact telling
  | succ rounds inductionHypothesis =>
    unfold scanMissingSafe at safe
    unfold Polling.scanMissing
    cases next : poll.missing[idx]? with
    | none => exact telling
    | some path =>
      simp only [next, Bool.and_eq_true] at safe
      exact inductionHypothesis (telling.scanMissingNode rule safe.1) safe.2

theorem Telling.scanCallback {now rounds : Nat} (telling : Telling property noneWaits poll)
    (safe : scanCallbackSafe guard poll now rounds = true) :
    Telling property noneWaits (gamPollBasicScanCallback poll now rounds) := by
  obtain ⟨safeAll, safeMissing⟩ := Bool.and_eq_true_iff.mp safe
  have clock : Telling property noneWaits { poll with currentTime := now } := telling.of_nodes rule (.refl poll) rfl rfl
  exact (clock.scanAll rule safeAll).scanMissing rule safeMissing

end

end

end Gamin.Polling
