import Gamin.Polling.InitialEvents
import Gamin.Polling.ListedNodes
import Gamin.Polling.Places

/-! # The walks of the scan callbacks

The scan callbacks go through the resource lists by index, since what they do with a node may change the
list: nodes that are there again come off it, and nodes that have gone come on in front.  Those that come
off in front of the index move all others up, and the walk passes over as many.
-/

namespace Gamin.Polling

open Gamin Gamin.Server Gamin.Inotify Gamin.Library

/-! ## Who is examined -/

/-- The node is not polled. -/
def WriteGuard.avoids (path : Bytes) : WriteGuard where
  polls _ node := node.path ≠ path
  adds _ _ := true
  misses _ _ := true

/-- The scan callback comes to the node, or polls it when it scans a directory. -/
def basicExamines (poll : Poll) (visited path : Bytes) : Prop :=
  visited = path ∨ scanNodeSafe (.avoids path) poll visited = false

def dnotifyExamines (handler : Bool) (poll : Poll) (visited path : Bytes) : Prop :=
  visited = path ∨ dnotifyScanNodeSafe (.avoids path) handler poll visited = false

/-- Along the scan of an entry of the list of busy nodes, where the root is the empty path. -/
def busyEntrySafe (guard : WriteGuard) (handler : Bool) (poll : Poll) (visited : Bytes) : Bool :=
  if visited = [] then scanRootSafe guard (gamPollDnotifyPollFile handler) poll
  else dnotifyScanNodeSafe guard handler poll visited

def dnotifyBusyExamines (handler : Bool) (poll : Poll) (visited path : Bytes) : Prop :=
  visited = path ∨ busyEntrySafe (.avoids path) handler poll visited = false

/-- What is done with an entry of the list of busy nodes. -/
def dnotifyScanBusyEntry (handler : Bool) (poll : Poll) (path : Bytes) : Poll :=
  if path = [] then dnotifyScanBusyRoot handler poll else dnotifyScanBusyNode handler poll path

/-! ## The callbacks as walks -/

theorem scanAll_walk (rounds idx : Nat) (poll : Poll) :
    scanAll rounds idx poll = walk Poll.all scanNode rounds idx poll :=
  eq_walk (fun _ _ => rfl) (fun _ _ _ past => by simp only [scanAll, past])
    (fun _ _ _ _ next => by simp only [scanAll, next]) rounds idx poll

theorem scanMissing_walk (rounds idx : Nat) (poll : Poll) :
    scanMissing rounds idx poll = walk Poll.missing scanMissingNode rounds idx poll :=
  eq_walk (fun _ _ => rfl) (fun _ _ _ past => by simp only [scanMissing, past])
    (fun _ _ _ _ next => by simp only [scanMissing, next]) rounds idx poll

theorem dnotifyScanMissing_walk (handler : Bool) (rounds idx : Nat) (poll : Poll) :
    dnotifyScanMissing handler rounds idx poll = walk Poll.missing (dnotifyScanMissingNode handler) rounds idx poll :=
  eq_walk (fun _ _ => rfl) (fun _ _ _ past => by simp only [dnotifyScanMissing, past])
    (fun _ _ _ _ next => by simp only [dnotifyScanMissing, next]) rounds idx poll

theorem dnotifyScanBusy_walk (handler : Bool) (rounds idx : Nat) (poll : Poll) :
    dnotifyScanBusy handler rounds idx poll = walk Poll.busy (dnotifyScanBusyEntry handler) rounds idx poll :=
  eq_walk (fun _ _ => rfl) (fun _ _ _ past => by simp only [dnotifyScanBusy, past])
    (fun _ _ _ _ next => by simp only [dnotifyScanBusy, next, dnotifyScanBusyEntry]) rounds idx poll

/-! ## What a scan does to the lists -/

/-- The lists are the same, and no mark is lost. -/
structure SameLists (before after : Poll) : Prop where
  missing : after.missing = before.missing
  busy : after.busy = before.busy
  all : after.all = before.all
  rootBusy : after.rootBusy = before.rootBusy
  marks : MarksRise before after
  views : Advanced before after

theorem sameLists_gamTreeAdd (poll : Poll) (child : GamNode) : SameLists poll (gamTreeAdd poll child) where
  missing := by
    unfold gamTreeAdd
    split <;> rfl
  busy := by
    unfold gamTreeAdd
    split <;> rfl
  all := by
    unfold gamTreeAdd
    split <;> rfl
  rootBusy := by
    unfold gamTreeAdd
    split <;> rfl
  marks := marksRise_gamTreeAdd poll child
  views := by
    unfold gamTreeAdd
    split <;> exact .refl poll

/-- Only a poll changes the lists. -/
theorem scanRule_of_lists {pollFile : PollFile} {guard : WriteGuard} {property : Poll → Prop}
    (hook : KeepingHook pollFile) (lists : ∀ {poll after}, SameLists poll after → property poll → property after)
    (polled : ∀ {poll node}, gamTreeGetAtPath poll node.path = some node → guard.polls poll node = true →
      property poll → property (pollFile poll node).1) :
    ScanRule pollFile guard property where
  hook := hook
  called {poll} holds := by
    have same : SameLists poll poll.called := ⟨rfl, rfl, rfl, rfl, .of_nodes rfl, advanced_called poll⟩
    exact lists same holds
  emitted {poll} path event holds := by
    refine lists ?_ holds
    unfold gamNodeEmitEvent
    split <;> exact ⟨rfl, rfl, rfl, rfl, .of_nodes rfl, .refl poll⟩
  polled := polled
  entered _ _ _ _ _ _ _ holds := lists (sameLists_gamTreeAdd _ _) holds
  cleared {poll node} found holds := by
    have marks : MarksRise poll (poll.setNode { node with newNode := false }) := marksRise_setNode found rfl (.refl _)
    have same : SameLists poll (poll.setNode { node with newNode := false }) := ⟨rfl, rfl, rfl, rfl, marks, .refl poll⟩
    exact lists same holds

/-! ## One visit -/

/-- Those stay that the walk has been through, and one that waits. -/
def UpTo (walked : List Bytes) (path item : Bytes) : Prop := item ∈ walked ∨ item = path

/-- None of those is found again that the walk has been through. -/
def WriteGuard.nobodyBack (walked : List Bytes) : WriteGuard where
  polls poll node := node.path ∉ walked || !comesBack poll node
  adds _ _ := true
  misses _ _ := true

/-- The node that is visited is not there: it has been missing, or the visit begins with a poll that finds out. -/
def visitedAway (poll : Poll) (visited : Bytes) (mark : MonFlags → Bool) : Bool :=
  (gamTreeGetAtPath poll visited).all fun node =>
    mark node.pflags || (goesAway poll node && (!node.isDir || node.subs ≠ []))

section

variable {handler : Bool} {poll : Poll} {walked : List Bytes} {visited path : Bytes}

theorem pollKept_all (list : List Bytes) : PollKept fun poll => poll.all = list where
  write write same := write.all.trans same
  setNode _ _ same := same

/-- A visit of a node that is not missing changes nothing about the list. -/
theorem scanNode_all (poll : Poll) (visited : Bytes) : (scanNode poll visited).all = poll.all := by
  have rule : ScanRule gamPollBasicPollFile .free fun next => next.all = poll.all :=
    scanRule_of_lists gamPollBasicPollFile_keeps (fun same holds => same.all.trans holds) fun found _ holds =>
      (pollKept_all poll.all).polled gamPollBasicPollFile_writing found holds
  exact rule.scanNode (WriteGuard.free_easy.scanNode poll visited) rfl

theorem rising_missing : Rising (·.missing) := fun _ _ within => within.1

/-! ### Missing nodes of the basic backend -/

theorem nobodyBack_rule (start : Poll) (member : visited ∈ walked) :
    ScanRule gamPollBasicPollFile ((WriteGuard.nobodyBack walked).both (.avoids path)) fun poll =>
      StaysIn (UpTo walked path) start.missing poll.missing ∧ markedAt (·.missing) poll visited = true :=
  scanRule_of_lists gamPollBasicPollFile_keeps
    (fun same holds => ⟨same.missing ▸ holds.1, rising_missing.markedAt same.marks holds.2⟩)
    fun {poll node} found asked holds => by
      obtain ⟨away, avoids⟩ := Bool.and_eq_true_iff.mp asked
      have away (inside : node.path ∈ walked) : comesBack poll node = false := by
        simpa [WriteGuard.nobodyBack, inside] using away
      have polled := gamPollBasicPollFile_lists found
      refine ⟨holds.1.trans (polled.missing _ fun stays => ?_), polled.marks visited (fun here => ?_) holds.2⟩
      · exact away (stays.resolve_right (of_decide_eq_true avoids))
      · exact away (here ▸ member)

theorem staysIn_scanMissingNode (member : visited ∈ walked) (away : visitedAway poll visited (·.missing) = true)
    (safe : scanNodeSafe (.nobodyBack walked) poll visited = true)
    (unpolled : scanNodeSafe (.avoids path) poll visited = true) :
    StaysIn (UpTo walked path) poll.missing (scanMissingNode poll visited).missing := by
  have both : scanNodeSafe ((WriteGuard.nobodyBack walked).both (.avoids path)) poll visited = true := by
    rw [scanNodeSafe_both, safe, unpolled, Bool.and_self]
  have rule := @nobodyBack_rule walked visited path poll member
  cases found : gamTreeGetAtPath poll visited with
  | none =>
    have same : scanNode poll visited = poll := by rw [scanNode, found]
    rw [scanMissingNode, same, found]
    exact .refl _ _
  | some node =>
    obtain rfl := gamTreeGetAtPath_path found
    have scanned : StaysIn (UpTo walked path) poll.missing (scanNode poll node.path).missing ∧
        markedAt (·.missing) (scanNode poll node.path) node.path = true := by
      rw [visitedAway, found, Option.all_some, Bool.or_eq_true] at away
      cases away with
      | inl missing => exact rule.scanNode both ⟨.refl _ _, (markedAt_found found).trans missing⟩
      | inr goes =>
        obtain ⟨goes, first⟩ := Bool.and_eq_true_iff.mp goes
        obtain ⟨late, _⟩ := compares_iff.mp (of_decide_eq_true goes).1
        refine rule.scanNodePolled found (fun isDir => by simpa [isDir] using first) late both ?_
        refine ⟨(gamPollBasicPollFile_lists found).missing _ fun _ => ?_, gamPollBasicPollFile_gone found goes⟩
        -- it has not been missing
        simp [comesBack, (of_decide_eq_true goes).2.1]
    obtain ⟨stays, marked⟩ := scanned
    obtain ⟨last, foundLast, missing⟩ := markedAt_iff.mp marked
    rw [scanMissingNode]
    simp only [foundLast, missing, if_true]
    exact stays

/-! ### Missing nodes beside dnotify -/

/-- A node that is missing, or never left to the kernel, or of the wrong type. -/
def MonFlags.special (flags : MonFlags) : Bool := flags.missing || flags.nokernel || flags.wrongType

theorem rising_special : Rising MonFlags.special := by
  intro flags more within special
  simp only [MonFlags.special, Bool.or_eq_true] at special ⊢
  exact special.imp (.imp within.1 within.2.1) within.2.2.2

/-- The node that is visited is not found again, unless for another reason it is not left to the kernel. -/
def WriteGuard.keepsAway (visited : Bytes) : WriteGuard where
  polls poll node := node.path ≠ visited || !comesBack poll node || node.pflags.nokernel || node.pflags.wrongType
  adds _ _ := true
  misses _ _ := true

/-- No answer leaves the path to the kernel. -/
def NeverKernel (poll : Poll) (path : Bytes) : Prop :=
  ∀ call, (poll.views call).excluded path = true ∨ (poll.views call).monType path ≠ .kernel

theorem NeverKernel.advanced {after : Poll} (never : NeverKernel poll path) (views : Advanced poll after) :
    NeverKernel after path := by
  obtain ⟨calls, same⟩ := views
  intro call
  rw [same]
  exact never (call + calls)

theorem NeverKernel.kernelMonitored (never : NeverKernel poll path) : kernelMonitored poll path = false := by
  have here := never 0
  rw [← Poll.view] at here
  simpa [Polling.kernelMonitored, Decidable.or_iff_not_imp_left] using here

theorem pollKept_neverKernel (path : Bytes) : PollKept fun poll => NeverKernel poll path where
  write write never := never.advanced write.advanced
  setNode _ _ never := never

/-- The node that is visited does not come off the list of missing nodes. -/
def StaysMissing (handler : Bool) (poll : Poll) (visited : Bytes) : Prop :=
  NeverKernel poll visited ∨
    visitedAway poll visited MonFlags.special = true ∧
      dnotifyScanNodeSafe (.keepsAway visited) handler poll visited = true

theorem dnotifyMissing_rule (handler : Bool) (guard : WriteGuard) (start : Poll) (stay : Bytes → Prop) :
    ScanRule (gamPollDnotifyPollFile handler) guard fun poll => StaysIn stay start.missing poll.missing :=
  scanRule_of_lists (gamPollDnotifyPollFile_keeps handler) (fun same stays => by rwa [same.missing])
    fun found _ stays => stays.trans ((gamPollDnotifyPollFile_lists handler found).missing stay)

theorem neverKernel_rule (handler : Bool) (guard : WriteGuard) (path : Bytes) :
    ScanRule (gamPollDnotifyPollFile handler) guard fun poll => NeverKernel poll path :=
  scanRule_of_lists (gamPollDnotifyPollFile_keeps handler) (fun same never => never.advanced same.views)
    fun found _ never => (pollKept_neverKernel path).polled (gamPollDnotifyPollFile_writing handler) found never

theorem keepsAway_rule (handler : Bool) (visited : Bytes) :
    ScanRule (gamPollDnotifyPollFile handler) (.keepsAway visited) fun poll =>
      markedAt MonFlags.special poll visited = true :=
  scanRule_of_lists (gamPollDnotifyPollFile_keeps handler) (fun same => rising_special.markedAt same.marks)
    fun {poll node} found asked marked => by
      refine (gamPollDnotifyPollFile_lists handler found).marks _ visited rising_special ⟨fun here back => ?_,
        fun _ _ => rfl, fun here _ => ?_, fun _ _ flags => id⟩ marked
      · simpa [WriteGuard.keepsAway, here, back, MonFlags.special] using asked
      · have special : node.pflags.special = true := (markedAt_found (here ▸ found)).symm.trans marked
        exact special

/-- The visited node is still marked after its scan. -/
theorem markedAt_dnotifyScanNode {node : GamNode} (found : gamTreeGetAtPath poll node.path = some node)
    (away : visitedAway poll node.path MonFlags.special = true)
    (safe : dnotifyScanNodeSafe (.keepsAway node.path) handler poll node.path = true) :
    markedAt MonFlags.special (dnotifyScanNode handler poll node.path) node.path = true := by
  have rule := keepsAway_rule handler node.path
  rw [visitedAway, found, Option.all_some, Bool.or_eq_true] at away
  cases away with
  | inl special => exact rule.dnotifyScanNode safe ((markedAt_found found).trans special)
  | inr goes =>
    obtain ⟨goes, first⟩ := Bool.and_eq_true_iff.mp goes
    obtain ⟨late, _⟩ := compares_iff.mp (of_decide_eq_true goes).1
    exact rule.dnotifyScanNodePolled found (fun isDir => by simpa [isDir] using first) late safe
      (gamPollDnotifyPollFile_gone handler found goes rising_special rfl)

theorem staysIn_dnotifyScanMissingNode (member : visited ∈ walked) (stays : StaysMissing handler poll visited) :
    StaysIn (UpTo walked path) poll.missing (dnotifyScanMissingNode handler poll visited).missing := by
  have scanned := (dnotifyMissing_rule handler .free poll (UpTo walked path)).dnotifyScanNode
    (WriteGuard.free_easy.dnotifyScanNode handler poll visited) (.refl _ _)
  simp only [dnotifyScanMissingNode]
  cases foundLast : gamTreeGetAtPath (dnotifyScanNode handler poll visited) visited with
  | none => exact scanned
  | some last =>
    -- it is not left to the kernel
    have kept : ¬ (last.pflags = .none ∧ kernelMonitored (dnotifyScanNode handler poll visited) visited = true) := by
      rintro ⟨calm, kernel⟩
      cases stays with
      | inl never =>
        have still := (neverKernel_rule handler .free visited).dnotifyScanNode
          (WriteGuard.free_easy.dnotifyScanNode handler poll visited) never
        exact Bool.noConfusion (still.kernelMonitored.symm.trans kernel)
      | inr marked =>
        cases found : gamTreeGetAtPath poll visited with
        | none =>
          have same : dnotifyScanNode handler poll visited = poll := by rw [dnotifyScanNode, found]
          rw [same, found] at foundLast
          contradiction
        | some node =>
          obtain rfl := gamTreeGetAtPath_path found
          have special := markedAt_dnotifyScanNode found marked.1 marked.2
          rw [markedAt_found foundLast, calm] at special
          contradiction
    dsimp only
    rw [if_neg kept]
    exact scanned

/-! ### Busy nodes -/

/-- None of those goes away or calms down that the walk has been through, the visited node does not come back
unmarked, and no file calms down whose directory is on the list. -/
def WriteGuard.nobodyCalm (handler : Bool) (listed walked : List Bytes) (visited : Bytes) : WriteGuard where
  polls poll node :=
    (node.path ∉ walked || !(goesAway poll node || calmsDown poll node)) &&
      (node.path ≠ visited || !comesBack poll node || node.pflags ≠ { MonFlags.none with missing := true }) &&
      (!stopsFlow handler poll node || node.parent.getD [] ∉ listed)
  adds _ _ := true
  misses _ _ := true

/-- What is done with the entry before it may come off the list. -/
def busyEntryScan (handler : Bool) (poll : Poll) (visited : Bytes) : Poll :=
  if visited = [] then gamPollGenericScanRoot (gamPollDnotifyPollFile handler) poll
  else dnotifyScanNode handler poll visited

/-- The entry is not left to the kernel: the root or the node is marked, or the kernel does not have it. -/
def StaysBusy (poll : Poll) (visited : Bytes) : Prop :=
  if visited = [] then NeverKernel poll [slash] ∨ poll.rootBusy = true
  else NeverKernel poll visited ∨ (gamTreeGetAtPath poll visited).all (fun node => node.pflags ≠ .none) = true

/-- A node has some flag. -/
def MonFlags.any (flags : MonFlags) : Bool := flags.missing || flags.nokernel || flags.busy || flags.wrongType

theorem MonFlags.any_iff {flags : MonFlags} : flags.any = true ↔ flags ≠ .none := by
  obtain ⟨missing, nokernel, busy, wrongType⟩ := flags
  revert missing nokernel busy wrongType
  decide

theorem rising_any : Rising MonFlags.any := by
  intro flags more within some
  simp only [MonFlags.any, Bool.or_eq_true] at some ⊢
  exact some.imp (.imp (.imp within.1 within.2.1) within.2.2.1) within.2.2.2

/-- A node that comes back keeps its other flags. -/
theorem any_back {flags : MonFlags} (more : flags ≠ { MonFlags.none with missing := true })
    (was : flags.missing = true) : ({ flags with missing := false } : MonFlags).any = true := by
  obtain ⟨missing, nokernel, busy, wrongType⟩ := flags
  revert missing nokernel busy wrongType
  decide

theorem ScanRule.busyEntry {guard : WriteGuard} {property : Poll → Prop}
    (rule : ScanRule (gamPollDnotifyPollFile handler) guard property)
    (safe : busyEntrySafe guard handler poll visited = true) (holds : property poll) :
    property (busyEntryScan handler poll visited) := by
  unfold busyEntrySafe at safe
  unfold busyEntryScan
  split at safe
  case isTrue root =>
    rw [if_pos root]
    exact rule.scanRoot safe holds
  case isFalse inTree =>
    rw [if_neg inTree]
    exact rule.dnotifyScanNode safe holds

theorem busyEntrySafe_both (guard other : WriteGuard) (poll : Poll) (visited : Bytes) :
    busyEntrySafe (guard.both other) handler poll visited =
      (busyEntrySafe guard handler poll visited && busyEntrySafe other handler poll visited) := by
  unfold busyEntrySafe
  split
  · exact scanRootSafe_both guard other (gamPollDnotifyPollFile handler) poll
  · exact dnotifyScanNodeSafe_both guard other handler poll visited

theorem busyEntrySafe_free (handler : Bool) (poll : Poll) (visited : Bytes) :
    busyEntrySafe .free handler poll visited = true := by
  unfold busyEntrySafe
  split
  · exact WriteGuard.free_easy.scanRoot (gamPollDnotifyPollFile_keeps handler) poll
  · exact WriteGuard.free_easy.dnotifyScanNode handler poll visited

section

variable {listed : List Bytes}

theorem nobodyCalm_polls {node : GamNode}
    (asked : (WriteGuard.nobodyCalm handler listed walked visited).polls poll node = true) :
    (node.path ∈ walked → goesAway poll node = false ∧ calmsDown poll node = false) ∧
      (node.path = visited → comesBack poll node = true → node.pflags ≠ { MonFlags.none with missing := true }) ∧
      (stopsFlow handler poll node = true → node.parent.getD [] ∉ listed) := by
  simp only [WriteGuard.nobodyCalm, Bool.and_eq_true, Bool.or_eq_true, decide_eq_true_eq, Bool.not_eq_true',
    Bool.or_eq_false_iff] at asked
  obtain ⟨⟨away, back⟩, flow⟩ := asked
  refine ⟨fun inside => away.resolve_left (not_not.mpr inside), fun here comes => ?_, fun stops => ?_⟩
  · have notBack := back.resolve_left (not_or.mpr ⟨not_not.mpr here, by simp [comes]⟩)
    exact notBack
  · exact flow.resolve_left (by simp [stops])

/-- Whoever stays on the list is on it. -/
theorem nobodyCalm_rule (start : Poll) (inside : ∀ item, UpTo walked path item → item ∈ listed) :
    ScanRule (gamPollDnotifyPollFile handler)
      ((WriteGuard.nobodyCalm handler listed walked visited).both (.avoids path)) fun poll =>
      StaysIn (UpTo walked path) start.busy poll.busy :=
  scanRule_of_lists (gamPollDnotifyPollFile_keeps handler) (fun same stays => by rwa [same.busy])
    fun {poll node} found asked stays => by
      obtain ⟨asked, avoids⟩ := Bool.and_eq_true_iff.mp asked
      obtain ⟨away, _, flow⟩ := nobodyCalm_polls asked
      refine stays.trans ((gamPollDnotifyPollFile_lists handler found).busy _ (fun here => ?_) fun stops there => ?_)
      · exact away (here.resolve_right (of_decide_eq_true avoids))
      · exact flow stops (inside _ there)

theorem busyMark_rule (handler : Bool) (walkedVisited : visited ∈ walked) (listedVisited : visited ∈ listed) :
    ScanRule (gamPollDnotifyPollFile handler) (.nobodyCalm handler listed walked visited) fun poll =>
      markedAt MonFlags.any poll visited = true :=
  scanRule_of_lists (gamPollDnotifyPollFile_keeps handler) (fun same => rising_any.markedAt same.marks)
    fun {poll node} found asked marked => by
      obtain ⟨away, back, flow⟩ := nobodyCalm_polls asked
      refine (gamPollDnotifyPollFile_lists handler found).marks _ visited rising_any
        ⟨fun here comes => any_back (back here comes) (of_decide_eq_true comes).2.1, fun here goes => ?_,
          fun here calm => ?_, fun stops isParent => ?_⟩ marked
      · exact Bool.noConfusion (goes.symm.trans (away (here ▸ walkedVisited)).1)
      · exact Bool.noConfusion (calm.symm.trans (away (here ▸ walkedVisited)).2)
      · have unlisted := flow stops
        rw [isParent] at unlisted
        exact absurd listedVisited unlisted

theorem rootMark_rule (handler : Bool) (listedRoot : [] ∈ listed) :
    ScanRule (gamPollDnotifyPollFile handler) (.nobodyCalm handler listed walked visited) fun poll =>
      poll.rootBusy = true :=
  scanRule_of_lists (gamPollDnotifyPollFile_keeps handler) (fun same => same.rootBusy.trans)
    fun {poll node} found asked marked => by
      obtain ⟨_, _, flow⟩ := nobodyCalm_polls asked
      refine (gamPollDnotifyPollFile_lists handler found).rootBusy (fun stops isRoot => ?_) marked
      have unlisted := flow stops
      rw [isRoot] at unlisted
      exact unlisted listedRoot

/-- The entry itself does not come off the list. -/
theorem dnotifyScanBusyEntry_scan (walkedVisited : visited ∈ walked) (listedVisited : visited ∈ listed)
    (stays : StaysBusy poll visited)
    (safe : busyEntrySafe (.nobodyCalm handler listed walked visited) handler poll visited = true) :
    dnotifyScanBusyEntry handler poll visited = busyEntryScan handler poll visited := by
  have never {path : Bytes} (never : NeverKernel poll path) :
      kernelMonitored (busyEntryScan handler poll visited) path = false :=
    ((neverKernel_rule handler .free path).busyEntry (busyEntrySafe_free handler poll visited) never).kernelMonitored
  unfold StaysBusy at stays
  unfold dnotifyScanBusyEntry
  split at stays
  case isTrue root =>
    have scan : busyEntryScan handler poll visited = gamPollGenericScanRoot (gamPollDnotifyPollFile handler) poll := by
      rw [busyEntryScan, if_pos root]
    rw [if_pos root, dnotifyScanBusyRoot, ← scan]
    apply if_neg
    rintro ⟨unmarked, kernel⟩
    -- the root is left to the kernel only when its busy flag is gone
    cases stays with
    | inl never' => exact Bool.noConfusion ((never never').symm.trans kernel)
    | inr marked => exact unmarked ((rootMark_rule handler (root ▸ listedVisited)).busyEntry safe marked)
  case isFalse inTree =>
    have scan : busyEntryScan handler poll visited = dnotifyScanNode handler poll visited := by
      rw [busyEntryScan, if_neg inTree]
    rw [if_neg inTree, dnotifyScanBusyNode, ← scan]
    cases foundLast : gamTreeGetAtPath (busyEntryScan handler poll visited) visited with
    | none => rfl
    | some last =>
      apply if_neg
      rintro ⟨calm, kernel⟩
      cases stays with
      | inl never' => exact Bool.noConfusion ((never never').symm.trans kernel)
      | inr marked =>
        cases found : gamTreeGetAtPath poll visited with
        | none =>
          rw [scan, dnotifyScanNode, found, found] at foundLast
          contradiction
        | some node =>
          rw [found, Option.all_some, decide_eq_true_eq] at marked
          have still := (busyMark_rule handler walkedVisited listedVisited).busyEntry safe
            ((markedAt_found found).trans (MonFlags.any_iff.mpr marked))
          exact MonFlags.any_iff.mp ((markedAt_found foundLast).symm.trans still) calm

theorem staysIn_dnotifyScanBusyEntry (walkedVisited : visited ∈ walked)
    (inside : ∀ item, UpTo walked path item → item ∈ listed) (stays : StaysBusy poll visited)
    (safe : busyEntrySafe (.nobodyCalm handler listed walked visited) handler poll visited = true)
    (unpolled : busyEntrySafe (.avoids path) handler poll visited = true) :
    StaysIn (UpTo walked path) poll.busy (dnotifyScanBusyEntry handler poll visited).busy := by
  rw [dnotifyScanBusyEntry_scan walkedVisited (inside _ (.inl walkedVisited)) stays safe]
  have both : busyEntrySafe ((WriteGuard.nobodyCalm handler listed walked visited).both (.avoids path)) handler poll
      visited = true := by
    rw [busyEntrySafe_both, safe, unpolled, Bool.and_self]
  exact (nobodyCalm_rule poll inside).busyEntry both (.refl _ _)

end

end

/-! ## The walks end -/

/-- Every directory shows finitely many names while the callback runs. -/
def FiniteListings (poll : Poll) : Prop :=
  ∀ dir, ∃ names : List Bytes, ∀ call listing, (poll.views call).listing dir = some listing →
    ∀ name ∈ listing, name ∈ names

/-- The paths that there can be: new nodes are entries of directories that somebody has subscribed to. -/
structure Scope where
  known : List Bytes
  dirs : List Bytes
  names : Bytes → List Bytes
  root : [] ∈ known
  closed : ∀ dir ∈ dirs, ∀ name ∈ names dir, gBuildFilename dir name ∈ known

/-- Nothing gets out of the scope, and the lists only get new nodes from it. -/
structure Bounded (scope : Scope) (start poll : Poll) : Prop where
  paths : ∀ node ∈ poll.nodes, node.path ∈ scope.known
  subscribed : ∀ node ∈ poll.nodes, node.subs ≠ [] → node.path ∈ scope.dirs
  listings : ∀ call dir listing, (poll.views call).listing dir = some listing →
    ∀ name ∈ listing, name ∈ scope.names dir
  missing : Confined scope.known start.missing poll.missing
  busy : Confined scope.known start.busy poll.busy

section

variable {scope : Scope} {start poll after : Poll}

theorem Bounded.known (bounded : Bounded scope start poll) {path : Bytes}
    (there : (gamTreeGetAtPath poll path).isSome) : path ∈ scope.known := by
  obtain ⟨node, found⟩ := Option.isSome_iff_exists.mp there
  exact gamTreeGetAtPath_path found ▸ bounded.paths node (gamTreeGetAtPath_mem found)

theorem Bounded.dir (bounded : Bounded scope start poll) {path : Bytes} (subscribed : subsAt poll path ≠ []) :
    path ∈ scope.dirs := by
  obtain ⟨node, found⟩ := Option.isSome_iff_exists.mp (subsAt_known subscribed)
  rw [subsAt, found] at subscribed
  exact gamTreeGetAtPath_path found ▸ bounded.subscribed node (gamTreeGetAtPath_mem found) subscribed

/-- What is neither in the tree nor on these lists does not matter. -/
theorem Bounded.elsewhere (bounded : Bounded scope start poll) (advanced : Advanced poll after)
    (nodes : after.nodes = poll.nodes) (missing : after.missing = poll.missing) (busy : after.busy = poll.busy) :
    Bounded scope start after where
  paths := nodes ▸ bounded.paths
  subscribed := nodes ▸ bounded.subscribed
  listings call := by
    obtain ⟨calls, views⟩ := advanced
    rw [views]
    exact bounded.listings _
  missing := missing ▸ bounded.missing
  busy := busy ▸ bounded.busy

theorem Bounded.gamTreeAdd (bounded : Bounded scope start poll) {child : GamNode} (bare : child.subs = [])
    (known : child.path ∈ scope.known) : Bounded scope start (gamTreeAdd poll child) := by
  unfold Polling.gamTreeAdd
  split
  · exact bounded
  · refine { bounded with paths := fun node member => ?_, subscribed := fun node member listed => ?_ }
    · cases List.mem_append.mp member with
      | inl old => exact bounded.paths node old
      | inr new => exact List.mem_singleton.mp new ▸ known
    · cases List.mem_append.mp member with
      | inl old => exact bounded.subscribed node old listed
      | inr new => exact absurd (List.mem_singleton.mp new ▸ bare) listed

theorem pollKept_bounded (scope : Scope) (start : Poll) : PollKept (Bounded scope start) where
  write {poll _} write bounded := by
    cases write with
    | watches only => exact bounded.elsewhere only.views only.nodes only.missing only.busy
    | missed there new => exact { bounded with missing := bounded.missing.cons (bounded.known there) new }
    | found => exact { bounded with missing := bounded.missing.filter _ }
    | busied there new =>
      have known := there.elim (fun root => root ▸ scope.root) bounded.known
      exact { bounded with busy := bounded.busy.cons known new }
    | settled => exact { bounded with busy := bounded.busy.filter _ }
    | loaded | rootBusy => exact bounded.elsewhere (.refl poll) rfl rfl rfl
  setNode {poll node} place subs bounded := by
    obtain ⟨old, found, _⟩ := Option.map_eq_some_iff.mp place
    refine { bounded with paths := fun other member => ?_, subscribed := fun other member => ?_ }
    · obtain ⟨earlier, memberEarlier, rfl⟩ := List.mem_map.mp member
      split
      · exact bounded.known (Option.isSome_of_eq_some found)
      · exact bounded.paths earlier memberEarlier
    · obtain ⟨earlier, memberEarlier, rfl⟩ := List.mem_map.mp member
      split
      · exact fun listed => bounded.dir (subs ▸ listed)
      · exact bounded.subscribed earlier memberEarlier

/-- A scan puts new nodes below nodes with subscriptions only. -/
theorem scanRule_bounded {pollFile : PollFile} (hook : WritingHook pollFile) (scope : Scope) (start : Poll) :
    ScanRule pollFile entryGuard (Bounded scope start) where
  hook := hook.keeps
  called := (pollKept_bounded scope start).called
  emitted {poll} path event bounded := by
    unfold gamNodeEmitEvent
    split
    · exact bounded.elsewhere (.refl poll) rfl rfl rfl
    · exact bounded
  polled found _ bounded := (pollKept_bounded scope start).polled hook found bounded
  entered {poll child dir name} _ bare _ path read _ asked bounded := by
    have subscribed : subsAt poll dir ≠ [] := by simpa [entryGuard] using asked
    obtain ⟨reader, names, before, listing, member⟩ := read
    have named := before.listings 0 dir names listing name member
    exact bounded.gamTreeAdd bare (path ▸ scope.closed dir (bounded.dir subscribed) name named)
  cleared found bounded := (pollKept_bounded scope start).setFound found ⟨rfl, rfl, rfl⟩ bounded

theorem walkRule_bounded (scope : Scope) (start : Poll) : WalkRule entryGuard (Bounded scope start) where
  toScanRule := scanRule_bounded gamPollBasicPollFile_writing scope start
  listed {poll path} _ bounded := by
    unfold gamPollGenericAdd
    split
    · exact bounded
    · exact bounded.elsewhere (.refl poll) rfl rfl rfl
  found bounded := (pollKept_bounded scope start).write (.found _) bounded

theorem dnotifyWalkRule_bounded (handler : Bool) (scope : Scope) (start : Poll) :
    DnotifyWalkRule handler entryGuard.dnotify (Bounded scope start) where
  toScanRule := scanRule_bounded (gamPollDnotifyPollFile_writing handler) scope start
  unbusied bounded := (pollKept_bounded scope start).write (.settled _) bounded
  relisted _ _ bounded := (pollKept_bounded scope start).relisted handler _ bounded
  settled _ _ _ bounded := (pollKept_bounded scope start).flowControl handler _ false
    ((pollKept_bounded scope start).write (.settled _) bounded)

/-- With finitely many names there are finitely many paths. -/
theorem exists_bounded (poll : Poll) (finite : FiniteListings poll) : ∃ scope, Bounded scope poll poll := by
  choose names shown using finite
  let dirs := poll.paths
  let entries := dirs.flatMap fun dir => (names dir).map (gBuildFilename dir)
  refine ⟨⟨[] :: (poll.paths ++ entries), dirs, names, List.mem_cons_self, fun dir known name named => ?_⟩, ?_⟩
  · apply List.mem_cons_of_mem
    apply List.mem_append_right
    exact List.mem_flatMap.mpr ⟨dir, known, List.mem_map_of_mem named⟩
  · have inTree {node : GamNode} (member : node ∈ poll.nodes) : node.path ∈ poll.paths := List.mem_map_of_mem member
    exact {
      paths := fun node member => List.mem_cons_of_mem _ (List.mem_append_left _ (inTree member))
      subscribed := fun node member _ => inTree member
      listings := fun call dir => shown dir call
      missing := .refl _ _
      busy := .refl _ _ }

end

/-! ## The callbacks -/

/-- The walk comes to an end; and if all its visits are fair, every node that was on the list is examined. -/
structure ExaminesAll (list : Poll → List Bytes) (visit : Poll → Bytes → Poll) (examines : Poll → Bytes → Bytes → Prop)
    (fair : Nat → Poll → Bytes → Prop) (rounds : Nat) (poll : Poll) : Prop where
  ended : Ended list visit rounds 0 poll
  examined : AtEveryVisit list visit fair rounds 0 poll → ∀ path ∈ list poll,
    AtSomeVisit list visit (fun poll visited => examines poll visited path) rounds 0 poll

/-- If a node waits, none of those that the walk has been through is there again. -/
def MissingFair (idx : Nat) (poll : Poll) (visited : Bytes) : Prop :=
  poll.missing.drop (idx + 1) = [] ∨
    visitedAway poll visited (·.missing) = true ∧
      scanNodeSafe (.nobodyBack (poll.missing.take (idx + 1))) poll visited = true

/-- Beside dnotify only the visited node may come off the list. -/
def DnotifyMissingFair (handler : Bool) (idx : Nat) (poll : Poll) (visited : Bytes) : Prop :=
  poll.missing.drop (idx + 1) = [] ∨ StaysMissing handler poll visited

/-- For the list of busy nodes there is also flow control, which may take a directory off that waits. -/
def BusyFair (handler : Bool) (idx : Nat) (poll : Poll) (visited : Bytes) : Prop :=
  poll.busy.drop (idx + 1) = [] ∨
    StaysBusy poll visited ∧
      busyEntrySafe (.nobodyCalm handler poll.busy (poll.busy.take (idx + 1)) visited) handler poll visited = true

section

variable {list : Poll → List Bytes} {visit : Poll → Bytes → Poll} {examines : Poll → Bytes → Bytes → Prop}
  {fair : Nat → Poll → Bytes → Prop}

/-- It is enough that a fair visit leaves those to wait that it does not examine. -/
theorem examinesAll_of_waits (self : ∀ poll path, examines poll path path)
    (waits : ∀ idx poll visited, (list poll)[idx]? = some visited → fair idx poll visited →
      ∀ path ∈ (list poll).drop (idx + 1), ¬ examines poll visited path →
        path ∈ (list (visit poll visited)).drop (idx + 1))
    {invariant : Poll → Prop} {bound : Nat}
    (kept : ∀ poll visited, invariant poll → invariant (visit poll visited))
    (bounded : ∀ poll, invariant poll → (list poll).length ≤ bound) {rounds : Nat} (enough : bound ≤ rounds)
    {poll : Poll} (holds : invariant poll) : ExaminesAll list visit examines fair rounds poll := by
  have ended : Ended list visit rounds 0 poll :=
    ended_of_bounded (fun poll visited _ => kept poll visited) bounded holds enough
  refine ⟨ended, fun every path member => ?_⟩
  refine atSomeVisit_of_waits self ended (every.imp fun idx poll visited here isFair other waiting => ?_) member
  by_cases examined : examines poll visited other
  · exact .inl examined
  · exact .inr (waits idx poll visited here isFair other waiting examined)

end

section

variable {scope : Scope} {start poll : Poll} {rounds : Nat}

/-- A walk has been through the node that it visits. -/
theorem mem_take_of_visited {list : List Bytes} {idx : Nat} {visited : Bytes} (here : list[idx]? = some visited) :
    visited ∈ list.take (idx + 1) := by
  rw [List.take_add_one, here]
  exact List.mem_append_right _ (List.mem_singleton_self visited)

/-- The list of the nodes that are not missing does not change at all. -/
theorem examinesAll_all (poll : Poll) (enough : poll.all.length ≤ rounds) :
    ExaminesAll Poll.all scanNode basicExamines (fun _ _ _ => True) rounds poll :=
  examinesAll_of_waits (fun _ _ => .inl rfl)
    (fun idx poll visited _ _ path waiting _ => by rwa [scanNode_all])
    (fun next visited (same : next.all = poll.all) => (scanNode_all next visited).trans same)
    (fun next same => le_of_eq (congrArg List.length same)) enough rfl

theorem examinesAll_missing (bounded : Bounded scope start poll)
    (enough : scope.known.length + start.missing.length ≤ rounds) :
    ExaminesAll Poll.missing scanMissingNode basicExamines MissingFair rounds poll := by
  refine examinesAll_of_waits (fun _ _ => .inl rfl) (fun idx poll visited here fair path waiting unexamined => ?_)
    (fun poll visited bounded => (walkRule_bounded scope start).scanMissingNode
      (entryGuard_easy.scanNode poll visited) bounded)
    (fun poll bounded => bounded.missing.length_le) enough bounded
  obtain ⟨away, safe⟩ := fair.resolve_left (List.ne_nil_of_mem waiting)
  have unpolled := eq_true_of_ne_false (not_or.mp unexamined).2
  exact (staysIn_scanMissingNode (mem_take_of_visited here) away safe unpolled).waits waiting (fun _ => .inl) (.inr rfl)

theorem examinesAll_dnotifyMissing (handler : Bool) (bounded : Bounded scope start poll)
    (enough : scope.known.length + start.missing.length ≤ rounds) :
    ExaminesAll Poll.missing (dnotifyScanMissingNode handler) (dnotifyExamines handler)
      (DnotifyMissingFair handler) rounds poll := by
  refine examinesAll_of_waits (fun _ _ => .inl rfl) (fun idx poll visited here fair path waiting unexamined => ?_)
    (fun poll visited bounded => (dnotifyWalkRule_bounded handler scope start).scanMissingNode
      (entryGuard_easy.dnotify.scanMissingNode handler poll visited) bounded)
    (fun poll bounded => bounded.missing.length_le) enough bounded
  have stays := fair.resolve_left (List.ne_nil_of_mem waiting)
  exact (staysIn_dnotifyScanMissingNode (mem_take_of_visited here) stays).waits waiting (fun _ => .inl) (.inr rfl)

theorem examinesAll_dnotifyBusy (handler : Bool) (bounded : Bounded scope start poll)
    (enough : scope.known.length + start.busy.length ≤ rounds) :
    ExaminesAll Poll.busy (dnotifyScanBusyEntry handler) (dnotifyBusyExamines handler) (BusyFair handler) rounds
      poll := by
  have rule := dnotifyWalkRule_bounded handler scope start
  refine examinesAll_of_waits (fun _ _ => .inl rfl) (fun idx poll visited here fair path waiting unexamined => ?_)
    (fun poll visited bounded => ?_) (fun poll bounded => bounded.busy.length_le) enough bounded
  · obtain ⟨stays, safe⟩ := fair.resolve_left (List.ne_nil_of_mem waiting)
    have unpolled := eq_true_of_ne_false (not_or.mp unexamined).2
    have inside (item : Bytes) (stay : UpTo (poll.busy.take (idx + 1)) path item) : item ∈ poll.busy :=
      stay.elim List.mem_of_mem_take fun same => same ▸ List.mem_of_mem_drop waiting
    exact (staysIn_dnotifyScanBusyEntry (mem_take_of_visited here) inside stays safe unpolled).waits waiting
      (fun _ => .inl) (.inr rfl)
  · unfold dnotifyScanBusyEntry
    split
    · exact rule.scanBusyRoot (entryGuard_easy.scanRoot (gamPollDnotifyPollFile_keeps handler) poll) bounded
    · exact rule.scanBusyNode (entryGuard_easy.dnotify.scanBusyNode handler poll visited) bounded

end

/-- One run of `gam_poll_basic_scan_callback`. -/
structure BasicCallbackExamines (poll : Poll) (now rounds : Nat) : Prop where
  walks : gamPollBasicScanCallback poll now rounds =
    walk Poll.missing scanMissingNode rounds 0 (walk Poll.all scanNode rounds 0 { poll with currentTime := now })
  all : ExaminesAll Poll.all scanNode basicExamines (fun _ _ _ => True) rounds { poll with currentTime := now }
  missing : ExaminesAll Poll.missing scanMissingNode basicExamines MissingFair rounds
    (scanAll rounds 0 { poll with currentTime := now })

/-- One run of `gam_poll_dnotify_scan_callback`. -/
structure DnotifyCallbackExamines (handler : Bool) (poll : Poll) (now rounds : Nat) : Prop where
  walks : gamPollDnotifyScanCallback handler poll now rounds =
    walk Poll.busy (dnotifyScanBusyEntry handler) rounds 0
      (walk Poll.missing (dnotifyScanMissingNode handler) rounds 0 { poll with currentTime := now })
  missing : ExaminesAll Poll.missing (dnotifyScanMissingNode handler) (dnotifyExamines handler)
    (DnotifyMissingFair handler) rounds { poll with currentTime := now }
  busy : ExaminesAll Poll.busy (dnotifyScanBusyEntry handler) (dnotifyBusyExamines handler) (BusyFair handler) rounds
    (dnotifyScanMissing handler rounds 0 { poll with currentTime := now })

/-- Both callbacks come to an end whatever is on the lists.  The walk over the nodes that are not missing
examines all of them, and the others do if nobody comes off the part that they have been through while others wait:
no missing node is there again, and no busy one goes away or calms down. -/
theorem scanCallbacks_examine (poll : Poll) (now : Nat) (finite : FiniteListings poll) :
    ∃ enough, ∀ rounds, enough ≤ rounds →
      BasicCallbackExamines poll now rounds ∧ ∀ handler, DnotifyCallbackExamines handler poll now rounds := by
  obtain ⟨scope, bounded⟩ := exists_bounded { poll with currentTime := now } finite
  refine ⟨scope.known.length + poll.all.length + poll.missing.length + poll.busy.length, fun rounds enough => ?_⟩
  have scannedAll := (walkRule_bounded scope _).scanAll (entryGuard_easy.scanAll rounds 0 _) bounded
  refine ⟨⟨?_, examinesAll_all _ ?_, examinesAll_missing scannedAll ?_⟩, fun handler => ?_⟩
  · rw [gamPollBasicScanCallback, scanMissing_walk, scanAll_walk]
  · dsimp only
    omega
  · dsimp only
    omega
  · have scannedMissing := (dnotifyWalkRule_bounded handler scope _).scanMissing
      (entryGuard_easy.dnotify.scanMissing handler rounds 0 _) bounded
    refine ⟨?_, examinesAll_dnotifyMissing handler bounded ?_, examinesAll_dnotifyBusy handler scannedMissing ?_⟩
    · rw [gamPollDnotifyScanCallback, dnotifyScanBusy_walk, dnotifyScanMissing_walk]
    · dsimp only
      omega
    · dsimp only
      omega

/-- Any one state of the file system will do. -/
theorem finiteListings_showing (poll : Poll) (view : FsView) : FiniteListings (poll.showing view) := by
  intro dir
  refine ⟨(view.listing dir).getD [], fun _ listing shown name member => ?_⟩
  have same : view.listing dir = some listing := shown
  rwa [same]

/-! ## Two files come back -/

/-- `/`, with the files `a` and `b` or without them. -/
def twoFiles (there : Bool) : FsView where
  stat path :=
    if path = [47] then .found { StatBuf.zero with isDir := true }
    else if there ∧ (path = [47, 97] ∨ path = [47, 98]) then .found StatBuf.zero
    else .noent
  listing path := if path = [47] then some (if there then [[97], [98]] else []) else none
  excluded _ := false
  monType _ := .kernel
  pollTimeout _ := 1

/-- Somebody has subscribed to the files while they were not there. -/
def filesMissing : Poll :=
  ((run (partialStep (DnotifyState.step true)) (some (.new fun _ => twoFiles false))
    [.subscribe 1000 (gamSubscriptionNew 1 [47, 97] requestedEvents 1 false 0),
      .subscribe 1000 (gamSubscriptionNew 2 [47, 98] requestedEvents 2 false 0)]).map (·.poll)).getD
    (.new fun _ => twoFiles false)

instance (idx : Nat) (poll : Poll) (visited : Bytes) : Decidable (MissingFair idx poll visited) :=
  inferInstanceAs (Decidable (_ ∨ _))

/-- Somebody has subscribed to the files while they were there, and load control has switched them to polling. -/
def filesBusy : Poll :=
  let poll := ((run (partialStep (DnotifyState.step true)) (some (.new fun _ => twoFiles true))
    [.subscribe 1000 (gamSubscriptionNew 1 [47, 97] requestedEvents 1 false 0),
      .subscribe 1000 (gamSubscriptionNew 2 [47, 98] requestedEvents 2 false 0)]).map (·.poll)).getD
    (.new fun _ => twoFiles true)
  { poll with
    nodes := poll.nodes.map fun node => { node with pflags := { node.pflags with busy := true } }
    busy := [[47, 98], [47, 97]] }

/-- The files stay away, and both are examined; so are both of them while they are busy. -/
theorem filesAway_examined :
    ∃ rounds, (∀ path ∈ filesMissing.missing, AtSomeVisit Poll.missing scanMissingNode
        (fun poll visited => basicExamines poll visited path) rounds 0
        (scanAll rounds 0 { filesMissing with currentTime := 1002 })) ∧
      (∀ path ∈ filesMissing.missing, AtSomeVisit Poll.missing (dnotifyScanMissingNode true)
        (fun poll visited => dnotifyExamines true poll visited path) rounds 0
        { filesMissing with currentTime := 1002 }) ∧
      ∀ path ∈ filesBusy.busy, AtSomeVisit Poll.busy (dnotifyScanBusyEntry true)
        (fun poll visited => dnotifyBusyExamines true poll visited path) rounds 0
        (dnotifyScanMissing true rounds 0 { filesBusy with currentTime := 1002 }) := by
  obtain ⟨enough, away⟩ :=
    scanCallbacks_examine filesMissing 1002 (finiteListings_showing filesMissing (twoFiles false))
  obtain ⟨enough', busy⟩ := scanCallbacks_examine filesBusy 1002 (finiteListings_showing filesBusy (twoFiles true))
  have awayRuns := away (2 + (enough + enough')) (by omega)
  have busyRuns := busy (2 + (enough + enough')) (by omega)
  refine ⟨2 + (enough + enough'), ?_, ?_, ?_⟩
  -- the files are away, and no visit takes anything off the missing list
  · have all : Ended Poll.all scanNode 2 0 { filesMissing with currentTime := 1002 } := by decide +kernel
    have ended : Ended Poll.missing scanMissingNode 2 0
        (walk Poll.all scanNode 2 0 { filesMissing with currentTime := 1002 }) := by decide +kernel
    have fair : AtEveryVisit Poll.missing scanMissingNode MissingFair 2 0
        (walk Poll.all scanNode 2 0 { filesMissing with currentTime := 1002 }) := by decide +kernel
    have missing : (walk Poll.all scanNode 2 0 { filesMissing with currentTime := 1002 }).missing =
        filesMissing.missing := by decide +kernel
    have examined := awayRuns.1.missing.examined
    rw [scanAll_walk, walk_of_ended all] at examined ⊢
    exact missing ▸ examined (fair.of_ended ended _)
  · have ended : Ended Poll.missing (dnotifyScanMissingNode true) 2 0 { filesMissing with currentTime := 1002 } := by
      decide +kernel
    have fair : AtEveryVisit Poll.missing (dnotifyScanMissingNode true) (fun _ poll visited =>
        visitedAway poll visited MonFlags.special = true ∧
          dnotifyScanNodeSafe (.keepsAway visited) true poll visited = true)
        2 0 { filesMissing with currentTime := 1002 } := by
      decide +kernel
    exact (awayRuns.2 true).missing.examined
      ((fair.of_ended ended _).imp fun _ _ _ _ stays => .inr (.inr stays))
  -- both files are busy and still change
  · have missing : Ended Poll.missing (dnotifyScanMissingNode true) 2 0 { filesBusy with currentTime := 1002 } := by
      decide +kernel
    have ended : Ended Poll.busy (dnotifyScanBusyEntry true) 2 0
        (walk Poll.missing (dnotifyScanMissingNode true) 2 0 { filesBusy with currentTime := 1002 }) := by
      decide +kernel
    have fair : AtEveryVisit Poll.busy (dnotifyScanBusyEntry true) (fun idx poll visited =>
        (visited ≠ [] ∧ (gamTreeGetAtPath poll visited).all (fun node => node.pflags ≠ .none) = true) ∧
          busyEntrySafe (.nobodyCalm true poll.busy (poll.busy.take (idx + 1)) visited) true poll visited = true) 2 0
        (walk Poll.missing (dnotifyScanMissingNode true) 2 0 { filesBusy with currentTime := 1002 }) := by
      decide +kernel
    have busy : (walk Poll.missing (dnotifyScanMissingNode true) 2 0
        { filesBusy with currentTime := 1002 }).busy = filesBusy.busy := by decide +kernel
    have examined := (busyRuns.2 true).busy.examined
    rw [dnotifyScanMissing_walk, walk_of_ended missing] at examined ⊢
    refine busy ▸ examined ((fair.of_ended ended _).imp fun _ _ _ _ stays => .inr ⟨?_, stays.2⟩)
    rw [StaysBusy, if_neg stays.1.1]
    exact .inr stays.1.2

instance (handler : Bool) (poll : Poll) (visited path : Bytes) :
    Decidable (dnotifyExamines handler poll visited path) :=
  inferInstanceAs (Decidable (_ ∨ _))

/-- The walk finds `b` back and takes it off the list, and passes over `a`, which is there as well. -/
theorem file_passed_over :
    Ended Poll.missing (dnotifyScanMissingNode true) 2 0
        { filesMissing.showing (twoFiles true) with currentTime := 1002 } ∧
      (gamPollDnotifyScanCallback true (filesMissing.showing (twoFiles true)) 1002 2).missing = [[47, 97]] ∧
      ¬ ∀ path ∈ filesMissing.missing, AtSomeVisit Poll.missing (dnotifyScanMissingNode true)
        (fun poll visited => dnotifyExamines true poll visited path) 2 0
        { filesMissing.showing (twoFiles true) with currentTime := 1002 } := by
  decide +kernel

end Gamin.Polling
