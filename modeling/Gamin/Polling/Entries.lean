import Gamin.Polling.DnotifyRuns
import Gamin.Polling.Recipients
import Gamin.Polling.Rooted

/-! # What a scan finds

A scan goes through the entries of a directory and puts a node below it for each one whose path has no
node.  A path that has one is left as it is, wherever that node hangs; but events go from a node to its
parent.  The root of the tree is not the node of `/`, and `/d/` is not the node of `/d`.
-/

namespace Gamin.Polling

open Gamin Gamin.Server Gamin.Inotify Gamin.Library

/-! ## What should hold, and when -/

/-- The two polling backends; dnotify may be running or not. -/
inductive PollBackend where
  | basic
  | dnotify (handler : Bool)
  deriving DecidableEq, Repr

/-- The hook that the backend installs. -/
def PollBackend.pollFile : PollBackend → PollFile
  | .basic => gamPollBasicPollFile
  | .dnotify handler => gamPollDnotifyPollFile handler

/-- The names that `gam_poll_generic_scan_directory_internal` reads.  It reads none if nobody has
subscribed to the directory, or too little time has passed. -/
def entriesRead (pollFile : PollFile) (poll : Poll) (dirPath : Bytes) : List Bytes :=
  match gamTreeGetAtPath poll dirPath with
  | none => []
  | some dirNode =>
    if dirNode.subs = [] then []
    else if tooSoon poll dirNode then []
    else ((pollFile poll dirNode).1.view.listing dirPath).getD []

/-- A directory that has never been polled is polled before the first scan. -/
def firstPolled (pollFile : PollFile) (poll : Poll) (dpath : Bytes) : Poll :=
  match gamTreeGetAtPath poll dpath with
  | some node => if node.lasttime = 0 then (pollFile poll node).1 else poll
  | none => poll

/-- The names that `gam_poll_generic_first_scan_dir` reads. -/
def firstEntriesRead (pollFile : PollFile) (poll : Poll) (dpath : Bytes) : List Bytes :=
  if (poll.view.stat dpath).exists then
    ((firstPolled pollFile poll.called dpath).view.listing dpath).getD []
  else []

/-- The path has one node, which is a child of the directory, and whoever has subscribed to the directory
is told about it. -/
def EntryKnown (poll : Poll) (dirPath path : Bytes) : Prop :=
  ∃ node, poll.nodes.filter (·.path = path) = [node] ∧ node.parent = some dirPath ∧
    ∀ sub ∈ subsAt poll dirPath, sub ∈ emitReceivers poll node

/-- Every entry is known. -/
def ScanComplete (poll : Poll) (dirPath : Bytes) (names : List Bytes) : Prop :=
  ∀ name ∈ names, EntryKnown poll dirPath (gBuildFilename dirPath name)

/-- The condition on the state before: an entry that has a node already has it below the directory. -/
def EntriesOwn (poll : Poll) (dirPath : Bytes) (names : List Bytes) : Prop :=
  ∀ name ∈ names, ∀ node, gamTreeGetAtPath poll (gBuildFilename dirPath name) = some node →
    node.parent = some dirPath

instance (poll : Poll) (dirPath : Bytes) (names : List Bytes) : Decidable (EntriesOwn poll dirPath names) :=
  decidable_of_iff (∀ name ∈ names, ∀ node ∈ gamTreeGetAtPath poll (gBuildFilename dirPath name),
    node.parent = some dirPath) Iff.rfl

/-! ## Known entries -/

theorem EntryKnown.place {poll : Poll} {dirPath path : Bytes} (known : EntryKnown poll dirPath path) :
    parentAt poll path = some (some dirPath) := by
  obtain ⟨node, only, isParent, -⟩ := known
  have found : gamTreeGetAtPath poll path = some node := by
    rw [gamTreeGetAtPath, ← List.head?_filter, only]
    rfl
  rw [parentAt_found found, isParent]

theorem filter_path {nodes : List GamNode} {node : GamNode} (distinct : (nodes.map (·.path)).Nodup)
    (member : node ∈ nodes) : nodes.filter (·.path = node.path) = [node] := by
  induction nodes with
  | nil => contradiction
  | cons first nodes inductionHypothesis =>
    obtain ⟨new, rest⟩ := List.nodup_cons.mp distinct
    cases List.mem_cons.mp member with
    | inl here =>
      subst here
      have others : nodes.filter (·.path = node.path) = [] := by
        rw [List.filter_eq_nil_iff]
        intro other inRest same
        exact new (List.mem_map.mpr ⟨other, inRest, of_decide_eq_true same⟩)
      rw [List.filter_cons, if_pos (decide_eq_true rfl), others]
    | inr inRest =>
      have different : first.path ≠ node.path := fun same => new (List.mem_map.mpr ⟨node, inRest, same.symm⟩)
      rw [List.filter_cons_of_neg (by simpa using different), inductionHypothesis rest inRest]

/-- A path is known as an entry if its node is below the directory. -/
theorem entryKnown_iff {poll : Poll} (distinct : poll.paths.Nodup) {dirPath path : Bytes} :
    EntryKnown poll dirPath path ↔ parentAt poll path = some (some dirPath) := by
  refine ⟨EntryKnown.place, fun place => ?_⟩
  obtain ⟨node, found, isParent⟩ := Option.map_eq_some_iff.mp place
  refine ⟨node, ?_, isParent, fun sub subscribed => mem_emitReceivers isParent subscribed⟩
  rw [← gamTreeGetAtPath_path found]
  exact filter_path distinct (gamTreeGetAtPath_mem found)

/-! ## Names -/

section

variable (dirPath : Bytes)

theorem parentAt_scanName (poll : Poll) (name path : Bytes) :
    parentAt (scanName dirPath poll name) path =
      (parentAt poll path).or (if gBuildFilename dirPath name = path then some (some dirPath) else none) := by
  unfold scanName
  extract_lets entry isDir called
  split
  case isTrue known =>
    by_cases here : entry = path
    · obtain ⟨node, found⟩ := Option.isSome_iff_exists.mp known
      rw [← here, parentAt_found found, Option.some_or]
    · rw [if_neg here, Option.or_none]
  case isFalse => exact parentAt_gamTreeAdd called _ path

theorem parentAt_firstScanName (sub : GamSubscription) (withExists : Bool) (poll : Poll) (name path : Bytes) :
    parentAt (firstScanName sub withExists dirPath poll name) path =
      (parentAt poll path).or (if gBuildFilename dirPath name = path then some (some dirPath) else none) := by
  unfold firstScanName
  extract_lets entry isDir called node sbuf flags known
  have added : parentAt known path =
      (parentAt poll path).or (if gBuildFilename dirPath name = path then some (some dirPath) else none) := by
    simp only [known]
    split
    case isTrue there =>
      by_cases here : entry = path
      · obtain ⟨node, found⟩ := Option.isSome_iff_exists.mp there
        rw [← here, parentAt_found found, Option.some_or]
      · rw [if_neg here, Option.or_none]
    case isFalse => exact parentAt_gamTreeAdd called.called _ path
  split
  · exact added
  · exact added

variable {dirPath}

/-- The nodes that were there keep their places, and every name has one. -/
theorem parentAt_names {step : Poll → Bytes → Poll}
    (enters : ∀ poll name path, parentAt (step poll name) path =
      (parentAt poll path).or (if gBuildFilename dirPath name = path then some (some dirPath) else none))
    (names : List Bytes) (poll : Poll) (path : Bytes) :
    parentAt (names.foldl step poll) path = (parentAt poll path).or
      (if ∃ name ∈ names, gBuildFilename dirPath name = path then some (some dirPath) else none) := by
  induction names generalizing poll with
  | nil => simp
  | cons name names inductionHypothesis =>
    rw [List.foldl_cons, inductionHypothesis, enters, Option.or_assoc]
    by_cases here : gBuildFilename dirPath name = path
    · simp [here]
    · simp [here]

/-- Below the directory are the names that had no node, and those that had it there. -/
theorem named_iff {step : Poll → Bytes → Poll}
    (enters : ∀ poll name path, parentAt (step poll name) path =
      (parentAt poll path).or (if gBuildFilename dirPath name = path then some (some dirPath) else none))
    {before poll : Poll} (same : SamePlaces before poll) (names : List Bytes) {name : Bytes} (member : name ∈ names) :
    parentAt (names.foldl step poll) (gBuildFilename dirPath name) = some (some dirPath) ↔
      ∀ node, gamTreeGetAtPath before (gBuildFilename dirPath name) = some node → node.parent = some dirPath := by
  have entry : ∃ other ∈ names, gBuildFilename dirPath other = gBuildFilename dirPath name := ⟨name, member, rfl⟩
  rw [parentAt_names enters, if_pos entry, same.parents]
  cases found : gamTreeGetAtPath before (gBuildFilename dirPath name) with
  | none => simp [parentAt, found]
  | some node => simp [parentAt_found found]

end

/-! ## Scans -/

section

variable {pollFile : PollFile}

/-- What every write keeps is kept by the walk over the children. -/
theorem ScanRule.scanFiles {property : Poll → Prop} (rule : ScanRule pollFile .free property) (depth : Nat)
    (dirPath : Bytes) (paths : List Bytes) {poll : Poll} (holds : property poll) :
    property (paths.foldl
      (Polling.scanChild pollFile (gamPollGenericScanDirectoryInternal pollFile depth) dirPath) poll) := by
  have rescans (path : Bytes) (poll : Poll) (holds : property poll) :
      property (gamPollGenericScanDirectoryInternal pollFile depth path poll) :=
    rule.scanDirectory depth (WriteGuard.free_easy.scanDirectory rule.hook depth path poll) holds
  induction paths generalizing poll with
  | nil => exact holds
  | cons path paths inductionHypothesis =>
    apply inductionHypothesis
    refine @ScanRule.scanChild _ _ _ rule _ (fun _ _ => true) (fun path poll _ => rescans path poll) _ _ _ ?_ holds
    unfold scanChildSafe
    simp only [WriteGuard.free, Bool.true_and, ite_self]
    split
    · rfl
    · split <;> rfl

theorem gamNodeEmitEvent_view (poll : Poll) (path : Bytes) (event : Option GaminEventType) :
    (gamNodeEmitEvent poll path event).view = poll.view := by
  unfold gamNodeEmitEvent
  split <;> rfl

/-- A scan that reads names puts them into the tree, where nothing has moved, and then goes through the
children. -/
theorem scan_reads (places : PlacingHook pollFile) (depth : Nat) {poll : Poll}
    {dirPath name : Bytes} (member : name ∈ entriesRead pollFile poll dirPath) :
    ∃ (start : Poll) (paths : List Bytes), SamePlaces poll start ∧
      gamPollGenericScanDirectoryInternal pollFile (depth + 1) dirPath poll =
        paths.foldl (Polling.scanChild pollFile (gamPollGenericScanDirectoryInternal pollFile depth) dirPath)
          ((entriesRead pollFile poll dirPath).foldl (scanName dirPath) start) := by
  unfold entriesRead at member ⊢
  rw [gamPollGenericScanDirectoryInternal]
  cases found : gamTreeGetAtPath poll dirPath with
  | none => simp [found] at member
  | some dirNode =>
    simp only [found] at member ⊢
    split at member
    case isTrue => contradiction
    case isFalse subscribed =>
      split at member
      case isTrue => contradiction
      case isFalse late =>
        rw [if_neg subscribed, if_neg late, if_neg subscribed, if_neg late, gamNodeEmitEvent_view]
        have atNode : gamTreeGetAtPath poll dirNode.path = some dirNode := by rwa [gamTreeGetAtPath_path found]
        have polled := (places poll dirNode atNode).gamNodeEmitEvent dirPath (pollFile poll dirNode).2
        cases listing : (pollFile poll dirNode).1.view.listing dirPath with
        | none => simp [listing] at member
        | some names =>
          have called : SamePlaces poll
              (gamNodeEmitEvent (pollFile poll dirNode).1 dirPath (pollFile poll dirNode).2).called :=
            polled.of_nodes rfl
          exact ⟨_, _, called, rfl⟩

theorem scan_iff (hook : KeepingHook pollFile) (places : PlacingHook pollFile) (depth : Nat) {poll : Poll}
    (distinct : poll.paths.Nodup) {dirPath : Bytes} :
    ScanComplete (gamPollGenericScanDirectoryInternal pollFile (depth + 1) dirPath poll) dirPath
        (entriesRead pollFile poll dirPath) ↔ EntriesOwn poll dirPath (entriesRead pollFile poll dirPath) := by
  have distinctAfter := (distinctRule hook places).firstRule.scanDirectory (depth + 1)
    (WriteGuard.free_easy.scanDirectory hook _ dirPath poll) distinct
  refine forall₂_congr fun name member => ?_
  rw [entryKnown_iff distinctAfter]
  obtain ⟨start, paths, same, scanned⟩ := scan_reads places depth member
  rw [← named_iff (parentAt_scanName dirPath) same (entriesRead pollFile poll dirPath) member, scanned]
  -- the walk over the children leaves every node where the names have put it
  have entry := parentAt_names (parentAt_scanName dirPath) (entriesRead pollFile poll dirPath) start
    (gBuildFilename dirPath name)
  rw [if_pos ⟨name, member, rfl⟩] at entry
  obtain ⟨parent, place⟩ : ∃ parent, parentAt ((entriesRead pollFile poll dirPath).foldl (scanName dirPath) start)
      (gBuildFilename dirPath name) = some parent := by
    rw [entry]
    cases parentAt start (gBuildFilename dirPath name) with
    | none => exact ⟨_, rfl⟩
    | some parent => exact ⟨_, rfl⟩
  have scanned := (parentRule hook places (gBuildFilename dirPath name) parent).firstRule
  rw [scanned.scanFiles depth dirPath paths place, place]

theorem firstPolled_places (places : PlacingHook pollFile) (poll : Poll) (dpath : Bytes) :
    SamePlaces poll (firstPolled pollFile poll dpath) := by
  unfold firstPolled
  cases found : gamTreeGetAtPath poll dpath with
  | none => exact .refl poll
  | some node =>
    have atNode : gamTreeGetAtPath poll node.path = some node := by rwa [gamTreeGetAtPath_path found]
    dsimp only
    split
    · exact places poll node atNode
    · exact .refl poll

theorem firstScanPresent_reads (places : PlacingHook pollFile) {poll : Poll} (sub : GamSubscription)
    (withExists : Bool) {dpath : Bytes} {names : List Bytes}
    (listing : (firstPolled pollFile poll dpath).view.listing dpath = some names) :
    ∃ start, SamePlaces poll start ∧
      firstScanPresent pollFile poll sub withExists dpath =
        names.foldl (firstScanName sub withExists dpath) start := by
  unfold firstScanPresent
  extract_lets first announced
  have polled : SamePlaces poll first := firstPolled_places places poll dpath
  have same : SamePlaces poll announced.called := by
    simp only [announced]
    split
    · exact polled.of_nodes rfl
    · exact polled.of_nodes rfl
  have view : announced.view = first.view := by
    simp only [announced]
    split <;> rfl
  rw [view, show first.view.listing dpath = some names from listing]
  exact ⟨_, same, rfl⟩

/-- A first scan that reads names puts them into the tree, where nothing has moved. -/
theorem firstScan_reads (places : PlacingHook pollFile) {poll : Poll} (sub : GamSubscription) {dirPath name : Bytes}
    (member : name ∈ firstEntriesRead pollFile poll dirPath) :
    ∃ start, SamePlaces poll start ∧
      (gamPollGenericFirstScanDir pollFile poll sub dirPath).nodes =
        ((firstEntriesRead pollFile poll dirPath).foldl
          (firstScanName sub (sub.options &&& gamOptNoexists = 0) dirPath) start).nodes := by
  unfold firstEntriesRead at member ⊢
  unfold gamPollGenericFirstScanDir
  split at member
  case isFalse => contradiction
  case isTrue present =>
    cases listing : (firstPolled pollFile poll.called dirPath).view.listing dirPath with
    | none => simp [listing] at member
    | some names =>
      obtain ⟨start, same, scanned⟩ := firstScanPresent_reads places sub (sub.options &&& gamOptNoexists = 0) listing
      have called : SamePlaces poll poll.called := (SamePlaces.refl poll).of_nodes rfl
      refine ⟨start, called.trans same, ?_⟩
      simp only [if_pos present, scanned, Option.getD_some]
      split <;> rfl

theorem firstScan_iff (hook : KeepingHook pollFile) (places : PlacingHook pollFile) {poll : Poll}
    (distinct : poll.paths.Nodup) (sub : GamSubscription) {dirPath : Bytes}
    (there : (gamTreeGetAtPath poll dirPath).isSome) :
    ScanComplete (gamPollGenericFirstScanDir pollFile poll sub dirPath) dirPath
        (firstEntriesRead pollFile poll dirPath) ↔
      EntriesOwn poll dirPath (firstEntriesRead pollFile poll dirPath) := by
  have distinctAfter := ((distinctRule hook places).firstScan sub dirPath).firstScanDir there
    (firstScanDirSafe_free pollFile poll sub dirPath) distinct
  refine forall₂_congr fun name member => ?_
  rw [entryKnown_iff distinctAfter]
  obtain ⟨start, same, scanned⟩ := firstScan_reads places sub member
  rw [← named_iff (parentAt_firstScanName dirPath sub _) same (firstEntriesRead pollFile poll dirPath) member,
    parentAt, gamTreeGetAtPath, scanned, parentAt, gamTreeGetAtPath]

end

/-- After a scan every entry that it has read is known, if and only if none had its node elsewhere. -/
theorem scanComplete_iff (backend : PollBackend) {poll : Poll} (distinct : poll.paths.Nodup) {dirPath : Bytes}
    (there : (gamTreeGetAtPath poll dirPath).isSome) :
    (∀ depth,
      ScanComplete (gamPollGenericScanDirectoryInternal backend.pollFile (depth + 1) dirPath poll) dirPath
          (entriesRead backend.pollFile poll dirPath) ↔
        EntriesOwn poll dirPath (entriesRead backend.pollFile poll dirPath)) ∧
    ∀ sub,
      ScanComplete (gamPollGenericFirstScanDir backend.pollFile poll sub dirPath) dirPath
          (firstEntriesRead backend.pollFile poll dirPath) ↔
        EntriesOwn poll dirPath (firstEntriesRead backend.pollFile poll dirPath) := by
  have hooks : KeepingHook backend.pollFile ∧ PlacingHook backend.pollFile := by
    cases backend with
    | basic => exact ⟨gamPollBasicPollFile_keeps, gamPollBasicPollFile_places⟩
    | dnotify handler => exact ⟨gamPollDnotifyPollFile_keeps handler, gamPollDnotifyPollFile_places handler⟩
  obtain ⟨hook, places⟩ := hooks
  exact ⟨fun depth => scan_iff hook places depth distinct, fun sub => firstScan_iff hook places distinct sub there⟩

/-! ## A file in the root -/

/-- The root has the file `f`, which has been written at the time. -/
def fileInRoot (time : Nat) : FsView where
  stat path :=
    if path = [47] then .found { StatBuf.zero with isDir := true }
    else if path = [47, 102] then .found { StatBuf.zero with mtim := (time, 0) }
    else .noent
  listing path := if path = [47] then some [[102]] else none
  excluded _ := false
  monType _ := .poll
  pollTimeout _ := 1

/-- Beside dnotify, with one subscription, to the root. -/
def rootMonitored : Option DnotifyState :=
  run (partialStep (DnotifyState.step true)) (some (.new fun _ => fileInRoot 0))
    [.subscribe 1000 (gamSubscriptionNew 2 [47] requestedEvents 2 true 0)]

/-- The scan of the next second reads `f`, whose node is below the root. -/
def rootScannedAlone : Option Bool :=
  rootMonitored.map fun state =>
    let poll := { state.poll with currentTime := 1005 }
    decide (poll.paths.Nodup ∧ (gamTreeGetAtPath poll [47]).isSome ∧
      entriesRead (PollBackend.dnotify true).pollFile poll [47] = [[102]] ∧ EntriesOwn poll [47] [[102]])

theorem scanComplete_iff_alone :
    ∃ state, rootMonitored = some state ∧
      let poll := { state.poll with currentTime := 1005 }
      entriesRead (PollBackend.dnotify true).pollFile poll [47] = [[102]] ∧
      ScanComplete (gamPollGenericScanDirectoryInternal (PollBackend.dnotify true).pollFile 4 [47] poll) [47]
        [[102]] := by
  have scanned : rootScannedAlone = some true := by decide +kernel
  obtain ⟨state, reached, safe⟩ := Option.map_eq_some_iff.mp scanned
  obtain ⟨distinct, there, read, own⟩ := of_decide_eq_true safe
  refine ⟨state, reached, read, ?_⟩
  have complete := (scanComplete_iff (.dnotify true) distinct there).1 3
  rw [read] at complete
  exact complete.mpr own

/-- The file is monitored before the root, and written after the calls of both. -/
def fileThenRoot : Option BasicState :=
  run (partialStep BasicState.step) (some (.new fun call => fileInRoot (if call < 10 then 0 else 1)))
    [.subscribe 1000 (gamSubscriptionNew 1 [47, 102] requestedEvents 1 false 0),
      .subscribe 1000 (gamSubscriptionNew 2 [47] requestedEvents 2 true 0)]

/-- Whether the scan of the next second reads `f` and leaves its node elsewhere. -/
def fileElsewhere : Option Bool :=
  fileThenRoot.map fun state =>
    let poll := { state.poll with currentTime := 1005 }
    decide ([102] ∈ entriesRead PollBackend.basic.pollFile poll [47] ∧
      parentAt (gamPollGenericScanDirectoryInternal PollBackend.basic.pollFile 3 [47] poll) [47, 102] = some none)

/-- The node of the file stays below the root of the tree, which is not the node of `/`.  So the subscription
to the root is not told that the file changes. -/
theorem file_outside_root :
    (∃ state, fileThenRoot = some state ∧
      let poll := { state.poll with currentTime := 1005 }
      ¬ ScanComplete (gamPollGenericScanDirectoryInternal PollBackend.basic.pollFile 3 [47] poll) [47]
        (entriesRead PollBackend.basic.pollFile poll [47])) ∧
    (run (partialStep BasicState.step) fileThenRoot [.tick 1005 10]).map (fun final =>
      (final.poll.sent.filter (·.event = .changed)).map fun emission => (emission.sub.reqno, emission.path)) =
        some [(1, [47, 102])] := by
  have elsewhere : fileElsewhere = some true := by decide +kernel
  obtain ⟨state, reached, outside⟩ := Option.map_eq_some_iff.mp elsewhere
  obtain ⟨read, place⟩ := of_decide_eq_true outside
  refine ⟨⟨state, reached, fun complete => ?_⟩, by decide +kernel⟩
  have below := (complete [102] read).place
  rw [show gBuildFilename [47] [102] = [47, 102] from by decide, place] at below
  contradiction

end Gamin.Polling
