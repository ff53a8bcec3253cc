import Gamin.Polling.Scanning

/-! # What a scan keeps

A scan polls nodes, puts new ones into the tree and clears their flag, over directories and lists.
A property that each of these writes keeps is kept by a whole scan, however deep it goes.  A write
may ask something of the state before it; then the same is asked at every place where a scan makes
such a write.
-/

namespace Gamin.Polling

open Gamin Gamin.Server Gamin.Inotify

/-! ## What is asked of the writes -/

/-- What is asked before a node is polled, before a node is put below another one or below the
root, and before the first scan finds that a directory is not there. -/
structure WriteGuard where
  polls : Poll → GamNode → Bool
  adds : Poll → Option Bytes → Bool
  misses : Poll → Bytes → Bool

/-- Nothing is asked. -/
def WriteGuard.free : WriteGuard where
  polls _ _ := true
  adds _ _ := true
  misses _ _ := true

/-- What is asked at every step of a loop. -/
def along {State Item : Type*} (step : State → Item → State) (safe : State → Item → Bool) :
    State → List Item → Bool
  | _, [] => true
  | state, item :: items => safe state item && along step safe (step state item) items

theorem along_free {State Item : Type*} {step : State → Item → State} {safe : State → Item → Bool}
    (free : ∀ state item, safe state item = true) (state : State) (items : List Item) :
    along step safe state items = true := by
  induction items generalizing state with
  | nil => rfl
  | cons item items inductionHypothesis =>
    rw [along, free, inductionHypothesis, Bool.and_self]

theorem along_of_kept {State Item : Type*} {step : State → Item → State} {safe : State → Item → Bool}
    {property : State → Prop}
    (kept : ∀ state item, property state → safe state item = true ∧ property (step state item))
    {state : State} (holds : property state) (items : List Item) : along step safe state items = true := by
  induction items generalizing state with
  | nil => rfl
  | cons item items inductionHypothesis =>
    obtain ⟨here, next⟩ := kept state item holds
    rw [along, here, inductionHypothesis next, Bool.and_self]

theorem along_keeps {State Item : Type*} {step : State → Item → State} {safe : State → Item → Bool}
    {property : State → Prop} {items : List Item}
    (keeps : ∀ state, ∀ item ∈ items, property state → safe state item = true → property (step state item))
    {state : State} (holds : property state)
    (safeAll : along step safe state items = true) : property (items.foldl step state) := by
  induction items generalizing state with
  | nil => exact holds
  | cons item items inductionHypothesis =>
    obtain ⟨here, later⟩ := Bool.and_eq_true_iff.mp safeAll
    exact inductionHypothesis (fun state other member => keeps state other (List.mem_cons_of_mem _ member))
      (keeps state item List.mem_cons_self holds here) later

section

variable (guard : WriteGuard) (pollFile : PollFile)

def scanNameSafe (dirPath : Bytes) (poll : Poll) (name : Bytes) : Bool :=
  (gamTreeGetAtPath poll (gBuildFilename dirPath name)).isSome || guard.adds poll.called (some dirPath)

def scanChildSafe (rescanSafe : Bytes → Poll → Bool) (scannedIsDir : Poll → Bool) (poll : Poll)
    (path : Bytes) : Bool :=
  match gamTreeGetAtPath poll path with
  | none => true
  | some node =>
    let isDirNode := scannedIsDir poll
    guard.polls poll node &&
      match pollFile poll node with
      | (poll, _) =>
        match gamTreeGetAtPath poll path with
        | none => true
        | some node =>
          if node.newNode ∧ isDirNode ∧ node.subs ≠ [] then
            rescanSafe path (poll.setNode { node with newNode := false })
          else true

/-- Along `gam_poll_generic_scan_directory_internal`. -/
def scanDirectorySafe : Nat → Bytes → Poll → Bool
  | 0, _, _ => true
  | depth + 1, dirPath, poll =>
    let filesSafe := fun poll =>
      along (scanChild pollFile (gamPollGenericScanDirectoryInternal pollFile depth) dirPath)
        (scanChildSafe guard pollFile (scanDirectorySafe depth) fun poll =>
          ((gamTreeGetAtPath poll dirPath).map (·.isDir)).getD false)
        poll (gamTreeGetChildren poll dirPath)
    match gamTreeGetAtPath poll dirPath with
    | none => true
    | some dirNode =>
      if dirNode.subs = [] then filesSafe poll
      else if tooSoon poll dirNode then true
      else
        guard.polls poll dirNode &&
          match pollFile poll dirNode with
          | (poll, event) =>
            let poll := gamNodeEmitEvent poll dirPath event
            match poll.view.listing dirPath with
            | none => true
            | some names =>
              along (scanName dirPath) (scanNameSafe guard dirPath) poll.called names &&
                filesSafe (names.foldl (scanName dirPath) poll.called)

/-- Along `gam_poll_generic_scan_directory_internal` for the root. -/
def scanRootSafe (poll : Poll) : Bool :=
  along (scanChildOf pollFile (gamPollGenericScanDirectoryInternal pollFile (poll.nodes.length + 1)) fun _ => true)
    (scanChildSafe guard pollFile (scanDirectorySafe guard pollFile (poll.nodes.length + 1)) fun _ => true)
    poll (gamTreeGetRootChildren poll)

def firstScanNameSafe (dpath : Bytes) (poll : Poll) (name : Bytes) : Bool :=
  (gamTreeGetAtPath poll (gBuildFilename dpath name)).isSome || guard.adds poll.called.called (some dpath)

def firstScanPresentSafe (poll : Poll) (sub : GamSubscription) (withExists : Bool) (dpath : Bytes) : Bool :=
  let polled := match gamTreeGetAtPath poll dpath with
    | some node => if node.lasttime = 0 then guard.polls poll node else true
    | none => true
  let poll := match gamTreeGetAtPath poll dpath with
    | some node => if node.lasttime = 0 then (pollFile poll node).1 else poll
    | none => poll
  let poll := if withExists then gamServerEmitEvent poll dpath true .exists [sub] true else poll
  polled &&
    match poll.view.listing dpath with
    | none => true
    | some names =>
      along (firstScanName sub withExists dpath) (firstScanNameSafe guard dpath) poll.called names

/-- Along `gam_poll_generic_first_scan_dir`. -/
def firstScanDirSafe (poll : Poll) (sub : GamSubscription) (dpath : Bytes) : Bool :=
  let withExists : Bool := sub.options &&& gamOptNoexists = 0
  if (poll.view.stat dpath).exists then firstScanPresentSafe guard pollFile poll.called sub withExists dpath
  else guard.misses poll.called dpath

/-- Along the loop of `gam_tree_add_at_path`. -/
def addParentsSafe (poll : Poll) (parent : Option Bytes) : List Bytes → Bool
  | [] => true
  | path :: paths =>
    ((gamTreeGetAtPath poll path).isSome || guard.adds poll parent) &&
      addParentsSafe (gamTreeAdd poll (gamNodeNew poll path true parent)) (some path) paths

/-- Along `gam_tree_add_at_path`. -/
def addAtPathSafe (poll : Poll) (path : Bytes) : Bool :=
  if path = [] then true
  else if (gamTreeGetAtPath poll path).isSome then true
  else
    let found := (poll.view.stat path).exists
    let poll := poll.called
    let poll := if found then poll.called else poll
    match addParents poll none (pathParents path) with
    | (next, parent) => addParentsSafe guard poll none (pathParents path) && guard.adds next parent

end

/-! ### Two guards -/

/-- What both ask of a poll; a scan asks nothing else of them. -/
def WriteGuard.both (guard other : WriteGuard) : WriteGuard where
  polls poll node := guard.polls poll node && other.polls poll node
  adds poll dir := guard.adds poll dir && other.adds poll dir
  misses poll dpath := guard.misses poll dpath && other.misses poll dpath

theorem along_both {State Item : Type*} {step : State → Item → State} {safe left right : State → Item → Bool}
    (splits : ∀ state item, safe state item = (left state item && right state item)) (state : State)
    (items : List Item) :
    along step safe state items = (along step left state items && along step right state items) := by
  induction items generalizing state with
  | nil => rfl
  | cons item items inductionHypothesis =>
    rw [along, along, along, splits, inductionHypothesis]
    ac_rfl

section

variable (guard other : WriteGuard) (pollFile : PollFile)

theorem scanNameSafe_both (dirPath : Bytes) (poll : Poll) (name : Bytes) :
    scanNameSafe (guard.both other) dirPath poll name =
      (scanNameSafe guard dirPath poll name && scanNameSafe other dirPath poll name) :=
  Bool.or_and_distrib_left _ _ _

theorem scanChildSafe_both {rescan rescanLeft rescanRight : Bytes → Poll → Bool}
    (splits : ∀ path poll, rescan path poll = (rescanLeft path poll && rescanRight path poll))
    (scannedIsDir : Poll → Bool) (poll : Poll) (path : Bytes) :
    scanChildSafe (guard.both other) pollFile rescan scannedIsDir poll path =
      (scanChildSafe guard pollFile rescanLeft scannedIsDir poll path &&
        scanChildSafe other pollFile rescanRight scannedIsDir poll path) := by
  unfold scanChildSafe WriteGuard.both
  cases gamTreeGetAtPath poll path with
  | none => rfl
  | some node =>
    dsimp only
    cases gamTreeGetAtPath (pollFile poll node).1 path with
    | none => simp only [Bool.and_true]
    | some next =>
      dsimp only
      split
      · rw [splits]
        ac_rfl
      · simp only [Bool.and_true]

/-- A scan is as both ask just if it is as each of them asks.  By induction on the depth. -/
theorem scanDirectorySafe_both (depth : Nat) (dirPath : Bytes) (poll : Poll) :
    scanDirectorySafe (guard.both other) pollFile depth dirPath poll =
      (scanDirectorySafe guard pollFile depth dirPath poll && scanDirectorySafe other pollFile depth dirPath poll) := by
  induction depth generalizing dirPath poll with
  | zero => rfl
  | succ depth inductionHypothesis =>
    have children (poll : Poll) (paths : List Bytes) :=
      @along_both _ _ (scanChild pollFile (gamPollGenericScanDirectoryInternal pollFile depth) dirPath) _ _ _
        (scanChildSafe_both guard other pollFile inductionHypothesis fun poll =>
          ((gamTreeGetAtPath poll dirPath).map (·.isDir)).getD false) poll paths
    unfold scanDirectorySafe
    cases found : gamTreeGetAtPath poll dirPath with
    | none => rfl
    | some dirNode =>
      dsimp only
      split
      · exact children _ _
      · split
        · rfl
        · cases (gamNodeEmitEvent (pollFile poll dirNode).1 dirPath (pollFile poll dirNode).2).view.listing dirPath with
          | none =>
            simp only [Bool.and_true]
            rfl
          | some names =>
            dsimp only
            rw [children, along_both (scanNameSafe_both guard other dirPath)]
            dsimp only [WriteGuard.both]
            ac_rfl

theorem scanRootSafe_both (poll : Poll) :
    scanRootSafe (guard.both other) pollFile poll =
      (scanRootSafe guard pollFile poll && scanRootSafe other pollFile poll) :=
  along_both (scanChildSafe_both guard other pollFile (scanDirectorySafe_both guard other pollFile _) _) _ _

end

/-! ## The parts of a path -/

/-- What is left of the path behind its parent has no separator. -/
def PartOf (parent : Option Bytes) (path : Bytes) : Prop :=
  ∀ above, parent = some above → ∃ rest, slash ∉ rest ∧ path = above ++ slash :: rest

/-- Each path is a part behind the one before it. -/
def Parts : Option Bytes → List Bytes → Prop
  | _, [] => True
  | parent, path :: paths => PartOf parent path ∧ Parts (some path) paths

theorem Parts.snoc {parent : Option Bytes} {paths : List Bytes} {last next : Bytes}
    (parts : Parts parent (paths ++ [last])) (part : PartOf (some last) next) :
    Parts parent (paths ++ [last] ++ [next]) := by
  induction paths generalizing parent with
  | nil => exact ⟨parts.1, part, trivial⟩
  | cons path paths inductionHypothesis => exact ⟨parts.1, inductionHypothesis parts.2⟩

theorem Parts.replace {parent : Option Bytes} {paths : List Bytes} {last next : Bytes}
    (parts : Parts parent (paths ++ [last])) (part : ∀ above, PartOf above last → PartOf above next) :
    Parts parent (paths ++ [next]) := by
  induction paths generalizing parent with
  | nil => exact ⟨part parent parts.1, trivial⟩
  | cons path paths inductionHypothesis => exact ⟨parts.1, inductionHypothesis parts.2⟩

theorem Parts.addParents {parent : Option Bytes} {paths : List Bytes} {last : Bytes} (poll : Poll)
    (parts : Parts parent (paths ++ [last])) :
    Parts parent paths ∧ PartOf (addParents poll parent paths).2 last := by
  induction paths generalizing poll parent with
  | nil => exact ⟨trivial, parts.1⟩
  | cons path paths inductionHypothesis =>
    obtain ⟨above, below⟩ := inductionHypothesis (gamTreeAdd poll (gamNodeNew poll path true parent)) parts.2
    exact ⟨⟨parts.1, above⟩, below⟩

/-- The loop of `gam_tree_add_at_path` takes a path apart at its separators.  By induction on how far it
has come. -/
theorem parts_pathParents (path : Bytes) : Parts none (pathParents path ++ [path]) := by
  have upTo (length : Nat) (within : length ≤ path.length) :
      Parts none (((List.range length).filter fun i => 1 ≤ i ∧ path[i]? = some slash).map (path.take ·) ++
        [path.take length]) := by
    induction length with
    | zero => exact And.intro (fun _ isParent => nomatch isParent) trivial
    | succ length inductionHypothesis =>
      have before := inductionHypothesis (by omega)
      have inside : length < path.length := within
      have longer : path.take (length + 1) = path.take length ++ [path[length]] := by
        rw [List.take_add_one, List.getElem?_eq_getElem inside, Option.toList_some]
      rw [List.range_succ, List.filter_append, List.map_append, longer]
      by_cases cut : 1 ≤ length ∧ path[length]? = some slash
      · have here : path[length] = slash := by
          rw [List.getElem?_eq_getElem inside] at cut
          exact Option.some.inj cut.2
        rw [List.filter_cons_of_pos (by simpa using cut), List.filter_nil, here]
        refine before.snoc fun above isParent => ⟨[], List.not_mem_nil, ?_⟩
        rw [Option.some.inj isParent]
      · rw [List.filter_cons_of_neg (by simpa using cut), List.filter_nil, List.map_nil, List.append_nil]
        refine before.replace fun parent part above isParent => ?_
        obtain ⟨rest, separate, shape⟩ := part above isParent
        refine ⟨rest ++ [path[length]], ?_, by rw [shape, List.append_assoc, List.cons_append]⟩
        -- a path that has a part behind another one has begun
        have started : 1 ≤ length := by
          have lengths := congrArg List.length shape
          simp only [List.length_take, List.length_append, List.length_cons] at lengths
          omega
        have other : slash ≠ path[length] := fun isSlash =>
          cut ⟨started, by rw [List.getElem?_eq_getElem inside, ← isSlash]⟩
        simpa [separate] using other
  have whole := upTo path.length le_rfl
  rwa [List.take_length] at whole

/-! ## The rule -/

/-- The name has been read from the directory, in a state with the property. -/
def ReadName (property : Poll → Prop) (dir name : Bytes) : Prop :=
  ∃ poll names, property poll ∧ poll.view.listing dir = some names ∧ name ∈ names

theorem ReadName.imp {property weaker : Poll → Prop} (implies : ∀ poll, property poll → weaker poll)
    {dir name : Bytes} (read : ReadName property dir name) : ReadName weaker dir name := by
  obtain ⟨poll, names, holds, listing, member⟩ := read
  exact ⟨poll, names, implies poll holds, listing, member⟩

/-- Every write of a scan keeps the property, if the state before it is as asked. -/
structure ScanRule (pollFile : PollFile) (guard : WriteGuard) (property : Poll → Prop) : Prop where
  hook : KeepingHook pollFile
  called : ∀ {poll}, property poll → property poll.called
  emitted : ∀ {poll} path event, property poll → property (gamNodeEmitEvent poll path event)
  polled : ∀ {poll node}, gamTreeGetAtPath poll node.path = some node → guard.polls poll node = true →
    property poll → property (pollFile poll node).1
  entered : ∀ {poll child dir name}, gamTreeGetAtPath poll child.path = none → child.subs = [] →
    child.parent = some dir → child.path = gBuildFilename dir name → ReadName property dir name →
    (gamTreeGetAtPath poll dir).isSome → guard.adds poll (some dir) = true → property poll →
    property (gamTreeAdd poll child)
  cleared : ∀ {poll node}, gamTreeGetAtPath poll node.path = some node → property poll →
    property (poll.setNode { node with newNode := false })

/-- What a subscription is told when it is made: something about its path, or an entry of its directory. -/
def Tells (property : Poll → Prop) (dpath path : Bytes) (event : GaminEventType) : Prop :=
  path = dpath ∨ event = .exists ∧ ReadName property dpath path

/-- So does every write of a first scan for the subscription. -/
structure FirstScanRule (pollFile : PollFile) (guard : WriteGuard) (property : Poll → Prop) (sub : GamSubscription)
    (dpath : Bytes) : Prop
    extends ScanRule pollFile guard property where
  announced : ∀ {poll path event} isDirNode, Tells property dpath path event → property poll →
    property (gamServerEmitEvent poll path isDirNode event [sub] true)
  missed : ∀ {poll}, guard.misses poll dpath = true → property poll →
    property (firstScanMissing poll sub dpath)

/-- So does every write when a subscription is made: it asks for the scan of its own path. -/
structure FirstRule (pollFile : PollFile) (guard : WriteGuard) (property : Poll → Prop) : Prop
    extends ScanRule pollFile guard property where
  clock : ∀ {poll} now, property poll → property { poll with currentTime := now }
  told : ∀ {poll sub path event} nodeIsDir force, Tells property sub.path path event → property poll →
    property { poll with sent := poll.sent ++ gamServerEmitOneEvent path nodeIsDir event sub force }
  grown : ∀ {poll child}, gamTreeGetAtPath poll child.path = none → child.subs = [] → PartOf child.parent child.path →
    (∀ parent, child.parent = some parent → (gamTreeGetAtPath poll parent).isSome) →
    guard.adds poll child.parent = true → property poll → property (gamTreeAdd poll child)
  missed : ∀ {poll sub}, guard.misses poll sub.path = true → property poll →
    property (firstScanMissing poll sub sub.path)

/-- A property that does not look at the clock, the views and what has been sent, nor at what a new node
is. -/
structure PlainRule (pollFile : PollFile) (guard : WriteGuard) (property : Poll → Prop) : Prop where
  hook : KeepingHook pollFile
  elsewhere : ∀ {poll} time views sent, property poll →
    property { poll with currentTime := time, views := views, sent := sent }
  polled : ∀ {poll node}, gamTreeGetAtPath poll node.path = some node → guard.polls poll node = true →
    property poll → property (pollFile poll node).1
  added : ∀ {poll child}, gamTreeGetAtPath poll child.path = none → child.subs = [] →
    (∀ parent, child.parent = some parent → (gamTreeGetAtPath poll parent).isSome) →
    guard.adds poll child.parent = true → property poll → property (gamTreeAdd poll child)
  cleared : ∀ {poll node}, gamTreeGetAtPath poll node.path = some node → property poll →
    property (poll.setNode { node with newNode := false })
  missed : ∀ {poll sub dpath}, guard.misses poll dpath = true → property poll →
    property (firstScanMissing poll sub dpath)

section

variable {pollFile : PollFile} {guard : WriteGuard} {property : Poll → Prop}

theorem PlainRule.firstRule (rule : PlainRule pollFile guard property) : FirstRule pollFile guard property where
  hook := rule.hook
  called := rule.elsewhere _ _ _
  emitted path event holds := by
    unfold gamNodeEmitEvent
    split
    · exact rule.elsewhere _ _ _ holds
    · exact holds
  polled := rule.polled
  entered absent bare isChild _ _ there asked holds := by
    refine rule.added absent bare (fun parent isParent => ?_) (isChild ▸ asked) holds
    rw [isChild] at isParent
    exact Option.some.inj isParent ▸ there
  cleared := rule.cleared
  clock _ := rule.elsewhere _ _ _
  told _ _ _ := rule.elsewhere _ _ _
  grown absent bare _ there asked holds := rule.added absent bare there asked holds
  missed := rule.missed

/-- Nothing happens if the path of the new node is there already. -/
theorem gamTreeAdd_keeps {poll : Poll} {child : GamNode}
    (added : gamTreeGetAtPath poll child.path = none → property (gamTreeAdd poll child))
    (holds : property poll) : property (gamTreeAdd poll child) := by
  cases absent : gamTreeGetAtPath poll child.path with
  | none => exact added absent
  | some node =>
    rw [Polling.gamTreeAdd, absent, Option.isSome_some, if_pos rfl]
    exact holds

theorem SameSubs.isSome {before after : Poll} (same : SameSubs before after) {path : Bytes}
    (there : (gamTreeGetAtPath before path).isSome) : (gamTreeGetAtPath after path).isSome := by
  obtain ⟨node, found⟩ := Option.isSome_iff_exists.mp there
  obtain ⟨next, foundNext, _⟩ := same.keeps path node found
  rw [foundNext]
  rfl

theorem ScanRule.scanNames (rule : ScanRule pollFile guard property) {poll : Poll} {dirPath : Bytes}
    (there : (gamTreeGetAtPath poll dirPath).isSome) {names : List Bytes}
    (read : ∀ name ∈ names, ReadName property dirPath name)
    (safe : along (scanName dirPath) (scanNameSafe guard dirPath) poll names = true)
    (holds : property poll) : property (names.foldl (scanName dirPath) poll) := by
  have both := @along_keeps _ _ (scanName dirPath) (scanNameSafe guard dirPath)
    (fun poll => (gamTreeGetAtPath poll dirPath).isSome ∧ property poll) names ?_ poll ⟨there, holds⟩ safe
  · exact both.2
  · rintro poll name member ⟨there, holds⟩ safe
    have same := (SameSubs.refl poll).scanNames dirPath [name]
    refine ⟨same.isSome there, ?_⟩
    unfold scanName
    extract_lets path isDir called
    split
    · exact holds
    case isFalse absent =>
      rw [scanNameSafe, Bool.or_eq_true] at safe
      have asked := safe.resolve_left absent
      refine gamTreeAdd_keeps (fun free => ?_) (rule.called holds)
      exact rule.entered free rfl rfl rfl (read name member) there asked (rule.called holds)

/-- One child of a scanned node. -/
theorem ScanRule.scanChild (rule : ScanRule pollFile guard property) {rescan : Bytes → Poll → Poll}
    {rescanSafe : Bytes → Poll → Bool}
    (rescans : ∀ path poll, rescanSafe path poll = true → property poll → property (rescan path poll))
    (scannedIsDir : Poll → Bool) {poll : Poll} {path : Bytes}
    (safe : scanChildSafe guard pollFile rescanSafe scannedIsDir poll path = true) (holds : property poll) :
    property (scanChildOf pollFile rescan scannedIsDir poll path) := by
  unfold Polling.scanChildOf
  unfold scanChildSafe at safe
  cases found : gamTreeGetAtPath poll path with
  | none => exact holds
  | some node =>
    simp only [found, Bool.and_eq_true] at safe ⊢
    obtain ⟨asked, later⟩ := safe
    have atNode : gamTreeGetAtPath poll node.path = some node := by rwa [gamTreeGetAtPath_path found]
    have polled := rule.polled atNode asked holds
    cases foundNext : gamTreeGetAtPath (pollFile poll node).1 path with
    | none => exact polled
    | some next =>
      simp only [foundNext] at later ⊢
      have here : gamTreeGetAtPath (pollFile poll node).1 next.path = some next := by
        rwa [gamTreeGetAtPath_path foundNext]
      have known := rule.cleared here polled
      split
      case isTrue new =>
        split
        case isTrue waiting =>
          rw [if_pos ⟨new, waiting⟩] at later
          exact rule.emitted path _ (rescans path _ later known)
        case isFalse => exact rule.emitted path _ known
      case isFalse => exact rule.emitted path _ polled

/-- The children of a scanned directory, if deeper scans keep the property. -/
theorem ScanRule.scanChildren (rule : ScanRule pollFile guard property) {depth : Nat} {dirPath : Bytes}
    (deeper : ∀ {dirPath poll}, scanDirectorySafe guard pollFile depth dirPath poll = true → property poll →
      property (gamPollGenericScanDirectoryInternal pollFile depth dirPath poll)) {poll : Poll} {paths : List Bytes}
    (safe : along (Polling.scanChild pollFile (gamPollGenericScanDirectoryInternal pollFile depth) dirPath)
      (scanChildSafe guard pollFile (scanDirectorySafe guard pollFile depth) fun poll =>
        ((gamTreeGetAtPath poll dirPath).map (·.isDir)).getD false) poll paths = true) (holds : property poll) :
    property (paths.foldl
      (Polling.scanChild pollFile (gamPollGenericScanDirectoryInternal pollFile depth) dirPath) poll) :=
  along_keeps (fun _ _ _ holds safe => rule.scanChild (fun _ _ safe holds => deeper safe holds) _ safe holds) holds safe

/-- A scan that begins with a poll of the directory: it is enough that the property holds after it. -/
theorem ScanRule.scanPolled (rule : ScanRule pollFile guard property) {depth : Nat} {dirPath : Bytes}
    (deeper : ∀ {dirPath poll}, scanDirectorySafe guard pollFile depth dirPath poll = true → property poll →
      property (gamPollGenericScanDirectoryInternal pollFile depth dirPath poll)) {poll : Poll} {dirNode : GamNode}
    (found : gamTreeGetAtPath poll dirPath = some dirNode) (subscribed : dirNode.subs ≠ [])
    (late : tooSoon poll dirNode = false)
    (safe : scanDirectorySafe guard pollFile (depth + 1) dirPath poll = true)
    (polled : property (pollFile poll dirNode).1) :
    property (gamPollGenericScanDirectoryInternal pollFile (depth + 1) dirPath poll) := by
  unfold gamPollGenericScanDirectoryInternal
  unfold scanDirectorySafe at safe
  simp only [found, if_neg subscribed, late, Bool.false_eq_true, if_false, Bool.and_eq_true] at safe ⊢
  have emitted := rule.emitted dirPath (pollFile poll dirNode).2 polled
  cases listing :
    (gamNodeEmitEvent (pollFile poll dirNode).1 dirPath (pollFile poll dirNode).2).view.listing dirPath with
  | none => exact rule.called emitted
  | some names =>
    simp only [listing, Bool.and_eq_true] at safe ⊢
    have same := (rule.hook.at_path found).gamNodeEmitEvent dirPath (pollFile poll dirNode).2
    have there : (gamTreeGetAtPath (gamNodeEmitEvent (pollFile poll dirNode).1 dirPath
        (pollFile poll dirNode).2).called dirPath).isSome :=
      same.isSome (Option.isSome_of_eq_some found)
    have read (name : Bytes) (member : name ∈ names) : ReadName property dirPath name :=
      ⟨_, names, emitted, listing, member⟩
    exact rule.scanChildren deeper safe.2.2 (rule.scanNames there read safe.2.1 (rule.called emitted))

/-- A whole scan of a directory, by induction on the depth. -/
theorem ScanRule.scanDirectory (rule : ScanRule pollFile guard property) (depth : Nat)
    {dirPath : Bytes} {poll : Poll} (safe : scanDirectorySafe guard pollFile depth dirPath poll = true)
    (holds : property poll) :
    property (gamPollGenericScanDirectoryInternal pollFile depth dirPath poll) := by
  induction depth generalizing dirPath poll with
  | zero => exact holds
  | succ depth inductionHypothesis =>
    cases found : gamTreeGetAtPath poll dirPath with
    | none =>
      simp only [gamPollGenericScanDirectoryInternal, found]
      exact holds
    | some dirNode =>
      by_cases unsubscribed : dirNode.subs = []
      · simp only [scanDirectorySafe, found, if_pos unsubscribed] at safe
        simp only [gamPollGenericScanDirectoryInternal, found, if_pos unsubscribed]
        exact rule.scanChildren inductionHypothesis safe holds
      · cases late : tooSoon poll dirNode with
        | true =>
          simp only [gamPollGenericScanDirectoryInternal, found, if_neg unsubscribed, late, if_true]
          exact holds
        | false =>
          have asked : guard.polls poll dirNode = true := by
            simp only [scanDirectorySafe, found, if_neg unsubscribed, late, Bool.false_eq_true, if_false,
              Bool.and_eq_true] at safe
            exact safe.1
          have atNode : gamTreeGetAtPath poll dirNode.path = some dirNode := by
            rwa [gamTreeGetAtPath_path found]
          exact rule.scanPolled inductionHypothesis found unsubscribed late safe (rule.polled atNode asked holds)

theorem ScanRule.scanRoot (rule : ScanRule pollFile guard property) {poll : Poll}
    (safe : scanRootSafe guard pollFile poll = true) (holds : property poll) :
    property (gamPollGenericScanRoot pollFile poll) :=
  along_keeps (fun _ _ _ holds safe => rule.scanChild (fun _ _ safe holds => rule.scanDirectory _ safe holds)
    _ safe holds) holds safe

/-! ## The first scan -/

theorem gamServerEmitEvent_one (poll : Poll) (path : Bytes) (isDirNode : Bool) (event : GaminEventType)
    (sub : GamSubscription) (force : Bool) :
    gamServerEmitEvent poll path isDirNode event [sub] force =
      { poll with sent := poll.sent ++ gamServerEmitOneEvent path isDirNode event sub force } := by
  rw [gamServerEmitEvent, List.flatMap_singleton]

section

variable {sub : GamSubscription} {dpath : Bytes}

theorem FirstScanRule.firstScanNames (rule : FirstScanRule pollFile guard property sub dpath)
    (withExists : Bool) {poll : Poll} (there : (gamTreeGetAtPath poll dpath).isSome)
    {names : List Bytes} (read : ∀ name ∈ names, ReadName property dpath name)
    (safe : along (firstScanName sub withExists dpath) (firstScanNameSafe guard dpath) poll names = true)
    (holds : property poll) : property (names.foldl (firstScanName sub withExists dpath) poll) := by
  have both := @along_keeps _ _ (firstScanName sub withExists dpath) (firstScanNameSafe guard dpath)
    (fun poll => (gamTreeGetAtPath poll dpath).isSome ∧ property poll) names ?_ poll ⟨there, holds⟩ safe
  · exact both.2
  · rintro poll name member ⟨there, holds⟩ safe
    have same := (SameSubs.refl poll).firstScanName sub withExists dpath name
    refine ⟨same.isSome there, ?_⟩
    unfold firstScanName
    extract_lets path isDir called node sbuf flags known
    have added : property known := by
      simp only [known]
      split
      · exact holds
      case isFalse absent =>
        rw [firstScanNameSafe, Bool.or_eq_true] at safe
        have asked := safe.resolve_left absent
        refine gamTreeAdd_keeps (fun free => ?_) (rule.called (rule.called holds))
        exact rule.entered free rfl rfl rfl (read name member) there asked (rule.called (rule.called holds))
    split
    · exact rule.announced true (.inr ⟨rfl, read name member⟩) added
    · exact added

theorem FirstScanRule.firstScanPresent (rule : FirstScanRule pollFile guard property sub dpath)
    (withExists : Bool) {poll : Poll} (there : (gamTreeGetAtPath poll dpath).isSome)
    (safe : firstScanPresentSafe guard pollFile poll sub withExists dpath = true)
    (holds : property poll) : property (firstScanPresent pollFile poll sub withExists dpath) := by
  obtain ⟨node, found⟩ := Option.isSome_iff_exists.mp there
  have atNode : gamTreeGetAtPath poll node.path = some node := by rwa [gamTreeGetAtPath_path found]
  unfold firstScanPresentSafe at safe
  unfold Polling.firstScanPresent
  simp only [found, Bool.and_eq_true] at safe ⊢
  obtain ⟨asked, later⟩ := safe
  -- the directory is polled if it never has been
  have polled : SameSubs poll (if node.lasttime = 0 then (pollFile poll node).1 else poll) ∧
      property (if node.lasttime = 0 then (pollFile poll node).1 else poll) := by
    split
    case isTrue never =>
      rw [if_pos never] at asked
      exact ⟨rule.hook.at_path found, rule.polled atNode asked holds⟩
    case isFalse => exact ⟨.refl poll, holds⟩
  generalize (if node.lasttime = 0 then (pollFile poll node).1 else poll) = next at polled later ⊢
  have announced : SameSubs poll (if withExists then
        gamServerEmitEvent next dpath true .exists [sub] true else next) ∧
      property (if withExists then gamServerEmitEvent next dpath true .exists [sub] true else next) := by
    split
    · exact ⟨polled.1.of_nodes rfl, rule.announced true (.inl rfl) polled.2⟩
    · exact polled
  generalize (if withExists then gamServerEmitEvent next dpath true .exists [sub] true else next) = last
    at announced later ⊢
  cases listing : last.view.listing dpath with
  | none => exact rule.called announced.2
  | some names =>
    simp only [listing] at later
    have thereLast : (gamTreeGetAtPath last.called dpath).isSome := announced.1.isSome there
    have read (name : Bytes) (member : name ∈ names) : ReadName property dpath name :=
      ⟨last, names, announced.2, listing, member⟩
    exact rule.firstScanNames withExists thereLast read later (rule.called announced.2)

theorem FirstScanRule.firstScanDir (rule : FirstScanRule pollFile guard property sub dpath)
    {poll : Poll} (there : (gamTreeGetAtPath poll dpath).isSome)
    (safe : firstScanDirSafe guard pollFile poll sub dpath = true) (holds : property poll) :
    property (gamPollGenericFirstScanDir pollFile poll sub dpath) := by
  have called := rule.called holds
  unfold firstScanDirSafe at safe
  simp only [gamPollGenericFirstScanDir]
  have thereCalled : (gamTreeGetAtPath poll.called dpath).isSome := there
  have scanned : property (if (poll.view.stat dpath).exists then
      Polling.firstScanPresent pollFile poll.called sub (decide (sub.options &&& gamOptNoexists = 0)) dpath
      else firstScanMissing poll.called sub dpath) := by
    split
    case isTrue present =>
      simp only [if_pos present] at safe
      exact rule.firstScanPresent _ thereCalled safe called
    case isFalse absent =>
      simp only [if_neg absent] at safe
      exact rule.missed safe called
  generalize (if (poll.view.stat dpath).exists then
      Polling.firstScanPresent pollFile poll.called sub (decide (sub.options &&& gamOptNoexists = 0)) dpath
    else firstScanMissing poll.called sub dpath) = last at scanned ⊢
  split
  · exact rule.announced true (.inl rfl) scanned
  · exact scanned

end

theorem FirstRule.firstScan (rule : FirstRule pollFile guard property) (sub : GamSubscription) :
    FirstScanRule pollFile guard property sub sub.path where
  toScanRule := rule.toScanRule
  announced isDirNode tells holds := by
    rw [gamServerEmitEvent_one]
    exact rule.told isDirNode true tells holds
  missed := rule.missed

/-- Such a property does not depend on whom the scan is for. -/
theorem PlainRule.firstScan (rule : PlainRule pollFile guard property) (sub : GamSubscription) (dpath : Bytes) :
    FirstScanRule pollFile guard property sub dpath where
  toScanRule := rule.firstRule.toScanRule
  announced _ _ := rule.elsewhere _ _ _
  missed := rule.missed

/-! ## Nodes for a path -/

theorem FirstRule.addParents (rule : FirstRule pollFile guard property) {poll : Poll}
    {parent : Option Bytes}
    (there : ∀ path, parent = some path → (gamTreeGetAtPath poll path).isSome) {paths : List Bytes}
    (parts : Parts parent paths) (safe : addParentsSafe guard poll parent paths = true)
    (holds : property poll) :
    property (addParents poll parent paths).1 ∧
      ∀ path, (addParents poll parent paths).2 = some path →
        (gamTreeGetAtPath (addParents poll parent paths).1 path).isSome := by
  induction paths generalizing poll parent with
  | nil => exact ⟨holds, there⟩
  | cons path paths inductionHypothesis =>
    rw [addParentsSafe, Bool.and_eq_true, Bool.or_eq_true] at safe
    refine inductionHypothesis ?_ parts.2 safe.2 ?_
    · rintro _ ⟨⟩
      exact gamTreeAdd_isSome poll (gamNodeNew poll path true parent)
    · refine gamTreeAdd_keeps (fun absent => ?_) holds
      refine rule.grown absent rfl parts.1 there (safe.1.resolve_left ?_) holds
      rw [show gamTreeGetAtPath poll path = none from absent]
      exact Bool.false_ne_true

theorem FirstRule.gamTreeAddAtPath (rule : FirstRule pollFile guard property) {poll : Poll}
    {path : Bytes} (isDir : Bool) (safe : addAtPathSafe guard poll path = true) (holds : property poll) :
    property (gamTreeAddAtPath poll path isDir) := by
  unfold addAtPathSafe at safe
  simp only [Polling.gamTreeAddAtPath]
  split
  · exact holds
  case isFalse nonempty =>
    split
    · exact holds
    case isFalse absent =>
      simp only [if_neg nonempty, if_neg absent, Bool.and_eq_true] at safe
      have called : property (if (poll.view.stat path).exists then poll.called.called else poll.called) := by
        split
        · exact rule.called (rule.called holds)
        · exact rule.called holds
      obtain ⟨parts, part⟩ := (parts_pathParents path).addParents
        (if (poll.view.stat path).exists then poll.called.called else poll.called)
      obtain ⟨parents, there⟩ := rule.addParents (by simp) parts safe.1 called
      refine gamTreeAdd_keeps (fun free => ?_) parents
      exact rule.grown free rfl part there safe.2 parents

end

/-! ## Nothing is asked -/

theorem SameSubs.subscribed {before after : Poll} (same : SameSubs before after) {path : Bytes}
    (subscribed : subsAt before path ≠ []) : subsAt after path ≠ [] := by
  cases found : gamTreeGetAtPath before path with
  | none => simp [subsAt, found] at subscribed
  | some node =>
    obtain ⟨next, foundNext, subs⟩ := same.keeps path node found
    rw [subsAt, found] at subscribed
    rw [subsAt, foundNext]
    simpa [subs] using subscribed

/-- A scan puts new nodes below nodes that somebody has subscribed to, so a guard that asks no more
than that asks nothing. -/
structure WriteGuard.Easy (guard : WriteGuard) : Prop where
  polls : ∀ poll node, guard.polls poll node = true
  adds : ∀ poll path, subsAt poll path ≠ [] → guard.adds poll (some path) = true
  misses : ∀ poll dpath, guard.misses poll dpath = true

theorem WriteGuard.free_easy : WriteGuard.free.Easy :=
  ⟨fun _ _ => rfl, fun _ _ _ => rfl, fun _ _ => rfl⟩

/-- New nodes are put below nodes that somebody has subscribed to. -/
def entryGuard : WriteGuard where
  polls _ _ := true
  adds poll parent := (parent.map (subsAt poll)).getD [] ≠ []
  misses _ _ := true

theorem entryGuard_easy : entryGuard.Easy :=
  ⟨fun _ _ => rfl, fun _ _ subscribed => by simpa [entryGuard] using subscribed, fun _ _ => rfl⟩

section

variable {guard : WriteGuard} (easy : guard.Easy)

include easy

theorem WriteGuard.Easy.scanNames {poll : Poll} {dirPath : Bytes} (subscribed : subsAt poll dirPath ≠ [])
    (names : List Bytes) : along (scanName dirPath) (scanNameSafe guard dirPath) poll names = true := by
  refine @along_of_kept _ _ _ _ (fun poll => subsAt poll dirPath ≠ [])
    (fun poll name subscribed => ⟨?_, ?_⟩) poll subscribed names
  · rw [scanNameSafe, easy.adds poll.called dirPath subscribed, Bool.or_true]
  · exact ((SameSubs.refl poll).scanNames dirPath [name]).subscribed subscribed

theorem WriteGuard.Easy.scanDirectory {pollFile : PollFile} (hook : KeepingHook pollFile) (depth : Nat)
    (dirPath : Bytes) (poll : Poll) : scanDirectorySafe guard pollFile depth dirPath poll = true := by
  induction depth generalizing dirPath poll with
  | zero => rfl
  | succ depth inductionHypothesis =>
    have files := @along_free _ _
      (scanChild pollFile (gamPollGenericScanDirectoryInternal pollFile depth) dirPath)
      (scanChildSafe guard pollFile (scanDirectorySafe guard pollFile depth) fun poll =>
        ((gamTreeGetAtPath poll dirPath).map (·.isDir)).getD false) (fun poll path => by
        unfold scanChildSafe
        split
        · rfl
        · simp only [easy.polls, Bool.true_and]
          split
          · rfl
          · split
            · exact inductionHypothesis _ _
            · rfl)
    unfold scanDirectorySafe
    extract_lets filesSafe
    have filesAll : ∀ poll, filesSafe poll = true := fun poll => files poll _
    split
    · rfl
    case h_2 dirNode found =>
      split
      · exact filesAll poll
      case isFalse subscribed =>
        split
        · rfl
        · simp only [filesAll, Bool.and_true, easy.polls, Bool.true_and]
          split
          · rfl
          · apply easy.scanNames
            -- the poll and its event leave the subscription where it is
            have same := (hook.at_path found).gamNodeEmitEvent dirPath (pollFile poll dirNode).2
            refine same.subscribed ?_
            rw [subsAt, found]
            exact subscribed

theorem WriteGuard.Easy.firstScanDir {pollFile : PollFile} (hook : KeepingHook pollFile) {poll : Poll}
    (sub : GamSubscription) {dpath : Bytes} (subscribed : subsAt poll dpath ≠ []) :
    firstScanDirSafe guard pollFile poll sub dpath = true := by
  -- the directory keeps its subscription while its names are gone through
  have names {poll : Poll} (withExists : Bool) (subscribed : subsAt poll dpath ≠ []) (names : List Bytes) :
      along (firstScanName sub withExists dpath) (firstScanNameSafe guard dpath) poll names = true := by
    refine @along_of_kept _ _ _ _ (fun poll => subsAt poll dpath ≠ [])
      (fun poll name subscribed => ⟨?_, ?_⟩) poll subscribed names
    · rw [firstScanNameSafe, easy.adds poll.called.called dpath subscribed, Bool.or_true]
    · exact ((SameSubs.refl poll).firstScanName sub withExists dpath name).subscribed subscribed
  unfold firstScanDirSafe
  extract_lets withExists
  split
  · unfold firstScanPresentSafe
    extract_lets polled next announced
    have allowed : polled = true := by
      simp only [polled, easy.polls]
      split
      · exact ite_self _
      · rfl
    rw [allowed, Bool.true_and]
    split
    · rfl
    · apply names
      have called : SameSubs poll poll.called := (SameSubs.refl poll).of_nodes rfl
      have sameNext : SameSubs poll next := by
        simp only [next]
        split
        case h_1 node found =>
          split
          · exact called.trans (hook.at_path found)
          · exact called
        · exact called
      have same : SameSubs poll announced := by
        simp only [announced]
        split
        · exact sameNext.of_nodes rfl
        · exact sameNext
      exact same.subscribed subscribed
  · exact easy.misses _ _

end

theorem firstScanDirSafe_free (pollFile : PollFile) (poll : Poll) (sub : GamSubscription) (dpath : Bytes) :
    firstScanDirSafe .free pollFile poll sub dpath = true := by
  have names := @along_free _ _ (firstScanName sub (decide (sub.options &&& gamOptNoexists = 0)) dpath)
    (firstScanNameSafe .free dpath) (fun _ _ => Bool.or_true _)
  unfold firstScanDirSafe
  extract_lets withExists
  split
  · unfold firstScanPresentSafe
    extract_lets polled next announced
    have free : polled = true := by
      simp only [polled, WriteGuard.free]
      split
      · exact ite_self _
      · rfl
    rw [free, Bool.true_and]
    split
    · rfl
    · exact names _ _
  · rfl

section

variable {guard : WriteGuard} (adds : ∀ poll parent, guard.adds poll parent = true)

include adds

theorem addParentsSafe_of_adds (poll : Poll) (parent : Option Bytes) (paths : List Bytes) :
    addParentsSafe guard poll parent paths = true := by
  induction paths generalizing poll parent with
  | nil => rfl
  | cons path paths inductionHypothesis =>
    rw [addParentsSafe, inductionHypothesis, adds, Bool.or_true, Bool.and_self]

theorem addAtPathSafe_of_adds (poll : Poll) (path : Bytes) : addAtPathSafe guard poll path = true := by
  unfold addAtPathSafe
  split
  · rfl
  · split
    · rfl
    · exact Bool.and_eq_true_iff.mpr ⟨addParentsSafe_of_adds adds _ none _, adds _ _⟩

end

theorem addAtPathSafe_free (poll : Poll) (path : Bytes) : addAtPathSafe .free poll path = true :=
  addAtPathSafe_of_adds (fun _ _ => rfl) poll path

end Gamin.Polling
