import Gamin.Polling.Registration

/-! # The initial events of a file

A new subscription to a file is told at once whether the file exists, and then that there is no
more to tell.  `gam_poll_basic_add_subscription` reads the answer off the event of
`gam_poll_basic_poll_file`, where no event may also mean that the file is still missing, or that
it was not looked at.

The file system stands still here: `view` is what it shows at the moment of the request.
-/

namespace Gamin.Polling

open Gamin Gamin.Server Gamin.Inotify

/-! ## What should be sent -/

/-- A subscription of a request to monitor a file. -/
def fileSubscription (address : Pointer) (path : Bytes) (reqno options : Nat) : GamSubscription :=
  gamSubscriptionNew address path requestedEvents reqno false options

/-- An event about the path of the subscription itself. -/
def ownEvent (sub : GamSubscription) (event : GaminEventType) : Emission where
  sub := sub
  path := sub.path
  subpath := sub.path
  event := event

/-- The two events that tell about the file. -/
def initialEvents (view : FsView) (sub : GamSubscription) : List Emission :=
  [ownEvent sub (if (view.stat sub.path).exists then .exists else .deleted), ownEvent sub .endexists]

/-- The backend while the file system shows this. -/
def Poll.showing (poll : Poll) (view : FsView) : Poll := { poll with views := fun _ => view }

/-- The request is served, and the two events are sent, and nothing else. -/
def SendsInitialEvents (poll : Poll) (view : FsView) (now : Nat) (sub : GamSubscription) : Prop :=
  ∃ after, gamPollBasicAddSubscription (poll.showing view) now sub = some after ∧
    after.sent = poll.sent ++ initialEvents view sub

/-! ## What a request finds -/

/-- The backend looks at the path as at a directory: its node says so, or there is none yet and
the path is a directory. -/
def scannedFirst (poll : Poll) (view : FsView) (path : Bytes) : Bool :=
  match gamTreeGetAtPath poll path with
  | some node => node.isDir
  | none => (view.stat path).isDir

/-- The file is there, or a poll of the node notices that it is not: it is the first poll, or it
is due and finds the file deleted since the last one. -/
def Noticed (poll : Poll) (view : FsView) (now : Nat) (node : GamNode) : Prop :=
  (view.stat node.path).exists ∨ node.lasttime = 0 ∨
    (tooSoon { poll with currentTime := now } node = false ∧ view.stat node.path = .noent ∧
      node.pflags.missing = false)

/-- The condition on the request and on the state before it.  The path is not empty, so that there
will be a node for it.  The subscription is new to the node and does not decline the events about
what exists.  A directory is asked about by a path that is not also the name of one of its entries.
A node that is not one for a directory is noticed. -/
structure InitialGuard (poll : Poll) (view : FsView) (now : Nat) (sub : GamSubscription) : Prop where
  nonempty : sub.path = [] → (gamTreeGetAtPath poll sub.path).isSome
  new : sub ∉ subsAt poll sub.path
  wanted : sub.options &&& gamOptNoexists = 0
  entries : scannedFirst poll view sub.path → (view.stat sub.path).exists →
    ∀ names, view.listing sub.path = some names → sub.path ∉ names
  noticed : ∀ node, gamTreeGetAtPath poll sub.path = some node → node.isDir = false →
    Noticed poll view now node

/-! ## While the file system stands still -/

/-- The file system stands still, and so does the clock, and this has been sent. -/
structure Still (view : FsView) (now : Nat) (sent : List Emission) (poll : Poll) : Prop where
  views : poll.views = fun _ => view
  time : poll.currentTime = now
  sent : poll.sent = sent

namespace Still

variable {view : FsView} {now : Nat} {sent : List Emission} {poll : Poll}

theorem view_eq (still : Still view now sent poll) : poll.view = view := by
  rw [Poll.view, still.views]

theorem called (still : Still view now sent poll) : Still view now sent poll.called where
  views := by rw [Poll.called, still.views]
  time := still.time
  sent := still.sent

theorem setNode (still : Still view now sent poll) (node : GamNode) : Still view now sent (poll.setNode node) :=
  ⟨still.views, still.time, still.sent⟩

theorem gamTreeAdd (still : Still view now sent poll) (child : GamNode) :
    Still view now sent (gamTreeAdd poll child) := by
  unfold Polling.gamTreeAdd
  split
  · exact still
  · exact ⟨still.views, still.time, still.sent⟩

theorem addParents (still : Still view now sent poll) (parent : Option Bytes) (paths : List Bytes) :
    Still view now sent (addParents poll parent paths).1 := by
  induction paths generalizing poll parent with
  | nil => exact still
  | cons path paths inductionHypothesis =>
    exact inductionHypothesis (still.gamTreeAdd (gamNodeNew poll path true parent)) (some path)

theorem gamTreeAddAtPath (still : Still view now sent poll) (path : Bytes) (isDir : Bool) :
    Still view now sent (gamTreeAddAtPath poll path isDir) := by
  unfold Polling.gamTreeAddAtPath
  split
  · exact still
  · split
    · exact still
    · have looked : Still view now sent (if (poll.view.stat path).exists then poll.called.called else poll.called) := by
        split
        · exact still.called.called
        · exact still.called
      exact (looked.addParents none (pathParents path)).gamTreeAdd _

theorem addMissing (still : Still view now sent poll) (path : Bytes) :
    Still view now sent (gamPollGenericAddMissing poll path) := by
  unfold gamPollGenericAddMissing
  split
  · exact still
  · exact ⟨still.views, still.time, still.sent⟩

theorem add (still : Still view now sent poll) (path : Bytes) : Still view now sent (gamPollGenericAdd poll path) := by
  unfold gamPollGenericAdd
  split
  · exact still
  · exact ⟨still.views, still.time, still.sent⟩

theorem emit (still : Still view now sent poll) (path : Bytes) (isDirNode : Bool) (event : GaminEventType)
    (sub : GamSubscription) (force : Bool) :
    Still view now (sent ++ gamServerEmitOneEvent path isDirNode event sub force)
      (gamServerEmitEvent poll path isDirNode event [sub] force) where
  views := still.views
  time := still.time
  sent := by
    rw [gamServerEmitEvent, still.sent, List.flatMap_singleton]

theorem pollFile (still : Still view now sent poll) (node : GamNode) :
    Still view now sent (gamPollBasicPollFile poll node).1 := by
  unfold gamPollBasicPollFile
  split
  · exact still
  · split
    · unfold pollNewFile
      split
      · exact still.called.setNode _
      · exact still.called.setNode _
    · unfold pollKnownFile
      dsimp only
      split
      · split
        · exact ⟨still.called.views, still.time, still.sent⟩
        · split <;> exact still.called.setNode _
      · split
        · apply addMissing
          exact ⟨still.called.views, still.time, still.sent⟩
        · exact still.called.setNode _

end Still

/-! ## The node of the path -/

/-- A path without a node gets one that has not been polled, for what the path is now. -/
theorem gamTreeAddAtPath_unknown {view : FsView} {now : Nat} {sent : List Emission} {poll : Poll}
    (still : Still view now sent poll) {path : Bytes} (nonempty : path ≠ [])
    (unknown : gamTreeGetAtPath poll path = none) :
    ∃ node, gamTreeGetAtPath (gamTreeAddAtPath poll path false) path = some node ∧ node.path = path ∧
      node.subs = [] ∧ node.lasttime = 0 ∧ node.isDir = (view.stat path).isDir := by
  have missing : (view.stat path).exists = false → (view.stat path).isDir = false := by
    intro gone
    cases answer : view.stat path with
    | found sbuf => simp [answer, StatAnswer.exists] at gone
    | noent => rfl
    | failed => rfl
  unfold gamTreeAddAtPath
  rw [if_neg nonempty, unknown, if_neg (by simp)]
  dsimp only
  rw [still.view_eq, still.called.view_eq]
  -- the calls make no difference to the nodes
  generalize looked : (if (view.stat path).exists = true then poll.called.called else poll.called) = next
  have nodes : next.nodes = poll.nodes := by
    rw [← looked]
    split <;> rfl
  have stillUnknown : gamTreeGetAtPath (addParents next none (pathParents path)).1 path = none := by
    rw [addParents_other _ (not_mem_pathParents path), gamTreeGetAtPath, nodes]
    exact unknown
  refine ⟨_, gamTreeAdd_self stillUnknown, rfl, rfl, rfl, ?_⟩
  show (if (view.stat path).exists = true then (view.stat path).isDir else false) = (view.stat path).isDir
  split
  · rfl
  · rename_i gone
    rw [missing (Bool.eq_false_iff.mpr gone)]

/-! ## What a file subscription wants -/

section

variable {address : Pointer} {path : Bytes} {reqno options : Nat}

/-- A file subscription gets the events about its own path. -/
theorem emitOne_wanted (wanted : options &&& gamOptNoexists = 0) {event : GaminEventType}
    (initial : event = .exists ∨ event = .deleted ∨ event = .endexists) (name : Bytes) (nodeIsDir force : Bool) :
    gamServerEmitOneEvent name nodeIsDir event (fileSubscription address path reqno options) force =
      if name = path then [ownEvent (fileSubscription address path reqno options) event] else [] := by
  have has : gamSubscriptionHasEvent (fileSubscription address path reqno options) event = true := by
    show decide ((requestedEvents ||| (GaminEventType.exists.code ||| GaminEventType.endexists.code)) &&&
      event.code ≠ 0) = true
    rcases initial with rfl | rfl | rfl <;> decide
  have wants : gamSubscriptionWantsEvent (fileSubscription address path reqno options) name nodeIsDir event force =
      decide (name = path) := by
    unfold gamSubscriptionWantsEvent
    rw [has]
    simp [fileSubscription, gamSubscriptionNew, wanted]
  unfold gamServerEmitOneEvent
  rw [wants]
  simp only [decide_eq_true_eq]
  split
  · rename_i same
    subst same
    rfl
  · rfl

/-- Without the events about what exists there is no end of them. -/
theorem emitOne_unwanted (unwanted : options &&& gamOptNoexists ≠ 0) {event : GaminEventType}
    (about : event = .exists ∨ event = .endexists) (name : Bytes) (nodeIsDir force : Bool) :
    gamServerEmitOneEvent name nodeIsDir event (fileSubscription address path reqno options) force = [] := by
  have wants : gamSubscriptionWantsEvent (fileSubscription address path reqno options) name nodeIsDir event force =
      false := by
    unfold gamSubscriptionWantsEvent
    have skipped : (fileSubscription address path reqno options).options &&& gamOptNoexists ≠ 0 ∧
        (event = .exists ∨ event = .endexists) := ⟨unwanted, about⟩
    simp only [skipped, ne_eq, not_false_eq_true, and_self, if_true, ite_self]
  unfold gamServerEmitOneEvent
  rw [wants]
  rfl

end

/-! ## What is sent -/

/-- The event about the file that `gam_poll_basic_add_subscription` makes of the event of a poll. -/
def reportedState : Option GaminEventType → GaminEventType
  | none | some .exists | some .changed | some .created => .exists
  | some _ => .deleted

/-- The events of a file subscription to a node that is not one for a directory. -/
def fileEvents (sub : GamSubscription) (event : Option GaminEventType) : List Emission :=
  gamServerEmitOneEvent sub.path false (reportedState event) sub false ++
    gamServerEmitOneEvent sub.path false .endexists sub false

/-- The events of the first scan. -/
def scanEvents (view : FsView) (sub : GamSubscription) : List Emission :=
  let withExists : Bool := sub.options &&& gamOptNoexists = 0
  let entryEvents := fun name =>
    if withExists then gamServerEmitOneEvent name true .exists sub true else []
  let found :=
    if (view.stat sub.path).exists then
      (if withExists then gamServerEmitOneEvent sub.path true .exists sub true else []) ++
        ((view.listing sub.path).getD []).flatMap entryEvents
    else gamServerEmitOneEvent sub.path true .deleted sub true
  found ++ if withExists then gamServerEmitOneEvent sub.path true .endexists sub true else []

section

variable {view : FsView} {now : Nat} {sent : List Emission} {poll : Poll}

/-- An event goes out, or none does. -/
theorem Still.emitIf (still : Still view now sent poll) (wanted : Bool) (path : Bytes) (isDirNode : Bool)
    (event : GaminEventType) (sub : GamSubscription) (force : Bool) :
    Still view now (sent ++ if wanted then gamServerEmitOneEvent path isDirNode event sub force else [])
      (if wanted then gamServerEmitEvent poll path isDirNode event [sub] force else poll) := by
  cases wanted with
  | true => exact still.emit path isDirNode event sub force
  | false =>
    rw [if_neg Bool.false_ne_true, List.append_nil]
    exact still

theorem Still.firstScanNames (still : Still view now sent poll) (sub : GamSubscription) (withExists : Bool)
    (dpath : Bytes) (names : List Bytes) :
    Still view now
      (sent ++ names.flatMap fun name =>
        if withExists then gamServerEmitOneEvent name true .exists sub true else [])
      (names.foldl (firstScanName sub withExists dpath) poll) := by
  induction names generalizing poll sent with
  | nil =>
    rw [List.flatMap_nil, List.append_nil]
    exact still
  | cons name names inductionHypothesis =>
    rw [List.flatMap_cons, ← List.append_assoc, List.foldl_cons]
    apply inductionHypothesis
    unfold firstScanName
    dsimp only
    apply Still.emitIf
    split
    · exact still
    · exact still.called.called.gamTreeAdd _

theorem Still.firstScanDir (still : Still view now sent poll) (sub : GamSubscription) :
    Still view now (sent ++ scanEvents view sub)
      (gamPollGenericFirstScanDir gamPollBasicPollFile poll sub sub.path) := by
  unfold gamPollGenericFirstScanDir scanEvents
  dsimp only
  rw [← List.append_assoc, still.view_eq]
  apply Still.emitIf
  split
  · rw [← List.append_assoc]
    unfold firstScanPresent
    extract_lets polled told
    -- the poll of the directory is silent here; what is told comes from the scan
    have stillPolled : Still view now sent polled := by
      simp only [polled]
      split
      · split
        · exact still.called.pollFile _
        · exact still.called
      · exact still.called
    have stillTold := stillPolled.emitIf (decide (sub.options &&& gamOptNoexists = 0)) sub.path true .exists sub true
    change Still view now _ told at stillTold
    rw [stillTold.view_eq]
    cases view.listing sub.path with
    | none =>
      rw [Option.getD_none, List.flatMap_nil, List.append_nil]
      exact stillTold.called
    | some names => exact stillTold.called.firstScanNames sub _ sub.path names
  · unfold firstScanMissing
    dsimp only
    have told := still.called.emit sub.path true .deleted sub true
    split
    · exact told
    · split
      · exact told.called.called.setNode _
      · exact (told.called.called.setNode _).addMissing _

/-- The state that a poll of the file leads to is right when the poll notices it. -/
theorem reportedState_pollFile (still : Still view now sent poll) (node : GamNode) :
    (Noticed poll view now node → reportedState (gamPollBasicPollFile poll node).2 =
        if (view.stat node.path).exists then .exists else .deleted) ∧
      (¬ Noticed poll view now node → reportedState (gamPollBasicPollFile poll node).2 = .exists ∧
        (view.stat node.path).exists = false) := by
  have clock : tooSoon { poll with currentTime := now } node = tooSoon poll node := by
    rw [tooSoon, tooSoon, still.time]
  unfold Noticed
  rw [clock]
  unfold gamPollBasicPollFile
  split
  · -- it is not looked at
    rename_i soon
    have polledBefore : node.lasttime ≠ 0 := by
      simp only [tooSoon, decide_eq_true_eq] at soon
      exact soon.1
    cases there : (view.stat node.path).exists <;> simp [soon, polledBefore, reportedState]
  · rename_i due
    split
    · rename_i first
      unfold pollNewFile
      rw [still.view_eq]
      cases view.stat node.path <;> simp [first, StatAnswer.exists, reportedState]
    · rename_i known
      unfold pollKnownFile
      dsimp only
      rw [still.view_eq]
      cases view.stat node.path with
      | found sbuf =>
        simp only [StatAnswer.exists, true_or, not_true_eq_false, false_implies, and_true, if_true, forall_const]
        split
        · rfl
        · split <;> rfl
      | noent =>
        cases gone : node.pflags.missing <;> simp [due, known, StatAnswer.exists, reportedState]
      | failed => simp [known, StatAnswer.exists, reportedState]

theorem Still.subscribedNode (still : Still view now sent poll) {sub : GamSubscription} (file : sub.isDir = false)
    {node : GamNode} (path : node.path = sub.path) :
    Still view now
      (sent ++ if node.isDir then scanEvents view sub else fileEvents sub (gamPollBasicPollFile poll node).2)
      (subscribedNode poll sub node) := by
  unfold Polling.subscribedNode
  extract_lets told missing listed
  have stillTold : Still view now
      (sent ++ if node.isDir then scanEvents view sub else fileEvents sub (gamPollBasicPollFile poll node).2)
      told := by
    simp only [told, path]
    split
    · exact still.firstScanDir sub
    · rename_i notDir
      have polled := still.pollFile node
      refine ⟨polled.views, polled.time, ?_⟩
      rw [Bool.not_eq_true] at notDir
      simp only [sendFileState, fileEvents, file, notDir, polled.sent, List.append_assoc, Bool.false_eq_true,
        if_false]
      rfl
  apply Still.add
  simp only [listed]
  cases missing with
  | true => exact stillTold.addMissing node.path
  | false => exact stillTold

/-- The request leads to a node for the path, and the events depend on that node. -/
theorem addSubscription_prepared (poll : Poll) (view : FsView) (now : Nat) {sub : GamSubscription}
    (file : sub.isDir = false) (nonempty : sub.path = [] → (gamTreeGetAtPath poll sub.path).isSome)
    (new : sub ∉ subsAt poll sub.path) :
    ∃ prepared node, Still view now poll.sent prepared ∧
      gamPollBasicAddSubscription (poll.showing view) now sub = some (subscribedNode prepared sub node) ∧
      node.path = sub.path ∧ node.isDir = scannedFirst poll view sub.path ∧
      ((∀ old, gamTreeGetAtPath poll sub.path = some old → old.isDir = false → Noticed poll view now old) ↔
        (node.isDir = false → Noticed prepared view now node)) := by
  have still : Still view now poll.sent { poll.showing view with currentTime := now } := ⟨rfl, rfl, rfl⟩
  have prepared {node : GamNode} {added : Poll}
      (made : gamTreeAddAtPath { poll.showing view with currentTime := now } sub.path sub.isDir = added)
      (found : gamTreeGetAtPath added sub.path = some node) (unlisted : sub ∉ node.subs) :
      gamPollBasicAddSubscription (poll.showing view) now sub =
        some (subscribedNode (added.setNode { node with subs := sub :: node.subs }) sub
          { node with subs := sub :: node.subs }) := by
    obtain ⟨listed, foundListed⟩ := gamNodeAddSubscription_eq found unlisted
    simp only [gamPollBasicAddSubscription, made, listed, Option.bind_some, foundListed, Option.map_some]
  cases known : gamTreeGetAtPath poll sub.path with
  | some old =>
    rw [subsAt, known] at new
    -- the node is there already, and the request only adds to it
    have same := gamTreeAddAtPath_known
      (show gamTreeGetAtPath { poll.showing view with currentTime := now } sub.path = some old from known) sub.isDir
    refine ⟨_, _, still.setNode _, prepared same known new, ?_, ?_, ?_⟩
    · show old.path = sub.path
      exact gamTreeGetAtPath_path known
    · rw [scannedFirst, known]
    · constructor
      · exact fun noticed => noticed old rfl
      · rintro noticed other isOld
        cases isOld
        exact noticed
  | none =>
    -- the node is new, and a poll of it is the first one
    have unknown : gamTreeGetAtPath { poll.showing view with currentTime := now } sub.path = none := known
    have named : sub.path ≠ [] := fun empty => by simpa [known] using nonempty empty
    obtain ⟨node, found, path, bare, first, isDir⟩ := gamTreeAddAtPath_unknown still named unknown
    have unlisted : sub ∉ node.subs := by
      rw [bare]
      exact List.not_mem_nil
    rw [← file] at found
    refine ⟨_, _, (still.gamTreeAddAtPath _ _).setNode _, prepared rfl found unlisted, path, ?_, ?_⟩
    · rw [scannedFirst, known]
      exact isDir
    · constructor
      · exact fun _ _ => .inr (.inl first)
      · rintro _ old isOld
        contradiction

end

/-! ## When the events are right -/

section

variable {view : FsView} {address : Pointer} {path : Bytes} {reqno options : Nat}

theorem fileEvents_wanted (wanted : options &&& gamOptNoexists = 0) (event : Option GaminEventType) :
    fileEvents (fileSubscription address path reqno options) event =
      [ownEvent (fileSubscription address path reqno options) (reportedState event),
        ownEvent (fileSubscription address path reqno options) .endexists] := by
  have state : reportedState event = .exists ∨ reportedState event = .deleted ∨ reportedState event = .endexists := by
    unfold reportedState
    split <;> simp
  rw [fileEvents, emitOne_wanted wanted state, emitOne_wanted wanted (.inr (.inr rfl))]
  simp [fileSubscription, gamSubscriptionNew]

theorem fileEvents_eq_iff (wanted : options &&& gamOptNoexists = 0) (event : Option GaminEventType) :
    fileEvents (fileSubscription address path reqno options) event =
        initialEvents view (fileSubscription address path reqno options) ↔
      reportedState event = if (view.stat path).exists then .exists else .deleted := by
  rw [fileEvents_wanted wanted, initialEvents]
  simp only [ownEvent, List.cons.injEq, Emission.mk.injEq, true_and, and_true]
  exact Iff.rfl

/-- Entries are told of like the directory itself when they have the same path. -/
theorem scanEvents_eq_iff (wanted : options &&& gamOptNoexists = 0) :
    scanEvents view (fileSubscription address path reqno options) =
        initialEvents view (fileSubscription address path reqno options) ↔
      ((view.stat path).exists → ∀ names, view.listing path = some names → path ∉ names) := by
  have own : (fileSubscription address path reqno options).path = path := rfl
  have asked : decide ((fileSubscription address path reqno options).options &&& gamOptNoexists = 0) = true :=
    decide_eq_true wanted
  unfold scanEvents initialEvents
  dsimp only
  simp only [own, asked, if_true, emitOne_wanted wanted (.inl rfl), emitOne_wanted wanted (.inr (.inl rfl)),
    emitOne_wanted wanted (.inr (.inr rfl))]
  cases (view.stat path).exists with
  | false => simp
  | true =>
    cases view.listing path with
    | none => simp
    | some names =>
      simp only [if_true, Option.getD_some, List.cons_append, List.nil_append, List.cons.injEq, true_and,
        forall_const, Option.some.injEq, forall_eq']
      constructor
      · intro same member
        -- an entry with the path of the directory would make one event too many
        have length := congrArg List.length same
        obtain ⟨before, after, rfl⟩ := List.append_of_mem member
        simp only [List.flatMap_append, List.flatMap_cons, if_true, List.length_append, List.length_cons,
          List.length_nil] at length
        omega
      · intro absent
        have silent : (names.flatMap fun name => if name = path then
            [ownEvent (fileSubscription address path reqno options) .exists] else []) = [] := by
          rw [List.flatMap_eq_nil_iff]
          intro name member
          apply if_neg
          rintro rfl
          exact absent member
        rw [silent, List.nil_append]

/-- There is no event about the end when those about what exists are declined. -/
theorem unwanted_not_initial (unwanted : options &&& gamOptNoexists ≠ 0) (isDir : Bool)
    (event : Option GaminEventType) :
    (if isDir then scanEvents view (fileSubscription address path reqno options)
      else fileEvents (fileSubscription address path reqno options) event) ≠
        initialEvents view (fileSubscription address path reqno options) := by
  intro same
  have declined : decide ((fileSubscription address path reqno options).options &&& gamOptNoexists = 0) = false :=
    decide_eq_false unwanted
  have length := congrArg List.length same
  have one (name : Bytes) (nodeIsDir : Bool) (event : GaminEventType) (force : Bool) :
      (gamServerEmitOneEvent name nodeIsDir event (fileSubscription address path reqno options) force).length ≤ 1 := by
    unfold gamServerEmitOneEvent
    split <;> simp
  rw [show (initialEvents view (fileSubscription address path reqno options)).length = 2 from rfl] at length
  cases isDir with
  | true =>
    have deleted := one path true .deleted true
    rw [if_pos rfl] at length
    unfold scanEvents at length
    dsimp only at length
    simp only [declined, Bool.false_eq_true, if_false, List.append_nil] at length
    split at length
    · simp at length
    · exact absurd (length ▸ deleted) (by decide)
  | false =>
    have reported := one path false (reportedState event) false
    rw [if_neg Bool.false_ne_true, fileEvents, emitOne_unwanted unwanted (.inr rfl), List.append_nil] at length
    exact absurd (length ▸ reported) (by decide)

/-- Nobody is served for an empty path, or twice at one node. -/
theorem addSubscription_served {poll after : Poll} {now : Nat} {sub : GamSubscription}
    (served : gamPollBasicAddSubscription (poll.showing view) now sub = some after) :
    (sub.path = [] → (gamTreeGetAtPath poll sub.path).isSome) ∧ sub ∉ subsAt poll sub.path := by
  obtain ⟨added, isAdded, _⟩ := Option.bind_eq_some_iff.mp served
  unfold gamNodeAddSubscription at isAdded
  constructor
  · intro empty
    rw [empty] at isAdded ⊢
    cases found : gamTreeGetAtPath poll [] with
    | some node => rfl
    | none =>
      have same : gamTreeGetAtPath (gamTreeAddAtPath { poll.showing view with currentTime := now } [] sub.isDir)
          [] = none := found
      simp only [same] at isAdded
      contradiction
  · cases known : gamTreeGetAtPath poll sub.path with
    | none => simp [subsAt, known]
    | some node =>
      rw [subsAt, known]
      intro member
      have same : gamTreeGetAtPath (gamTreeAddAtPath { poll.showing view with currentTime := now } sub.path
          sub.isDir) sub.path = some node := by
        rw [gamTreeAddAtPath_known (show gamTreeGetAtPath { poll.showing view with currentTime := now } sub.path =
          some node from known)]
        exact known
      have listed : sub ∈ node.subs := member
      simp only [same, if_pos listed] at isAdded
      contradiction

/-- A request that is served sends the right events if the events are wanted, and depending on
how the backend looks at the path. -/
theorem sendsInitialEvents_of_served {poll : Poll} {now : Nat}
    (nonempty : path = [] → (gamTreeGetAtPath poll path).isSome)
    (new : fileSubscription address path reqno options ∉ subsAt poll path) :
    SendsInitialEvents poll view now (fileSubscription address path reqno options) ↔
      options &&& gamOptNoexists = 0 ∧
        (scannedFirst poll view path → (view.stat path).exists →
          ∀ names, view.listing path = some names → path ∉ names) ∧
        ∀ node, gamTreeGetAtPath poll path = some node → node.isDir = false → Noticed poll view now node := by
  obtain ⟨prepared, node, still, served, samePath, isDir, noticed⟩ :=
    addSubscription_prepared poll view now
      (show (fileSubscription address path reqno options).isDir = false from rfl) nonempty new
  have sent : SendsInitialEvents poll view now (fileSubscription address path reqno options) ↔
      (if node.isDir then scanEvents view (fileSubscription address path reqno options)
        else fileEvents (fileSubscription address path reqno options) (gamPollBasicPollFile prepared node).2) =
        initialEvents view (fileSubscription address path reqno options) := by
    unfold SendsInitialEvents
    rw [served]
    simp only [Option.some.injEq, exists_eq_left']
    rw [(still.subscribedNode rfl samePath).sent, List.append_cancel_left_eq]
  rw [sent]
  by_cases wanted : options &&& gamOptNoexists = 0
  · rw [and_iff_right wanted]
    -- the backend takes the path for a directory and scans it, or polls it as a file
    cases directory : node.isDir with
    | true =>
      rw [directory] at isDir noticed
      rw [if_pos rfl, scanEvents_eq_iff wanted]
      constructor
      · exact fun entries => ⟨fun _ => entries, noticed.mpr fun notDir => nomatch notDir⟩
      · exact fun guard => guard.1 isDir.symm
    | false =>
      rw [directory] at isDir noticed
      rw [if_neg Bool.false_ne_true, fileEvents_eq_iff wanted]
      obtain ⟨right, wrong⟩ := reportedState_pollFile still node
      rw [show node.path = path from samePath] at right wrong
      constructor
      · intro told
        refine ⟨fun scanned => ?_, noticed.mpr fun _ => ?_⟩
        · rw [show scannedFirst poll view path = false from isDir.symm] at scanned
          contradiction
        · by_contra unnoticed
          obtain ⟨believed, gone⟩ := wrong unnoticed
          rw [believed, gone] at told
          contradiction
      · exact fun guard => right (noticed.mp guard.2 rfl)
  · simp only [wanted, false_and, iff_false]
    exact unwanted_not_initial wanted node.isDir _

/-- The exact condition: the two events are sent and tell the truth if and only if the guard
holds of the request and of the state before it. -/
theorem sendsInitialEvents_iff (poll : Poll) (view : FsView) (now : Nat) (address : Pointer) (path : Bytes)
    (reqno options : Nat) :
    SendsInitialEvents poll view now (fileSubscription address path reqno options) ↔
      InitialGuard poll view now (fileSubscription address path reqno options) := by
  constructor
  · intro sends
    obtain ⟨after, served, sent⟩ := id sends
    obtain ⟨nonempty, new⟩ := addSubscription_served served
    obtain ⟨wanted, entries, noticed⟩ := (sendsInitialEvents_of_served nonempty new).mp sends
    exact ⟨nonempty, new, wanted, entries, noticed⟩
  · intro guard
    exact (sendsInitialEvents_of_served guard.nonempty guard.new).mpr ⟨guard.wanted, guard.entries, guard.noticed⟩

end

/-! ## Two clients and a missing file -/

/-- There is nothing but the root. -/
def nothingThere : FsView where
  stat := fun _ => .noent
  listing := fun _ => none
  excluded := fun _ => false
  monType := fun _ => .poll
  pollTimeout := fun _ => 1

/-- The first client asks for `/b`, which is missing, and is told so. -/
def missingFileMonitored : Option Poll :=
  gamPollBasicAddSubscription ((Poll.new fun _ => nothingThere).showing nothingThere) 1000
    (fileSubscription 1 [47, 98] 1 0)

/-- The second client asks later, when nothing has changed, and is told that it exists. -/
theorem not_sendsInitialEvents :
    ∃ poll, missingFileMonitored = some poll ∧
      poll.sent = initialEvents nothingThere (fileSubscription 1 [47, 98] 1 0) ∧
      ¬ SendsInitialEvents poll nothingThere 1010 (fileSubscription 2 [47, 98] 2 0) := by
  refine ⟨missingFileMonitored.get (by decide +kernel), (Option.some_get _).symm, by decide +kernel, ?_⟩
  rintro ⟨after, served, sent⟩
  have told : (gamPollBasicAddSubscription ((missingFileMonitored.get (by decide +kernel)).showing nothingThere)
      1010 (fileSubscription 2 [47, 98] 2 0)).map (·.sent) =
        some (initialEvents nothingThere (fileSubscription 1 [47, 98] 1 0) ++
          [ownEvent (fileSubscription 2 [47, 98] 2 0) .exists,
            ownEvent (fileSubscription 2 [47, 98] 2 0) .endexists]) := by
    decide +kernel
  rw [served, Option.map_some, sent, Option.some.injEq] at told
  exact absurd told (by decide +kernel)

end Gamin.Polling
