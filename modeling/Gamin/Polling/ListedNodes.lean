import Gamin.Library.IndexWalks
import Gamin.Polling.FlowControl
import Gamin.Polling.ResourceLists

/-! # Who comes off the resource lists

A poll takes nodes off the lists of missing and of busy nodes: its own when it is there again, gone or calm, and
its parent when it asks for the end of flow control.  Which of this happens is seen from the node as it was and
from what `stat` answers.
-/

namespace Gamin.Polling

open Gamin Gamin.Server Gamin.Inotify Gamin.Library

/-! ## What a poll finds -/

/-- It is late enough for a poll, and the poll is not the first one. -/
def compares (poll : Poll) (node : GamNode) : Bool := ¬ tooSoon poll node ∧ node.lasttime ≠ 0

/-- A node that has been missing is there again. -/
def comesBack (poll : Poll) (node : GamNode) : Bool :=
  compares poll node ∧ node.pflags.missing ∧ (poll.view.stat node.path).exists

/-- A node that was there is gone. -/
def goesAway (poll : Poll) (node : GamNode) : Bool :=
  compares poll node ∧ ¬ node.pflags.missing ∧ poll.view.stat node.path = .noent

/-- There is nothing to tell. -/
def unchanged (poll : Poll) (node : GamNode) : Bool :=
  match poll.view.stat node.path with
  | .found sbuf => ¬ node.pflags.missing ∧ ¬ gamPollGenericNodeChanged node sbuf
  | .noent => node.pflags.missing
  | .failed => true

/-- A busy node has not changed for long enough to be left to the kernel. -/
def calmsDown (poll : Poll) (node : GamNode) : Bool :=
  compares poll node ∧ unchanged poll node ∧ node.pflags.busy ∧ ¬ node.pflags.nokernel ∧
    (countChecks poll node none).checks > 5 ∧ node.subs ≠ [] ∧ kernelMonitored poll.called node.path

/-- Whether `stat` shows a directory, or the node was one. -/
def statIsDir (poll : Poll) (node : GamNode) : Bool :=
  match poll.view.stat node.path with
  | .found sbuf => sbuf.isDir
  | _ => node.isDir

/-- A file that has calmed down asks for the end of flow control, which takes its parent off the list. -/
def stopsFlow (handler : Bool) (poll : Poll) (node : GamNode) : Bool :=
  calmsDown poll node && !statIsDir poll node && triggers handler node && parentDiffers poll node.parent false

/-- What `gam_poll_dnotify_poll_file` makes of the answer of `stat`. -/
inductive Statted (handler : Bool) (poll : Poll) (node : GamNode) : Poll × GamNode × Option GaminEventType → Prop where
  | gone (there : node.pflags.missing = false) (answer : poll.view.stat node.path = .noent) :
    Statted handler poll node (dnotifyDeletedFile handler poll.called node,
      { node with pflags := { MonFlags.none with missing := true }, sbuf := .zero }, some .deleted)
  | back (sbuf : StatBuf) (missing : node.pflags.missing = true) (answer : poll.view.stat node.path = .found sbuf) :
    Statted handler poll node (poll.called, { node with
      isDir := sbuf.isDir, sbuf := sbuf, pflags := { node.pflags with missing := false } }, some .created)
  | stays (sbuf : StatBuf) (event : Option GaminEventType)
    (there : node.pflags.missing = false → poll.view.stat node.path ≠ .noent)
    (quiet : event = none → unchanged poll node = true) :
    Statted handler poll node (poll.called, { node with isDir := statIsDir poll node, sbuf := sbuf }, event)

theorem dnotifyStatFile_cases (handler : Bool) (poll : Poll) (node : GamNode) :
    Statted handler poll node (dnotifyStatFile handler poll node) := by
  have stays := @Statted.stays handler poll node
  unfold unchanged statIsDir at stays
  unfold dnotifyStatFile
  cases answer : poll.view.stat node.path with
  | found sbuf =>
    simp only [answer] at stays ⊢
    split
    case isTrue missing => exact .back sbuf missing answer
    case isFalse there =>
      split
      · exact stays sbuf _ nofun nofun
      case isFalse same => exact stays sbuf none nofun fun _ => decide_eq_true ⟨there, same⟩
  | noent =>
    simp only [answer] at stays ⊢
    split
    case isTrue gone => exact .gone (eq_false_of_ne_true gone.2) answer
    case isFalse still =>
      have missing : node.pflags.missing = true := by simpa using still
      exact stays .zero none (fun there => Bool.noConfusion (missing.symm.trans there)) fun _ => missing
  | failed =>
    simp only [answer, reduceCtorEq, false_and, if_false] at stays ⊢
    exact stays .zero none nofun fun _ => trivial

/-! ## The marks of the nodes -/

/-- No flag is taken away. -/
def MonFlags.Within (flags more : MonFlags) : Prop :=
  (flags.missing = true → more.missing = true) ∧ (flags.nokernel = true → more.nokernel = true) ∧
    (flags.busy = true → more.busy = true) ∧ (flags.wrongType = true → more.wrongType = true)

theorem MonFlags.Within.refl (flags : MonFlags) : flags.Within flags := ⟨id, id, id, id⟩

theorem MonFlags.Within.trans {flags more most : MonFlags} (first : flags.Within more) (second : more.Within most) :
    flags.Within most :=
  ⟨second.1 ∘ first.1, second.2.1 ∘ first.2.1, second.2.2.1 ∘ first.2.2.1, second.2.2.2 ∘ first.2.2.2⟩

/-- Every node that was there is, with the flags that it had. -/
def MarksRise (before after : Poll) : Prop :=
  ∀ path node, gamTreeGetAtPath before path = some node →
    ∃ next, gamTreeGetAtPath after path = some next ∧ node.pflags.Within next.pflags

section

variable {before poll after : Poll}

theorem MarksRise.refl (poll : Poll) : MarksRise poll poll := fun _ node found => ⟨node, found, .refl _⟩

theorem MarksRise.trans (first : MarksRise before poll) (second : MarksRise poll after) : MarksRise before after := by
  intro path node found
  obtain ⟨next, foundNext, more⟩ := first path node found
  obtain ⟨last, foundLast, most⟩ := second path next foundNext
  exact ⟨last, foundLast, more.trans most⟩

theorem MarksRise.of_nodes (nodes : after.nodes = before.nodes) : MarksRise before after := fun path node found =>
  ⟨node, by rwa [gamTreeGetAtPath, nodes], .refl _⟩

theorem marksRise_setNode {node next : GamNode} (found : gamTreeGetAtPath poll node.path = some node)
    (path : next.path = node.path) (more : node.pflags.Within next.pflags) : MarksRise poll (poll.setNode next) := by
  intro other old there
  by_cases here : other = next.path
  · rw [here, path, found] at there
    obtain rfl := Option.some.inj there
    refine ⟨next, ?_, more⟩
    rw [gamTreeGetAtPath_setNode, here, path, found, Option.map_some, if_pos rfl]
  · exact ⟨old, by rw [gamTreeGetAtPath_setNode_other poll here, there], .refl _⟩

theorem marksRise_gamTreeAdd (poll : Poll) (child : GamNode) : MarksRise poll (gamTreeAdd poll child) := by
  intro path node found
  refine ⟨node, ?_, .refl _⟩
  unfold gamTreeAdd
  split
  · exact found
  · rw [gamTreeGetAtPath, List.find?_append, ← gamTreeGetAtPath, found, Option.some_or]

end

/-- There is a node at the path with such flags. -/
def markedAt (mark : MonFlags → Bool) (poll : Poll) (path : Bytes) : Bool :=
  (gamTreeGetAtPath poll path).any fun node => mark node.pflags

/-- Flags that come in addition do not matter. -/
def Rising (mark : MonFlags → Bool) : Prop := ∀ flags more, flags.Within more → mark flags = true → mark more = true

section

variable {mark : MonFlags → Bool} {before poll after : Poll} {path : Bytes} {node next : GamNode}

theorem markedAt_found (found : gamTreeGetAtPath poll path = some node) :
    markedAt mark poll path = mark node.pflags := by
  rw [markedAt, found, Option.any_some]

theorem markedAt_iff : markedAt mark poll path = true ↔
    ∃ node, gamTreeGetAtPath poll path = some node ∧ mark node.pflags = true := by
  rw [markedAt, Option.any_eq_true_iff_get]
  constructor
  · rintro ⟨there, marked⟩
    exact ⟨_, (Option.some_get there).symm, marked⟩
  · rintro ⟨node, found, marked⟩
    simp only [found, Option.isSome_some, Option.get_some]
    exact ⟨trivial, marked⟩

theorem Rising.markedAt (rising : Rising mark) (rise : MarksRise before after)
    (marked : Polling.markedAt mark before path = true) : Polling.markedAt mark after path = true := by
  obtain ⟨node, found, flags⟩ := markedAt_iff.mp marked
  obtain ⟨next, foundNext, more⟩ := rise path node found
  exact markedAt_iff.mpr ⟨next, foundNext, rising _ _ more flags⟩

/-- A node is written back, perhaps the one at the path. -/
theorem markedAt_written (known : (gamTreeGetAtPath poll next.path).isSome)
    (here : next.path = path → mark next.pflags = true)
    (elsewhere : next.path ≠ path → markedAt mark poll path = true) :
    markedAt mark (poll.setNode next) path = true := by
  by_cases at' : next.path = path
  · obtain ⟨old, found⟩ := Option.isSome_iff_exists.mp known
    refine markedAt_iff.mpr ⟨next, ?_, here at'⟩
    rw [gamTreeGetAtPath_setNode, ← at', found, Option.map_some, if_pos (gamTreeGetAtPath_path found)]
  · rw [markedAt, gamTreeGetAtPath_setNode_other poll (Ne.symm at')]
    exact elsewhere at'

end

/-! ## Flow control -/

section

variable {handler : Bool} {poll : Poll} {node : GamNode}

theorem addBusy_missing (poll : Poll) (other : Bytes) : (gamPollGenericAddBusy poll other).missing = poll.missing := by
  unfold gamPollGenericAddBusy
  split <;> rfl

theorem addMissing_busy (poll : Poll) (other : Bytes) : (gamPollGenericAddMissing poll other).busy = poll.busy := by
  unfold gamPollGenericAddMissing
  split <;> rfl

theorem staysIn_addBusy (stay : Bytes → Prop) (poll : Poll) (other : Bytes) :
    StaysIn stay poll.busy (gamPollGenericAddBusy poll other).busy := by
  unfold gamPollGenericAddBusy
  split
  · exact .refl stay _
  · exact (StaysIn.refl stay _).cons other

theorem staysIn_addMissing (stay : Bytes → Prop) (poll : Poll) (other : Bytes) :
    StaysIn stay poll.missing (gamPollGenericAddMissing poll other).missing := by
  unfold gamPollGenericAddMissing
  split
  · exact .refl stay _
  · exact (StaysIn.refl stay _).cons other

theorem staysIn_remove {stay : Bytes → Prop} {before after : List Bytes} (stays : StaysIn stay before after)
    {other : Bytes} (leaves : ¬ stay other) : StaysIn stay before (after.filter (· ≠ other)) :=
  stays.filter fun _ stays => decide_eq_true fun same => leaves (same ▸ stays)

/-- Nothing has come off the list of busy nodes, and no flag is lost. -/
structure OnlyMore (before after : Poll) : Prop where
  missing : after.missing = before.missing
  busy : ∀ stay, StaysIn stay before.busy after.busy
  rootBusy : before.rootBusy = true → after.rootBusy = true
  marks : MarksRise before after

theorem OnlyMore.refl (poll : Poll) : OnlyMore poll poll := ⟨rfl, fun stay => .refl stay _, id, .refl poll⟩

theorem OnlyMore.trans {before poll after : Poll} (first : OnlyMore before poll) (second : OnlyMore poll after) :
    OnlyMore before after where
  missing := second.missing.trans first.missing
  busy stay := (first.busy stay).trans (second.busy stay)
  rootBusy := second.rootBusy ∘ first.rootBusy
  marks := first.marks.trans second.marks

theorem onlyMore_watches {poll after : Poll} (only : WatchesOnly poll after) : OnlyMore poll after where
  missing := only.missing
  busy stay := only.busy ▸ .refl stay _
  rootBusy marked := only.rootBusy.trans marked
  marks := .of_nodes only.nodes

theorem onlyMore_addBusy (poll : Poll) (path : Bytes) : OnlyMore poll (gamPollGenericAddBusy poll path) := by
  refine ⟨addBusy_missing poll path, fun stay => staysIn_addBusy stay poll path, ?_, ?_⟩
  all_goals obtain ⟨busy, written⟩ := gamPollGenericAddBusy_writes poll path
  · rw [written]
    exact id
  · rw [written]
    exact .of_nodes rfl

theorem onlyMore_triggerParent (poll : Poll) (parent : Option Bytes) :
    OnlyMore poll (triggerParent poll parent true) := by
  have switched (dir listed : Bytes) : OnlyMore poll (switchFlow poll dir listed true) := by
    rw [switchFlow, if_pos rfl]
    exact (onlyMore_watches (watchesOnly_handler poll dir _)).trans (onlyMore_addBusy _ listed)
  cases parent with
  | none =>
    simp only [triggerParent]
    split
    · exact .refl poll
    · exact (switched [slash] []).trans ⟨rfl, fun stay => .refl stay _, fun _ => rfl, .of_nodes rfl⟩
  | some path =>
    simp only [triggerParent]
    cases found : gamTreeGetAtPath poll path with
    | none => exact .refl poll
    | some node =>
      obtain rfl := gamTreeGetAtPath_path found
      dsimp only
      split
      · exact .refl poll
      · have here : gamTreeGetAtPath (switchFlow poll node.path node.path true) node.path = some node := by
          rw [gamTreeGetAtPath, (switchFlow_places poll node.path node.path true).1]
          exact found
        refine (switched node.path node.path).trans ⟨rfl, fun stay => .refl stay _, id, ?_⟩
        exact marksRise_setNode here rfl ⟨id, id, fun _ => rfl, id⟩

/-- The start of flow control brings a directory onto the list. -/
theorem onlyMore_flowControl (handler : Bool) (poll : Poll) (node : GamNode) :
    OnlyMore poll (flowControl handler poll node true) := by
  have outcome := flowControl_cases handler poll node true
  generalize flowControl handler poll node true = after at outcome ⊢
  cases outcome with
  | nothing => exact .refl poll
  | directory => exact onlyMore_watches (watchesOnly_handler poll _ _)
  | parent => exact onlyMore_triggerParent poll node.parent

/-- A parent has come off the list of busy nodes, with its mark. -/
structure ParentLeft (parent : Option Bytes) (before after : Poll) : Prop where
  missing : after.missing = before.missing
  busy : after.busy = before.busy.filter (· ≠ parent.getD [])
  rootBusy : parent ≠ none → after.rootBusy = before.rootBusy
  marks : ∀ path node, gamTreeGetAtPath before path = some node → ∃ next, gamTreeGetAtPath after path = some next ∧
    (next = node ∨ parent = some path ∧ next.pflags = { node.pflags with busy := false })

theorem parentLeft_triggerParent {poll : Poll} {parent : Option Bytes}
    (marked : parentDiffers poll parent false = true) : ParentLeft parent poll (triggerParent poll parent false) := by
  have stopped (dir : Bytes) := watchesOnly_handler poll dir .flowControlStop
  -- only the busy list loses the parent, which keeps its place in the tree
  have switched (dir listed : Bytes) : (switchFlow poll dir listed false).busy = poll.busy.filter (· ≠ listed) := by
    simp only [switchFlow, Bool.false_eq_true, if_false, gamPollGenericRemoveBusy, (stopped dir).busy]
  cases parent with
  | none =>
    have root : poll.rootBusy ≠ false := of_decide_eq_true marked
    rw [triggerParent, if_neg root]
    refine ⟨(stopped [slash]).missing, switched [slash] [], fun other => absurd rfl other, fun path node found => ?_⟩
    refine ⟨node, ?_, .inl rfl⟩
    rw [gamTreeGetAtPath, (switchFlow_places poll [slash] [] false).1]
    exact found
  | some path =>
    cases found : gamTreeGetAtPath poll path with
    | none => simp [parentDiffers, found] at marked
    | some node =>
      have busy : node.pflags.busy ≠ false := by simpa [parentDiffers, found] using marked
      obtain rfl := gamTreeGetAtPath_path found
      have nodes := (switchFlow_places poll node.path node.path false).1
      simp only [triggerParent, found, if_neg busy]
      refine ⟨(stopped node.path).missing, switched node.path node.path, fun _ => (stopped node.path).rootBusy, ?_⟩
      intro other old there
      rw [gamTreeGetAtPath_setNode, gamTreeGetAtPath, nodes, ← gamTreeGetAtPath, there, Option.map_some]
      refine ⟨_, rfl, ?_⟩
      split
      case isTrue here =>
        rw [gamTreeGetAtPath_path there] at here
        rw [here, found] at there
        exact .inr ⟨here ▸ rfl, by rw [Option.some.inj there]⟩
      case isFalse => exact .inl rfl

/-- The end of flow control takes the parent of a file off the list if it is marked. -/
theorem flowControl_stop_cases (handler : Bool) (poll : Poll) (node : GamNode) :
    OnlyMore poll (flowControl handler poll node false) ∨
      (node.isDir = false ∧ triggers handler node = true ∧ parentDiffers poll node.parent false = true) ∧
        ParentLeft node.parent poll (flowControl handler poll node false) := by
  unfold flowControl triggerHandler gamPollGenericTriggerHandler
  split
  case isFalse => exact .inl (.refl poll)
  case isTrue =>
    split
    case isFalse => exact .inl (.refl poll)
    case isTrue handles =>
      split
      case isTrue => exact .inl (.refl poll)
      case isFalse kernel =>
        split
        case isTrue => exact .inl (onlyMore_watches (watchesOnly_handler poll _ _))
        case isFalse file =>
          simp only [Bool.false_eq_true, if_false]
          -- the stop for a file is passed on to its parent, if that is marked
          cases marked : parentDiffers poll node.parent false with
          | true =>
            refine .inr ⟨⟨eq_false_of_ne_true file, ?_, rfl⟩, parentLeft_triggerParent marked⟩
            rw [triggers, decide_eq_true_iff]
            exact ⟨handles, not_not.mp kernel⟩
          | false =>
            left
            unfold triggerParent
            split
            case h_1 isRoot =>
              have unmarked : poll.rootBusy = false := by simpa [isRoot, parentDiffers] using marked
              rw [if_pos unmarked]
              exact .refl poll
            case h_2 path isParent =>
              split
              case h_1 => exact .refl poll
              case h_2 parent found =>
                have unmarked : parent.pflags.busy = false := by simpa [isParent, parentDiffers, found] using marked
                rw [if_pos unmarked]
                exact .refl poll

/-! ## A poll beside dnotify -/

/-- A node that is switched to polling starts to count anew. -/
theorem switchToPolling_more (handler : Bool) (poll : Poll) (node : GamNode) :
    (OnlyMore poll (switchToPolling handler poll node).1 ∧ (switchToPolling handler poll node).2.path = node.path ∧
        node.pflags.Within (switchToPolling handler poll node).2.pflags) ∧
      (switchToPolling handler poll node = (poll, node) ∨ (switchToPolling handler poll node).2.checks = 0) := by
  unfold switchToPolling
  split
  case isFalse => exact ⟨⟨.refl poll, rfl, .refl _⟩, .inl rfl⟩
  case isTrue =>
    extract_lets flags busy listed started beside
    have loaded : OnlyMore poll { poll with loaded := node.path :: poll.loaded } :=
      ⟨rfl, fun stay => .refl stay _, id, .of_nodes rfl⟩
    have started : OnlyMore poll started :=
      (loaded.trans (onlyMore_addBusy _ node.path)).trans (onlyMore_flowControl handler listed busy)
    refine ⟨⟨?_, rfl, id, id, fun _ => rfl, id⟩, .inr rfl⟩
    dsimp only [beside]
    split
    · split
      · exact started.trans (onlyMore_addBusy _ _)
      · exact started
    · exact started

/-- What is left of a poll when `stat` has answered. -/
theorem dnotifyPollKnownFile_cases (handler : Bool) (poll : Poll) (node : GamNode) :
    ∃ next read event, Statted handler poll node (next, read, event) ∧
      ((∃ after last, (dnotifyPollKnownFile handler poll node).1 = after.setNode last ∧ OnlyMore next after ∧
          last.path = read.path ∧ read.pflags.Within last.pflags) ∨
        (event = none ∧ read.pflags.nokernel = false ∧ read.pflags.busy = true ∧
          (countChecks next read none).checks > 5 ∧ read.subs ≠ [] ∧ kernelMonitored next read.path = true) ∧
          ∃ last, last.path = read.path ∧ last.parent = read.parent ∧ last.isDir = read.isDir ∧
            last.monType = read.monType ∧ last.pflags = { read.pflags with busy := false } ∧
            (dnotifyPollKnownFile handler poll node).1 = (flowControl handler
              (gamPollGenericRemoveBusy (leaveLoaded next read.path) read.path) last false).setNode last) := by
  have statted := dnotifyStatFile_cases handler poll node
  unfold dnotifyPollKnownFile
  generalize dnotifyStatFile handler poll node = outcome at statted ⊢
  obtain ⟨next, read, event⟩ := outcome
  refine ⟨next, read, event, statted, ?_⟩
  dsimp only
  have counted := countChecks_rewrites next read event
  have flags : (countChecks next read event).pflags = read.pflags ∧ (countChecks next read event).isDir = read.isDir ∧
      (countChecks next read event).monType = read.monType := by
    simp only [countChecks]
    split <;> split <;> exact ⟨rfl, rfl, rfl⟩
  split
  case isTrue => exact .inl ⟨next, read, rfl, .refl next, rfl, .refl _⟩
  case isFalse allowed =>
    obtain ⟨⟨more, path, within⟩, polling⟩ := switchToPolling_more handler next (countChecks next read event)
    have places := countChecks_rewrites next read event
    generalize switchToPolling handler next (countChecks next read event) = switched at more path within polling ⊢
    obtain ⟨after, last⟩ := switched
    dsimp only at more path within polling ⊢
    rw [flags.1] at within
    unfold switchToKernel
    split
    case isFalse => exact .inl ⟨after, last, rfl, more, path.trans places.path, within⟩
    case isTrue calm =>
      obtain ⟨quiet, busy, checks, subscribed, kernel⟩ := calm
      -- only a node that was busy before has counted so far
      cases polling with
      | inr anew => omega
      | inl unswitched =>
        obtain ⟨rfl, rfl⟩ := Prod.mk.inj unswitched
        subst quiet
        rw [flags.1] at busy
        rw [places.path] at kernel
        rw [places.subs] at subscribed
        let calmed : GamNode := { countChecks after read none with
          pflags := { (countChecks after read none).pflags with busy := false }, checks := 0 }
        refine .inr ⟨⟨rfl, eq_false_of_ne_true allowed, busy, checks, subscribed, kernel⟩, calmed, places.path,
          places.parent, flags.2.1, flags.2.2,
          congrArg (fun flags : MonFlags => { flags with busy := false }) flags.1, ?_⟩
        rw [← places.path]

/-- What is left of a node that is gone. -/
structure Deleted (poll : Poll) (node : GamNode) (after : Poll) : Prop where
  missing : ∀ stay, StaysIn stay poll.missing after.missing
  busy : after.busy = poll.busy.filter (· ≠ node.path)
  rootBusy : after.rootBusy = poll.rootBusy
  nodes : after.nodes = (poll.setNode { node with pflags := { MonFlags.none with missing := true } }).nodes

theorem Deleted.lookup {after : Poll} (deleted : Deleted poll node after) (path : Bytes) :
    gamTreeGetAtPath after path =
      gamTreeGetAtPath (poll.setNode { node with pflags := { MonFlags.none with missing := true } }) path := by
  rw [gamTreeGetAtPath, deleted.nodes, ← gamTreeGetAtPath]

theorem Deleted.found {after : Poll} (deleted : Deleted poll node after)
    (found : gamTreeGetAtPath poll node.path = some node) :
    gamTreeGetAtPath after node.path = some { node with pflags := { MonFlags.none with missing := true } } := by
  rw [deleted.lookup, gamTreeGetAtPath_setNode, found, Option.map_some, if_pos rfl]

theorem dnotifyDeletedFile_deleted (handler : Bool) (poll : Poll) (node : GamNode) :
    Deleted poll node (dnotifyDeletedFile handler poll node) := by
  unfold dnotifyDeletedFile
  extract_lets flags gone unlisted
  split
  · have only := watchesOnly_delist handler unlisted gone
    obtain ⟨missing, written⟩ :=
      gamPollGenericAddMissing_writes (gamPollDnotifyDelistNode handler unlisted gone) gone.path
    refine ⟨fun stay => ?_, ?_, ?_, ?_⟩
    · have stays := staysIn_addMissing stay (gamPollDnotifyDelistNode handler unlisted gone) gone.path
      rwa [only.missing] at stays
    · rw [addMissing_busy, only.busy]
      rfl
    · rw [written]
      exact only.rootBusy
    · rw [written]
      exact only.nodes
  · exact ⟨fun stay => .refl stay _, rfl, rfl, rfl⟩

/-- The poll leaves a mark where it is: its own poll does not take it off, nor does that of a child. -/
structure KeepsMark (handler : Bool) (poll : Poll) (node : GamNode) (mark : MonFlags → Bool) (path : Bytes) : Prop where
  back : node.path = path → comesBack poll node = true → mark { node.pflags with missing := false } = true
  away : node.path = path → goesAway poll node = true → mark { MonFlags.none with missing := true } = true
  calm : node.path = path → calmsDown poll node = true → mark { node.pflags with busy := false } = true
  flow : stopsFlow handler poll node = true → node.parent = some path →
    ∀ flags, mark flags = true → mark { flags with busy := false } = true

/-- What a poll does to the lists and to the marks. -/
structure ListsPolled (handler : Bool) (poll : Poll) (node : GamNode) (after : Poll) : Prop where
  missing : ∀ stay, StaysIn stay poll.missing after.missing
  busy : ∀ stay, (stay node.path → goesAway poll node = false ∧ calmsDown poll node = false) →
    (stopsFlow handler poll node = true → ¬ stay (node.parent.getD [])) → StaysIn stay poll.busy after.busy
  rootBusy : (stopsFlow handler poll node = true → node.parent ≠ none) → poll.rootBusy = true → after.rootBusy = true
  marks : ∀ mark path, Rising mark → KeepsMark handler poll node mark path → markedAt mark poll path = true →
    markedAt mark after path = true

theorem OnlyMore.polled {after : Poll} (more : OnlyMore poll after) : ListsPolled handler poll node after where
  missing stay := more.missing ▸ .refl stay _
  busy stay _ _ := more.busy stay
  rootBusy _ := more.rootBusy
  marks _ _ rising _ := rising.markedAt more.marks

/-- The node is written back with flags that it does not lose. -/
theorem OnlyMore.polledWritten {after : Poll} {last : GamNode} (found : gamTreeGetAtPath poll node.path = some node)
    (more : OnlyMore poll after) (place : last.path = node.path)
    (flags : ∀ mark, Rising mark → KeepsMark handler poll node mark node.path → mark node.pflags = true →
      mark last.pflags = true) : ListsPolled handler poll node (after.setNode last) where
  missing stay := more.missing ▸ .refl stay _
  busy stay _ _ := more.busy stay
  rootBusy _ := more.rootBusy
  marks mark path rising keeps marked := by
    obtain ⟨next, there, _⟩ := more.marks node.path node found
    refine markedAt_written (by rw [place, there, Option.isSome_some]) (fun here => ?_) fun _ =>
      rising.markedAt more.marks marked
    obtain rfl := place.symm.trans here
    exact flags mark rising keeps ((markedAt_found found).symm.trans marked)

theorem compares_iff : compares poll node = true ↔ tooSoon poll node = false ∧ node.lasttime ≠ 0 := by
  simp [compares]

/-- A node that is gone, with what load control does to it then. -/
theorem Deleted.polled {next after : Poll} {last : GamNode} (found : gamTreeGetAtPath poll node.path = some node)
    (away : goesAway poll node = true) (deleted : Deleted poll.called node next) (more : OnlyMore next after)
    (place : last.path = node.path) (flags : ({ MonFlags.none with missing := true } : MonFlags).Within last.pflags) :
    ListsPolled handler poll node (after.setNode last) where
  missing stay := more.missing ▸ deleted.missing stay
  busy stay spared _ := by
    have leaves : ¬ stay node.path := fun stays => Bool.noConfusion (away.symm.trans (spared stays).1)
    have stays := deleted.busy ▸ staysIn_remove (.refl stay poll.busy) leaves
    exact stays.trans (more.busy stay)
  rootBusy _ marked := more.rootBusy (deleted.rootBusy.trans marked)
  marks mark path rising keeps marked := by
    obtain ⟨other, there, _⟩ := more.marks node.path _ (deleted.found found)
    refine markedAt_written (by rw [place, there, Option.isSome_some]) (fun here => ?_) fun elsewhere => ?_
    · exact rising _ _ flags (keeps.away (place.symm.trans here) away)
    · refine rising.markedAt more.marks ?_
      rw [markedAt, deleted.lookup, gamTreeGetAtPath_setNode_other _ (place ▸ Ne.symm elsewhere)]
      exact marked

theorem parentDiffers_congr {after : Poll} (nodes : after.nodes = poll.nodes)
    (rootBusy : after.rootBusy = poll.rootBusy)
    (parent : Option Bytes) (start : Bool) : parentDiffers after parent start = parentDiffers poll parent start := by
  cases parent with
  | none => rw [parentDiffers, rootBusy, ← parentDiffers]
  | some path => rw [parentDiffers, gamTreeGetAtPath, nodes, ← gamTreeGetAtPath, ← parentDiffers]

/-- A node that is left to the kernel again. -/
theorem polled_calm {last : GamNode} (found : gamTreeGetAtPath poll node.path = some node)
    (calm : calmsDown poll node = true) (path : last.path = node.path) (parent : last.parent = node.parent)
    (isDir : last.isDir = statIsDir poll node) (monType : last.monType = node.monType)
    (flags : last.pflags = { node.pflags with busy := false }) :
    ListsPolled handler poll node ((flowControl handler
      (gamPollGenericRemoveBusy (leaveLoaded poll.called node.path) node.path) last false).setNode last) := by
  have unlisted (stay : Bytes → Prop)
      (spared : stay node.path → goesAway poll node = false ∧ calmsDown poll node = false) :
      StaysIn stay poll.busy (poll.busy.filter (· ≠ node.path)) :=
    staysIn_remove (.refl stay _) fun stays => Bool.noConfusion (calm.symm.trans (spared stays).2)
  have own {mark : MonFlags → Bool} {other : Bytes} (keeps : KeepsMark handler poll node mark other)
      (here : last.path = other) : mark last.pflags = true := flags ▸ keeps.calm (path.symm.trans here) calm
  cases flowControl_stop_cases handler
    (gamPollGenericRemoveBusy (leaveLoaded poll.called node.path) node.path) last with
  -- the parent is not marked, or the request is not passed on: nothing goes
  | inl more =>
    refine ⟨fun stay => more.missing ▸ .refl stay _, fun stay spared _ => (unlisted stay spared).trans (more.busy stay),
      fun _ => more.rootBusy, fun mark other rising keeps marked => ?_⟩
    obtain ⟨next, there, _⟩ := more.marks node.path node found
    exact markedAt_written (by rw [path, there, Option.isSome_some]) (own keeps) fun _ =>
      rising.markedAt more.marks marked
  | inr stopped =>
    obtain ⟨⟨file, kernel, marked⟩, left⟩ := stopped
    -- the request takes the parent off the list as well
    have stops : stopsFlow handler poll node = true := by
      rw [isDir] at file
      rw [triggers, monType] at kernel
      rw [parent, parentDiffers_congr rfl rfl] at marked
      rw [stopsFlow, calm, file, triggers, kernel]
      exact marked
    rw [parent] at left
    refine ⟨fun stay => left.missing ▸ .refl stay _, fun stay spared flow => ?_, fun isFile marked => ?_,
      fun mark other rising keeps marked => ?_⟩
    · have gone : StaysIn stay poll.busy ((poll.busy.filter (· ≠ node.path)).filter (· ≠ node.parent.getD [])) :=
        staysIn_remove (unlisted stay spared) (flow stops)
      exact left.busy ▸ gone
    · exact (left.rootBusy (isFile stops)).trans marked
    · obtain ⟨next, there, _⟩ := left.marks node.path node found
      refine markedAt_written (by rw [path, there, Option.isSome_some]) (own keeps) fun _ => ?_
      obtain ⟨old, foundOld, markedOld⟩ := markedAt_iff.mp marked
      obtain ⟨new, foundNew, outcome⟩ := left.marks other old foundOld
      refine markedAt_iff.mpr ⟨new, foundNew, ?_⟩
      cases outcome with
      | inl same => rwa [same]
      | inr isParent => exact isParent.2 ▸ keeps.flow stops isParent.1 _ markedOld

/-- A poll does to the lists and the marks what its answer asks for. -/
theorem gamPollDnotifyPollFile_lists (handler : Bool) (found : gamTreeGetAtPath poll node.path = some node) :
    ListsPolled handler poll node (gamPollDnotifyPollFile handler poll node).1 := by
  have called : OnlyMore poll poll.called := ⟨rfl, fun stay => .refl stay _, id, .of_nodes rfl⟩
  unfold gamPollDnotifyPollFile
  cases soon : tooSoon poll node with
  | true => exact (OnlyMore.refl poll).polled
  | false =>
    rw [if_neg Bool.false_ne_true]
    split
    · -- the first poll adds flags
      unfold dnotifyPollNewFile
      extract_lets answer next known flags
      have within : node.pflags.Within flags := ⟨id, fun nokernel => decide_eq_true (.inl nokernel), id, id⟩
      cases answer with
      | found sbuf => exact called.polledWritten found rfl fun _ rising _ => rising _ _ within
      | noent | failed =>
        exact called.polledWritten found rfl fun _ rising _ => rising _ _ (within.trans ⟨fun _ => rfl, id, id, id⟩)
    case isFalse late =>
      have comparing := compares_iff.mpr ⟨soon, late⟩
      obtain ⟨next, read, event, statted, outcome⟩ := dnotifyPollKnownFile_cases handler poll node
      cases statted with
      | gone there answer =>
        have away : goesAway poll node = true := by simp [goesAway, comparing, there, answer]
        have deleted := dnotifyDeletedFile_deleted handler poll.called node
        obtain ⟨after, last, written, more, path, flags⟩ :=
          outcome.resolve_right fun calm => Option.some_ne_none _ calm.1.1
        rw [written]
        exact deleted.polled found away more path flags
      | back sbuf missing answer =>
        have back : comesBack poll node = true := by simp [comesBack, comparing, missing, answer, StatAnswer.exists]
        obtain ⟨after, last, written, more, path, flags⟩ :=
          outcome.resolve_right fun calm => Option.some_ne_none _ calm.1.1
        rw [written]
        exact (called.trans more).polledWritten found path fun mark rising keeps _ =>
          rising _ _ flags (keeps.back rfl back)
      | stays sbuf event there quiet =>
        cases outcome with
        | inl written =>
          obtain ⟨after, last, written, more, path, flags⟩ := written
          rw [written]
          exact (called.trans more).polledWritten found path fun mark rising _ => rising _ _ flags
        | inr settled =>
          -- nothing has changed for the sixth time, and the code ends polling the node
          obtain ⟨⟨isQuiet, allowed, busy, checks, subscribed, kernel⟩, last, path, parent, isDir, monType, flags,
            written⟩ := settled
          have calm : calmsDown poll node = true := by
            have counted : (countChecks poll.called
              { node with isDir := statIsDir poll node, sbuf := sbuf } none).checks =
                (countChecks poll node none).checks := by
              have isBusy : node.pflags.busy = true := busy
              simp only [countChecks, isBusy, not_true_eq_false, false_and, if_false, if_true, Poll.called]
              split <;> rfl
            rw [counted] at checks
            simp only [calmsDown, decide_eq_true_eq]
            exact ⟨comparing, quiet isQuiet, busy, by simpa using allowed, checks, subscribed, kernel⟩
          rw [written]
          exact polled_calm found calm path parent isDir monType flags

theorem gamPollDnotifyPollFile_gone (handler : Bool) (found : gamTreeGetAtPath poll node.path = some node)
    (away : goesAway poll node = true) {mark : MonFlags → Bool} (rising : Rising mark)
    (missing : mark { MonFlags.none with missing := true } = true) :
    markedAt mark (gamPollDnotifyPollFile handler poll node).1 node.path = true := by
  obtain ⟨comparing, there, answer⟩ := of_decide_eq_true away
  obtain ⟨late, known⟩ := compares_iff.mp comparing
  rw [gamPollDnotifyPollFile, late, if_neg Bool.false_ne_true, if_neg known]
  obtain ⟨next, read, event, statted, outcome⟩ := dnotifyPollKnownFile_cases handler poll node
  cases statted with
  | gone =>
    have deleted := dnotifyDeletedFile_deleted handler poll.called node
    obtain ⟨after, last, written, more, path, flags⟩ :=
      outcome.resolve_right fun calm => Option.some_ne_none _ calm.1.1
    rw [written]
    obtain ⟨other, foundOther, _⟩ := more.marks _ _ (deleted.found found)
    exact markedAt_written (by rw [path, foundOther, Option.isSome_some]) (fun _ => rising _ _ flags missing)
      fun elsewhere => absurd path elsewhere
  | back sbuf missing => exact absurd missing there
  | stays sbuf event still => exact absurd answer (still (eq_false_of_ne_true there))

/-! ## A poll of the basic backend -/

/-- A missing node stays missing, and on its list, as long as it does not come back. -/
structure BasicPolled (poll : Poll) (node : GamNode) (after : Poll) : Prop where
  missing : ∀ stay, (stay node.path → comesBack poll node = false) → StaysIn stay poll.missing after.missing
  marks : ∀ path, (node.path = path → comesBack poll node = false) → markedAt (·.missing) poll path = true →
    markedAt (·.missing) after path = true

theorem gamPollBasicPollFile_lists (found : gamTreeGetAtPath poll node.path = some node) :
    BasicPolled poll node (gamPollBasicPollFile poll node).1 := by
  -- the node is written back with its flag, if it has one
  have written {next : GamNode} (place : next.path = node.path)
      (flag : comesBack poll node = false → node.pflags.missing = true → next.pflags.missing = true) (path : Bytes)
      (away : node.path = path → comesBack poll node = false) (marked : markedAt (·.missing) poll path = true) :
      markedAt (·.missing) (poll.called.setNode next) path = true := by
    refine markedAt_written (Option.isSome_of_eq_some (place ▸ found)) (fun here => ?_) fun _ => marked
    obtain rfl := place.symm.trans here
    exact flag (away rfl) ((markedAt_found found).symm.trans marked)
  have kept (stay : Bytes → Prop) : StaysIn stay poll.missing poll.missing := .refl stay _
  unfold gamPollBasicPollFile
  cases soon : tooSoon poll node with
  | true => exact ⟨fun stay _ => kept stay, fun _ _ => id⟩
  | false =>
    rw [if_neg Bool.false_ne_true]
    split
    · unfold pollNewFile
      cases poll.view.stat node.path with
      | found sbuf => exact ⟨fun stay _ => kept stay, written rfl fun _ => id⟩
      | noent | failed => exact ⟨fun stay _ => kept stay, written rfl fun _ _ => rfl⟩
    case isFalse late =>
      have comparing := compares_iff.mpr ⟨soon, late⟩
      simp only [pollKnownFile]
      cases answer : poll.view.stat node.path with
      | found sbuf =>
        dsimp only
        split
        case isTrue missing =>
          have back : comesBack poll node = true := by simp [comesBack, comparing, missing, answer, StatAnswer.exists]
          refine ⟨fun stay away => ?_, written rfl fun away => ?_⟩
          · exact staysIn_remove (kept stay) fun stays => Bool.noConfusion (back.symm.trans (away stays))
          · exact Bool.noConfusion (back.symm.trans away)
        case isFalse there => split <;> exact ⟨fun stay _ => kept stay, written rfl fun _ => id⟩
      | noent =>
        dsimp only
        split
        · refine ⟨fun stay _ => staysIn_addMissing stay _ node.path, fun path away marked => ?_⟩
          rw [markedAt, gamTreeGetAtPath_addMissing]
          let gone : GamNode := { node with
            lasttime := poll.currentTime, pflags := { MonFlags.none with missing := true }, sbuf := .zero }
          exact @written gone rfl (fun _ _ => rfl) path away marked
        · exact ⟨fun stay _ => kept stay, written rfl fun _ => id⟩
      | failed =>
        dsimp only
        split
        case isTrue gone => exact StatAnswer.noConfusion gone.1
        case isFalse => exact ⟨fun stay _ => kept stay, written rfl fun _ => id⟩

theorem gamPollBasicPollFile_gone (found : gamTreeGetAtPath poll node.path = some node)
    (away : goesAway poll node = true) : markedAt (·.missing) (gamPollBasicPollFile poll node).1 node.path = true := by
  obtain ⟨comparing, there, answer⟩ := of_decide_eq_true away
  obtain ⟨late, known⟩ := compares_iff.mp comparing
  simp only [gamPollBasicPollFile, late, Bool.false_eq_true, if_false, if_neg known, pollKnownFile, answer, there,
    not_false_eq_true, and_self, if_true]
  rw [markedAt, gamTreeGetAtPath_addMissing]
  exact markedAt_written (Option.isSome_of_eq_some found) (fun _ => rfl) fun other => absurd rfl other

end

end Gamin.Polling
