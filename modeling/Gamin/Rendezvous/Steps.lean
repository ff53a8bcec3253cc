import Gamin.Rendezvous.Processes

/-! # The steps of calls and servers

Once and for all: what an input can change, and on which condition.
-/

namespace Gamin.Rendezvous

open Gamin Gamin.Library

variable {kind : SocketKind} {noTimeout : Bool} {meeting : Meeting} {server : Nat} {process : ServerProcess}

/-! ## What a server can do -/

/-- What an act makes of a process and of the name. -/
inductive Evolves (kind : SocketKind) (noTimeout : Bool) (server now : Nat) (process : ServerProcess)
    (name : Option Nat) : ServerAct → ServerProcess → Option Nat → Prop where
  | nothing (act : ServerAct) : Evolves kind noTimeout server now process name act process name
  | bound (starting : process.stage = .starting) (free : name = none) :
      Evolves kind noTimeout server now process name .bind { process with stage := .bound } (some server)
  | serving (bound : process.stage = .bound) :
      Evolves kind noTimeout server now process name (.listen true)
        { process with
          stage := .serving, listening := true, watched := true,
          serverTimeout := scheduledTimeout noTimeout now, idleSince := now } name
  | accepted (serving : process.stage = .serving) (listening : process.listening = true) {call : Nat} {rest : List Nat}
      (waiting : process.backlog = call :: rest) :
      Evolves kind noTimeout server now process name (.accept true)
        { process with backlog := rest, gamConnList := call :: process.gamConnList, serverTimeout := none } name
  | unwatched (serving : process.stage = .serving) :
      Evolves kind noTimeout server now process name (.accept false) { process with watched := false } name
  | closed (serving : process.stage = .serving) {call : Nat} (open' : call ∈ process.gamConnList)
      (others : process.gamConnList.erase call ≠ []) :
      Evolves kind noTimeout server now process name (.close call)
        { process with gamConnList := process.gamConnList.erase call } name
  | closedLast (serving : process.stage = .serving) {call : Nat} (open' : call ∈ process.gamConnList)
      (last : process.gamConnList.erase call = []) :
      Evolves kind noTimeout server now process name (.close call)
        { process with
          gamConnList := [], idleSince := now
          serverTimeout := if noTimeout then process.serverTimeout else some (now + maxIdleTimeoutMsec) } name
  | inUse (serving : process.stage = .serving) {expires : Nat} (armed : process.serverTimeout = some expires)
      (some : process.gamConnList ≠ []) :
      Evolves kind noTimeout server now process name .timeout { process with serverTimeout := none } name
  | idle (serving : process.stage = .serving) {expires : Nat} (armed : process.serverTimeout = some expires)
      (due : expires ≤ now) (none : process.gamConnList = []) :
      Evolves kind noTimeout server now process name .timeout process.ended
        (closedName kind server (shutdownName kind name))
  | signalled (alive : process.stage ≠ .gone) :
      Evolves kind noTimeout server now process name .signal process.ended
        (closedName kind server (shutdownName kind name))
  | gone (act : ServerAct) (alive : process.stage ≠ .gone)
      (failing : act = .bind ∧ process.stage = .starting ∨ act = .listen false ∧ process.stage = .bound ∨ act = .kill) :
      Evolves kind noTimeout server now process name act process.ended (closedName kind server name)
  | deaf (serving : process.stage = .serving) :
      Evolves kind noTimeout server now process name .connError { process with listening := false, backlog := [] }
        (closedName kind server name)

theorem put_self (here : meeting.servers server = some process) : meeting.put server process = meeting := by
  rw [Meeting.put, ← here, Function.update_eq_self]

/-- The process and the name change, and nothing else. -/
theorem act_evolves (here : meeting.servers server = some process) (act : ServerAct) :
    ∃ after name, meeting.act kind noTimeout server process act = { meeting.put server after with name := name } ∧
      Evolves kind noTimeout server meeting.now process meeting.name act after name := by
  have same (act : ServerAct) : ∃ after name, meeting = { meeting.put server after with name := name } ∧
      Evolves kind noTimeout server meeting.now process meeting.name act after name :=
    ⟨process, meeting.name, by rw [put_self here], .nothing act⟩
  cases act with
  | bind =>
    simp only [Meeting.act, Meeting.bind]
    split
    case h_1 starting =>
      split
      case h_1 free => exact ⟨_, _, rfl, .bound starting free⟩
      case h_2 => exact ⟨_, _, rfl, .gone .bind (by rw [starting]; decide) (.inl ⟨rfl, starting⟩)⟩
    case h_2 => exact same .bind
  | listen works =>
    simp only [Meeting.act, Meeting.listen]
    split
    case h_1 bound =>
      cases works with
      | true => exact ⟨_, _, rfl, .serving bound⟩
      | false => exact ⟨_, _, rfl, .gone (.listen false) (by rw [bound]; decide) (.inr (.inl ⟨rfl, bound⟩))⟩
    case h_2 => exact same (.listen works)
  | accept works =>
    simp only [Meeting.act, Meeting.accept]
    split
    case isTrue ready =>
      split
      case h_1 => exact same (.accept works)
      case h_2 call rest waiting =>
        cases works with
        | true => exact ⟨_, _, rfl, .accepted ready.1 ready.2.1 waiting⟩
        | false => exact ⟨_, _, rfl, .unwatched ready.1⟩
    case isFalse => exact same (.accept works)
  | close call =>
    simp only [Meeting.act, Meeting.close]
    split
    case isTrue ready =>
      split
      case isTrue last => exact ⟨_, _, rfl, .closedLast ready.1 ready.2 last⟩
      case isFalse others => exact ⟨_, _, rfl, .closed ready.1 ready.2 others⟩
    case isFalse => exact same (.close call)
  | timeout =>
    simp only [Meeting.act, Meeting.connectionsCheck]
    split
    case h_1 expires armed =>
      split
      case isTrue due =>
        split
        case isTrue none => exact ⟨_, _, rfl, .idle due.1 armed due.2 none⟩
        case isFalse some => exact ⟨_, _, rfl, .inUse due.1 armed some⟩
      case isFalse => exact same .timeout
    case h_2 => exact same .timeout
  | signal =>
    simp only [Meeting.act, Meeting.gamExit]
    split
    case isTrue => exact same .signal
    case isFalse alive => exact ⟨_, _, rfl, .signalled alive⟩
  | kill =>
    simp only [Meeting.act]
    split
    case isTrue => exact same .kill
    case isFalse alive => exact ⟨_, _, rfl, .gone .kill alive (.inr (.inr rfl))⟩
  | connError =>
    simp only [Meeting.act, Meeting.connError]
    split
    case isTrue serving => exact ⟨_, _, rfl, .deaf serving⟩
    case isFalse => exact same .connError

theorem reachable_some {found : Nat × ServerProcess} (reached : meeting.reachable = some found) :
    meeting.name = some found.1 ∧ meeting.servers found.1 = some found.2 ∧ found.2.stage = .serving ∧
      found.2.listening = true := by
  obtain ⟨server, name, rest⟩ := Option.bind_eq_some_iff.mp reached
  obtain ⟨process, here, rest⟩ := Option.bind_eq_some_iff.mp rest
  split at rest
  case isTrue serving =>
    cases rest
    exact ⟨name, here, serving⟩
  case isFalse => contradiction

/-- What an input does to the meeting. -/
inductive Changes (kind : SocketKind) (noTimeout : Bool) (meeting : Meeting) : MeetingInput → Meeting → Prop where
  | nothing (input : MeetingInput) : Changes kind noTimeout meeting input meeting
  | tick : Changes kind noTimeout meeting .tick { meeting with now := meeting.now + 1 }
  | opened {call : Nat} (fresh : meeting.calls call = none) :
      Changes kind noTimeout meeting (.open call) (meeting.call call (.trying 0))
  | connected {call retries server : Nat} {process : ServerProcess} {launches : Bool}
      (trying : meeting.calls call = some (.trying retries)) (name : meeting.name = some server)
      (here : meeting.servers server = some process) (serving : process.stage = .serving)
      (listening : process.listening = true) :
      Changes kind noTimeout meeting (.attempt call launches)
        ((meeting.put server { process with backlog := process.backlog ++ [call] }).call call (.connected server))
  | forked {call : Nat} {launches : Bool} (trying : meeting.calls call = some (.trying 0))
      (nobody : meeting.reachable = none) :
      Changes kind noTimeout meeting (.attempt call launches) ((meeting.fork call launches).call call (.trying 1))
  | again {call retries : Nat} {launches : Bool} (trying : meeting.calls call = some (.trying retries))
      (later : 0 < retries) (stage : CallStage) (next : stage = .failed ∨ stage = .trying (retries + 1)) :
      Changes kind noTimeout meeting (.attempt call launches) (meeting.call call stage)
  | acted {server : Nat} {process after : ServerProcess} {act : ServerAct} {name : Option Nat}
      (here : meeting.servers server = some process)
      (evolves : Evolves kind noTimeout server meeting.now process meeting.name act after name) :
      Changes kind noTimeout meeting (.server server act) { meeting.put server after with name := name }

theorem meetingStep_changes (kind : SocketKind) (noTimeout : Bool) (meeting : Meeting) (input : MeetingInput) :
    Changes kind noTimeout meeting input (meetingStep kind noTimeout meeting input) := by
  cases input with
  | tick => exact .tick
  | «open» call =>
    simp only [meetingStep]
    split
    case isTrue fresh => exact .opened fresh
    case isFalse => exact .nothing _
  | attempt call launches =>
    simp only [meetingStep, Meeting.attempt]
    split
    case h_1 retries trying =>
      split
      case h_1 found reached =>
        obtain ⟨name, here, serving, listening⟩ := reachable_some reached
        exact .connected trying name here serving listening
      case h_2 nobody =>
        split
        case isTrue first =>
          subst first
          exact .forked trying nobody
        case isFalse later =>
          split
          · exact .again trying (Nat.pos_of_ne_zero later) _ (.inr rfl)
          · exact .again trying (Nat.pos_of_ne_zero later) _ (.inl rfl)
    case h_2 => exact .nothing _
  | server server act =>
    simp only [meetingStep]
    split
    case h_1 => exact .nothing _
    case h_2 process here =>
      obtain ⟨after, name, same, evolves⟩ := act_evolves here act
      rw [same]
      exact .acted here evolves

end Gamin.Rendezvous
