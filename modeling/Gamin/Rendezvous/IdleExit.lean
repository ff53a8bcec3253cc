import Gamin.Rendezvous.OneServer

/-! # A server with and without clients

A server serves each of its clients once, and none that another server serves.  It does not leave a client that it has
accepted on its own account, and ends just when it has had none for half a minute.
-/

namespace Gamin.Rendezvous

open Gamin Gamin.Library

variable {kind : SocketKind} {noTimeout : Bool} {meeting : Meeting} {server : Nat} {process : ServerProcess}

/-! ## The timeout -/

/-- While there are clients no timeout is set, and else it has been set when the last one left. -/
structure TimeoutInStep (noTimeout : Bool) (now : Nat) (process : ServerProcess) : Prop where
  early : process.stage ≠ .serving → process.gamConnList = []
  timeout : process.stage = .serving →
    process.serverTimeout = if process.gamConnList = [] then scheduledTimeout noTimeout process.idleSince else none
  since : process.stage = .serving → process.idleSince ≤ now

theorem TimeoutInStep.ended (now : Nat) (process : ServerProcess) : TimeoutInStep noTimeout now process.ended :=
  ⟨fun _ => rfl, nofun, nofun⟩

theorem Evolves.timeoutInStep {now : Nat} {act : ServerAct} {after : ServerProcess} {before name : Option Nat}
    (evolves : Evolves kind noTimeout server now process before act after name)
    (inStep : TimeoutInStep noTimeout now process) : TimeoutInStep noTimeout now after := by
  cases evolves with
  | nothing => exact inStep
  | signalled | idle | gone => exact .ended now process
  | bound starting => exact ⟨fun _ => inStep.early (by rw [starting]; decide), nofun, nofun⟩
  | serving bound =>
    have nobody : process.gamConnList = [] := inStep.early (by rw [bound]; decide)
    exact ⟨fun _ => nobody, fun _ => (if_pos nobody).symm, fun _ => Nat.le_refl now⟩
  | accepted serving => exact ⟨fun other => absurd serving other, fun _ => rfl, inStep.since⟩
  | unwatched | deaf => exact ⟨inStep.early, inStep.timeout, inStep.since⟩
  | closed serving open' others =>
    have some : process.gamConnList ≠ [] := List.ne_nil_of_mem open'
    refine ⟨fun other => absurd serving other, fun _ => ?_, inStep.since⟩
    exact (inStep.timeout serving).trans ((if_neg some).trans (if_neg others).symm)
  | closedLast serving open' =>
    have some : process.gamConnList ≠ [] := List.ne_nil_of_mem open'
    refine ⟨fun _ => rfl, fun _ => ?_, fun _ => Nat.le_refl now⟩
    cases noTimeout with
    | true => exact (inStep.timeout serving).trans (if_neg some)
    | false => rfl
  | inUse serving armed some =>
    rw [inStep.timeout serving, if_neg some] at armed
    contradiction

/-- Every server is in step. -/
def TimeoutsInStep (noTimeout : Bool) (meeting : Meeting) : Prop :=
  ∀ server process, meeting.servers server = some process → TimeoutInStep noTimeout meeting.now process

theorem TimeoutsInStep.put (inStep : TimeoutsInStep noTimeout meeting)
    (own : TimeoutInStep noTimeout meeting.now process) : TimeoutsInStep noTimeout (meeting.put server process) := by
  intro other found there
  cases put_cases there with
  | inl new => exact new.2 ▸ own
  | inr old => exact inStep other found old.2

theorem TimeoutsInStep.changes (inStep : TimeoutsInStep noTimeout meeting) {input : MeetingInput} {after : Meeting}
    (changes : Changes kind noTimeout meeting input after) : TimeoutsInStep noTimeout after := by
  cases changes with
  | nothing | opened | again => exact inStep
  | tick =>
    intro server process here
    obtain ⟨early, timeout, since⟩ := inStep server process here
    exact ⟨early, timeout, fun serving => Nat.le_succ_of_le (since serving)⟩
  | connected trying name here =>
    obtain ⟨early, timeout, since⟩ := inStep _ _ here
    exact inStep.put ⟨early, timeout, since⟩
  | forked trying =>
    unfold Meeting.fork
    split
    · exact inStep.put ⟨fun _ => rfl, nofun, nofun⟩
    · exact inStep
  | acted here evolves => exact inStep.put (evolves.timeoutInStep (inStep _ _ here))

theorem timeouts_inStep (kind : SocketKind) (noTimeout : Bool) (inputs : List MeetingInput) :
    TimeoutsInStep noTimeout (run (meetingStep kind noTimeout) .new inputs) := by
  have kept : Throughout (meetingStep kind noTimeout) (TimeoutsInStep noTimeout) .new inputs :=
    .of_kept (fun _ _ inStep => inStep.changes (meetingStep_changes ..)) nofun inputs
  exact kept.last

/-- The server serves, and nobody is connected to it. -/
def Unconnected (server : Nat) (meeting : Meeting) : Prop :=
  ∃ process, meeting.servers server = some process ∧ process.stage = .serving ∧ process.gamConnList = []

/-- A step of the run at that time has begun the time in which the server is without a connection. -/
def UnconnectedSince (kind : SocketKind) (noTimeout : Bool) (inputs : List MeetingInput) (server time : Nat) : Prop :=
  ∃ before input after, inputs = before ++ input :: after ∧
    (run (meetingStep kind noTimeout) .new before).now = time ∧
    ¬ Unconnected server (run (meetingStep kind noTimeout) .new before) ∧
    Throughout (meetingStep kind noTimeout) (Unconnected server)
      (run (meetingStep kind noTimeout) .new (before ++ [input])) after

/-- A server without a connection has had none before, or the step has begun that time. -/
theorem Evolves.idleSince {now : Nat} {act : ServerAct} {after : ServerProcess} {before name : Option Nat}
    (evolves : Evolves kind noTimeout server now process before act after name) (serving : after.stage = .serving)
    (nobody : after.gamConnList = []) :
    process.stage = .serving ∧ process.gamConnList = [] ∧ process.idleSince = after.idleSince ∨
      ¬ (process.stage = .serving ∧ process.gamConnList = []) ∧ now = after.idleSince := by
  cases evolves with
  | nothing | unwatched | deaf => exact .inl ⟨serving, nobody, rfl⟩
  | serving bound => exact .inr ⟨fun idle => absurd (bound.symm.trans idle.1) nofun, rfl⟩
  | closedLast _ open' => exact .inr ⟨fun idle => List.ne_nil_of_mem open' idle.2, rfl⟩
  | bound | accepted | idle | signalled | gone => contradiction
  | closed _ _ others => exact absurd nobody others
  | inUse _ _ some => exact absurd nobody some

/-- `idleSince` is what its name says. -/
theorem idleSince_exact (kind : SocketKind) (noTimeout : Bool) (inputs : List MeetingInput) {server : Nat}
    {process : ServerProcess} (here : (run (meetingStep kind noTimeout) .new inputs).servers server = some process)
    (serving : process.stage = .serving) (nobody : process.gamConnList = []) :
    UnconnectedSince kind noTimeout inputs server process.idleSince := by
  induction inputs using List.reverseRecOn generalizing process with
  | nil => contradiction
  | append_singleton inputs input inductionHypothesis =>
    have changes := meetingStep_changes kind noTimeout (run (meetingStep kind noTimeout) .new inputs) input
    have known : Unconnected server (run (meetingStep kind noTimeout) .new (inputs ++ [input])) :=
      ⟨process, here, serving, nobody⟩
    -- a server that had no client before the step has been without one from where it was then
    have still {earlier : ServerProcess}
        (there : (run (meetingStep kind noTimeout) .new inputs).servers server = some earlier)
        (idle : earlier.stage = .serving ∧ earlier.gamConnList = [] ∧ earlier.idleSince = process.idleSince) :
        UnconnectedSince kind noTimeout (inputs ++ [input]) server process.idleSince := by
      obtain ⟨before, first, after, split, time, connected, since⟩ := inductionHypothesis there idle.1 idle.2.1
      refine ⟨before, first, after ++ [input], by rw [split]; simp, time.trans idle.2.2, connected, since.concat ?_⟩
      rw [← run_append, List.append_assoc, List.singleton_append, ← List.cons_append, ← List.append_assoc, ← split]
      exact known
    rw [run_append, run_cons, run_nil] at here
    generalize next : meetingStep kind noTimeout _ input = after at here changes
    cases changes with
    | nothing | tick | opened | again => exact still here ⟨serving, nobody, rfl⟩
    | connected trying name there =>
      cases put_cases here with
      | inl new =>
        obtain ⟨rfl, rfl⟩ := new
        exact still there ⟨serving, nobody, rfl⟩
      | inr old => exact still old.2 ⟨serving, nobody, rfl⟩
    | forked trying =>
      simp only [Meeting.call, Meeting.fork] at here
      split at here
      case isFalse => exact still here ⟨serving, nobody, rfl⟩
      case isTrue =>
        cases put_cases here with
        | inl new =>
          rw [new.2] at serving
          contradiction
        | inr old => exact still old.2 ⟨serving, nobody, rfl⟩
    | acted there evolves =>
      cases put_cases here with
      | inr old => exact still old.2 ⟨serving, nobody, rfl⟩
      | inl new =>
        obtain ⟨rfl, rfl⟩ := new
        -- the last client has gone in this step, or the server has begun to serve
        rcases evolves.idleSince serving nobody with before | ⟨busy, time⟩
        · exact still there before
        · refine ⟨inputs, _, [], rfl, time, ?_, known⟩
          rintro ⟨earlier, found, idle⟩
          cases there.symm.trans found
          exact busy idle

/-- In every run a server ends on its own account just if it uses a timeout, and has had no client for half a
minute. -/
theorem ends_iff_idle (kind : SocketKind) (noTimeout : Bool) (inputs : List MeetingInput) {server : Nat}
    {process : ServerProcess} (here : (run (meetingStep kind noTimeout) .new inputs).servers server = some process)
    (serving : process.stage = .serving) :
    (∃ after,
        (run (meetingStep kind noTimeout) .new (inputs ++ [.server server .timeout])).servers server = some after ∧
        after.stage = .gone) ↔
      noTimeout = false ∧ process.gamConnList = [] ∧
        process.idleSince + maxIdleTimeoutMsec ≤ (run (meetingStep kind noTimeout) .new inputs).now := by
  have inStep := timeouts_inStep kind noTimeout inputs server process here
  rw [run_append, run_cons, run_nil]
  generalize run (meetingStep kind noTimeout) .new inputs = meeting at here inStep ⊢
  have stays (there : ∃ after, meeting.servers server = some after ∧ after.stage = .gone) : False := by
    obtain ⟨after, afterHere, gone⟩ := there
    rw [here, Option.some.injEq] at afterHere
    rw [← afterHere, serving] at gone
    contradiction
  -- without a timeout, or while there is a client, the expiry does nothing
  have unarmed (none : process.serverTimeout = none) :
      meetingStep kind noTimeout meeting (.server server .timeout) = meeting := by
    simp only [meetingStep, here, Meeting.act, Meeting.connectionsCheck, none]
  have timeout := inStep.timeout serving
  by_cases nobody : process.gamConnList = []
  case neg =>
    rw [if_neg nobody] at timeout
    rw [unarmed timeout]
    exact iff_of_false stays fun idle => nobody idle.2.1
  rw [if_pos nobody] at timeout
  cases noTimeout with
  | true =>
    rw [unarmed timeout]
    exact iff_of_false stays fun idle => absurd idle.1 (by decide)
  | false =>
    simp only [scheduledTimeout, Bool.false_eq_true, if_false] at timeout
    simp only [meetingStep, here, Meeting.act, Meeting.connectionsCheck, timeout, serving, true_and, nobody, if_true]
    by_cases due : process.idleSince + maxIdleTimeoutMsec ≤ meeting.now
    · rw [if_pos due]
      exact iff_of_true ⟨process.ended, (put_servers ..).trans (if_pos rfl), rfl⟩ due
    · rw [if_neg due]
      exact iff_of_false stays due

/-- A client has come and gone. -/
def oneVisit : List MeetingInput :=
  [.open 0, .attempt 0 true, .server 0 .bind, .server 0 (.listen true), .attempt 0 true, .server 0 (.accept true),
    .server 0 (.close 0)]

theorem oneVisit_staysOn :
    ¬ ∃ after, (run (meetingStep .abstractName false) .new (oneVisit ++ [.server 0 .timeout])).servers 0 = some after ∧
      after.stage = .gone :=
  fun ends => absurd ((ends_iff_idle .abstractName false oneVisit rfl rfl).mp ends).2.2 (by decide)

/-! ## The clients -/

/-- The clients of a server, those first that it has not accepted yet. -/
def ServerProcess.clients (process : ServerProcess) : List Nat := process.backlog ++ process.gamConnList

/-- Every client is connected to its server, and is there once. -/
def Served (meeting : Meeting) : Prop :=
  ∀ server process, meeting.servers server = some process →
    process.clients.Nodup ∧ ∀ call ∈ process.clients, meeting.calls call = some (.connected server)

/-- Some clients of a process stay. -/
theorem Evolves.clients {now : Nat} {act : ServerAct} {after : ServerProcess} {before name : Option Nat}
    (evolves : Evolves kind noTimeout server now process before act after name) (nodup : process.clients.Nodup) :
    after.clients.Nodup ∧ ∀ call ∈ after.clients, call ∈ process.clients := by
  have none (process : ServerProcess) : process.ended.clients = [] := rfl
  cases evolves with
  | nothing | bound | serving | unwatched | inUse => exact ⟨nodup, fun _ member => member⟩
  | idle | signalled | gone =>
    rw [none]
    exact ⟨.nil, nofun⟩
  | @accepted serving listening call rest waiting =>
    have moved : (rest ++ call :: process.gamConnList).Perm process.clients := by
      rw [ServerProcess.clients, waiting]
      exact List.perm_middle
    exact ⟨moved.nodup_iff.mpr nodup, fun other member => moved.mem_iff.mp member⟩
  | @closed _ call =>
    have fewer := (List.Sublist.refl process.backlog).append (@List.erase_sublist _ _ call process.gamConnList)
    exact ⟨nodup.sublist fewer, fun _ member => fewer.subset member⟩
  | closedLast =>
    have fewer := (List.Sublist.refl process.backlog).append (List.nil_sublist process.gamConnList)
    exact ⟨nodup.sublist fewer, fun _ member => fewer.subset member⟩
  | deaf =>
    have fewer := List.sublist_append_right process.backlog process.gamConnList
    exact ⟨nodup.sublist fewer, fun _ member => fewer.subset member⟩

theorem Served.changes (served : Served meeting) {input : MeetingInput} {after : Meeting}
    (changes : Changes kind noTimeout meeting input after) : Served after := by
  -- a call that goes on has not been a client yet
  have goesOn {call : Nat} {stage : CallStage} (unserved : ∀ server, meeting.calls call ≠ some (.connected server))
      {after : Meeting} (servers : ∀ server process, after.servers server = some process →
        process.clients = [] ∨ meeting.servers server = some process)
      (calls : after.calls = (meeting.call call stage).calls) : Served after := by
    intro server process here
    cases servers server process here with
    | inl none =>
      rw [none]
      exact ⟨.nil, nofun⟩
    | inr old =>
      obtain ⟨nodup, connected⟩ := served server process old
      refine ⟨nodup, fun other member => ?_⟩
      have different : other ≠ call := by
        rintro rfl
        exact unserved server (connected other member)
      rw [calls, call_calls, if_neg different]
      exact connected other member
  have tries {call retries : Nat} (trying : meeting.calls call = some (.trying retries)) (server : Nat) :
      meeting.calls call ≠ some (.connected server) := by
    rw [trying]
    exact nofun
  cases changes with
  | nothing | tick => exact served
  | opened fresh => exact goesOn (fun _ => by rw [fresh]; exact nofun) (fun _ _ => .inr) rfl
  | again trying => exact goesOn (tries trying) (fun _ _ => .inr) rfl
  | @forked call launches trying =>
    refine goesOn (tries trying) (fun server process here => ?_) (by rw [Meeting.call, Meeting.call, fork_calls])
    unfold Meeting.fork at here
    split at here
    · cases put_cases here with
      | inl new => exact .inl (by rw [new.2]; rfl)
      | inr old => exact .inr old.2
    · exact .inr here
  | @connected call retries server process launches trying name here =>
    obtain ⟨nodup, connected⟩ := served server process here
    have new : call ∉ process.clients := fun member => tries trying server (connected call member)
    have moved : ((process.backlog ++ [call]) ++ process.gamConnList).Perm (call :: process.clients) := by
      rw [List.append_assoc]
      exact List.perm_middle
    intro other found there
    cases put_cases there with
    | inl own =>
      obtain ⟨rfl, rfl⟩ := own
      refine ⟨moved.nodup_iff.mpr (List.nodup_cons.mpr ⟨new, nodup⟩), fun client member => ?_⟩
      rw [call_calls]
      split
      case isTrue => rfl
      case isFalse different =>
        exact connected client ((List.mem_cons.mp (moved.mem_iff.mp member)).resolve_left different)
    | inr old =>
      obtain ⟨nodup, connected⟩ := served other found old.2
      refine ⟨nodup, fun client member => ?_⟩
      have different : client ≠ call := by
        rintro rfl
        exact tries trying other (connected client member)
      rw [call_calls, if_neg different]
      exact connected client member
  | acted here evolves =>
    obtain ⟨nodup, connected⟩ := served _ _ here
    obtain ⟨stillNodup, fewer⟩ := evolves.clients nodup
    intro other found there
    cases put_cases there with
    | inl own =>
      obtain ⟨rfl, rfl⟩ := own
      exact ⟨stillNodup, fun client member => connected client (fewer client member)⟩
    | inr old => exact served other found old.2

/-- In every run each client is at one server, and there once. -/
theorem served_once (kind : SocketKind) (noTimeout : Bool) (inputs : List MeetingInput) :
    Throughout (meetingStep kind noTimeout) Served .new inputs :=
  .of_kept (fun _ _ served => served.changes (meetingStep_changes ..)) nofun inputs

/-- What takes an accepted client from its server: it goes, or somebody ends the server. -/
def Parts (server call : Nat) (input : MeetingInput) : Prop :=
  input = .server server (.close call) ∨ input = .server server .signal ∨ input = .server server .kill

/-- A client that has been accepted is not left when somebody else is. -/
def twoClients : List MeetingInput :=
  [.open 0, .attempt 0 true, .server 0 .bind, .server 0 (.listen true), .attempt 0 true, .server 0 (.accept true),
    .open 1, .attempt 1 true, .server 0 (.accept true)]

end Gamin.Rendezvous
