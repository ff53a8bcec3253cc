import Gamin.Rendezvous.Steps
import Mathlib.Data.List.Induction

/-! # One server under a name

In every run at most one process has the socket of the name, and no call starts two servers.  But where the socket is
a file, a server that is killed leaves it behind, and nobody is ever served again.
-/

namespace Gamin.Rendezvous

open Gamin Gamin.Library

variable {kind : SocketKind} {noTimeout : Bool} {meeting : Meeting} {server : Nat} {process : ServerProcess}

@[simp] theorem put_name (meeting : Meeting) (server : Nat) (process : ServerProcess) :
    (meeting.put server process).name = meeting.name := rfl

@[simp] theorem put_servers (meeting : Meeting) (server other : Nat) (process : ServerProcess) :
    (meeting.put server process).servers other = if other = server then some process else meeting.servers other := by
  simp [Meeting.put, Function.update_apply]

@[simp] theorem call_calls (meeting : Meeting) (call other : Nat) (stage : CallStage) :
    (meeting.call call stage).calls other = if other = call then some stage else meeting.calls other := by
  simp [Meeting.call, Function.update_apply]

theorem fork_calls (meeting : Meeting) (call : Nat) (launches : Bool) :
    (meeting.fork call launches).calls = meeting.calls := by
  unfold Meeting.fork
  split <;> rfl

theorem fork_name (meeting : Meeting) (call : Nat) (launches : Bool) :
    (meeting.fork call launches).name = meeting.name := by
  unfold Meeting.fork
  split <;> rfl

theorem fork_servers (call : Nat) (launches : Bool) (old : server ≠ meeting.spawned) :
    (meeting.fork call launches).servers server = meeting.servers server := by
  unfold Meeting.fork
  split
  · show (meeting.put _ _).servers server = _
    rw [put_servers, if_neg old]
  · rfl

/-- A process that is found is the new one in its place, or has been there before. -/
theorem put_cases {other : Nat} {found : ServerProcess}
    (there : (meeting.put server process).servers other = some found) :
    other = server ∧ found = process ∨ other ≠ server ∧ meeting.servers other = some found := by
  rw [put_servers] at there
  split at there
  case isTrue same => exact .inl ⟨same, (Option.some.inj there).symm⟩
  case isFalse different => exact .inr ⟨different, there⟩

/-! ## The name -/

/-- The process has the name: by its socket, or by a file that it has made. -/
def Claims (kind : SocketKind) (process : ServerProcess) : Prop :=
  process.stage = .bound ∨ process.stage = .serving ∧ (process.listening ∨ kind = .file)

instance (kind : SocketKind) (process : ServerProcess) : Decidable (Claims kind process) :=
  inferInstanceAs (Decidable (_ ∨ _ ∧ (_ ∨ _)))

/-- Whoever has the name is found under it. -/
def Named (kind : SocketKind) (meeting : Meeting) : Prop :=
  ∀ server process, meeting.servers server = some process → Claims kind process → meeting.name = some server

/-- The handler of a signal removes the file of the socket, which is not to be that of another process that has the
name. -/
def SparesNames (kind : SocketKind) (meeting : Meeting) : MeetingInput → Prop
  | .server server .signal => kind = .file →
      IfAny (fun process => process.stage ≠ .gone →
          IfAny (fun other => other ≠ server → IfAny (¬ Claims kind ·) (meeting.servers other)) meeting.name)
        (meeting.servers server)
  | _ => True

instance (input : MeetingInput) : Decidable (SparesNames kind meeting input) := by
  unfold SparesNames
  split <;> infer_instance

theorem named_new : Named kind .new := nofun

theorem not_claims_ended (process : ServerProcess) : ¬ Claims kind process.ended := by
  rintro (bound | ⟨serving, _⟩) <;> contradiction

/-- The name of another one is not closed. -/
theorem closedName_other {other : Nat} {name : Option Nat} (named : name = some other) (different : other ≠ server) :
    closedName kind server name = some other := by
  cases kind with
  | file => exact named
  | abstractName =>
    rw [closedName, named, if_neg]
    exact fun same => different (Option.some.inj same)

/-- A process changes, and so may the name if those who have it keep it. -/
theorem Named.put {name : Option Nat} (own : Claims kind process → name = some server)
    (others : ∀ other found, other ≠ server → meeting.servers other = some found → Claims kind found →
      name = some other) :
    Named kind { meeting.put server process with name := name } := by
  intro other found there claims
  cases put_cases there with
  | inl new =>
    obtain ⟨rfl, rfl⟩ := new
    exact own claims
  | inr old => exact others other found old.1 old.2 claims

/-- A process ends and removes the file, which no other one has. -/
theorem Named.shutdown (named : Named kind meeting)
    (spared : kind = .file → ∀ other found, other ≠ server → meeting.servers other = some found →
      ¬ Claims kind found) :
    Named kind { meeting.put server process.ended with
      name := closedName kind server (shutdownName kind meeting.name) } := by
  refine .put (fun claims => absurd claims (not_claims_ended process)) fun other found different there claims => ?_
  cases kind with
  | abstractName => exact closedName_other (named other found there claims) different
  | file => exact absurd claims (spared rfl other found different there)

theorem Named.acted (named : Named kind meeting) (here : meeting.servers server = some process) {act : ServerAct}
    {after : ServerProcess} {name : Option Nat}
    (evolves : Evolves kind noTimeout server meeting.now process meeting.name act after name)
    (spares : SparesNames kind meeting (.server server act)) :
    Named kind { meeting.put server after with name := name } := by
  have claims : Claims kind process → meeting.name = some server := named server process here
  have kept (other : Nat) (found : ServerProcess) (_ : other ≠ server) (there : meeting.servers other = some found)
      (claims : Claims kind found) : meeting.name = some other := named other found there claims
  cases evolves with
  | nothing => exact .put claims kept
  | bound starting free =>
    refine .put (fun _ => rfl) fun other found _ there claims => ?_
    exact absurd (free.symm.trans (named other found there claims)) nofun
  | serving bound => exact .put (fun _ => claims (.inl bound)) kept
  | accepted serving listening => exact .put (fun _ => claims (.inr ⟨serving, .inl listening⟩)) kept
  | unwatched | closed | closedLast | inUse => exact .put claims kept
  | idle serving =>
    refine named.shutdown fun isFile other found different there otherClaims => ?_
    have own := claims (.inr ⟨serving, .inr isFile⟩)
    exact different (Option.some.inj ((named other found there otherClaims).symm.trans own))
  | signalled alive =>
    refine named.shutdown fun isFile other found different there otherClaims => ?_
    have spared := spares isFile
    rw [here, named other found there otherClaims] at spared
    have unclaimed := spared alive different
    rw [there] at unclaimed
    exact unclaimed otherClaims
  | gone =>
    refine .put (fun claims => absurd claims (not_claims_ended process)) fun other found different there claims => ?_
    exact closedName_other (named other found there claims) different
  | deaf serving =>
    refine .put (fun after => ?_) fun other found different there claims =>
      closedName_other (named other found there claims) different
    -- only a file keeps the name for a process that does not listen any more
    have isFile : kind = .file := by
      rcases after with bound | ⟨_, listening | isFile⟩
      · exact absurd (serving.symm.trans bound) nofun
      · contradiction
      · exact isFile
    subst isFile
    exact claims (.inr ⟨serving, .inr rfl⟩)

theorem Named.changes (named : Named kind meeting) {input : MeetingInput} {after : Meeting}
    (changes : Changes kind noTimeout meeting input after) (spares : SparesNames kind meeting input) :
    Named kind after := by
  have kept (server other : Nat) (found : ServerProcess) (_ : other ≠ server)
      (there : meeting.servers other = some found) (claims : Claims kind found) : meeting.name = some other :=
    named other found there claims
  cases changes with
  | nothing | tick | opened | again => exact named
  | connected trying name => exact .put (fun _ => name) (kept _)
  | forked trying =>
    unfold Meeting.fork
    split
    · exact .put (fun claims => by rcases claims with bound | ⟨serving, _⟩ <;> contradiction) (kept _)
    · exact named
  | acted here evolves => exact named.acted here evolves spares

/-- The socket of the name belongs to the process. -/
def HasSocket (process : ServerProcess) : Prop :=
  process.stage = .bound ∨ process.stage = .serving ∧ process.listening

def OneServer (meeting : Meeting) : Prop :=
  ∀ first second firstProcess secondProcess, meeting.servers first = some firstProcess →
    meeting.servers second = some secondProcess → HasSocket firstProcess → HasSocket secondProcess → first = second

/-- Two calls, each of which starts a server, and a third one whose server is ended before it has begun. -/
def twoStarts : List MeetingInput :=
  [.open 2, .attempt 2 true, .server 0 .signal, .open 0, .open 1, .attempt 0 true, .attempt 1 true, .server 2 .bind,
    .server 1 .bind, .server 2 (.listen true), .attempt 0 true, .attempt 1 true, .server 2 (.accept true),
    .server 2 .signal]

/-- Every server has been forked by a call of its own, which has tried before. -/
structure Started (meeting : Meeting) : Prop where
  spawned : ∀ server process, meeting.servers server = some process → server < meeting.spawned
  starter : ∀ server process, meeting.servers server = some process →
    ∃ stage, meeting.calls process.starter = some stage ∧ stage ≠ .trying 0
  alone : ∀ first second firstProcess secondProcess, meeting.servers first = some firstProcess →
    meeting.servers second = some secondProcess → firstProcess.starter = secondProcess.starter → first = second

/-- A server that is there already changes, and no call begins anew. -/
theorem Started.change {after : Meeting} (started : Started meeting) (spawned : after.spawned = meeting.spawned)
    (servers : ∀ server process, after.servers server = some process →
      ∃ before, meeting.servers server = some before ∧ before.starter = process.starter)
    (calls : ∀ call stage, meeting.calls call = some stage → stage ≠ .trying 0 →
      ∃ next, after.calls call = some next ∧ next ≠ .trying 0) : Started after where
  spawned server process here := by
    obtain ⟨before, there, _⟩ := servers server process here
    rw [spawned]
    exact started.spawned server before there
  starter server process here := by
    obtain ⟨before, there, same⟩ := servers server process here
    obtain ⟨stage, called, tried⟩ := started.starter server before there
    exact calls process.starter stage (same ▸ called) tried
  alone first second firstProcess secondProcess firstHere secondHere same := by
    obtain ⟨firstBefore, firstThere, firstSame⟩ := servers first firstProcess firstHere
    obtain ⟨secondBefore, secondThere, secondSame⟩ := servers second secondProcess secondHere
    exact started.alone first second firstBefore secondBefore firstThere secondThere
      (firstSame.trans (same.trans secondSame.symm))

theorem Evolves.starter {now : Nat} {act : ServerAct} {after : ServerProcess} {before name : Option Nat}
    (evolves : Evolves kind noTimeout server now process before act after name) : after.starter = process.starter := by
  cases evolves <;> rfl

theorem put_starter (here : meeting.servers server = some process) {after : ServerProcess}
    (same : after.starter = process.starter) (other : Nat) (found : ServerProcess)
    (there : (meeting.put server after).servers other = some found) :
    ∃ before, meeting.servers other = some before ∧ before.starter = found.starter := by
  cases put_cases there with
  | inl new =>
    obtain ⟨rfl, rfl⟩ := new
    exact ⟨process, here, same.symm⟩
  | inr old => exact ⟨found, old.2, rfl⟩

/-- A call goes on. -/
theorem call_tried {call : Nat} {next : CallStage} (goesOn : next ≠ .trying 0) (other : Nat) (stage : CallStage)
    (called : meeting.calls other = some stage) (tried : stage ≠ .trying 0) :
    ∃ after, (meeting.call call next).calls other = some after ∧ after ≠ .trying 0 := by
  rw [call_calls]
  split
  · exact ⟨next, rfl, goesOn⟩
  · exact ⟨stage, called, tried⟩

/-- The call that forks a server has not forked any before. -/
theorem Started.fork (started : Started meeting) {call : Nat} (trying : meeting.calls call = some (.trying 0))
    (launches : Bool) : Started ((meeting.fork call launches).call call (.trying 1)) := by
  have calls := @call_tried meeting call (.trying 1) nofun
  unfold Meeting.fork
  split
  case isFalse => exact started.change rfl (fun server process here => ⟨process, here, rfl⟩) calls
  case isTrue =>
    -- the starter of every other server is past its first round
    have unused (server : Nat) (process : ServerProcess) (here : meeting.servers server = some process) :
        process.starter ≠ call := by
      rintro rfl
      obtain ⟨stage, called, tried⟩ := started.starter server process here
      rw [trying, Option.some.injEq] at called
      exact tried called.symm
    constructor
    · intro server process here
      cases put_cases here with
      | inl new => exact new.1 ▸ Nat.lt_succ_self _
      | inr old => exact Nat.lt_succ_of_lt (started.spawned server process old.2)
    · intro server process here
      cases put_cases here with
      | inl new =>
        rw [new.2]
        exact ⟨.trying 1, Function.update_self .., nofun⟩
      | inr old =>
        obtain ⟨stage, called, tried⟩ := started.starter server process old.2
        exact calls process.starter stage called tried
    · intro first second firstProcess secondProcess firstHere secondHere same
      cases put_cases firstHere with
      | inl firstNew =>
        cases put_cases secondHere with
        | inl secondNew => exact firstNew.1.trans secondNew.1.symm
        | inr secondOld =>
          rw [firstNew.2] at same
          exact absurd same.symm (unused second secondProcess secondOld.2)
      | inr firstOld =>
        cases put_cases secondHere with
        | inl secondNew =>
          rw [secondNew.2] at same
          exact absurd same (unused first firstProcess firstOld.2)
        | inr secondOld =>
          exact started.alone first second firstProcess secondProcess firstOld.2 secondOld.2 same

theorem Started.changes (started : Started meeting) {input : MeetingInput} {after : Meeting}
    (changes : Changes kind noTimeout meeting input after) : Started after := by
  have servers (server : Nat) (process : ServerProcess) (here : meeting.servers server = some process) :
      ∃ before, meeting.servers server = some before ∧ before.starter = process.starter := ⟨process, here, rfl⟩
  have calls (call : Nat) (stage : CallStage) (called : meeting.calls call = some stage) (tried : stage ≠ .trying 0) :
      ∃ next, meeting.calls call = some next ∧ next ≠ .trying 0 := ⟨stage, called, tried⟩
  cases changes with
  | nothing => exact started
  | tick => exact started.change rfl servers calls
  | @opened call fresh =>
    refine started.change rfl servers fun other stage called tried => ?_
    have different : other ≠ call := by
      rintro rfl
      rw [fresh] at called
      contradiction
    exact ⟨stage, by rw [call_calls, if_neg different]; exact called, tried⟩
  | connected trying name here => exact started.change rfl (put_starter here rfl) (call_tried nofun)
  | forked trying => exact started.fork trying _
  | again trying later stage next =>
    refine started.change rfl servers (call_tried ?_)
    rcases next with rfl | rfl <;> exact nofun
  | acted here evolves => exact started.change rfl (put_starter here evolves.starter) calls

/-- The server has been forked in a round of its starter that found nobody listening. -/
def ForkedAlone (kind : SocketKind) (noTimeout : Bool) (inputs : List MeetingInput) (server : Nat)
    (process : ServerProcess) : Prop :=
  ∃ before after, inputs = before ++ .attempt process.starter true :: after ∧
    (run (meetingStep kind noTimeout) .new before).calls process.starter = some (.trying 0) ∧
    (run (meetingStep kind noTimeout) .new before).reachable = none ∧
    (run (meetingStep kind noTimeout) .new before).spawned = server

theorem ForkedAlone.later {inputs : List MeetingInput} {process later : ServerProcess}
    (forked : ForkedAlone kind noTimeout inputs server process) (same : process.starter = later.starter)
    (input : MeetingInput) : ForkedAlone kind noTimeout (inputs ++ [input]) server later := by
  obtain ⟨before, after, split, round⟩ := forked
  exact ⟨before, after ++ [input], by rw [split, ← same]; simp, same ▸ round⟩

/-- By induction on the run from its end: a server that is there has been there before, or the step has forked it. -/
theorem forkedAlone (kind : SocketKind) (noTimeout : Bool) (inputs : List MeetingInput) {server : Nat}
    {process : ServerProcess} (here : (run (meetingStep kind noTimeout) .new inputs).servers server = some process) :
    ForkedAlone kind noTimeout inputs server process := by
  induction inputs using List.reverseRecOn generalizing process with
  | nil => contradiction
  | append_singleton inputs input inductionHypothesis =>
    rw [run_append, run_cons, run_nil] at here
    have changes := meetingStep_changes kind noTimeout (run (meetingStep kind noTimeout) .new inputs) input
    generalize next : meetingStep kind noTimeout _ input = after at here changes
    have old {before : ServerProcess}
        (there : (run (meetingStep kind noTimeout) .new inputs).servers server = some before)
        (same : before.starter = process.starter) : ForkedAlone kind noTimeout (inputs ++ [input]) server process :=
      (inductionHypothesis there).later same input
    cases changes with
    | nothing | tick | opened | again => exact old here rfl
    | connected trying name there =>
      obtain ⟨before, earlier, same⟩ := put_starter there (by rfl) server process here
      exact old earlier same
    | acted there evolves =>
      obtain ⟨before, earlier, same⟩ := put_starter there evolves.starter server process here
      exact old earlier same
    | @forked call launches trying nobody =>
      -- the process is the one that this step has forked, or was there before
      simp only [Meeting.call, Meeting.fork] at here
      split at here
      case isFalse => exact old here rfl
      case isTrue launched =>
        cases put_cases here with
        | inl new =>
          rw [new.1, new.2, launched]
          exact ⟨inputs, [], rfl, trying, nobody, rfl⟩
        | inr before => exact old before.2 rfl

/-- No call of the library starts a second server, and each has been started by one that found nobody listening. -/
theorem one_start (kind : SocketKind) (noTimeout : Bool) (inputs : List MeetingInput) :
    Throughout (meetingStep kind noTimeout) Started .new inputs ∧
      ∀ server process, (run (meetingStep kind noTimeout) .new inputs).servers server = some process →
        ForkedAlone kind noTimeout inputs server process :=
  ⟨.of_kept (fun _ _ started => started.changes (meetingStep_changes ..)) ⟨nofun, nofun, nofun⟩ inputs,
    fun _ _ here => forkedAlone kind noTimeout inputs here⟩

/-! ## What a killed server leaves -/

/-- The name belongs to a process that is gone. -/
def Stale (server : Nat) (meeting : Meeting) : Prop :=
  meeting.name = some server ∧ ∃ process, meeting.servers server = some process ∧ process.stage = .gone

/-- A process that has not bound its socket yet is not sent a signal; its handler would remove the stale file. -/
def SparesStarting (kind : SocketKind) (meeting : Meeting) : MeetingInput → Prop
  | .server server .signal => kind = .file → IfAny (·.stage ≠ .starting) (meeting.servers server)
  | _ => True

instance (input : MeetingInput) : Decidable (SparesStarting kind meeting input) := by
  unfold SparesStarting
  split <;> infer_instance

/-- A process that is there and is not starting has the name itself. -/
theorem Named.sparesNames (named : Named kind meeting) {input : MeetingInput}
    (spares : SparesStarting kind meeting input) : SparesNames kind meeting input := by
  unfold SparesStarting at spares
  split at spares
  case h_2 other =>
    unfold SparesNames
    split
    case h_1 => exact absurd rfl (other _)
    case h_2 => trivial
  case h_1 server =>
    intro isFile
    have started := spares isFile
    cases here : meeting.servers server with
    | none => trivial
    | some process =>
      rw [here] at started
      intro alive
      have claims : Claims kind process := by
        cases stage : process.stage with
        | starting => exact absurd stage started
        | bound => exact .inl stage
        | serving => exact .inr ⟨stage, .inr isFile⟩
        | gone => exact absurd stage alive
      rw [named server process here claims]
      exact fun different => absurd rfl different

/-- From here on nobody else is connected. -/
def NobodyJoins (start meeting : Meeting) : Prop :=
  ∀ call server, meeting.calls call = some (.connected server) → start.calls call = some (.connected server)

/-- Nobody has a claim to the name that is left. -/
theorem Stale.unclaimed (stale : Stale server meeting) (named : Named .file meeting) {other : Nat}
    {found : ServerProcess} (there : meeting.servers other = some found) : ¬ Claims .file found := by
  obtain ⟨name, process, here, gone⟩ := stale
  intro claims
  have same := named other found there claims
  rw [name, Option.some.injEq] at same
  subst same
  rw [here, Option.some.injEq] at there
  subst there
  rcases claims with bound | serving
  · exact absurd (gone.symm.trans bound) nofun
  · exact absurd (gone.symm.trans serving.1) nofun

/-- A process without a claim to the name can only end without a handler, or do nothing. -/
theorem Stale.acted (stale : Stale server meeting) (named : Named .file meeting) {other : Nat}
    {found after : ServerProcess} {act : ServerAct} {name : Option Nat} (there : meeting.servers other = some found)
    (evolves : Evolves .file noTimeout other meeting.now found meeting.name act after name)
    (spares : SparesStarting .file meeting (.server other act)) :
    Stale server { meeting.put other after with name := name } := by
  have unclaimed := stale.unclaimed named there
  have serves (serving : found.stage = .serving) : False := unclaimed (.inr ⟨serving, .inr rfl⟩)
  obtain ⟨ofServer, process, here, gone⟩ := stale
  have rest (same : name = some server) (kept : other = server → after.stage = .gone) :
      Stale server { meeting.put other after with name := name } := by
    refine ⟨same, ?_⟩
    by_cases own : other = server
    · exact ⟨after, (put_servers ..).trans (if_pos own.symm), kept own⟩
    · exact ⟨process, ((put_servers ..).trans (if_neg (Ne.symm own))).trans here, gone⟩
  have foundGone (own : other = server) : found.stage = .gone := by
    rw [own, here, Option.some.injEq] at there
    exact there ▸ gone
  cases evolves with
  | nothing => exact rest ofServer foundGone
  | bound starting free =>
    rw [ofServer] at free
    contradiction
  | serving bound => exact absurd (.inl bound) unclaimed
  | accepted serving | unwatched serving | closed serving | closedLast serving | inUse serving | idle serving
  | deaf serving => exact (serves serving).elim
  | gone act alive => exact rest ofServer fun own => absurd (foundGone own) alive
  | signalled alive =>
    -- a signal would take the name away, but one that is alive and has no claim is still starting
    cases stage : found.stage with
    | starting =>
      have spared := spares rfl
      rw [there] at spared
      exact absurd stage spared
    | bound => exact absurd (.inl stage) unclaimed
    | serving => exact (serves stage).elim
    | gone => exact absurd stage alive

theorem Stale.changes (stale : Stale server meeting) (named : Named .file meeting) (started : Started meeting)
    {start : Meeting} (nobody : NobodyJoins start meeting) {input : MeetingInput} {after : Meeting}
    (changes : Changes .file noTimeout meeting input after) (spares : SparesStarting .file meeting input) :
    Stale server after ∧ NobodyJoins start after := by
  have stays {after : Meeting} {call : Nat} {stage : CallStage} (calls : after.calls = (meeting.call call stage).calls)
      (next : ∀ server, stage ≠ .connected server) : NobodyJoins start after := by
    intro other found there
    rw [calls, call_calls] at there
    split at there
    · exact absurd (Option.some.inj there) (next found)
    · exact nobody other found there
  cases changes with
  | nothing | tick => exact ⟨stale, nobody⟩
  | opened => exact ⟨stale, stays rfl nofun⟩
  | connected trying _ there serving listening =>
    exact absurd (.inr ⟨serving, .inl listening⟩) (stale.unclaimed named there)
  | @forked call launches trying =>
    obtain ⟨name, process, here, gone⟩ := stale
    have old : server ≠ meeting.spawned := (started.spawned server process here).ne
    refine ⟨⟨(fork_name meeting call launches).trans name, process, ?_, gone⟩, @stays _ call (.trying 1) ?_ nofun⟩
    · exact (fork_servers call launches old).trans here
    · rw [Meeting.call, Meeting.call, fork_calls]
  | again trying later stage next =>
    refine ⟨stale, stays rfl ?_⟩
    rcases next with rfl | rfl <;> exact nofun
  | acted there evolves => exact ⟨stale.acted named there evolves spares, nobody⟩

/-- Where the socket is a file and no server is sent a signal while it starts, one that has been killed keeps its name
for ever, and no later call is ever connected. -/
theorem stale_forever (noTimeout : Bool) (before after : List MeetingInput) {server : Nat}
    (spares : Guarded (meetingStep .file noTimeout) (SparesStarting .file) .new (before ++ after))
    (stale : Stale server (run (meetingStep .file noTimeout) .new before)) :
    Throughout (meetingStep .file noTimeout)
      (fun meeting => Stale server meeting ∧ NobodyJoins (run (meetingStep .file noTimeout) .new before) meeting)
      (run (meetingStep .file noTimeout) .new before) after := by
  obtain ⟨sparesBefore, sparesAfter⟩ := guarded_append.mp spares
  have named : Named .file (run (meetingStep .file noTimeout) .new before) :=
    (Throughout.of_guarded
      (fun _ _ named spares => named.changes (meetingStep_changes ..) (named.sparesNames spares)) named_new
      sparesBefore).last
  have started := (one_start .file noTimeout before).1.last
  have throughout : Throughout (meetingStep .file noTimeout) (fun meeting => (Named .file meeting ∧ Started meeting) ∧
      Stale server meeting ∧ NobodyJoins (run (meetingStep .file noTimeout) .new before) meeting)
      (run (meetingStep .file noTimeout) .new before) after := by
    refine .of_guarded (fun meeting input known spares => ?_)
      ⟨⟨named, started⟩, stale, fun _ _ same => same⟩ sparesAfter
    have changes := meetingStep_changes .file noTimeout meeting input
    obtain ⟨⟨named, started⟩, stale, nobody⟩ := known
    exact ⟨⟨named.changes changes (named.sparesNames spares), started.changes changes⟩,
      stale.changes named started nobody changes spares⟩
  exact throughout.imp fun _ known => known.2

/-- A server is killed while it serves a client, and another client comes. -/
def killed : List MeetingInput :=
  [.open 0, .attempt 0 true, .server 0 .bind, .server 0 (.listen true), .attempt 0 true, .server 0 .kill]

def comesLater : List MeetingInput := [.open 1, .attempt 1 true, .server 1 .bind, .attempt 1 true]

theorem killed_staysStale :
    Stale 0 (run (meetingStep .file false) .new (killed ++ comesLater)) := by
  have stale := @stale_forever false killed comesLater 0 (by decide) ⟨rfl, _, rfl, rfl⟩
  rw [run_append]
  exact stale.last.1

end Gamin.Rendezvous
