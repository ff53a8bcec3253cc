import Gamin.Library.Runs
import Gamin.Rendezvous.Names
import Mathlib.Data.List.Basic
import Mathlib.Logic.Function.Basic

/-! # How a server is started and how it ends

Whoever opens a connection and finds nobody listening starts a server and tries again (`gam_api.c`, `gam_fork.c`).
A server that gets the name of the socket serves until it has been without a connection for half a minute
(`gam_server.c`, `gam_connection.c`).  All this goes on at once: each input is one step of one process.  Nobody from
outside touches the socket file here, and it passes the check of the path.
-/

namespace Gamin.Rendezvous

open Gamin Gamin.Library

/-! ## The processes -/

/-- Where a call of `gamin_connect_unix_socket` is, with the retries that it counts. -/
inductive CallStage where
  | trying (retries : Nat)
  | connected (server : Nat)
  | failed
  deriving DecidableEq, Repr

/-- `gam_server_init` binds the socket and listens on it; a process that cannot exits. -/
inductive ServerStage where
  | starting
  | bound
  | serving
  | gone
  deriving DecidableEq, Repr

/-- A server.  `starter` is the call that has forked it; `listening` tells that its socket is open, `watched` that the
main loop still looks at it.  The clients in `backlog` have not been accepted yet, and those in `gamConnList` have.
`serverTimeout` is when `server_timeout_id` expires, and `idleSince` since when there has been no connection. -/
structure ServerProcess where
  starter : Nat
  stage : ServerStage
  listening : Bool
  watched : Bool
  backlog : List Nat
  gamConnList : List Nat
  serverTimeout : Option Nat
  idleSince : Nat
  deriving DecidableEq, Repr

/-- Everything that goes on around one name; `starter` and `idleSince` of a server are not there in the source.
`spawned` is the number of the next server. -/
structure Meeting where
  now : Nat
  name : Option Nat
  calls : Nat → Option CallStage
  servers : Nat → Option ServerProcess
  spawned : Nat

def maxRetries : Nat := 25

/-- `MAX_IDLE_TIMEOUT_MSEC`. -/
def maxIdleTimeoutMsec : Nat := 30 * 1000

def Meeting.new : Meeting where
  now := 0
  name := none
  calls := fun _ => none
  servers := fun _ => none
  spawned := 0

def Meeting.put (meeting : Meeting) (server : Nat) (process : ServerProcess) : Meeting :=
  { meeting with servers := Function.update meeting.servers server (some process) }

def Meeting.call (meeting : Meeting) (call : Nat) (stage : CallStage) : Meeting :=
  { meeting with calls := Function.update meeting.calls call (some stage) }

/-! ## The calls -/

/-- `connect` finds somebody listening under the name. -/
def Meeting.reachable (meeting : Meeting) : Option (Nat × ServerProcess) :=
  meeting.name.bind fun server => (meeting.servers server).bind fun process =>
    if process.stage = .serving ∧ process.listening then some (server, process) else none

/-- `gamin_fork_server`, if the server program can be executed. -/
def Meeting.fork (meeting : Meeting) (call : Nat) (launches : Bool) : Meeting :=
  if launches then
    { meeting.put meeting.spawned
        { starter := call, stage := .starting, listening := false, watched := false, backlog := [],
          gamConnList := [], serverTimeout := none, idleSince := meeting.now } with
      spawned := meeting.spawned + 1 }
  else meeting

/-- One round of `gamin_connect_unix_socket`. -/
def Meeting.attempt (meeting : Meeting) (call : Nat) (launches : Bool) : Meeting :=
  match meeting.calls call with
  | some (.trying retries) =>
    match meeting.reachable with
    | some (server, process) =>
      (meeting.put server { process with backlog := process.backlog ++ [call] }).call call (.connected server)
    | none =>
      if retries = 0 then (meeting.fork call launches).call call (.trying 1)
      else if retries < maxRetries then meeting.call call (.trying (retries + 1))
      else meeting.call call .failed
  | _ => meeting

/-! ## The servers -/

section

variable (kind : SocketKind) (noTimeout : Bool)

/-- The kernel gives an abstract name free when the socket is closed; a file stays. -/
def closedName (server : Nat) (name : Option Nat) : Option Nat :=
  match kind with
  | .abstractName => if name = some server then none else name
  | .file => name

/-- `gam_conn_shutdown` removes the file, whosoever it is. -/
def shutdownName (name : Option Nat) : Option Nat :=
  match kind with
  | .abstractName => name
  | .file => none

/-- What is left of a process, whose connections end with it. -/
def ServerProcess.ended (process : ServerProcess) : ServerProcess :=
  { process with
    stage := .gone, listening := false, watched := false, backlog := [], gamConnList := [], serverTimeout := none }

def Meeting.exit (meeting : Meeting) (server : Nat) (process : ServerProcess) : Meeting :=
  { meeting.put server process.ended with name := closedName kind server meeting.name }

/-- `gam_shutdown` and `exit`. -/
def Meeting.shutdown (meeting : Meeting) (server : Nat) (process : ServerProcess) : Meeting :=
  { meeting.put server process.ended with name := closedName kind server (shutdownName kind meeting.name) }

/-- When `gam_schedule_server_timeout` makes the timer expire, if the server uses one. -/
def scheduledTimeout (now : Nat) : Option Nat := if noTimeout then none else some (now + maxIdleTimeoutMsec)

/-- The first half of `gam_listen_unix_socket`. -/
def Meeting.bind (meeting : Meeting) (server : Nat) (process : ServerProcess) : Meeting :=
  match process.stage with
  | .starting =>
    match meeting.name with
    | none => { meeting.put server { process with stage := .bound } with name := some server }
    | some _ => meeting.exit kind server process
  | _ => meeting

/-- The second half, and the rest of `gam_server_init`. -/
def Meeting.listen (meeting : Meeting) (server : Nat) (process : ServerProcess) (works : Bool) : Meeting :=
  match process.stage with
  | .bound =>
    if works then
      meeting.put server { process with
        stage := .serving, listening := true, watched := true,
        serverTimeout := scheduledTimeout noTimeout meeting.now, idleSince := meeting.now }
    else meeting.exit kind server process
  | _ => meeting

/-- `gam_incoming_conn_read`; the main loop does not call it again after a failure. -/
def Meeting.accept (meeting : Meeting) (server : Nat) (process : ServerProcess) (works : Bool) : Meeting :=
  if process.stage = .serving ∧ process.listening ∧ process.watched then
    match process.backlog with
    | [] => meeting
    | call :: backlog =>
      if works then
        meeting.put server { process with
          backlog := backlog, gamConnList := call :: process.gamConnList, serverTimeout := none }
      else meeting.put server { process with watched := false }
  else meeting

/-- `gam_connection_close`. -/
def Meeting.close (meeting : Meeting) (server : Nat) (process : ServerProcess) (call : Nat) : Meeting :=
  if process.stage = .serving ∧ call ∈ process.gamConnList then
    let gamConnList := process.gamConnList.erase call
    if gamConnList = [] then
      meeting.put server { process with
        gamConnList := [], idleSince := meeting.now
        serverTimeout := if noTimeout then process.serverTimeout else some (meeting.now + maxIdleTimeoutMsec) }
    else meeting.put server { process with gamConnList := gamConnList }
  else meeting

/-- `gam_connections_check`. -/
def Meeting.connectionsCheck (meeting : Meeting) (server : Nat) (process : ServerProcess) : Meeting :=
  match process.serverTimeout with
  | some expires =>
    if process.stage = .serving ∧ expires ≤ meeting.now then
      if process.gamConnList = [] then meeting.shutdown kind server process
      else meeting.put server { process with serverTimeout := none }
    else meeting
  | none => meeting

/-- `gam_exit`, the handler of SIGTERM and others, which is installed from the start. -/
def Meeting.gamExit (meeting : Meeting) (server : Nat) (process : ServerProcess) : Meeting :=
  if process.stage = .gone then meeting else meeting.shutdown kind server process

/-- `gam_conn_error` on the socket that the server listens on. -/
def Meeting.connError (meeting : Meeting) (server : Nat) (process : ServerProcess) : Meeting :=
  if process.stage = .serving then
    { meeting.put server { process with listening := false, backlog := [] } with
      name := closedName kind server meeting.name }
  else meeting

/-- What a server process does, or what is done to it; `kill` is an end without any handler. -/
inductive ServerAct where
  | bind
  | listen (works : Bool)
  | accept (works : Bool)
  | close (call : Nat)
  | timeout
  | signal
  | kill
  | connError
  deriving DecidableEq, Repr

def Meeting.act (meeting : Meeting) (server : Nat) (process : ServerProcess) : ServerAct → Meeting
  | .bind => meeting.bind kind server process
  | .listen works => meeting.listen kind noTimeout server process works
  | .accept works => meeting.accept server process works
  | .close call => meeting.close noTimeout server process call
  | .timeout => meeting.connectionsCheck kind server process
  | .signal => meeting.gamExit kind server process
  | .kill => if process.stage = .gone then meeting else meeting.exit kind server process
  | .connError => meeting.connError kind server process

/-! ## Runs -/

/-- The clock goes on, a call begins, a call takes a round, or a server acts. -/
inductive MeetingInput where
  | tick
  | open (call : Nat)
  | attempt (call : Nat) (launches : Bool)
  | server (server : Nat) (act : ServerAct)
  deriving DecidableEq, Repr

def meetingStep (meeting : Meeting) : MeetingInput → Meeting
  | .tick => { meeting with now := meeting.now + 1 }
  | .open call => if meeting.calls call = none then meeting.call call (.trying 0) else meeting
  | .attempt call launches => meeting.attempt call launches
  | .server server act =>
    match meeting.servers server with
    | none => meeting
    | some process => meeting.act kind noTimeout server process act

end

end Gamin.Rendezvous
