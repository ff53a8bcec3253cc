import Gamin.Polling.Scanning
import Gamin.Server.Attachment
import Gamin.Server.Daemon
import Gamin.Server.Ownership
import Gamin.Server.Reassembly

/-! # What clients can send

The server with the connections of its clients, byte by byte.  A read decodes the requests in the
buffer and serves them; if it fails, the connection is closed and its subscriptions are freed.  There
is no server any more once an assertion has failed, or a search goes on for ever.
-/

namespace Gamin.Server

open Gamin Gamin.Library

/-! ## The server with its connections -/

section

variable (hooks : Hooks) (excluded : Bytes → Bool)

/-- A cancel request that finds its subscription: what it leaves of the server.  `gam_send_ack`
asserts that the path is not empty. -/
def GamServer.acknowledge (server : GamServer) (client : Nat) (reqno : Nat) : Option (Option GamServer) :=
  (server.listeners client).bind fun subs =>
    (gamListenerGetSubscriptionByReqno subs reqno).map fun sub =>
      (server.free hooks excluded client (gamListenerRemoveSubscription subs sub) sub).bind fun server =>
        if sub.path = [] then none else some server

/-- A cancel request is acknowledged, or the connection is closed. -/
theorem GamServer.cancel_eq (server : GamServer) (client reqno : Nat) :
    server.cancel hooks excluded client reqno =
      (server.acknowledge hooks excluded client reqno).getD (server.hangup hooks excluded client) := by
  unfold GamServer.cancel GamServer.acknowledge GamServer.hangup
  cases server.listeners client with
  | none => rfl
  | some subs =>
    simp only [Option.bind_some]
    cases gamListenerGetSubscriptionByReqno subs reqno <;> rfl

/-- The cases of `gam_connection_request`; `around` is the surroundings of a new subscription by its
address. -/
def requestHandlers (client : Nat) (around : Pointer → Surroundings) : RequestHandlers (Option GamServer) where
  addSubscription := fun server path reqno isDir options =>
    server.bind fun server =>
      server.monitor hooks excluded client path reqno isDir options (around server.created)
  cancelSubscription := fun server reqno =>
    match server with
    | none => some none
    | some server => server.acknowledge hooks excluded client reqno
  debugRequest := fun server _ _ => server

/-- The connection with another server behind it. -/
def GamConnData.withServer {First Second : Type*} (conn : GamConnData First) (server : Second) :
    GamConnData Second where
  state := conn.state
  requestLen := conn.requestLen
  request := conn.request
  requests := conn.requests
  server := server

/-- What is left of the server, and the connections. -/
structure GamDaemon where
  server : Option GamServer
  conns : Nat → GamConnData Unit

def gamDaemonNew (views : Nat → Polling.FsView) (mounts : Mounts) : GamDaemon where
  server := some (gamServerNew views mounts)
  conns := fun _ => { gamConnectionNew () with state := .closed }

/-- A client whose credentials have been checked. -/
def GamDaemon.connect (daemon : GamDaemon) (client : Nat) : GamDaemon :=
  match (daemon.conns client).state with
  | .okay => daemon
  | _ =>
    { server := daemon.server.map (·.connect client)
      conns := Function.update daemon.conns client (gamConnectionNew ()) }

/-- `read` hands over no more than it is asked for. -/
def readChunk (conn : GamConnData Unit) (bytes : Bytes) : Bytes :=
  bytes.take (gamConnectionGetDataSize conn).toNat

/-- The connection after `gam_client_conn_read`, before it is closed if that is due. -/
def GamDaemon.served (variant : BuildVariant) (daemon : GamDaemon) (client : Nat) (bytes : Bytes)
    (around : Pointer → Surroundings) : GamConnData (Option GamServer) :=
  gamClientConnRead variant (requestHandlers hooks excluded client around)
    ((daemon.conns client).withServer daemon.server) (readChunk (daemon.conns client) bytes)

/-- `gam_client_conn_read` when so many bytes have arrived. -/
def GamDaemon.read (variant : BuildVariant) (daemon : GamDaemon) (client : Nat) (bytes : Bytes)
    (around : Pointer → Surroundings) : GamDaemon :=
  match (daemon.conns client).state with
  | .okay =>
    let conn := daemon.served hooks excluded variant client bytes around
    { server := if conn.state = .okay then conn.server else conn.server.bind (·.hangup hooks excluded client)
      conns := Function.update daemon.conns client (conn.withServer ()) }
  | _ => daemon

inductive DaemonInput where
  | connect (client : Nat)
  | read (client : Nat) (bytes : Bytes) (around : Pointer → Surroundings)
  | background (event : Background)

/-- One step.  There is no state after an event of a backend that does not come back. -/
def daemonStep (variant : BuildVariant) (daemon : GamDaemon) : DaemonInput → Option GamDaemon
  | .connect client => some (daemon.connect client)
  | .read client bytes around => some (daemon.read hooks excluded variant client bytes around)
  | .background event =>
    match daemon.server with
    | none => some daemon
    | some server => (server.background hooks event).map fun server => { daemon with server := some server }

end

/-! ## The other clients -/

section

variable {hooks : Hooks} {excluded : Bytes → Bool} {server after : GamServer} {client other : Nat}

/-- Only the list of the client changes in what is left of the server. -/
def ListsElsewhere (listeners : Nat → Option (List GamSubscription)) (client : Nat) (left : Option GamServer) :
    Prop :=
  ∀ after ∈ left, ∀ other, other ≠ client → after.listeners other = listeners other

theorem listsElsewhere_monitor (path : Bytes) (reqno : Nat) (isDir : Bool) (options : Nat) (around : Surroundings) :
    ListsElsewhere server.listeners client
      (server.monitor hooks excluded client path reqno isDir options around) := by
  intro after served other different
  unfold GamServer.monitor at served
  split at served
  · cases served
    rfl
  · obtain ⟨_, _, rfl⟩ := Option.map_eq_some_iff.mp served
    exact Function.update_of_ne different _ _

theorem listsElsewhere_free (subs : List GamSubscription) (sub : GamSubscription) :
    ListsElsewhere server.listeners client (server.free hooks excluded client subs sub) := by
  intro after freed other different
  obtain ⟨_, _, rfl⟩ := Option.map_eq_some_iff.mp freed
  exact Function.update_of_ne different _ _

theorem listsElsewhere_close (subs : List GamSubscription) (server : GamServer) :
    ListsElsewhere server.listeners client (GamServer.close hooks excluded client subs server) := by
  intro after closed other different
  induction subs generalizing server with
  | nil =>
    cases closed
    exact Function.update_of_ne different _ _
  | cons sub subs inductionHypothesis =>
    obtain ⟨next, freed, rest⟩ := Option.bind_eq_some_iff.mp closed
    rw [inductionHypothesis next rest, listsElsewhere_free subs sub next freed other different]

theorem listsElsewhere_hangup : ListsElsewhere server.listeners client (server.hangup hooks excluded client) := by
  intro after gone other different
  unfold GamServer.hangup at gone
  split at gone
  · cases gone
    rfl
  · exact listsElsewhere_close _ server after gone other different

theorem listsElsewhere_acknowledge {reqno : Nat} {left : Option GamServer}
    (found : server.acknowledge hooks excluded client reqno = some left) :
    ListsElsewhere server.listeners client left := by
  intro after isLeft other different
  obtain ⟨subs, _, rest⟩ := Option.bind_eq_some_iff.mp found
  obtain ⟨sub, _, rfl⟩ := Option.map_eq_some_iff.mp rest
  obtain ⟨next, freed, last⟩ := Option.bind_eq_some_iff.mp isLeft
  split at last
  · contradiction
  · cases last
    exact listsElsewhere_free _ sub after freed other different

/-- Nothing happens any more when the server is gone. -/
theorem serveRequest_none (around : Pointer → Surroundings) (packet : GAMPacket) :
    (serveRequest (requestHandlers hooks excluded client around) none packet).1 = none := by
  simp only [serveRequest, requestHandlers, Option.bind_none]
  repeat' split
  all_goals rfl

/-- What a request does to the server: nothing, or it is a monitor request, or a cancel request that
finds its subscription. -/
theorem serveRequest_effect (server : GamServer) (around : Pointer → Surroundings) (packet : GAMPacket) :
    let left := (serveRequest (requestHandlers hooks excluded client around) (some server) packet).1
    left = some server ∨
      packet.path.length < maxPathLen ∧
        ((packet.type &&& 0xF = gamReqFile ∨ packet.type &&& 0xF = gamReqDir) ∧
            left = server.monitor hooks excluded client (packet.path.takeWhile (· ≠ 0)) packet.seq
              (packet.type &&& 0xF = gamReqDir) (packet.type &&& 0xFFF0) (around server.created) ∨
          packet.type &&& 0xF = gamReqCancel ∧
            server.acknowledge hooks excluded client packet.seq = some left) := by
  simp only [serveRequest, requestHandlers, Option.bind_some]
  by_cases long : packet.path.length ≥ maxPathLen
  · exact .inl (by rw [if_pos long])
  rw [if_neg long]
  by_cases monitor : packet.type &&& 0xF = gamReqFile ∨ packet.type &&& 0xF = gamReqDir
  · rw [if_pos monitor]
    exact .inr ⟨Nat.lt_of_not_ge long, .inl ⟨monitor, rfl⟩⟩
  rw [if_neg monitor]
  by_cases cancel : packet.type &&& 0xF = gamReqCancel
  · rw [if_pos cancel]
    cases found : server.acknowledge hooks excluded client packet.seq with
    | none => exact .inl rfl
    | some left => exact .inr ⟨Nat.lt_of_not_ge long, .inr ⟨cancel, rfl⟩⟩
  · rw [if_neg cancel]
    split <;> exact .inl rfl

/-- A request only changes the list of its client. -/
theorem listsElsewhere_request {listeners : Nat → Option (List GamSubscription)}
    {around : Pointer → Surroundings} {state : List GAMPacket × Option GamServer} (packet : GAMPacket)
    (elsewhere : ListsElsewhere listeners client state.2) :
    ListsElsewhere listeners client
      (consumeRequest (requestHandlers hooks excluded client around) state packet).1.2 := by
  obtain ⟨requests, left⟩ := state
  simp only [consumeRequest]
  cases left with
  | none =>
    rw [serveRequest_none]
    exact fun after impossible => by contradiction
  | some server =>
    have effect := @serveRequest_effect hooks excluded client server around packet
    generalize (serveRequest (requestHandlers hooks excluded client around) (some server) packet).1 = next
      at effect ⊢
    have step : ListsElsewhere server.listeners client next := by
      rcases effect with rfl | ⟨_, ⟨_, rfl⟩ | ⟨_, found⟩⟩
      · rintro after ⟨⟩ other different
        rfl
      · exact listsElsewhere_monitor _ _ _ _ _
      · exact listsElsewhere_acknowledge found
    intro after isNext other different
    rw [step after isNext other different, elsewhere server rfl other different]

end

/-! ## A server that stands -/

/-- Nothing that has been freed is on a list of a client, or referred to by a backend, or freed again.
So it makes no difference that memory is given out again. -/
structure Unfreed (server : GamServer) : Prop where
  listed : ∀ client sub, ListedIn server.listeners client sub → .freed sub.address ∉ server.log
  referred : ∀ sub place, (server.registries []).Refers sub place → .freed sub.address ∉ server.log
  once : ∀ address, server.log.count (.freed address) ≤ 1

section

variable (hooks : Hooks) (excluded : Bytes → Bool)

/-- No request has brought the server down, nobody has freed memory under it, and whatever a client
sends next, the others keep their connections and their subscriptions. -/
def Withstands (variant : BuildVariant) (daemon : GamDaemon) : Prop :=
  ∃ server, daemon.server = some server ∧ Unfreed server ∧
    ∀ client bytes around other, other ≠ client →
      (daemon.read hooks excluded variant client bytes around).conns other = daemon.conns other ∧
        ∀ after ∈ (daemon.read hooks excluded variant client bytes around).server,
          after.listeners other = server.listeners other

/-- The registry of the hook that is asked to remove the subscription. -/
def remover (server : GamServer) (sub : GamSubscription) : Option Registry :=
  hooks.registry (hookFor hooks excluded server.mounts sub.path)

/-- If the removal of a subscription frees it, its registry is the one that it was registered with.
If polling is asked, it is the only one to free it, and basic polling finds no children at a file that
nobody else has subscribed to. -/
def RemovalSafe (server : GamServer) (sub : GamSubscription) : Prop :=
  (remover hooks excluded server sub = some .poll ∨
      callerFrees hooks excluded (mountsAfter excluded server.mounts sub.path) sub.path = true →
    ∀ first ∈ server.hooksOf sub, remover hooks excluded server sub = hooks.registry first) ∧
  (remover hooks excluded server sub = some .poll →
    callerFrees hooks excluded (mountsAfter excluded server.mounts sub.path) sub.path = false ∧
      (hooks.poll = some .basic → ∀ node ∈ Polling.gamTreeGetAtPath server.poll sub.path,
        node.isDir = true ∨ Polling.Shared node sub ∨ Polling.gamTreeHasChildren server.poll sub.path = false))

instance (server : GamServer) (sub : GamSubscription) : Decidable (RemovalSafe hooks excluded server sub) :=
  inferInstanceAs (Decidable ((_ ∨ _ → ∀ first ∈ server.hooksOf sub, _) ∧
    (_ → _ ∧ (_ → ∀ node ∈ Polling.gamTreeGetAtPath server.poll sub.path, _ ∨ _ ∨ _))))

/-- So it is for every subscription of a listener that is freed, one after the other. -/
def SafeClose (client : Nat) : List GamSubscription → GamServer → Prop
  | [], _ => True
  | sub :: subs, server =>
    RemovalSafe hooks excluded server sub ∧
      ∀ after ∈ server.free hooks excluded client subs sub, SafeClose client subs after

/-- A monitor request meets a hook that comes back, and a cancel request finds a subscription that can
be removed and has a path to be acknowledged with. -/
def RequestSafe (client : Nat) (around : Pointer → Surroundings) (state : List GAMPacket × Option GamServer)
    (packet : GAMPacket) : Prop :=
  packet.path.length < maxPathLen → ∀ server ∈ state.2, ∀ subs ∈ server.listeners client,
    (packet.type &&& 0xF = gamReqFile ∨ packet.type &&& 0xF = gamReqDir →
      let sub := gamSubscriptionNew server.created (packet.path.takeWhile (· ≠ 0)) requestedEvents packet.seq
        (packet.type &&& 0xF = gamReqDir) (packet.type &&& 0xFFF0)
      AddReturns hooks (around server.created) (server.registries subs) sub
        (hookFor hooks excluded server.mounts sub.path)) ∧
    (packet.type &&& 0xF = gamReqCancel → ∀ sub ∈ gamListenerGetSubscriptionByReqno subs packet.seq,
      sub.path ≠ [] ∧ RemovalSafe hooks excluded server sub)

instance (client : Nat) (around : Pointer → Surroundings) (state : List GAMPacket × Option GamServer)
    (packet : GAMPacket) : Decidable (RequestSafe hooks excluded client around state packet) :=
  inferInstanceAs (Decidable (_ < _ → ∀ server ∈ state.2, ∀ subs ∈ server.listeners client,
    (_ ∨ _ → AddReturns hooks (around server.created) (server.registries subs) _ _) ∧
      (_ = _ → ∀ sub ∈ gamListenerGetSubscriptionByReqno subs packet.seq,
        _ ≠ _ ∧ RemovalSafe hooks excluded server sub)))

/-- The condition on a step: all requests of a read are safe, and so is closing the connection, if the
read ends with it. -/
def IntakeGuard (variant : BuildVariant) (daemon : GamDaemon) : DaemonInput → Prop
  | .read client bytes around =>
    (daemon.conns client).state = .okay →
      requestFraming.DrainGuarded (consumeRequest (requestHandlers hooks excluded client around))
          (RequestSafe hooks excluded client around) ((daemon.conns client).requests, daemon.server)
          (window (daemon.conns client).request 0 (daemon.conns client).requestLen ++
            readChunk (daemon.conns client) bytes) ∧
        ((daemon.served hooks excluded variant client bytes around).state ≠ .okay →
          ∀ server ∈ (daemon.served hooks excluded variant client bytes around).server,
            ∀ subs ∈ server.listeners client, SafeClose hooks excluded client subs server)
  | _ => True

end

end Gamin.Server
