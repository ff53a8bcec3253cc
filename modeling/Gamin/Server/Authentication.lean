import Gamin.Server.Reassembly

/-! # The authentication of a client

The callback on the socket of a client (`gam_client_conn_read`) from the moment it is accepted: the
check of the credentials, which is the first thing done on a connection, and the reads after it.  The
channel keeps a log of the checks made and of the data handed to `gam_connection_data`.

Data may be processed only behind a check in which a NUL byte was received, the peer was the server's
user and the server's own byte was sent.  The code comes short of that in three places: it does not
ask whether `recvmsg` has delivered a byte, it takes the -1 of `gam_client_conn_send_cred` for true,
and a socket option that cannot be set leaves the connection open.
-/

namespace Gamin.Server

open Gamin Gamin.Library

/-! ## The system calls -/

/-- One answer of a system call. -/
inductive Answer (Value : Type) where
  | value (value : Value)
  | interrupted
  | failed

/-- A call that is made again when a signal interrupts it.  There is no answer when it never comes
back, and no value when it has failed. -/
def retry {Value : Type} : List (Answer Value) → Option (Option Value)
  | [] => none
  | .value value :: _ => some (some value)
  | .interrupted :: answers => retry answers
  | .failed :: _ => some none

/-- `struct ucred`, as far as it is looked at. -/
structure Ucred where
  pid : Int
  uid : Nat
  deriving DecidableEq

/-- What `recvmsg` delivers: at most one byte, and the credentials if the control message is a whole
`SCM_CREDS`. -/
structure Message where
  byte : Option UInt8
  cmsg : Option Ucred

/-- `LOCAL_CREDS`, `HAVE_CMSGCRED` and `SO_PEERCRED`. -/
structure CredentialBuild where
  localCreds : Bool
  cmsgcred : Bool
  soPeercred : Bool

/-- What the system calls of one check of the credentials answer.  `buf` is what the byte on the
stack was before, `getsockopt` gives nothing when it fails or when the length is not right. -/
structure CredentialCalls where
  setsockopt : Bool
  buf : UInt8
  recvmsg : List (Answer Message)
  getsockopt : Option Ucred
  write : List (Answer Nat)

/-- The byte that is compared with NUL. -/
def CredentialCalls.credentialsByte (calls : CredentialCalls) (message : Message) : UInt8 :=
  message.byte.getD calls.buf

/-- The credentials of the peer. -/
def CredentialBuild.peer (build : CredentialBuild) (calls : CredentialCalls) (message : Message) :
    Option Ucred :=
  if build.soPeercred then calls.getsockopt
  else if build.cmsgcred then message.cmsg
  else none

/-- `GIOCondition`, as far as the watch asks for it. -/
structure IOCondition where
  input : Bool
  hup : Bool
  nval : Bool
  err : Bool
  deriving DecidableEq

/-- One of the error conditions and nothing else. -/
def IOCondition.OnlyError (condition : IOCondition) : Prop :=
  condition = ⟨false, true, false, false⟩ ∨ condition = ⟨false, false, true, false⟩ ∨
    condition = ⟨false, false, false, true⟩

instance (condition : IOCondition) : Decidable condition.OnlyError :=
  inferInstanceAs (Decidable (_ ∨ _ ∨ _))

/-- One callback of the socket, with what the calls made in it answer. -/
structure Readiness where
  condition : IOCondition
  calls : CredentialCalls
  read : List (Answer Bytes)

/-! ## The channel -/

/-- A check, with the byte received, the user of the peer and the result of sending the server's own
byte as far as it came to them; or data handed to `gam_connection_data`. -/
inductive GateEvent where
  | checked (received : Option UInt8) (uid : Option Nat) (sent : Option Int)
  | data (chunk : Bytes)

/-- A connection, whether it is on `gamConnList`, and whether its callback is still installed. -/
structure ClientChannel (Server : Type*) where
  conn : GamConnData Server
  pid : Int
  registered : Bool
  watched : Bool
  log : List GateEvent

variable {Server : Type*}

/-- `gam_incoming_conn_read` with `gam_connection_new`. -/
def gamIncomingConnRead (server : Server) : ClientChannel Server where
  conn := { gamConnectionNew server with state := .auth }
  pid := 0
  registered := true
  watched := true
  log := []

def ClientChannel.note (channel : ClientChannel Server) (event : GateEvent) : ClientChannel Server :=
  { channel with log := channel.log ++ [event] }

/-- `gam_client_conn_shutdown`, and `gam_conn_error` on a client. -/
def gamClientConnShutdown (channel : ClientChannel Server) : ClientChannel Server :=
  if channel.registered then
    { channel with conn := { channel.conn with state := .closed }, registered := false }
  else channel

/-- `gam_connection_set_pid`.  `gam_listener_new` asserts that there is a process id. -/
def gamConnectionSetPid (channel : ClientChannel Server) (pid : Int) : Option (Int × ClientChannel Server) :=
  if channel.conn.state ≠ .auth then
    some (-1, { channel with conn := { channel.conn with state := .error } })
  else if pid = 0 then none
  else some (0, { channel with conn := { channel.conn with state := .okay }, pid := pid })

/-- `gam_client_conn_send_cred`. -/
def gamClientConnSendCred (write : List (Answer Nat)) : Option Int :=
  (retry write).map fun
    | none => -1
    | some written => if written ≠ 1 then -1 else written

section

variable (build : CredentialBuild) (serverUid : Nat)

/-- The `failed` exit of `gam_client_conn_check_cred`. -/
def checkFailed (channel : ClientChannel Server) (event : GateEvent) : Bool × ClientChannel Server :=
  (false, gamClientConnShutdown (channel.note event))

/-- `gam_client_conn_check_cred`. -/
def gamClientConnCheckCred (channel : ClientChannel Server) (calls : CredentialCalls) :
    Option (Bool × ClientChannel Server) :=
  if build.localCreds ∧ build.cmsgcred ∧ ¬ calls.setsockopt then
    some (false, channel.note (.checked none none none))
  else
    match retry calls.recvmsg with
    | none => none
    | some none => some (checkFailed channel (.checked none none none))
    | some (some message) =>
      if calls.credentialsByte message ≠ 0 then
        some (checkFailed channel (.checked message.byte none none))
      else if build.cmsgcred ∧ message.cmsg = none then
        some (checkFailed channel (.checked message.byte none none))
      else
        match build.peer calls message with
        | none => some (checkFailed channel (.checked message.byte none none))
        | some peer =>
          if serverUid ≠ peer.uid then
            some (checkFailed channel (.checked message.byte (some peer.uid) none))
          else
            match gamConnectionSetPid channel peer.pid with
            | none => none
            | some (result, channel) =>
              if result < 0 then
                some (checkFailed channel (.checked message.byte (some peer.uid) none))
              else
                match gamClientConnSendCred calls.write with
                | none => none
                | some sent =>
                  -- only 0 is false, and a failed write is -1
                  if sent = 0 then
                    some (checkFailed channel (.checked message.byte (some peer.uid) (some sent)))
                  else some (true, channel.note (.checked message.byte (some peer.uid) (some sent)))

variable (variant : BuildVariant) (handlers : RequestHandlers Server)

/-- The part of `gam_client_conn_read` behind the authentication. -/
def gamClientConnReadData (channel : ClientChannel Server) (read : List (Answer Bytes)) :
    Option (Bool × ClientChannel Server) :=
  match retry read with
  | none => none
  | some none => some (false, gamClientConnShutdown channel)
  | some (some bytes) =>
    let chunk := bytes.take (gamConnectionGetDataSize channel.conn).toNat
    if chunk.length = 0 then some (false, gamClientConnShutdown channel)
    else
      match gamConnectionData variant handlers
        { channel.conn with request := store channel.conn.request channel.conn.requestLen chunk }
        chunk.length with
      | (result, conn) =>
        let channel := { channel with conn := conn }.note (.data chunk)
        if result < 0 then some (false, gamClientConnShutdown channel) else some (true, channel)

/-- `gam_client_conn_read`. -/
def gamClientConnReadCallback (channel : ClientChannel Server) (callback : Readiness) :
    Option (Bool × ClientChannel Server) :=
  if callback.condition.OnlyError then some (false, gamClientConnShutdown channel)
  else
    match channel.conn.state with
    | .auth => gamClientConnCheckCred build serverUid channel callback.calls
    | .error => some (false, channel)
    | .closed => some (false, channel)
    | .okay => gamClientConnReadData variant handlers channel callback.read

/-- The main loop calls back as long as the callback wants to be called again. -/
def channelStep (channel : ClientChannel Server) (callback : Readiness) : Option (ClientChannel Server) :=
  if channel.watched then
    (gamClientConnReadCallback build serverUid variant handlers channel callback).map
      fun (again, channel) => { channel with watched := again }
  else some channel

end

theorem gamClientConnShutdown_conn {channel : ClientChannel Server} (registered : channel.registered = true) :
    (gamClientConnShutdown channel).conn = { channel.conn with state := .closed } := by
  simp only [gamClientConnShutdown, if_pos registered]

theorem gamClientConnShutdown_registered (channel : ClientChannel Server) :
    (gamClientConnShutdown channel).registered = false := by
  unfold gamClientConnShutdown
  cases registered : channel.registered with
  | false => exact registered
  | true => rfl

theorem gamClientConnShutdown_log (channel : ClientChannel Server) :
    (gamClientConnShutdown channel).log = channel.log := by
  unfold gamClientConnShutdown
  split <;> rfl

/-- Behind the authentication the callback is the read that the decoder is about. -/
theorem gamClientConnReadData_conn {variant : BuildVariant} {handlers : RequestHandlers Server}
    {channel after : ClientChannel Server} {read : List (Answer Bytes)} {bytes : Bytes} {again : Bool}
    (okay : channel.conn.state = .okay) (registered : channel.registered = true)
    (delivered : retry read = some (some bytes))
    (returned : gamClientConnReadData variant handlers channel read = some (again, after)) :
    after.conn = gamClientConnRead variant handlers channel.conn
      (bytes.take (gamConnectionGetDataSize channel.conn).toNat) := by
  simp only [gamClientConnReadData, delivered, okay] at returned
  simp only [gamClientConnRead, okay]
  split at returned
  · rename_i ended
    cases returned
    rw [if_pos ended]
    exact gamClientConnShutdown_conn registered
  · rename_i some
    rw [if_neg some]
    split at returned
    · rename_i failed
      cases returned
      rw [if_pos failed]
      exact gamClientConnShutdown_conn registered
    · rename_i served
      cases returned
      rw [if_neg served]
      rfl

/-! ## The gate -/

/-- A check that lets the peer in. -/
def GateEvent.Genuine (serverUid : Nat) : GateEvent → Prop
  | .checked received uid sent => received = some 0 ∧ uid = some serverUid ∧ sent = some 1
  | .data _ => False

def GateEvent.IsData : GateEvent → Prop
  | .checked _ _ _ => False
  | .data _ => True

/-- Data are processed behind a genuine check only.  When a check fails, the connection is shut down
and none of its data are processed. -/
structure Gated (serverUid : Nat) (channel : ClientChannel Server) : Prop where
  admitted : ∀ before event rest, channel.log = before ++ event :: rest → event.IsData →
    ∃ check ∈ before, check.Genuine serverUid
  shut : ∀ event ∈ channel.log, ¬ event.IsData → ¬ event.Genuine serverUid →
    channel.registered = false ∧ ∀ other ∈ channel.log, ¬ other.IsData

/-- The callback comes to the check of the credentials. -/
def ClientChannel.Unchecked (channel : ClientChannel Server) (callback : Readiness) : Prop :=
  channel.watched = true ∧ channel.conn.state = .auth ∧ ¬ callback.condition.OnlyError

/-- What the answers of the system calls have to be like when the credentials are checked: the socket
option can be set, and if they pass for the server's user, then a byte has been delivered and the
server's own byte goes out. -/
structure CredentialCalls.Honest (build : CredentialBuild) (serverUid : Nat) (calls : CredentialCalls) :
    Prop where
  option : build.localCreds = true → build.cmsgcred = true → calls.setsockopt = true
  passes : ∀ message peer, retry calls.recvmsg = some (some message) →
    calls.credentialsByte message = 0 → (build.cmsgcred = true → message.cmsg ≠ none) →
    build.peer calls message = some peer → peer.uid = serverUid → peer.pid ≠ 0 →
    retry calls.write ≠ none → message.byte ≠ none ∧ retry calls.write = some (some 1)

/-- The condition on a callback. -/
def HonestCheck (build : CredentialBuild) (serverUid : Nat) (channel : ClientChannel Server)
    (callback : Readiness) : Prop :=
  channel.Unchecked callback → callback.calls.Honest build serverUid

/-- How far a connection has come, for a callback that is still installed. -/
inductive Stage (channel : ClientChannel Server) : Prop where
  | waiting (auth : channel.conn.state = .auth) (log : channel.log = [])
  | serving (okay : channel.conn.state = .okay) (check : GateEvent) (chunks : List GateEvent)
      (log : channel.log = check :: chunks) (checked : ¬ check.IsData)
      (data : ∀ event ∈ chunks, event.IsData)

/-- What every callback keeps, whatever the calls answer. -/
def Staged (channel : ClientChannel Server) : Prop :=
  channel.watched = true → channel.registered = true ∧ Stage channel

/-! ## The check -/

/-- What a check comes to.  `hung` is a call that never comes back or
the assertion that fails; `unset` is the socket option: the callback is not installed any more, and
the connection stays. -/
inductive CheckOutcome (build : CredentialBuild) (serverUid : Nat) (calls : CredentialCalls)
    (channel : ClientChannel Server) : Option (Bool × ClientChannel Server) → Prop where
  | hung (honest : calls.Honest build serverUid) : CheckOutcome build serverUid calls channel none
  | shut {after : ClientChannel Server} (check : GateEvent) (checked : ¬ check.IsData)
      (logged : after.log = channel.log ++ [check]) (gone : after.registered = false)
      (honest : calls.Honest build serverUid) :
      CheckOutcome build serverUid calls channel (some (false, after))
  | unset {after : ClientChannel Server} (check : GateEvent) (checked : ¬ check.IsData)
      (logged : after.log = channel.log ++ [check]) (kept : after.registered = channel.registered)
      (refused : ¬ check.Genuine serverUid) (dishonest : ¬ calls.Honest build serverUid) :
      CheckOutcome build serverUid calls channel (some (false, after))
  | passed {after : ClientChannel Server} (check : GateEvent) (checked : ¬ check.IsData)
      (logged : after.log = channel.log ++ [check]) (kept : after.registered = channel.registered)
      (okay : after.conn.state = .okay)
      (honest : check.Genuine serverUid ↔ calls.Honest build serverUid) :
      CheckOutcome build serverUid calls channel (some (true, after))

section

variable {build : CredentialBuild} {serverUid : Nat} {channel after : ClientChannel Server}
  {calls : CredentialCalls} {again : Bool}

/-- The result of sending the server's byte is never false. -/
theorem gamClientConnSendCred_eq {write : List (Answer Nat)} {sent : Int}
    (returned : gamClientConnSendCred write = some sent) :
    sent ≠ 0 ∧ (sent = 1 ↔ retry write = some (some 1)) := by
  unfold gamClientConnSendCred at returned
  cases answered : retry write with
  | none => simp [answered] at returned
  | some outcome =>
    simp only [answered, Option.map_some, Option.some.injEq] at returned
    cases outcome with
    | none => subst returned; simp
    | some written =>
      dsimp only at returned
      split at returned
      · rename_i other
        subst returned
        simp [other]
      · rename_i one
        have one : written = 1 := not_not.mp one
        subst one returned
        simp

/-- A failing check shuts the connection down, whatever it logs. -/
theorem CheckOutcome.of_checkFailed (received : Option UInt8) (uid : Option Nat) (sent : Option Int)
    (honest : calls.Honest build serverUid) :
    CheckOutcome build serverUid calls channel
      (some (checkFailed channel (.checked received uid sent))) :=
  .shut (.checked received uid sent) not_false (gamClientConnShutdown_log _)
    (gamClientConnShutdown_registered _) honest

theorem gamClientConnCheckCred_outcome (auth : channel.conn.state = .auth) :
    CheckOutcome build serverUid calls channel
      (gamClientConnCheckCred build serverUid channel calls) := by
  unfold gamClientConnCheckCred
  split
  · rename_i unset
    refine .unset (.checked none none none) not_false rfl rfl ?_ ?_
    · rintro ⟨received, _⟩
      cases received
    · intro honest
      exact unset.2.2 (honest.option unset.1 unset.2.1)
  rename_i settable
  have option : build.localCreds = true → build.cmsgcred = true → calls.setsockopt = true := by
    intro localCreds cmsgcred
    exact not_not.mp fun unset => settable ⟨localCreds, cmsgcred, unset⟩
  split
  · rename_i hangs
    refine .hung ⟨option, fun message peer received => ?_⟩
    rw [hangs] at received
    cases received
  · rename_i failed
    refine .of_checkFailed _ _ _ ⟨option, fun message peer received => ?_⟩
    rw [failed] at received
    cases received
  rename_i message delivered
  -- the conditions are about the message that was delivered
  have transfer {claim : Message → Prop} (holds : claim message) (other : Message)
      (received : retry calls.recvmsg = some (some other)) : claim other := by
    rw [delivered] at received
    cases received
    exact holds
  split
  · rename_i byte
    refine .of_checkFailed _ _ _ ⟨option, fun other peer received nul => ?_⟩
    exact absurd nul (@transfer (fun message => calls.credentialsByte message ≠ 0) byte other received)
  rename_i nul
  split
  · rename_i without
    refine .of_checkFailed _ _ _ ⟨option, fun other peer received _ creds => ?_⟩
    have none := @transfer (fun message => message.cmsg = none) without.2 other received
    exact absurd none (creds without.1)
  rename_i creds
  split
  · rename_i unknown
    refine .of_checkFailed _ _ _ ⟨option, fun other peer received _ _ known => ?_⟩
    rw [@transfer (fun message => build.peer calls message = none) unknown other received] at known
    cases known
  rename_i peer known
  have same (other : Message) (found : Ucred) (received : retry calls.recvmsg = some (some other))
      (peers : build.peer calls other = some found) : found = peer := by
    rw [@transfer (fun message => build.peer calls message = some peer) known other received] at peers
    exact (Option.some.inj peers).symm
  split
  · rename_i stranger
    refine .of_checkFailed _ _ _ ⟨option, fun other found received _ _ peers uid => ?_⟩
    rw [same other found received peers] at uid
    exact absurd uid.symm stranger
  rename_i uid
  have uid : serverUid = peer.uid := not_not.mp uid
  simp only [gamConnectionSetPid, auth, ne_eq, not_true_eq_false, if_false]
  by_cases pid : peer.pid = 0
  · rw [if_pos pid]
    refine .hung ⟨option, fun other found received _ _ peers _ positive => ?_⟩
    rw [same other found received peers] at positive
    exact absurd pid positive
  rw [if_neg pid]
  simp only [Int.lt_irrefl, if_false]
  split
  · rename_i unanswered
    refine .hung ⟨option, fun other found received _ _ _ _ _ written => ?_⟩
    exact absurd (Option.map_eq_none_iff.mp unanswered) written
  rename_i sent answered
  obtain ⟨never, one⟩ := gamClientConnSendCred_eq answered
  rw [if_neg never]
  refine .passed (.checked message.byte (some peer.uid) (some sent)) not_false rfl rfl rfl ?_
  have written : retry calls.write ≠ none := by
    intro hangs
    simp [gamClientConnSendCred, hangs] at answered
  constructor
  · rintro ⟨byte, _, success⟩
    refine ⟨option, fun other found received _ _ _ _ _ _ => ⟨?_, one.mp (Option.some.inj success)⟩⟩
    exact @transfer (fun message => message.byte ≠ none) (by rw [byte]; exact nofun) other received
  · intro honest
    obtain ⟨some, success⟩ := honest.passes message peer delivered (not_not.mp nul)
      (fun cmsgcred none => creds ⟨cmsgcred, none⟩) known uid.symm pid written
    obtain ⟨byte, received⟩ := Option.ne_none_iff_exists'.mp some
    have nul : calls.credentialsByte message = 0 := not_not.mp nul
    rw [CredentialCalls.credentialsByte, received, Option.getD_some] at nul
    exact ⟨by rw [received, nul], by rw [uid], by rw [one.mpr success]⟩

end

/-! ## Runs -/

/-- Data logged behind a genuine check. -/
theorem Gated.of_genuine {serverUid : Nat} {channel : ClientChannel Server} {check : GateEvent}
    {chunks : List GateEvent} (log : channel.log = check :: chunks) (checked : ¬ check.IsData)
    (genuine : check.Genuine serverUid) (data : ∀ event ∈ chunks, event.IsData) :
    Gated serverUid channel where
  admitted before event rest split isData := by
    cases before with
    | nil =>
      rw [log, List.nil_append] at split
      exact absurd ((List.cons.inj split).1 ▸ isData) checked
    | cons first before =>
      rw [log, List.cons_append] at split
      exact ⟨first, List.mem_cons_self, (List.cons.inj split).1 ▸ genuine⟩
  shut event member isCheck refused := by
    rw [log] at member
    cases member with
    | head => exact absurd genuine refused
    | tail _ member => exact absurd (data event member) isCheck

/-- No data, and no check that failed on a connection that is still there. -/
theorem Gated.of_no_data {serverUid : Nat} {channel : ClientChannel Server}
    (noData : ∀ event ∈ channel.log, ¬ event.IsData)
    (shut : ∀ event ∈ channel.log, ¬ event.Genuine serverUid → channel.registered = false) :
    Gated serverUid channel where
  admitted before event rest split isData :=
    absurd isData (noData event (by rw [split]; exact List.mem_append_right _ List.mem_cons_self))
  shut event member _ refused := ⟨shut event member refused, noData⟩

section

variable {build : CredentialBuild} {serverUid : Nat} {variant : BuildVariant}
  {handlers : RequestHandlers Server} {channel after : ClientChannel Server} {again : Bool}

/-- A read logs at most the data it hands over, and it goes on with a connection that stays. -/
theorem gamClientConnReadData_stays {read : List (Answer Bytes)}
    (returned : gamClientConnReadData variant handlers channel read = some (again, after)) :
    (∃ chunks : List GateEvent, (∀ event ∈ chunks, event.IsData) ∧ after.log = channel.log ++ chunks) ∧
      (again = true → after.registered = channel.registered ∧ after.conn.state = channel.conn.state) := by
  have unlogged (log : after.log = channel.log) :
      ∃ chunks : List GateEvent, (∀ event ∈ chunks, event.IsData) ∧ after.log = channel.log ++ chunks :=
    ⟨[], by simp, by rw [log, List.append_nil]⟩
  unfold gamClientConnReadData at returned
  split at returned
  · cases returned
  · cases returned
    exact ⟨unlogged (gamClientConnShutdown_log channel), nofun⟩
  rename_i bytes delivered
  dsimp only at returned
  split at returned
  · cases returned
    exact ⟨unlogged (gamClientConnShutdown_log channel), nofun⟩
  have logged (chunk : Bytes) : ∀ event ∈ [GateEvent.data chunk], event.IsData := by
    intro event member
    rw [List.mem_singleton.mp member]
    trivial
  split at returned
  · cases returned
    exact ⟨⟨_, logged _, gamClientConnShutdown_log _⟩, nofun⟩
  · cases returned
    exact ⟨⟨_, logged _, rfl⟩, fun _ => ⟨rfl, gamConnectionData_state variant handlers _ _⟩⟩

/-- On a connection that is there, the check made on it has let the peer in. -/
theorem Gated.genuine {check : GateEvent} {chunks : List GateEvent} (gated : Gated serverUid channel)
    (registered : channel.registered = true) (log : channel.log = check :: chunks)
    (checked : ¬ check.IsData) : check.Genuine serverUid := by
  by_contra refused
  have gone := (gated.shut check (by rw [log]; exact List.mem_cons_self) checked refused).1
  rw [registered] at gone
  cases gone

/-- The callback of the check: the connection is gated behind it if the answers were honest. -/
theorem gamClientConnCheckCred_decides {calls : CredentialCalls} (registered : channel.registered = true)
    (auth : channel.conn.state = .auth) (log : channel.log = [])
    (returned : gamClientConnCheckCred build serverUid channel calls = some (again, after)) :
    Staged { after with watched := again } ∧
      (Gated serverUid { after with watched := again } ↔ calls.Honest build serverUid) := by
  have outcome := @gamClientConnCheckCred_outcome _ build serverUid channel calls auth
  rw [returned] at outcome
  have alone {check : GateEvent} (logged : after.log = channel.log ++ [check]) : after.log = [check] := by
    rw [logged, log, List.nil_append]
  cases outcome with
  | shut check checked logged gone honest =>
    have noData : ∀ event ∈ after.log, ¬ event.IsData := by
      intro event member
      rw [alone logged] at member
      rwa [List.mem_singleton.mp member]
    exact ⟨nofun, fun _ => honest, fun _ => .of_no_data noData fun _ _ _ => gone⟩
  | unset check checked logged kept refused dishonest =>
    refine ⟨nofun, fun gated => ?_, fun honest => absurd honest dishonest⟩
    exact absurd (gated.genuine (kept.trans registered) (alone logged) checked) refused
  | passed check checked logged kept okay honest =>
    refine ⟨fun _ => ⟨kept.trans registered, .serving okay check [] (alone logged) checked (by simp)⟩, ?_⟩
    rw [← honest]
    constructor
    · intro gated
      exact gated.genuine (kept.trans registered) (alone logged) checked
    · intro genuine
      exact .of_genuine (alone logged) checked genuine (by simp)

/-- The callback that reads behind the check. -/
theorem gamClientConnReadData_gated {read : List (Answer Bytes)} {check : GateEvent}
    {chunks : List GateEvent} (registered : channel.registered = true)
    (okay : channel.conn.state = .okay) (log : channel.log = check :: chunks) (checked : ¬ check.IsData)
    (data : ∀ event ∈ chunks, event.IsData)
    (returned : gamClientConnReadData variant handlers channel read = some (again, after)) :
    Staged { after with watched := again } ∧
      (Gated serverUid channel → Gated serverUid { after with watched := again }) := by
  obtain ⟨⟨more, moreData, logged⟩, kept⟩ := gamClientConnReadData_stays returned
  rw [log, List.cons_append] at logged
  have allData : ∀ event ∈ chunks ++ more, event.IsData := by
    intro event member
    exact (List.mem_append.mp member).elim (data event) (moreData event)
  refine ⟨fun goesOn => ⟨(kept goesOn).1.trans registered,
    .serving ((kept goesOn).2.trans okay) check _ logged checked allData⟩, fun gated => ?_⟩
  exact .of_genuine logged checked (gated.genuine registered log checked) allData

/-- The first callback that comes to the check decides, and the later ones find it made. -/
theorem channelStep_decides (callback : Readiness) (staged : Staged channel)
    (next : channelStep build serverUid variant handlers channel callback = some after) :
    Staged after ∧ (Gated serverUid channel →
      (Gated serverUid after ↔ HonestCheck build serverUid channel callback)) := by
  unfold channelStep at next
  split at next
  case isFalse unwatched =>
    cases next
    exact ⟨staged, fun gated => ⟨fun _ unchecked => absurd unchecked.1 unwatched, fun _ => gated⟩⟩
  rename_i watched
  obtain ⟨registered, stage⟩ := staged watched
  obtain ⟨⟨again, left⟩, returned, rfl⟩ := Option.map_eq_some_iff.mp next
  unfold gamClientConnReadCallback at returned
  split at returned
  case isTrue error =>
    cases returned
    refine ⟨nofun, fun gated => ⟨fun _ unchecked => absurd error unchecked.2.2, fun _ => ?_⟩⟩
    cases stage with
    | waiting auth log =>
      have empty : (gamClientConnShutdown channel).log = [] := (gamClientConnShutdown_log channel).trans log
      exact .of_no_data (by simp [empty]) (by simp [empty])
    | serving okay check chunks log checked data =>
      exact .of_genuine ((gamClientConnShutdown_log channel).trans log) checked
        (gated.genuine registered log checked) data
  -- something can be read: the byte of the credentials, or a packet
  rename_i readable
  cases stage with
  | waiting auth log =>
    simp only [auth] at returned
    obtain ⟨stagedAfter, decided⟩ := gamClientConnCheckCred_decides registered auth log returned
    exact ⟨stagedAfter, fun _ => ⟨fun gatedAfter _ => decided.mp gatedAfter,
      fun honest => decided.mpr (honest ⟨watched, auth, readable⟩)⟩⟩
  | serving okay check chunks log checked data =>
    simp only [okay] at returned
    obtain ⟨stagedAfter, gatedAfter⟩ :=
      gamClientConnReadData_gated registered okay log checked data returned
    refine ⟨stagedAfter, fun gated => ⟨fun _ unchecked => ?_, fun _ => gatedAfter gated⟩⟩
    have auth := unchecked.2.1
    rw [okay] at auth
    cases auth

/-- A check that does not come back has not let anybody in. -/
theorem channelStep_hung (callback : Readiness)
    (next : channelStep build serverUid variant handlers channel callback = none) :
    HonestCheck build serverUid channel callback := by
  rintro ⟨watched, auth, readable⟩
  simp only [channelStep, if_pos watched, Option.map_eq_none_iff, gamClientConnReadCallback,
    if_neg readable, auth] at next
  have outcome := @gamClientConnCheckCred_outcome _ build serverUid channel callback.calls auth
  rw [next] at outcome
  cases outcome with
  | hung honest => exact honest

end

/-- Every connection is gated throughout its callbacks exactly as long as the answers to the checks of
its credentials are honest. -/
theorem gated_iff_honestCheck (build : CredentialBuild) (serverUid : Nat) (variant : BuildVariant)
    (handlers : RequestHandlers Server) (server : Server) (callbacks : List Readiness) :
    Throughout (partialStep (channelStep build serverUid variant handlers)) (IfAny (Gated serverUid))
        (some (gamIncomingConnRead server)) callbacks ↔
      Guarded (partialStep (channelStep build serverUid variant handlers))
        (GuardIfAny (HonestCheck build serverUid)) (some (gamIncomingConnRead server)) callbacks := by
  refine throughout_iff_guarded_partial Staged ?_ ?_ ?_ ?_ ?_ callbacks
  · intro channel callback after staged next
    exact (channelStep_decides callback staged next).1
  · intro channel callback next
    exact channelStep_hung callback next
  · intro channel callback after staged gated next
    exact (channelStep_decides callback staged next).2 gated
  · intro watched
    exact ⟨rfl, .waiting rfl rfl⟩
  · exact .of_no_data nofun nofun

/-! ## A byte that cannot be sent -/

/-- The byte of the client is NUL.  The client does not read, so the server's own byte cannot be sent. -/
def nothingSent : CredentialCalls where
  setsockopt := true
  buf := 0
  recvmsg := [.value ⟨some 0, none⟩]
  getsockopt := some ⟨4711, 1000⟩
  write := [.interrupted, .failed]

/-- Handlers that do nothing. -/
def idleHandlers : RequestHandlers Unit where
  addSubscription := fun server _ _ _ _ => server
  cancelSubscription := fun server _ => some server
  debugRequest := fun server _ _ => server

/-- The connection is open behind a check in which nothing was sent, and the data that come next are
processed. -/
theorem not_gated_nothingSent :
    let build : CredentialBuild := ⟨false, false, true⟩
    let step := partialStep (channelStep build 1000 .inPlace idleHandlers)
    let readable : IOCondition := ⟨true, false, false, false⟩
    let callbacks : List Readiness :=
      [⟨readable, nothingSent, []⟩, ⟨readable, nothingSent, [.value [10, 0]]⟩]
    ¬ Throughout step (IfAny (Gated 1000)) (some (gamIncomingConnRead ())) callbacks ∧
      (run step (some (gamIncomingConnRead ())) callbacks).map (fun channel => (channel.log, channel.registered)) =
        some ([.checked (some 0) (some 1000) (some (-1)), .data [10, 0]], true) := by
  intro build step readable callbacks
  -- two bytes are no packet yet, and nothing is decoded
  have decoded (conn : GamConnData Unit) (len : Nat) (short : conn.requestLen + len < 10) :
      gamConnectionData .inPlace idleHandlers conn len =
        (0, { conn with requestLen := conn.requestLen + len }) := by
    have loop : gamConnectionDataLoop .inPlace idleHandlers
        { conn with requestLen := conn.requestLen + len } 0 =
          (0, { conn with requestLen := conn.requestLen + len }, 0) := by
      rw [gamConnectionDataLoop, if_pos (show _ < gamPacketHeaderLen from short)]
    simp [gamConnectionData, loop]
  have reached : (run step (some (gamIncomingConnRead ())) callbacks).map
      (fun channel => (channel.log, channel.registered)) =
        some ([.checked (some 0) (some 1000) (some (-1)), .data [10, 0]], true) := by
    simp [run, step, callbacks, partialStep, channelStep, gamClientConnReadCallback, gamIncomingConnRead,
      IOCondition.OnlyError, readable, gamClientConnCheckCred, build, nothingSent, retry,
      CredentialCalls.credentialsByte, CredentialBuild.peer, gamConnectionSetPid, gamClientConnSendCred,
      ClientChannel.note, gamClientConnReadData, gamConnectionNew, gamConnectionGetDataSize, sizeofGAMPacket,
      maxPathLen, decoded, gamPacketHeaderLen]
  refine ⟨fun throughout => ?_, reached⟩
  have gated := throughout.last
  obtain ⟨channel, ended, logged⟩ := Option.map_eq_some_iff.mp reached
  obtain ⟨log, registered⟩ := Prod.mk.inj logged
  rw [ended] at gated
  have genuine := gated.genuine registered log not_false
  cases genuine.2.2

end Gamin.Server
