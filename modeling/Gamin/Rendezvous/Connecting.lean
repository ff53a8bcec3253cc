import Gamin.Library.Writing
import Gamin.Rendezvous.Names
import Mathlib.Data.List.Basic

/-! # Opening a connection

`FAMOpen` makes a socket, connects it and writes a byte for the credentials.  If nobody listens it starts a server,
once, and tries again with a new socket for some time.  The descriptors that it has opened are followed up to its
return.
-/

namespace Gamin.Rendezvous

open Gamin Gamin.Library

/-- The answers of one round of `gamin_connect_unix_socket`: the descriptor of the socket, the result of the check of
the path, which is only made for a file, and whether `connect` succeeds. -/
structure ConnectRound where
  socket : Option Nat
  secure : Int
  connects : Bool
  deriving DecidableEq, Repr

/-- What a call has done: its result, the descriptors that it has left open, the servers that it has started and the
times it has slept. -/
structure Connection where
  result : Int
  opened : List Nat
  forks : Nat
  sleeps : Nat
  deriving DecidableEq, Repr

/-- `MAX_RETRIES`. -/
def connectRetries : Nat := 25

/-- The socket is made, and the path is refused. -/
def ConnectRound.refused (kind : SocketKind) (round : ConnectRound) : Bool :=
  round.socket.isSome && decide (kind = .file ∧ round.secure < 0)

/-- The socket is made, the path is not refused, and nobody listens. -/
def ConnectRound.unanswered (kind : SocketKind) (round : ConnectRound) : Bool :=
  round.socket.isSome && decide (¬ (kind = .file ∧ round.secure < 0)) && !round.connects

/-- One round of `gamin_connect_unix_socket`: the result and the descriptors that are left open if it ends the call.
Else the socket is closed, and it has been before a server is started, which would inherit it. -/
def connectRound (kind : SocketKind) (round : ConnectRound) : Option (Int × List Nat) :=
  match round.socket with
  | none => some (-1, [])
  | some fd =>
    if kind = .file ∧ round.secure < 0 then some (-1, [fd])
    else if round.connects then some (fd, [fd])
    else none

/-- `gamin_connect_unix_socket` from a round on, with the retries that are left. -/
def gaminConnectUnixSocket (kind : SocketKind) (rounds : Nat → ConnectRound) (left : Nat) : Connection :=
  match connectRound kind (rounds (connectRetries - left)), left with
  | some (result, opened), _ => { result := result, opened := opened, forks := 0, sleeps := 0 }
  | none, 0 => { result := -1, opened := [], forks := 0, sleeps := 0 }
  | none, left + 1 =>
    let rest := gaminConnectUnixSocket kind rounds left
    if left + 1 = connectRetries then { rest with forks := rest.forks + 1 } else { rest with sleeps := rest.sleeps + 1 }

/-- `gamin_write_credential_byte`, if it returns. -/
def gaminWriteCredentialByte : List WriteResult → Option Int
  | [] => none
  | .interrupted :: results => gaminWriteCredentialByte results
  | .failed :: _ => some (-1)
  | .accepted count :: _ => if count = 1 then some 0 else some (-1)

/-- `FAMOpen` on a connection structure that is not NULL: what becomes of the memory for the name and of
`gamin_data_new` is told by `named` and `memory`.  The result, if it returns, with `fc->fd`. -/
def famOpen (kind : SocketKind) (named : Bool) (rounds : Nat → ConnectRound) (writes : List WriteResult)
    (memory : Bool) (fcFd : Int) : Option (Connection × Int) :=
  if named then
    let connection := gaminConnectUnixSocket kind rounds connectRetries
    if connection.result < 0 then some ({ connection with result := -1 }, fcFd)
    else
      let closed := connection.opened.filter fun fd : Nat => (fd : Int) ≠ connection.result
      (gaminWriteCredentialByte writes).map fun result =>
        if result ≠ 0 then ({ connection with result := -1, opened := closed }, fcFd)
        else if memory then ({ connection with result := 0 }, connection.result)
        else ({ connection with result := -1, opened := closed }, connection.result)
  else some ({ result := -1, opened := [], forks := 0, sleeps := 0 }, fcFd)

/-! ## The rounds -/

/-- What a call comes to from a round on: the rounds before the last one find nobody listening, and the last one ends
the call, or is the last that is allowed. -/
structure CallEnds (kind : SocketKind) (rounds : Nat → ConnectRound) (first : Nat) (connection : Connection)
    (last : Nat) : Prop where
  after : first ≤ last
  within : last ≤ connectRetries
  again : ∀ round, first ≤ round → round < last → connectRound kind (rounds round) = none
  ends : connectRound kind (rounds last) = some (connection.result, connection.opened) ∨
    last = connectRetries ∧ connectRound kind (rounds last) = none ∧ connection.result = -1 ∧ connection.opened = []
  forks : connection.forks = if first = 0 ∧ 0 < last then 1 else 0
  sleeps : connection.sleeps = last - max first 1

theorem CallEnds.ended {kind : SocketKind} {rounds : Nat → ConnectRound} {first : Nat} {connection : Connection}
    (within : first ≤ connectRetries)
    (ends : connectRound kind (rounds first) = some (connection.result, connection.opened) ∨
      first = connectRetries ∧ connectRound kind (rounds first) = none ∧ connection.result = -1 ∧
        connection.opened = [])
    (quiet : connection.forks = 0 ∧ connection.sleeps = 0) : CallEnds kind rounds first connection first where
  after := Nat.le_refl first
  within := within
  again round from' before := absurd before (by omega)
  ends := ends
  forks := quiet.1.trans (if_neg (by omega)).symm
  sleeps := quiet.2.trans (by omega)

theorem gaminConnectUnixSocket_ended {kind : SocketKind} {rounds : Nat → ConnectRound} {left : Nat}
    {ending : Int × List Nat} (round : connectRound kind (rounds (connectRetries - left)) = some ending) :
    gaminConnectUnixSocket kind rounds left = { result := ending.1, opened := ending.2, forks := 0, sleeps := 0 } := by
  unfold gaminConnectUnixSocket
  simp [round]

theorem gaminConnectUnixSocket_last {kind : SocketKind} {rounds : Nat → ConnectRound}
    (round : connectRound kind (rounds connectRetries) = none) :
    gaminConnectUnixSocket kind rounds 0 = { result := -1, opened := [], forks := 0, sleeps := 0 } := by
  unfold gaminConnectUnixSocket
  simp [round]

theorem gaminConnectUnixSocket_again {kind : SocketKind} {rounds : Nat → ConnectRound} {left : Nat}
    (round : connectRound kind (rounds (connectRetries - (left + 1))) = none) :
    gaminConnectUnixSocket kind rounds (left + 1) =
      let rest := gaminConnectUnixSocket kind rounds left
      if left + 1 = connectRetries then { rest with forks := rest.forks + 1 }
      else { rest with sleeps := rest.sleeps + 1 } := by
  conv => lhs; unfold gaminConnectUnixSocket
  simp [round]

/-- By induction on the retries that are left: a round ends the call, or the rest of it follows. -/
theorem gaminConnectUnixSocket_ends (kind : SocketKind) (rounds : Nat → ConnectRound) {left : Nat}
    (few : left ≤ connectRetries) :
    ∃ last, CallEnds kind rounds (connectRetries - left) (gaminConnectUnixSocket kind rounds left) last := by
  induction left with
  | zero =>
    cases round : connectRound kind (rounds connectRetries) with
    | some ending =>
      have call := @gaminConnectUnixSocket_ended kind rounds 0 ending round
      rw [call]
      exact ⟨_, .ended (Nat.le_refl _) (.inl round) ⟨rfl, rfl⟩⟩
    | none =>
      rw [gaminConnectUnixSocket_last round]
      exact ⟨_, .ended (Nat.le_refl _) (.inr ⟨rfl, round, rfl, rfl⟩) ⟨rfl, rfl⟩⟩
  | succ left inductionHypothesis =>
    cases round : connectRound kind (rounds (connectRetries - (left + 1))) with
    | some ending =>
      rw [gaminConnectUnixSocket_ended round]
      exact ⟨_, .ended (Nat.sub_le ..) (.inl round) ⟨rfl, rfl⟩⟩
    | none =>
      obtain ⟨last, rest⟩ := inductionHypothesis (by omega)
      have after := rest.after
      rw [gaminConnectUnixSocket_again round]
      refine ⟨last, by omega, rest.within, fun middle from' before => ?_, ?_, ?_, ?_⟩
      · -- this round has found nobody, and neither have those of the rest before its last
        rcases Nat.lt_or_ge middle (connectRetries - left) with early | late
        · have first : middle = connectRetries - (left + 1) := by omega
          exact first ▸ round
        · exact rest.again middle late before
      · have ends := rest.ends
        dsimp only
        split <;> exact ends
      · have forks := rest.forks
        dsimp only
        split <;> simp only [forks] <;> split <;> split <;> omega
      · have sleeps := rest.sleeps
        dsimp only
        split <;> simp only [sleeps] <;> omega

/-! ## The descriptors -/

/-- What one round means for the descriptors: the one of the socket is closed again, or handed out, unless the path is
refused. -/
theorem connectRound_cases (kind : SocketKind) (round : ConnectRound) :
    connectRound kind round = none ∧ round.unanswered kind = true ∨
    (∃ fd : Nat, connectRound kind round = some (↑fd, [fd]) ∧ round.socket = some fd ∧ round.refused kind = false) ∨
    connectRound kind round = some (-1, if round.refused kind then round.socket.toList else []) := by
  unfold connectRound ConnectRound.unanswered ConnectRound.refused
  cases round.socket with
  | none => simp
  | some fd =>
    by_cases refused : kind = .file ∧ round.secure < 0
    · simp [refused]
    · cases connects : round.connects <;> simp [refused]

theorem unanswered_of_connectRound {kind : SocketKind} {round : ConnectRound} (again : connectRound kind round = none) :
    round.unanswered kind = true := by
  obtain ⟨-, unanswered⟩ | ⟨fd, ending, -⟩ | ending := connectRound_cases kind round
  · exact unanswered
  · exact absurd (again.symm.trans ending) (by simp)
  · exact absurd (again.symm.trans ending) (by simp)

theorem not_refused_of_unanswered {kind : SocketKind} {round : ConnectRound}
    (unanswered : round.unanswered kind = true) : round.refused kind = false := by
  simp only [ConnectRound.unanswered, ConnectRound.refused, Bool.and_eq_true, decide_eq_true_eq] at unanswered ⊢
  simp [unanswered.1.2]

/-- A call connects with the socket of its last round, or it fails and what is open is the socket of a path that was
refused. -/
theorem CallEnds.descriptors {kind : SocketKind} {rounds : Nat → ConnectRound} {first last : Nat}
    {connection : Connection} (call : CallEnds kind rounds first connection last) :
    (∃ fd : Nat, connection.result = fd ∧ connection.opened = [fd] ∧ (rounds last).socket = some fd ∧
      (rounds last).refused kind = false) ∨
    connection.result = -1 ∧
      connection.opened = if (rounds last).refused kind then (rounds last).socket.toList else [] := by
  obtain ending | ⟨-, round, result, opened⟩ := call.ends
  · obtain ⟨again, -⟩ | ⟨fd, round, socket, accepted⟩ | round := connectRound_cases kind (rounds last)
    · exact absurd (again.symm.trans ending) (by simp)
    · simp only [ending, Option.some.injEq, Prod.mk.injEq] at round
      exact .inl ⟨fd, round.1, round.2, socket, accepted⟩
    · simp only [ending, Option.some.injEq, Prod.mk.injEq] at round
      exact .inr round
  · have accepted := not_refused_of_unanswered (unanswered_of_connectRound round)
    refine .inr ⟨result, ?_⟩
    simp only [opened, accepted]
    rfl

/-- What `FAMOpen` leaves behind if it returns: it has tried for at most 26 rounds, has started a server if the first
one found nobody listening, and no other, and has slept between the rest.  A connection that it gives has the one
descriptor that is left open.  If it fails none is, unless the path was refused in the last round.  Without memory for
the name it does nothing. -/
theorem famOpen_descriptors {kind : SocketKind} {named : Bool} {rounds : Nat → ConnectRound}
    {writes : List WriteResult} {memory : Bool} {before after : Int} {connection : Connection}
    (returned : famOpen kind named rounds writes memory before = some (connection, after)) :
    (named = false → connection = { result := -1, opened := [], forks := 0, sleeps := 0 } ∧ after = before) ∧
    (named = true → ∃ last, last ≤ connectRetries ∧ (∀ round < last, (rounds round).unanswered kind = true) ∧
      connection.forks = (if 0 < last then 1 else 0) ∧ connection.sleeps = last - 1 ∧
      (connection.result = 0 ∧
          (∃ fd : Nat, (rounds last).socket = some fd ∧ after = fd ∧ connection.opened = [fd]) ∨
        connection.result = -1 ∧
          connection.opened = if (rounds last).refused kind then (rounds last).socket.toList else [])) := by
  cases named
  case false =>
    cases returned
    exact ⟨fun _ => ⟨rfl, rfl⟩, nofun⟩
  refine ⟨nofun, fun _ => ?_⟩
  obtain ⟨last, call⟩ := gaminConnectUnixSocket_ends kind rounds (Nat.le_refl connectRetries)
  rw [Nat.sub_self] at call
  have unanswered : ∀ round < last, (rounds round).unanswered kind = true := fun round before =>
    unanswered_of_connectRound (call.again round (Nat.zero_le round) before)
  have forks := call.forks
  have sleeps := call.sleeps
  simp only [true_and, Nat.zero_max] at forks sleeps
  refine ⟨last, call.within, unanswered, ?_⟩
  unfold famOpen at returned
  -- the connection succeeds, and the name may still not be written; or it fails
  obtain ⟨fd, result, opened, socket, accepted⟩ | ⟨result, opened⟩ := call.descriptors
  · have positive : ¬ (fd : Int) < 0 := by omega
    have closed : ([fd].filter fun other : Nat => (other : Int) ≠ fd) = [] := by simp
    simp only [if_true, result, positive, if_false, opened, closed, Option.map_eq_some_iff] at returned
    obtain ⟨written, -, ends⟩ := returned
    split at ends
    · cases ends
      exact ⟨forks, sleeps, .inr ⟨rfl, by simp [accepted]⟩⟩
    · split at ends
      · cases ends
        exact ⟨forks, sleeps, .inl ⟨rfl, fd, socket, rfl, rfl⟩⟩
      · cases ends
        exact ⟨forks, sleeps, .inr ⟨rfl, by simp [accepted]⟩⟩
  · have negative : (-1 : Int) < 0 := by omega
    simp only [if_true, result, negative, Option.some.injEq, Prod.mk.injEq] at returned
    obtain ⟨rfl, -⟩ := returned
    exact ⟨forks, sleeps, .inr ⟨rfl, opened⟩⟩

/-- Nobody listens at first, and the server that is started does. -/
theorem startedServer_descriptors :
    ∃ last, last ≤ connectRetries ∧
      (∀ round < last, (ConnectRound.mk (some 5) 0 (round ≠ 0)).unanswered .file = true) ∧
      1 = (if 0 < last then 1 else 0) ∧ 0 = last - 1 ∧
      ((0 : Int) = 0 ∧ (∃ fd : Nat, some 5 = some fd ∧ (5 : Int) = fd ∧ [5] = [fd]) ∨
        (0 : Int) = -1 ∧
          [5] = if (ConnectRound.mk (some 5) 0 (last ≠ 0)).refused .file then (some 5).toList else []) :=
  (famOpen_descriptors
    (show famOpen .file true (fun round => { socket := some 5, secure := 0, connects := decide (round ≠ 0) })
      [.interrupted, .accepted 1] true 0 = some ({ result := 0, opened := [5], forks := 1, sleeps := 0 }, 5)
      by decide)).2 rfl

end Gamin.Rendezvous
