import Gamin.Protocol
import Mathlib.Data.List.TakeWhile

/-! # The name of the socket

The library and the server make the name of their socket apart from each other, from the name of the user and
the client id of the environment (`gam_api.c`, `gam_channel.c`, `gam_fork.c`).  The library cuts the user name
behind 99 bytes and the path behind `MAXPATHLEN - 1`; both sides cut what they put into the address.
-/

namespace Gamin.Rendezvous

open Gamin

/-- With and without `HAVE_ABSTRACT_SOCKETS`. -/
inductive SocketKind where
  | abstractName
  | file
  deriving DecidableEq, Repr

/-- How `gamin_fork_server` can put the client id into the environment of the server: with `setenv`, which does
not overwrite here, with `putenv`, or not at all. -/
inductive EnvironmentCalls where
  | setenv
  | putenv
  | neither
  deriving DecidableEq, Repr

/-- `"/tmp/fam-"`, `"/fam-"` and `"-"`. -/
def tmpFam : Bytes := [47, 116, 109, 112, 47, 102, 97, 109, 45]
def slashFam : Bytes := [47, 102, 97, 109, 45]
def dash : Bytes := [45]

/-! ## The paths -/

/-- `gamin_get_user_name`, with the name that `getpwuid` finds. -/
def gaminGetUserName (pwName : Option Bytes) : Bytes := (pwName.getD []).take 99

/-- `GAM_CLIENT_ID` as `gamin_get_socket_path` and `gamin_connect_unix_socket` read it. -/
def famClientId (environment : Option Bytes) : Bytes := environment.getD []

/-- What stands between the user and the client id. -/
def separator : SocketKind → Bytes
  | .abstractName => dash
  | .file => slashFam

/-- `gamin_get_socket_path`; `snprintf` keeps a byte for the NUL. -/
def gaminGetSocketPath (kind : SocketKind) (environment pwName : Option Bytes) : Bytes :=
  (tmpFam ++ gaminGetUserName pwName ++ separator kind ++ famClientId environment).take (maxPathLen - 1)

/-- `gam_get_socket_path`, with the name that `g_get_user_name` returns. -/
def gamGetSocketPath (kind : SocketKind) (session environment : Option Bytes) (user : Bytes) : Bytes :=
  let gamClientId := match session with
    | none => environment.getD []
    | some session => session
  tmpFam ++ user ++ separator kind ++ gamClientId

/-- The client id in the environment of the server that `gamin_fork_server` starts. -/
def forkedEnvironment (calls : EnvironmentCalls) (environment : Option Bytes) (famClientId : Bytes) : Option Bytes :=
  match calls with
  | .setenv => some (environment.getD famClientId)
  | .putenv => some famClientId
  | .neither => environment

/-! ## The addresses -/

/-- `sizeof (struct sockaddr_un)`: the family, and 108 bytes of `sun_path`. -/
def sizeofSockaddrUn : Nat := 110

def strncpy (source : Bytes) (size : Nat) : Bytes :=
  source.take size ++ List.replicate (size - source.length) 0

/-- How many bytes of the path go into the address. -/
def copiedBytes : SocketKind → Nat
  | .abstractName => sizeofSockaddrUn - 4 - 2
  | .file => sizeofSockaddrUn - 4 - 1

/-- `addr.sun_path`, as `gamin_connect_unix_socket` and `gam_listen_unix_socket` fill it. -/
def sunPath (kind : SocketKind) (path : Bytes) : Bytes :=
  match kind with
  | .abstractName => 0 :: strncpy path (copiedBytes .abstractName) ++ List.replicate 3 0
  | .file => strncpy path (copiedBytes .file) ++ List.replicate 3 0

/-- Where the library connects to. -/
def clientAddress (kind : SocketKind) (environment pwName : Option Bytes) : Bytes :=
  sunPath kind (gaminGetSocketPath kind environment pwName)

/-- Where a server listens. -/
def serverAddress (kind : SocketKind) (session environment : Option Bytes) (user : Bytes) : Bytes :=
  sunPath kind (gamGetSocketPath kind session environment user)

/-! ## Both sides meet -/

/-- Only the bytes that are copied matter. -/
theorem sunPath_congr {kind : SocketKind} {first second : Bytes}
    (same : first.take (copiedBytes kind) = second.take (copiedBytes kind)) :
    sunPath kind first = sunPath kind second := by
  have padding (size : Nat) (sameFront : first.take size = second.take size) :
      strncpy first size = strncpy second size := by
    have lengths := congrArg List.length sameFront
    simp only [List.length_take] at lengths
    rw [strncpy, strncpy, sameFront, show size - first.length = size - second.length by omega]
  cases kind with
  | abstractName => rw [sunPath, sunPath, padding _ same]
  | file => rw [sunPath, sunPath, padding _ same]

/-- A cut behind what is copied anyway is not seen. -/
theorem take_cut_middle (front name rest : Bytes) {limit size : Nat} (beyond : size ≤ front.length + limit) :
    (front ++ name.take limit ++ rest).take size = (front ++ name ++ rest).take size := by
  by_cases short : name.length ≤ limit
  · rw [List.take_of_length_le short]
  · have whole : (name.take limit).length = limit := List.length_take_of_le (by omega)
    have cut : size ≤ (front ++ name.take limit).length := by rw [List.length_append, whole]; exact beyond
    have uncut : size ≤ (front ++ name).length := by rw [List.length_append]; omega
    rw [List.take_append_of_le_length cut, List.take_append_of_le_length uncut]
    simp only [List.take_append, List.take_take, Nat.min_eq_left (show size - front.length ≤ limit by omega)]

theorem copiedBytes_le (kind : SocketKind) : copiedBytes kind ≤ 105 := by
  cases kind <;> decide

/-- The server that the library starts has the client id of the library. -/
theorem forkedEnvironment_id (calls : EnvironmentCalls) (environment : Option Bytes) :
    (forkedEnvironment calls environment (famClientId environment)).getD [] = famClientId environment := by
  cases calls <;> cases environment <;> rfl

/-- A server that the library starts listens where the library connects to. -/
theorem forkedServer_address (kind : SocketKind) (calls : EnvironmentCalls) (environment : Option Bytes)
    (user : Bytes) :
    serverAddress kind none (forkedEnvironment calls environment (famClientId environment)) user =
      clientAddress kind environment (some user) := by
  have copied := copiedBytes_le kind
  apply sunPath_congr
  simp only [gamGetSocketPath, forkedEnvironment_id, gaminGetSocketPath, gaminGetUserName, Option.getD_some]
  have whole : copiedBytes kind ≤ maxPathLen - 1 := copied.trans (by decide)
  have beyond : copiedBytes kind ≤ tmpFam.length + 99 := copied.trans (by decide)
  rw [List.take_take, Nat.min_eq_left whole]
  simpa only [List.append_assoc] using
    (take_cut_middle tmpFam user (separator kind ++ famClientId environment) beyond).symm

/-! ## Sessions -/

/-- The bytes of the client id that the address has room for. -/
def sessionRoom (kind : SocketKind) (user : Bytes) : Nat :=
  copiedBytes kind - (tmpFam ++ user ++ separator kind).length

/-- What `strncpy` makes of a string tells how it starts. -/
theorem strncpy_inj {first second : Bytes} {size : Nat} (firstString : 0 ∉ first) (secondString : 0 ∉ second)
    (same : strncpy first size = strncpy second size) : first.take size = second.take size := by
  have front {source : Bytes} (string : 0 ∉ source) :
      (strncpy source size).takeWhile (· ≠ 0) = source.take size := by
    rw [strncpy, List.takeWhile_append_of_pos]
    · simp
    · intro byte member
      have other : byte ≠ 0 := by
        rintro rfl
        exact string (List.mem_of_mem_take member)
      simpa using other
  rw [← front firstString, same, front secondString]

theorem sunPath_eq_iff {kind : SocketKind} {first second : Bytes} (firstString : 0 ∉ first)
    (secondString : 0 ∉ second) :
    sunPath kind first = sunPath kind second ↔
      first.take (copiedBytes kind) = second.take (copiedBytes kind) := by
  refine ⟨fun same => ?_, sunPath_congr⟩
  apply strncpy_inj firstString secondString
  cases kind with
  | abstractName => exact List.append_cancel_right (List.cons.inj same).2
  | file => exact List.append_cancel_right same

/-- Two sessions of a user have the same socket just if their ids agree as far as the address has room. -/
theorem sessions_meet_iff (kind : SocketKind) {user first second : Bytes} (userString : 0 ∉ user)
    (firstString : 0 ∉ first) (secondString : 0 ∉ second) :
    clientAddress kind (some first) (some user) = clientAddress kind (some second) (some user) ↔
      first.take (sessionRoom kind user) = second.take (sessionRoom kind user) := by
  have separatorString : 0 ∉ separator kind := by cases kind <;> decide
  have string {id : Bytes} (idString : 0 ∉ id) : 0 ∉ gamGetSocketPath kind none (some id) user := by
    simp only [gamGetSocketPath, Option.getD_some, List.mem_append, not_or]
    exact ⟨⟨⟨by decide, userString⟩, separatorString⟩, idString⟩
  have address (id : Bytes) :
      clientAddress kind (some id) (some user) = sunPath kind (gamGetSocketPath kind none (some id) user) :=
    (forkedServer_address kind .neither (some id) user).symm
  rw [address, address, sunPath_eq_iff (string firstString) (string secondString)]
  simp only [gamGetSocketPath, Option.getD_some]
  generalize front : tmpFam ++ user ++ separator kind = begins
  rw [List.take_append, List.take_append, List.append_cancel_left_eq, sessionRoom, front]

/-- The user `bob` with the client ids `x` and `y`. -/
theorem bobSessions_meet :
    clientAddress .abstractName (some [120]) (some [98, 111, 98]) =
        clientAddress .abstractName (some [121]) (some [98, 111, 98]) ↔
      ([120] : Bytes).take (sessionRoom .abstractName [98, 111, 98]) =
        [121].take (sessionRoom .abstractName [98, 111, 98]) :=
  @sessions_meet_iff .abstractName [98, 111, 98] [120] [121] (by decide) (by decide) (by decide)

end Gamin.Rendezvous
