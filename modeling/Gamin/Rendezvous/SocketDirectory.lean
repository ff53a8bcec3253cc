import Gamin.Library.Interference
import Gamin.Protocol

/-! # The directory of the socket

Without abstract sockets the socket is a file in the directory `/tmp/fam-user`.  Anybody can make files in `/tmp`,
but its sticky bit keeps a user from removing those of another one.  Before the server binds its socket and the
library connects to it they look whether the directory and the socket are their user's own (`gam_check_secure_path`,
`gamin_check_secure_path`).  Other users may be at work between any two of their system calls.
-/

namespace Gamin.Rendezvous

open Gamin Gamin.Library

/-! ## The part of the file system that is looked at -/

inductive FileKind where
  | directory
  | socket
  | other
  deriving DecidableEq, Repr

/-- What is read of a `struct stat`; the mode without the kind of the file. -/
structure FileStatus where
  uid : Nat
  kind : FileKind
  mode : Nat
  deriving DecidableEq, Repr

/-- What has a name in `/tmp` or in the socket directory.  A symbolic link leads to what is there. -/
inductive TmpEntry where
  | file (status : FileStatus)
  | link (owner : Nat) (target : Option FileStatus)
  deriving DecidableEq, Repr

def TmpEntry.owner : TmpEntry → Nat
  | .file status => status.uid
  | .link owner _ => owner

/-- A link is none, whatever it leads to. -/
def TmpEntry.isDirectory : TmpEntry → Bool
  | .file status => status.kind = .directory
  | .link _ _ => false

/-- The status of the entry, links followed. -/
def TmpEntry.followed : TmpEntry → Option FileStatus
  | .file status => some status
  | .link _ target => target

/-- Why `mkdir` fails. -/
inductive MkdirError where
  | exist
  | access
  | nameTooLong
  | other
  deriving DecidableEq, Repr

/-- The entry of the directory; the entry with the name of the socket in the directory that this leads to, and whether
there are others in it (the sockets of other sessions); an error that the next call meets for some other reason (no
space is left, the file system is read-only). -/
structure SocketSite where
  dir : Option TmpEntry
  socketEntry : Option TmpEntry
  crowded : Bool
  refusal : Option MkdirError
  deriving DecidableEq, Repr

/-- What the path of the socket leads to in the directory. -/
def SocketSite.socket (site : SocketSite) : Option FileStatus := site.socketEntry.bind (·.followed)

/-- Nothing is in the directory. -/
def SocketSite.isEmpty (site : SocketSite) : Bool := site.socketEntry.isNone && !site.crowded

section

variable (me umask : Nat) (protectedLinks : Bool)

/-- The owner of `/tmp` is root. -/
def Trusted (uid : Nat) : Prop := uid = me ∨ uid = 0

instance (uid : Nat) : Decidable (Trusted me uid) := inferInstanceAs (Decidable (_ ∨ _))

/-- What the entry leads to.  With protected links nobody follows the link of a third user in a sticky directory. -/
def TmpEntry.leadsTo : TmpEntry → Option FileStatus
  | .file status => some status
  | .link owner target => if protectedLinks ∧ ¬ Trusted me owner then none else target

/-- The entry that the path of the socket names, if the way to it is a directory. -/
def SocketSite.entered (site : SocketSite) : Option TmpEntry :=
  match site.dir.bind (·.leadsTo me protectedLinks) with
  | some status => if status.kind = .directory then site.socketEntry else none
  | none => none

/-- The bits of `S_IRWXG | S_IRWXO`, and those of `S_IRWXU`. -/
def othersBits : Nat := 0o77
def ownerBits : Nat := 0o700

/-! ## The system calls -/

def SocketSite.mkdir (site : SocketSite) : Option MkdirError × SocketSite :=
  match site.dir, site.refusal with
  | some _, _ => (some .exist, site)
  | none, some error => (some error, site)
  | none, none =>
    (none, { site with
      dir := some (.file { uid := me, kind := .directory, mode := ownerBits &&& (0o777 - umask % 0o1000) })
      socketEntry := none
      crowded := false })

def SocketSite.statDir (site : SocketSite) : Option FileStatus × SocketSite :=
  (site.dir.bind (·.leadsTo me protectedLinks), site)

def SocketSite.statSocket (site : SocketSite) : Option FileStatus × SocketSite :=
  ((site.entered me protectedLinks).bind (·.followed), site)

/-- The sticky bit leaves an entry to its owner and to root. -/
def SocketSite.MayRemove (site : SocketSite) (entry : TmpEntry) : Prop :=
  site.refusal = none ∧ (entry.owner = me ∨ me = 0)

instance (site : SocketSite) (entry : TmpEntry) : Decidable (site.MayRemove me entry) :=
  inferInstanceAs (Decidable (_ ∧ (_ ∨ _)))

def SocketSite.withoutDir (site : SocketSite) : SocketSite :=
  { site with dir := none, socketEntry := none, crowded := false }

def SocketSite.rmdir (site : SocketSite) : Bool × SocketSite :=
  match site.dir with
  | some entry =>
    -- `ENOTDIR` for all that is not a directory, `ENOTEMPTY`
    if entry.isDirectory ∧ site.isEmpty ∧ site.MayRemove me entry then (true, site.withoutDir) else (false, site)
  | none => (false, site)

def SocketSite.unlinkDir (site : SocketSite) : Bool × SocketSite :=
  match site.dir with
  | some entry =>
    -- `EISDIR`
    if ¬ entry.isDirectory ∧ site.MayRemove me entry then (true, site.withoutDir) else (false, site)
  | none => (false, site)

def SocketSite.unlinkSocket (site : SocketSite) : Bool × SocketSite :=
  match site.entered me protectedLinks with
  | some entry =>
    if ¬ entry.isDirectory ∧ site.refusal.isNone then (true, { site with socketEntry := none }) else (false, site)
  | none => (false, site)

/-! ## The checks of both sides -/

/-- The four checks on a directory that is there. -/
def SecureDirectory (status : FileStatus) : Prop :=
  status.uid = me ∧ status.kind = .directory ∧ status.mode &&& othersBits = 0 ∧ status.mode &&& ownerBits = ownerBits

/-- The three checks on a socket that is there. -/
def SecureSocket (status : FileStatus) : Prop :=
  status.uid = me ∧ status.kind = .socket ∧ status.mode &&& othersBits = 0

instance (status : FileStatus) : Decidable (SecureDirectory me status) :=
  inferInstanceAs (Decidable (_ ∧ _ ∧ _ ∧ _))

instance (status : FileStatus) : Decidable (SecureSocket me status) := inferInstanceAs (Decidable (_ ∧ _ ∧ _))

/-- The end of the checks of the directory: an unsafe path is removed. -/
def removeUnsafe : Thread SocketSite Bool := do
  if ← call (SocketSite.rmdir me) then return true
  call (SocketSite.unlinkDir me)

/-- `gam_check_secure_dir`, with the tries that are left of 5. -/
def gamCheckSecureDir : (tries : Nat) → Thread SocketSite Bool
  | 0 => return false
  | tries + 1 => do
    match ← call (SocketSite.mkdir me umask) with
    | none => return true
    | some .exist =>
      match ← call (SocketSite.statDir me protectedLinks) with
      | none => return false
      | some status =>
        if SecureDirectory me status then return true
        if ← removeUnsafe me then gamCheckSecureDir tries else return false
    | some _ => return false

/-- `gam_check_secure_path`. -/
def gamCheckSecurePath : Thread SocketSite Bool := do
  if ← gamCheckSecureDir me umask protectedLinks 5 then
    match ← call (SocketSite.statSocket me protectedLinks) with
    | none => return true
    | some status => if SecureSocket me status then return true else call (SocketSite.unlinkSocket me protectedLinks)
  else return false

/-- `gamin_check_secure_dir`. -/
def gaminCheckSecureDir : Thread SocketSite Int := do
  match ← call (SocketSite.statDir me protectedLinks) with
  | none => return 0
  | some status =>
    if SecureDirectory me status then return 1
    if ← removeUnsafe me then return 0 else return -1

/-- `gamin_check_secure_path`. -/
def gaminCheckSecurePath : Thread SocketSite Int := do
  let result ← gaminCheckSecureDir me protectedLinks
  if result ≤ 0 then return result
  match ← call (SocketSite.statSocket me protectedLinks) with
  | none => return 0
  | some status =>
    if SecureSocket me status then return 1
    if ← call (SocketSite.unlinkSocket me protectedLinks) then return 0 else return -1

end

end Gamin.Rendezvous
