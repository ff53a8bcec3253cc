import Gamin.Protocol

/-! # The mount table

`gam_fs.c`: the list of mounted file systems is read from `/etc/mtab` whenever its time stamp
differs from the remembered one, and the kind of monitoring for a path follows from the file
system the path lies on.  What a look at `/etc/mtab` finds is an argument of each operation.
-/

namespace Gamin.Server

open Gamin

/-- `gam_fs_mon_type`. -/
inductive GamFsMonType where
  | kernel
  | poll
  | none
  deriving DecidableEq, Repr

/-- `gam_fs`: a line of the mount table. -/
structure GamFs where
  path : Bytes
  fsname : Bytes
  deriving DecidableEq, Repr

structure GamFsProperties where
  fsname : Bytes
  monType : GamFsMonType
  pollTimeout : Nat
  deriving DecidableEq, Repr

/-- A look at `/etc/mtab`: the `st_mtime` that is found after `stat`, and the contents if the
file can be read. -/
structure MtabView where
  mtime : Nat
  contents : Option Bytes
  deriving DecidableEq, Repr

/-- The static variables of `gam_fs.c`, and `GFS_MT_DEFAULT`, which the build chooses. -/
structure FsState where
  defaultType : GamFsMonType
  initialized : Bool
  filesystems : List GamFs
  fsProps : List GamFsProperties
  mtabMtime : Nat
  deriving DecidableEq, Repr

/-- `DEFAULT_POLL_TIMEOUT` of `gam_fs.c`. -/
def defaultPollTimeout : Nat := 0

/-! ## Reading the table -/

/-- A line of the table, if it has three words of which the second and third are not empty. -/
def mtabLine (line : Bytes) : Option GamFs :=
  match line.splitOn 32 with
  | _ :: path :: fsname :: _ =>
    if path = [] ∨ fsname = [] then none else some { path := path, fsname := fsname }
  | _ => none

/-- `gam_fs_scan_mtab`: longer mount points come first. -/
def gamFsScanMtab (state : FsState) (mtab : MtabView) : FsState :=
  match mtab.contents with
  | none => state
  | some contents =>
    let newFilesystems := ((contents.splitOn 10).filterMap mtabLine).reverse
    { state with
      filesystems := newFilesystems.mergeSort fun a b => b.path.length ≤ a.path.length }

/-- `gam_fs_init` when the properties are already there. -/
def gamFsRefresh (state : FsState) (mtab : MtabView) : FsState :=
  let state := if mtab.mtime ≠ state.mtabMtime then gamFsScanMtab state mtab else state
  { state with mtabMtime := mtab.mtime }

/-- `gam_fs_set`.  A negative timeout leaves the one that is there. -/
def gamFsSet (state : FsState) (mtab : MtabView) (fsname : Bytes) (type : GamFsMonType)
    (pollTimeout : Int) : FsState :=
  let state := gamFsRefresh state mtab
  if state.fsProps.any (·.fsname = fsname) then
    { state with
      fsProps := state.fsProps.map fun prop =>
        if prop.fsname = fsname then
          { prop with
            monType := type
            pollTimeout := if pollTimeout ≥ 0 then pollTimeout.toNat else prop.pollTimeout }
        else prop }
  else
    { state with
      fsProps := {
        fsname := fsname
        monType := type
        pollTimeout := if pollTimeout ≥ 0 then pollTimeout.toNat else defaultPollTimeout } ::
          state.fsProps }

/-- The file systems with properties of their own: ext3, ext2, reiser4, reiserfs, novfs, nfs
and nfs4. -/
def initialProperties (defaultType : GamFsMonType) : List (Bytes × GamFsMonType × Int) :=
  [([101, 120, 116, 51], defaultType, 0), ([101, 120, 116, 50], defaultType, 0),
    ([114, 101, 105, 115, 101, 114, 52], defaultType, 0),
    ([114, 101, 105, 115, 101, 114, 102, 115], defaultType, 0),
    ([110, 111, 118, 102, 115], .poll, 30), ([110, 102, 115], .poll, 5),
    ([110, 102, 115, 52], .poll, 5)]

/-- `gam_fs_init`. -/
def gamFsInit (state : FsState) (mtab : MtabView) : FsState :=
  if state.initialized then gamFsRefresh state mtab
  else
    let state := (initialProperties state.defaultType).foldl
      (fun state (fsname, type, timeout) => gamFsSet state mtab fsname type timeout)
      { state with initialized := true }
    gamFsScanMtab { state with mtabMtime := mtab.mtime } mtab

/-! ## The kind of monitoring for a path -/

/-- `gam_fs_find_fs` after its call of `gam_fs_init`. -/
def gamFsFindFs (state : FsState) (path : Bytes) : Option GamFs :=
  state.filesystems.find? (·.path.isPrefixOf path)

/-- `gam_fs_find_fs_props`. -/
def gamFsFindFsProps (state : FsState) (path : Bytes) : Option GamFsProperties :=
  (gamFsFindFs state path).bind fun fs => state.fsProps.find? (·.fsname = fs.fsname)

/-- The mount table as the server sees it, with all looks at `/etc/mtab` still to come. -/
structure Mounts where
  state : FsState
  mtab : Nat → MtabView

def Mounts.init (mounts : Mounts) : Mounts where
  state := gamFsInit mounts.state (mounts.mtab 0)
  mtab call := mounts.mtab (call + 1)

/-- `gam_fs_get_mon_type`, which looks at the table itself and once more to find the file
system. -/
def gamFsGetMonType (mounts : Mounts) (path : Bytes) : Mounts × GamFsMonType :=
  let mounts := mounts.init.init
  match gamFsFindFsProps mounts.state path with
  | none => (mounts, mounts.state.defaultType)
  | some props => (mounts, props.monType)

/-- `gam_fs_get_poll_timeout`. -/
def gamFsGetPollTimeout (mounts : Mounts) (path : Bytes) : Mounts × Nat :=
  let mounts := mounts.init.init
  match gamFsFindFsProps mounts.state path with
  | none => (mounts, defaultPollTimeout)
  | some props => (mounts, props.pollTimeout)

end Gamin.Server
