import Gamin.Server.Subscription
import Mathlib.Data.List.DropRight

/-! # Path names

The GLib functions on path names that the inotify backend uses, and the split of a
subscribed path into a directory and a file name (`inotify-sub.c`).
-/

namespace Gamin.Inotify

open Gamin Gamin.Server

def slash : UInt8 := 47

/-- `g_path_get_dirname`. -/
def gPathGetDirname (path : Bytes) : Bytes :=
  let head := path.rdropWhile (· ≠ slash)
  if head = [] then [46]
  else
    let core := head.rdropWhile (· = slash)
    if core = [] then [slash] else core

/-- `g_path_get_basename`. -/
def gPathGetBasename (path : Bytes) : Bytes :=
  if path = [] then [46]
  else
    let core := path.rdropWhile (· = slash)
    if core = [] then [slash] else core.rtakeWhile (· ≠ slash)

/-- `g_build_filename` of a directory and a name without separators. -/
def gBuildFilename (dir name : Bytes) : Bytes :=
  if name = [] then dir
  else
    let core := dir.rdropWhile (· = slash)
    if core = [] then dir ++ name else core ++ slash :: name

/-- The next ancestor that the loop of `ip_watch_parent` tries: the path up to its last
separator, but never less than one that starts with its only separator. -/
def parentPath (path : Bytes) : Option Bytes :=
  if slash ∈ path then
    let cut := (path.rdropWhile (· ≠ slash)).dropLast
    some (if cut = [] then path else cut)
  else none

/-- `ih_sub_t`, identified by its address. -/
structure IhSub where
  address : Pointer
  pathname : Bytes
  dirname : Bytes
  filename : Option Bytes
  isDir : Bool
  usersubdata : GamSubscription
  deriving DecidableEq, Repr

/-- `ih_sub_fix_dirname` looks for a separator where the string ends and finds none. -/
def ihSubFixDirname (dirname : Bytes) : Bytes :=
  if dirname[dirname.length]? = some slash then dirname.take dirname.length else dirname

/-- `ih_sub_new` with the setup of the two names. -/
def ihSubNew (address : Pointer) (pathname : Bytes) (isDir : Bool) (userdata : GamSubscription) :
    IhSub where
  address := address
  pathname := pathname
  dirname := ihSubFixDirname (if isDir then pathname else gPathGetDirname pathname)
  filename := if isDir then none else some (gPathGetBasename pathname)
  isDir := isDir
  usersubdata := userdata

theorem ihSubFixDirname_eq (dirname : Bytes) : ihSubFixDirname dirname = dirname := by
  simp [ihSubFixDirname]

end Gamin.Inotify
