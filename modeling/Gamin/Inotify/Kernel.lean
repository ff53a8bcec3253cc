import Gamin.Inotify.Names

/-! # The kernel side of inotify

Watches are registered by inode, and a watch descriptor is never given out twice.  When an
inode is deleted its watch is gone, and `IN_DELETE_SELF` is queued as the last event that
matters.
-/

namespace Gamin.Inotify

open Gamin Gamin.Server

/-! ## Events -/

def inModify : Nat := 0x2
def inAttrib : Nat := 0x4
def inMovedFrom : Nat := 0x40
def inMovedTo : Nat := 0x80
def inCreate : Nat := 0x100
def inDelete : Nat := 0x200
def inDeleteSelf : Nat := 0x400
def inMoveSelf : Nat := 0x800
def inUnmount : Nat := 0x2000
def inIgnored : Nat := 0x8000
def inIsdir : Nat := 0x40000000

/-- `IP_INOTIFY_MASK`. -/
def ipInotifyMask : Nat :=
  inModify ||| inAttrib ||| inMovedFrom ||| inMovedTo ||| inDelete ||| inCreate |||
    inDeleteSelf ||| inUnmount ||| inMoveSelf

/-- What `ik_event_t` says of one event.  The name is empty when the kernel gave none. -/
structure IkReport where
  wd : Nat
  mask : Nat
  name : Bytes
  deriving DecidableEq, Repr

/-- `ik_event_t`: a moved file is reported with the other half of the move as its pair. -/
structure IkEvent extends IkReport where
  pair : Option IkReport
  deriving DecidableEq, Repr

def IkReport.has (report : IkReport) (bits : Nat) : Bool :=
  report.mask &&& bits ≠ 0

/-- The event that says that the inode behind a watch is gone. -/
def IkReport.endsWatch (report : IkReport) : Bool :=
  ¬ report.has inIgnored ∧ report.has inDeleteSelf

/-- `ih_mask_to_EventType`. -/
def ihMaskToEventType (mask : Nat) : GaminEventType :=
  let kind := mask &&& (0xFFFFFFFF ^^^ inIsdir)
  if kind = inModify then .changed
  else if kind = inAttrib then .changed
  else if kind = inMoveSelf ∨ kind = inMovedFrom ∨ kind = inDelete ∨ kind = inDeleteSelf then
    .deleted
  else if kind = inCreate ∨ kind = inMovedTo then .created
  else .invalid

/-! ## Watches -/

/-- What looking up a path with `inotify_add_watch` comes to. -/
inductive WatchAnswer where
  | watched (inode : Nat)
  | noent
  | failed
  deriving DecidableEq, Repr

/-- The watches of one inotify instance, and the descriptors whose inode has been deleted
but whose `IN_DELETE_SELF` has not been dispatched. -/
structure Kernel where
  watches : List (Nat × Nat)
  deleteSelfQueued : List Nat
  nextWd : Nat
  deriving DecidableEq, Repr

def Kernel.new : Kernel := { watches := [], deleteSelfQueued := [], nextWd := 1 }

/-- A successful `inotify_add_watch`: an inode that is watched keeps its descriptor. -/
def Kernel.addWatch (kernel : Kernel) (inode : Nat) : Kernel × Nat :=
  match kernel.watches.lookup inode with
  | some wd => (kernel, wd)
  | none =>
    ({ kernel with
        watches := (inode, kernel.nextWd) :: kernel.watches
        nextWd := kernel.nextWd + 1 }, kernel.nextWd)

/-- `inotify_rm_watch`, which fails without effect for a descriptor that is not in use. -/
def Kernel.rmWatch (kernel : Kernel) (wd : Nat) : Kernel :=
  { kernel with watches := kernel.watches.filter (·.2 ≠ wd) }

/-- The deletion of an inode. -/
def Kernel.deleteInode (kernel : Kernel) (inode : Nat) : Kernel :=
  { kernel with
    watches := kernel.watches.filter (·.1 ≠ inode)
    deleteSelfQueued :=
      (kernel.watches.filter (·.1 = inode)).map Prod.snd ++ kernel.deleteSelfQueued }

/-- `IN_DELETE_SELF` has been dispatched. -/
def Kernel.deleteSelfDone (kernel : Kernel) (wd : Nat) : Kernel :=
  { kernel with deleteSelfQueued := kernel.deleteSelfQueued.filter (· ≠ wd) }

/-- The kernel still reports on this descriptor. -/
def Kernel.Registered (kernel : Kernel) (wd : Nat) : Prop :=
  wd ∈ kernel.watches.map Prod.snd ∨ wd ∈ kernel.deleteSelfQueued

instance (kernel : Kernel) (wd : Nat) : Decidable (kernel.Registered wd) :=
  inferInstanceAs (Decidable (_ ∨ _))

theorem Kernel.addWatch_registered (kernel : Kernel) (inode : Nat) :
    (kernel.addWatch inode).1.Registered (kernel.addWatch inode).2 := by
  unfold addWatch
  split
  case h_1 wd found =>
    obtain ⟨before, after, split, _⟩ := List.lookup_eq_some_iff.mp found
    exact .inl (by simp [split])
  case h_2 => exact .inl (by simp)

theorem Kernel.Registered.addWatch {kernel : Kernel} {wd : Nat} (registered : kernel.Registered wd)
    (inode : Nat) : (kernel.addWatch inode).1.Registered wd := by
  unfold Kernel.addWatch
  split
  · exact registered
  · exact registered.imp (List.mem_cons_of_mem _) id

theorem Kernel.Registered.rmWatch {kernel : Kernel} {wd other : Nat}
    (registered : kernel.Registered wd) (different : wd ≠ other) :
    (kernel.rmWatch other).Registered wd := by
  rcases registered with live | queued
  · obtain ⟨⟨inode, descriptor⟩, watch, rfl⟩ := List.mem_map.mp live
    exact .inl (List.mem_map_of_mem (List.mem_filter.mpr ⟨watch, by simpa using different⟩))
  · exact .inr queued

theorem Kernel.Registered.deleteInode {kernel : Kernel} {wd : Nat}
    (registered : kernel.Registered wd) (inode : Nat) :
    (kernel.deleteInode inode).Registered wd := by
  rcases registered with live | queued
  · obtain ⟨watch, member, rfl⟩ := List.mem_map.mp live
    rcases eq_or_ne watch.1 inode with same | different
    · exact .inr (List.mem_append_left _
        (List.mem_map_of_mem (List.mem_filter.mpr ⟨member, by simpa using same⟩)))
    · exact .inl (List.mem_map_of_mem (List.mem_filter.mpr ⟨member, by simpa using different⟩))
  · exact .inr (List.mem_append_right _ queued)

theorem Kernel.Registered.deleteSelfDone {kernel : Kernel} {wd other : Nat}
    (registered : kernel.Registered wd) (different : wd ≠ other) :
    (kernel.deleteSelfDone other).Registered wd :=
  registered.imp id fun queued => List.mem_filter.mpr ⟨queued, by simpa using different⟩

end Gamin.Inotify
