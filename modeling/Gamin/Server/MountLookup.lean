import Gamin.Inotify.Names
import Gamin.Library.LongestFirst
import Gamin.Server.MountTable

/-! # The file system that a path lives on

`gam_fs_find_fs` takes the first mount point of the sorted list that the path begins with.  That is the
longest one, and of several in one place the last of the table; but a path begins with more than the
directories it is in.
-/

namespace Gamin.Server

open Gamin Gamin.Inotify Gamin.Library

/-! ## What should be found -/

/-- The path is the mount point, or it goes on below it. -/
def Contains (mountPoint path : Bytes) : Prop :=
  path = mountPoint ∨
    (if mountPoint.getLast? = some slash then mountPoint else mountPoint ++ [slash]) <+: path

instance (mountPoint path : Bytes) : Decidable (Contains mountPoint path) :=
  inferInstanceAs (Decidable (_ ∨ _))

/-- The entries of `/etc/mtab` in their order. -/
def mtabEntries (contents : Bytes) : List GamFs := (contents.splitOn 10).filterMap mtabLine

/-- Of the entries that contain the path, one with the longest mount point, and of these the last; none if
no entry contains the path. -/
def IsNearest (entries : List GamFs) (path : Bytes) : Option GamFs → Prop
  | none => ∀ fs ∈ entries, ¬ Contains fs.path path
  | some fs => Contains fs.path path ∧
      (∀ other ∈ entries, Contains other.path path → other.path.length ≤ fs.path.length) ∧
      ∃ before after, entries = before ++ fs :: after ∧ ∀ other ∈ after, other.path ≠ fs.path

/-- The server, once it has read the table, while the time stamp stays the same. -/
def tableRead (state : FsState) (mtime : Nat) (contents : Bytes) (later : Nat → Option Bytes) : Mounts where
  state := gamFsScanMtab { state with initialized := true, mtabMtime := mtime } ⟨mtime, some contents⟩
  mtab call := ⟨mtime, later call⟩

/-- The file system that is found is the one that the path lives on, and its properties are used. -/
structure LivesOn (mounts : Mounts) (entries : List GamFs) (path : Bytes) (found : Option GamFs) : Prop where
  nearest : IsNearest entries path found
  monType : (gamFsGetMonType mounts path).2 =
    ((found.bind fun fs => mounts.state.fsProps.find? (·.fsname = fs.fsname)).map (·.monType)).getD
      mounts.state.defaultType
  pollTimeout : (gamFsGetPollTimeout mounts path).2 =
    ((found.bind fun fs => mounts.state.fsProps.find? (·.fsname = fs.fsname)).map (·.pollTimeout)).getD
      defaultPollTimeout

/-- Whenever the path begins with a mount point that does not contain it, a longer one does. -/
def TextFits (entries : List GamFs) (path : Bytes) : Prop :=
  ∀ fs ∈ entries, fs.path <+: path → Contains fs.path path ∨
    ∃ other ∈ entries, Contains other.path path ∧ fs.path.length < other.path.length

instance (entries : List GamFs) (path : Bytes) : Decidable (TextFits entries path) :=
  inferInstanceAs (Decidable (∀ fs ∈ entries, fs.path <+: path → _))

/-! ## What is found -/

theorem Contains.isPrefix {mountPoint path : Bytes} (contains : Contains mountPoint path) : mountPoint <+: path := by
  cases contains with
  | inl same => exact same ▸ List.prefix_refl _
  | inr below =>
    split at below
    · exact below
    · exact (List.prefix_append _ _).trans below

/-- Two beginnings of one length are the same. -/
theorem prefix_unique {first second path : Bytes} (isFirst : first <+: path) (isSecond : second <+: path)
    (same : first.length = second.length) : first = second :=
  (List.prefix_of_prefix_length_le isFirst isSecond (Nat.le_of_eq same)).eq_of_length same

theorem tableRead_init (state : FsState) (mtime : Nat) (contents : Bytes) (later : Nat → Option Bytes) :
    (tableRead state mtime contents later).init.init.state = (tableRead state mtime contents later).state := by
  have unchanged (call : Nat) : gamFsInit (tableRead state mtime contents later).state ⟨mtime, later call⟩ =
      (tableRead state mtime contents later).state := by
    simp [gamFsInit, gamFsRefresh, tableRead, gamFsScanMtab]
  simp only [Mounts.init]
  rw [show (tableRead state mtime contents later).mtab 0 = ⟨mtime, later 0⟩ from rfl, unchanged]
  exact unchanged 1

theorem gamFsFindFs_tableRead (state : FsState) (mtime : Nat) (contents : Bytes) (later : Nat → Option Bytes)
    (path : Bytes) : gamFsFindFs (tableRead state mtime contents later).state path =
      (largestFirst (fun fs : GamFs => fs.path.length) (mtabEntries contents).reverse).find?
        (·.path.isPrefixOf path) :=
  rfl

/-- The longest mount point that the path begins with, and of several in one place the last. -/
theorem gamFsFindFs_longest {state : FsState} {mtime : Nat} {contents : Bytes} {later : Nat → Option Bytes}
    {path : Bytes} {fs : GamFs}
    (found : gamFsFindFs (tableRead state mtime contents later).state path = some fs) :
    fs.path <+: path ∧
      (∀ other ∈ mtabEntries contents, other.path <+: path → other.path.length ≤ fs.path.length) ∧
      ∃ before after, mtabEntries contents = before ++ fs :: after ∧ ∀ other ∈ after, other.path ≠ fs.path := by
  rw [gamFsFindFs_tableRead] at found
  obtain ⟨begins, longest, front, back, split, first⟩ := find_largestFirst _ found
  have beginsWith : fs.path <+: path := List.isPrefixOf_iff_prefix.mp begins
  refine ⟨beginsWith, fun other member isPrefix => ?_, back.reverse, front.reverse, ?_, fun other member same => ?_⟩
  · exact longest other (List.mem_reverse.mpr member) (List.isPrefixOf_iff_prefix.mpr isPrefix)
  · have whole := congrArg List.reverse split
    rw [List.reverse_reverse, List.reverse_append, List.reverse_cons, List.append_assoc] at whole
    exact whole
  · refine first other (List.mem_reverse.mp member) ?_ (congrArg List.length same)
    exact List.isPrefixOf_iff_prefix.mpr (same ▸ beginsWith)

theorem gamFsFindFs_none {state : FsState} {mtime : Nat} {contents : Bytes} {later : Nat → Option Bytes}
    {path : Bytes} (absent : gamFsFindFs (tableRead state mtime contents later).state path = none) :
    ∀ fs ∈ mtabEntries contents, ¬ fs.path <+: path := by
  intro fs member isPrefix
  rw [gamFsFindFs_tableRead] at absent
  have never := List.find?_eq_none.mp absent fs
    ((mem_largestFirst _).mpr (List.mem_reverse.mpr member))
  exact never (List.isPrefixOf_iff_prefix.mpr isPrefix)

/-- What is found is the nearest file system exactly if beginning with a mount point is being below it. -/
theorem isNearest_iff (state : FsState) (mtime : Nat) (contents : Bytes) (later : Nat → Option Bytes)
    (path : Bytes) : IsNearest (mtabEntries contents) path
      (gamFsFindFs (tableRead state mtime contents later).state path) ↔ TextFits (mtabEntries contents) path := by
  cases found : gamFsFindFs (tableRead state mtime contents later).state path with
  | none =>
    have absent := gamFsFindFs_none found
    exact ⟨fun _ fs member begins => absurd begins (absent fs member),
      fun _ fs member contains => absent fs member contains.isPrefix⟩
  | some fs =>
    obtain ⟨begins, longest, before, after, split, last⟩ := gamFsFindFs_longest found
    have member : fs ∈ mtabEntries contents := by
      rw [split]
      exact List.mem_append_right _ List.mem_cons_self
    constructor
    · rintro ⟨contains, _⟩ other memberOther beginsOther
      -- a mount point that is as long is the same
      cases Nat.lt_or_eq_of_le (longest other memberOther beginsOther) with
      | inl shorter => exact .inr ⟨fs, member, contains, shorter⟩
      | inr same => exact .inl (prefix_unique beginsOther begins same ▸ contains)
    · intro fits
      cases fits fs member begins with
      | inl contains =>
        exact ⟨contains, fun other memberOther containsOther =>
          longest other memberOther containsOther.isPrefix, before, after, split, last⟩
      | inr longer =>
        obtain ⟨other, memberOther, containsOther, long⟩ := longer
        exact absurd (longest other memberOther containsOther.isPrefix) (Nat.not_le.mpr long)

/-- Whatever the table says: the properties are those of the file system that the path lives on exactly if
the path begins with no mount point that it is not below, unless it is below a longer one. -/
theorem livesOn_iff (state : FsState) (mtime : Nat) (contents : Bytes) (later : Nat → Option Bytes)
    (path : Bytes) :
    LivesOn (tableRead state mtime contents later) (mtabEntries contents) path
        (gamFsFindFs (tableRead state mtime contents later).state path) ↔
      TextFits (mtabEntries contents) path := by
  rw [← isNearest_iff state mtime contents later path]
  refine ⟨LivesOn.nearest, fun nearest => ⟨nearest, ?_, ?_⟩⟩
  · simp only [gamFsGetMonType, tableRead_init, gamFsFindFsProps]
    cases (gamFsFindFs (tableRead state mtime contents later).state path).bind _ <;> rfl
  · simp only [gamFsGetPollTimeout, tableRead_init, gamFsFindFsProps]
    cases (gamFsFindFs (tableRead state mtime contents later).state path).bind _ <;> rfl

/-- The table has `/` with ext3 and `/mnt` with nfs, and the path is `/mnt2`. -/
theorem not_livesOn : ¬ ∀ state mtime contents later path,
    LivesOn (tableRead state mtime contents later) (mtabEntries contents) path
      (gamFsFindFs (tableRead state mtime contents later).state path) := by
  intro lives
  have fits := (isNearest_iff _ _ _ _ _).mp (lives
    { defaultType := .kernel, initialized := true, filesystems := [], fsProps := [], mtabMtime := 0 } 1
    ([97, 32, 47, 32, 101, 120, 116, 51, 10] ++ [98, 32, 47, 109, 110, 116, 32, 110, 102, 115, 10])
    (fun _ => none) [47, 109, 110, 116, 50]).nearest
  revert fits
  decide +kernel

end Gamin.Server
