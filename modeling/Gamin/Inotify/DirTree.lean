import Gamin.Inotify.Backend
import Mathlib.Data.List.Induction

/-! # A tree of directories

Paths as lists of names, how the path functions of the backend act on paths in normal form,
and a file system that consists of directories only.  It answers `inotify_add_watch`, and
it is changed by creating and removing one directory at a time.
-/

namespace Gamin.Inotify

open Gamin Gamin.Server

/-! ## Paths in normal form -/

abbrev Path := List Bytes

/-- The names of a path are neither empty nor do they contain a separator. -/
def ValidPath (path : Path) : Prop := ∀ name ∈ path, name ≠ [] ∧ slash ∉ name

instance (path : Path) : Decidable (ValidPath path) :=
  inferInstanceAs (Decidable (∀ name ∈ path, _))

/-- Each name with a separator in front. -/
def joined (path : Path) : Bytes := path.flatMap (slash :: ·)

/-- The normal form of an absolute path. -/
def render (path : Path) : Bytes := if path = [] then [slash] else joined path

/-- The names of any path, as the kernel reads it. -/
def components (path : Bytes) : Path := (path.splitOnP (· = slash)).filter (· ≠ [])

@[simp] theorem joined_nil : joined [] = [] := rfl

@[simp] theorem joined_concat (path : Path) (name : Bytes) :
    joined (path ++ [name]) = joined path ++ slash :: name := by
  simp [joined]

@[simp] theorem render_nil : render [] = [slash] := rfl

theorem render_of_ne_nil {path : Path} (nonempty : path ≠ []) : render path = joined path :=
  if_neg nonempty

@[simp] theorem render_concat (path : Path) (name : Bytes) :
    render (path ++ [name]) = joined path ++ slash :: name := by
  rw [render_of_ne_nil (by simp), joined_concat]

theorem validPath_concat {path : Path} {name : Bytes} :
    ValidPath (path ++ [name]) ↔ ValidPath path ∧ name ≠ [] ∧ slash ∉ name := by
  simp [ValidPath, or_imp, forall_and, and_assoc, and_left_comm]

theorem ValidPath.ancestor {path ancestor : Path} (valid : ValidPath path)
    (isAncestor : ancestor <+: path) : ValidPath ancestor :=
  fun name member => valid name (isAncestor.subset member)

theorem components_joined {path : Path} (valid : ValidPath path) :
    components (joined path) = path := by
  induction path using List.reverseRecOn with
  | nil => simp [components]
  | append_singleton path name inductionHypothesis =>
    obtain ⟨validPath, nonempty, noSlash⟩ := validPath_concat.mp valid
    have here : name.splitOnP (· = slash) = [name] :=
      List.splitOnP_eq_singleton (by
        intro byte member
        exact decide_eq_false (ne_of_mem_of_not_mem member noSlash))
    have before := inductionHypothesis validPath
    unfold components at before ⊢
    rw [joined_concat, List.splitOnP_append_cons _ _ (by simp), List.filter_append, before, here]
    simp [nonempty]

theorem components_render {path : Path} (valid : ValidPath path) :
    components (render path) = path := by
  rcases eq_or_ne path [] with rfl | nonempty
  · decide
  · rw [render_of_ne_nil nonempty, components_joined valid]

theorem render_injective {first second : Path} (validFirst : ValidPath first)
    (validSecond : ValidPath second) (same : render first = render second) : first = second := by
  rw [← components_render validFirst, same, components_render validSecond]

theorem joined_getLast {path : Path} (valid : ValidPath path) (nonempty : joined path ≠ []) :
    (joined path).getLast nonempty ≠ slash := by
  induction path using List.reverseRecOn with
  | nil => contradiction
  | append_singleton path name _ =>
    obtain ⟨_, nameNonempty, noSlash⟩ := validPath_concat.mp valid
    simp only [joined_concat]
    rw [List.getLast_append_of_ne_nil (by simp) (List.cons_ne_nil _ _),
      List.getLast_cons nameNonempty]
    exact ne_of_mem_of_not_mem (List.getLast_mem nameNonempty) noSlash

/-- Dropping separators at the end leaves a path in normal form alone. -/
theorem joined_rdropWhile {path : Path} (valid : ValidPath path) :
    (joined path).rdropWhile (· = slash) = joined path := by
  rw [List.rdropWhile_eq_self_iff]
  intro nonempty
  simpa using joined_getLast valid nonempty

theorem joined_eq_nil {path : Path} : joined path = [] ↔ path = [] := by
  cases path <;> simp [joined]

/-- Dropping the last name leaves the path of the parent with a separator. -/
theorem joined_concat_rdropWhile (path : Path) {name : Bytes} (noSlash : slash ∉ name) :
    (joined path ++ slash :: name).rdropWhile (· ≠ slash) = joined path ++ [slash] := by
  have dropped : ∀ name : Bytes, slash ∉ name →
      (joined path ++ [slash] ++ name).rdropWhile (· ≠ slash) = joined path ++ [slash] := by
    intro name noSlash
    induction name using List.reverseRecOn with
    | nil => simp
    | append_singleton name byte inductionHypothesis =>
      simp only [List.mem_append, List.mem_singleton, not_or] at noSlash
      rw [← List.append_assoc, List.rdropWhile_concat_pos _ _ _ (by simpa using Ne.symm noSlash.2),
        inductionHypothesis noSlash.1]
  simpa using dropped name noSlash

theorem gPathGetDirname_render {path : Path} {name : Bytes} (valid : ValidPath (path ++ [name])) :
    gPathGetDirname (render (path ++ [name])) = render path := by
  obtain ⟨validPath, _, noSlash⟩ := validPath_concat.mp valid
  unfold gPathGetDirname
  simp only [render_concat, joined_concat_rdropWhile path noSlash]
  rw [if_neg (by simp), List.rdropWhile_concat_pos _ _ _ (by simp), joined_rdropWhile validPath]
  simp only [joined_eq_nil, render]

theorem gBuildFilename_render {path : Path} {name : Bytes} (valid : ValidPath path)
    (nonempty : name ≠ []) : gBuildFilename (render path) name = render (path ++ [name]) := by
  unfold gBuildFilename
  rw [if_neg nonempty, render_concat]
  rcases eq_or_ne path [] with rfl | pathNonempty
  · simp [List.rdropWhile_singleton]
  · rw [render_of_ne_nil pathNonempty]
    simp [joined_rdropWhile valid, joined_eq_nil, pathNonempty]

theorem parentPath_render {path : Path} {name : Bytes} (valid : ValidPath (path ++ [name]))
    (nonempty : path ≠ []) : parentPath (render (path ++ [name])) = some (render path) := by
  obtain ⟨_, _, noSlash⟩ := validPath_concat.mp valid
  unfold parentPath
  simp only [render_concat, joined_concat_rdropWhile path noSlash]
  rw [if_pos (by simp), render_of_ne_nil nonempty]
  simp [joined_eq_nil, nonempty]

theorem render_head (path : Path) : [slash] <+: render path := by
  cases path with
  | nil => exact List.prefix_rfl
  | cons name rest => exact ⟨name ++ joined rest, rfl⟩

/-- Names that are a prefix give a string that is a prefix; the converse is wrong. -/
theorem render_prefix {ancestor path : Path} (isAncestor : ancestor <+: path) :
    render ancestor <+: render path := by
  rcases eq_or_ne ancestor [] with rfl | nonempty
  · exact render_head path
  · obtain ⟨rest, rfl⟩ := isAncestor
    rw [render_of_ne_nil nonempty, render_of_ne_nil (by simp [nonempty])]
    exact ⟨joined rest, by simp [joined]⟩

/-! ## The tree -/

/-- The directories that exist, each with its inode.  The root is always there. -/
structure DirTree where
  directories : List (Path × Nat)
  nextInode : Nat
  deriving DecidableEq, Repr

def DirTree.root : DirTree := { directories := [([], 0)], nextInode := 1 }

def DirTree.inodeOf (tree : DirTree) (path : Path) : Option Nat := tree.directories.lookup path

def DirTree.Has (tree : DirTree) (path : Path) : Prop := (tree.inodeOf path).isSome = true

instance (tree : DirTree) (path : Path) : Decidable (tree.Has path) :=
  inferInstanceAs (Decidable (_ = true))

/-- `mkdir` for a path whose parent is there. -/
def DirTree.add (tree : DirTree) (path : Path) : DirTree where
  directories := (path, tree.nextInode) :: tree.directories
  nextInode := tree.nextInode + 1

/-- `rmdir`. -/
def DirTree.remove (tree : DirTree) (path : Path) : DirTree :=
  { tree with directories := tree.directories.filter (·.1 ≠ path) }

/-- How the tree answers `inotify_add_watch`. -/
def DirTree.watch (tree : DirTree) (path : Bytes) : WatchAnswer :=
  if path.head? = some slash then
    match tree.inodeOf (components path) with
    | some inode => .watched inode
    | none => .noent
  else .noent

/-- A tree that `mkdir` and `rmdir` can have made. -/
structure DirTree.WellFormed (tree : DirTree) : Prop where
  hasRoot : tree.Has []
  hasParent : ∀ {path name}, tree.Has (path ++ [name]) → tree.Has path
  injective : ∀ {first second inode}, tree.inodeOf first = some inode →
    tree.inodeOf second = some inode → first = second
  used : ∀ {path inode}, tree.inodeOf path = some inode → inode < tree.nextInode
  valid : ∀ {path}, tree.Has path → ValidPath path

theorem DirTree.inodeOf_add (tree : DirTree) (path other : Path) :
    (tree.add path).inodeOf other =
      if other = path then some tree.nextInode else tree.inodeOf other := by
  simp only [inodeOf, add, List.lookup_cons]
  grind

theorem DirTree.inodeOf_remove (tree : DirTree) (path other : Path) :
    (tree.remove path).inodeOf other = if other = path then none else tree.inodeOf other := by
  simp only [inodeOf, remove]
  induction tree.directories with
  | nil => simp
  | cons entry entries inductionHypothesis =>
    rw [List.filter_cons]
    grind

theorem DirTree.has_add {tree : DirTree} {path other : Path} :
    (tree.add path).Has other ↔ other = path ∨ tree.Has other := by
  unfold Has
  rw [inodeOf_add]
  split <;> simp [*]

theorem DirTree.has_remove {tree : DirTree} {path other : Path} :
    (tree.remove path).Has other ↔ other ≠ path ∧ tree.Has other := by
  unfold Has
  rw [inodeOf_remove]
  split <;> simp [*]

theorem DirTree.root_wellFormed : DirTree.root.WellFormed := by
  have only : ∀ path, root.inodeOf path = if path = [] then some 0 else none := by
    intro path
    simp only [inodeOf, root, List.lookup_cons, List.lookup_nil]
    grind
  constructor
  case hasRoot => decide
  case hasParent =>
    intro path name has
    simp [Has, only] at has
  case injective =>
    intro first second inode
    rw [only, only]
    grind
  case used =>
    intro path inode
    rw [only]
    simp only [root]
    grind
  case valid =>
    intro path has
    simp only [Has, only] at has
    split at has <;> simp_all [ValidPath]

theorem DirTree.WellFormed.add {tree : DirTree} (wellFormed : tree.WellFormed) {path : Path}
    {name : Bytes} (parent : tree.Has path) (nonempty : name ≠ []) (noSlash : slash ∉ name) :
    (tree.add (path ++ [name])).WellFormed := by
  have injective := @wellFormed.injective
  have used := @wellFormed.used
  constructor
  case hasRoot => exact DirTree.has_add.mpr (.inr wellFormed.hasRoot)
  case hasParent =>
    intro other otherName has
    rcases DirTree.has_add.mp has with same | has
    · rw [(List.append_inj' same rfl).1]
      exact DirTree.has_add.mpr (.inr parent)
    · exact DirTree.has_add.mpr (.inr (wellFormed.hasParent has))
  case injective =>
    intro first second inode
    rw [DirTree.inodeOf_add, DirTree.inodeOf_add]
    grind
  case used =>
    intro other inode
    rw [DirTree.inodeOf_add]
    simp only [DirTree.add]
    grind
  case valid =>
    intro other has
    rcases DirTree.has_add.mp has with rfl | has
    · exact validPath_concat.mpr ⟨wellFormed.valid parent, nonempty, noSlash⟩
    · exact wellFormed.valid has

theorem DirTree.WellFormed.remove {tree : DirTree} (wellFormed : tree.WellFormed) {path : Path}
    (nonempty : path ≠ []) (leaf : ∀ name, ¬ tree.Has (path ++ [name])) :
    (tree.remove path).WellFormed := by
  have injective := @wellFormed.injective
  have used := @wellFormed.used
  constructor
  case hasRoot => exact DirTree.has_remove.mpr ⟨nonempty.symm, wellFormed.hasRoot⟩
  case hasParent =>
    intro other name has
    have before := (DirTree.has_remove.mp has).2
    refine DirTree.has_remove.mpr ⟨?_, wellFormed.hasParent before⟩
    rintro rfl
    exact leaf name before
  case injective =>
    intro first second inode
    rw [DirTree.inodeOf_remove, DirTree.inodeOf_remove]
    grind
  case used =>
    intro other inode
    rw [DirTree.inodeOf_remove]
    simp only [DirTree.remove]
    grind
  case valid =>
    intro other has
    exact wellFormed.valid (DirTree.has_remove.mp has).2

theorem DirTree.WellFormed.hasPrefix {tree : DirTree} (wellFormed : tree.WellFormed)
    {path ancestor : Path} (has : tree.Has path) (isAncestor : ancestor <+: path) :
    tree.Has ancestor := by
  obtain ⟨rest, rfl⟩ := isAncestor
  induction rest using List.reverseRecOn with
  | nil => simpa using has
  | append_singleton rest name inductionHypothesis =>
    exact inductionHypothesis (wellFormed.hasParent (by simpa using has))

/-! ## The nearest ancestor -/

/-- The longest beginning of a path that exists. -/
structure DirTree.Nearest (tree : DirTree) (path ancestor : Path) : Prop where
  isAncestor : ancestor <+: path
  has : tree.Has ancestor
  longest : ∀ other, other <+: path → tree.Has other → other <+: ancestor

theorem DirTree.nearest_self {tree : DirTree} {path : Path} (has : tree.Has path) :
    tree.Nearest path path :=
  ⟨List.prefix_rfl, has, fun _ isPrefix _ => isPrefix⟩

theorem DirTree.Nearest.unique {tree : DirTree} {path first second : Path}
    (nearestFirst : tree.Nearest path first) (nearestSecond : tree.Nearest path second) :
    first = second :=
  (nearestSecond.longest first nearestFirst.isAncestor nearestFirst.has).eq_of_length_le
    (nearestFirst.longest second nearestSecond.isAncestor nearestSecond.has).length_le

theorem DirTree.watch_render {tree : DirTree} {path : Path} (valid : ValidPath path) :
    tree.watch (render path) =
      match tree.inodeOf path with
      | some inode => .watched inode
      | none => .noent := by
  have absolute : (render path).head? = some slash := by
    obtain ⟨rest, same⟩ := render_head path
    rw [← same]
    rfl
  rw [DirTree.watch, if_pos absolute, components_render valid]

/-- The loop of `ip_watch_parent` finds the nearest ancestor, if the top one exists. -/
theorem DirTree.ipWatchParent_nearest {tree : DirTree} {path : Path} (valid : ValidPath path)
    (missing : ¬ tree.Has path) (top : tree.Has (path.take 1)) :
    ∃ ancestor inode, ipWatchParent tree.watch (render path) = some (some (render ancestor, inode)) ∧
      tree.inodeOf ancestor = some inode ∧ tree.Nearest path ancestor := by
  induction path using List.reverseRecOn with
  | nil => exact absurd top missing
  | append_singleton path name inductionHypothesis =>
    have nonempty : path ≠ [] := by
      rintro rfl
      exact missing top
    have validPath := (validPath_concat.mp valid).1
    have parent := parentPath_render valid nonempty
    have topPath : tree.Has (path.take 1) := by
      rwa [List.take_append_of_le_length (List.length_pos_iff.mpr nonempty)] at top
    have extend : ∀ ancestor, tree.Nearest path ancestor → tree.Nearest (path ++ [name]) ancestor := by
      intro ancestor nearest
      refine ⟨nearest.isAncestor.trans (List.prefix_append _ _), nearest.has, ?_⟩
      intro other isAncestor has
      rcases List.prefix_concat_iff.mp isAncestor with rfl | isAncestor
      · exact absurd has missing
      · exact nearest.longest other isAncestor has
    rw [ipWatchParent]
    split
    case h_1 rootless =>
      rw [parent] at rootless
      contradiction
    case h_2 found cut =>
      rw [parent] at cut
      cases cut
      rw [DirTree.watch_render validPath]
      cases inode : tree.inodeOf path with
      | some number =>
        refine ⟨path, number, rfl, inode, extend path (DirTree.nearest_self ?_)⟩
        simp [DirTree.Has, inode]
      | none =>
        have different : render path ≠ render (path ++ [name]) := by
          intro same
          have := render_injective validPath valid same
          simp at this
        have missingPath : ¬ tree.Has path := by simp [DirTree.Has, inode]
        obtain ⟨ancestor, number, found, known, nearest⟩ :=
          inductionHypothesis validPath missingPath topPath
        simp only [dif_neg different]
        exact ⟨ancestor, number, found, known, extend ancestor nearest⟩

end Gamin.Inotify
