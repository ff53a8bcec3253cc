import Mathlib.Logic.Function.Basic
import Mathlib.Logic.Relation
import Mathlib.Order.WellFounded

/-! # Trees of linked cells

A cell has a link to its parent and a list of links to its children.  `Linked` says that the two agree, and
that every parent is older than its children, so that the links to the parents lead to the root.  A new
cell without children may be put below any other, and a cell without children may be taken out.
-/

namespace Gamin.Library

/-- The links of a cell. -/
structure Links (Node : Type*) where
  parent : Option Node
  children : List Node
  deriving DecidableEq, Repr

variable {Node : Type*} {links : Node → Option (Links Node)} {root node parent child : Node} {above cell : Links Node}

/-- What a cell has for its parent, if there is a cell. -/
def parentLink (links : Node → Option (Links Node)) (node : Node) : Option (Option Node) :=
  (links node).map (·.parent)

/-- The second cell is one of the children of the first. -/
def ChildOf (links : Node → Option (Links Node)) (parent child : Node) : Prop :=
  ∃ above, links parent = some above ∧ child ∈ above.children

/-- The cell is the root or below it. -/
def InTree (links : Node → Option (Links Node)) (root node : Node) : Prop :=
  Relation.ReflTransGen (ChildOf links) root node

/-- Parents and children agree, and only the root has no parent. -/
structure Linked [LT Node] (links : Node → Option (Links Node)) (root : Node) : Prop where
  rooted : ∀ node, parentLink links node = some none ↔ node = root
  older : ∀ node parent, parentLink links node = some (some parent) → parent < node
  agree : ∀ parent child, parentLink links child = some (some parent) ↔ ChildOf links parent child
  distinct : ∀ node cell, links node = some cell → cell.children.Nodup

theorem parentLink_of (lookup : links node = some cell) : parentLink links node = some cell.parent := by
  rw [parentLink, lookup, Option.map_some]

theorem parentLink_some {link : Option Node} (has : parentLink links node = some link) :
    ∃ cell, links node = some cell ∧ cell.parent = link :=
  Option.map_eq_some_iff.mp has

section

variable [LT Node]

/-- A cell that is not the root has a parent. -/
theorem Linked.parented (linked : Linked links root) (lookup : links node = some cell) (below : node ≠ root) :
    ∃ parent, cell.parent = some parent := by
  cases up : cell.parent with
  | none => exact absurd ((linked.rooted node).mp (by rw [parentLink_of lookup, up])) below
  | some parent => exact ⟨parent, rfl⟩

/-- What hangs together with the root is what there is. -/
theorem Linked.inTree_iff [WellFoundedLT Node] (linked : Linked links root) :
    InTree links root node ↔ ∃ cell, links node = some cell := by
  constructor
  · intro reached
    cases reached with
    | refl =>
      obtain ⟨cell, lookup, _⟩ := parentLink_some ((linked.rooted root).mpr rfl)
      exact ⟨cell, lookup⟩
    | tail _ below =>
      obtain ⟨cell, lookup, _⟩ := parentLink_some ((linked.agree _ _).mpr below)
      exact ⟨cell, lookup⟩
  · induction node using WellFoundedLT.induction with
    | ind node inductionHypothesis =>
      rintro ⟨cell, lookup⟩
      by_cases top : node = root
      · rw [top]
        exact .refl
      · obtain ⟨parent, up⟩ := linked.parented lookup top
        have link := parentLink_of lookup
        rw [up] at link
        have below := (linked.agree _ _).mp link
        obtain ⟨above, there, _⟩ := below
        exact .tail (inductionHypothesis parent (linked.older _ _ link) ⟨above, there⟩) ((linked.agree _ _).mp link)

end

section

variable [DecidableEq Node]

/-- A new cell as the last child of another one. -/
def graft (links : Node → Option (Links Node)) (parent : Node) (above : Links Node) (node : Node) :
    Node → Option (Links Node) :=
  Function.update (Function.update links parent (some { above with children := above.children ++ [node] })) node
    (some ⟨some parent, []⟩)

/-- The tree without a cell. -/
def cut (links : Node → Option (Links Node)) (parent : Node) (above : Links Node) (node : Node) :
    Node → Option (Links Node) :=
  Function.update (Function.update links parent (some { above with children := above.children.erase node })) node none

theorem parentLink_graft (lookup : links parent = some above) (other : Node) :
    parentLink (graft links parent above node) other =
      if other = node then some (some parent) else parentLink links other := by
  unfold parentLink graft
  by_cases isNew : other = node
  · simp [isNew]
  · by_cases isParent : other = parent
    · subst isParent
      simp [isNew, lookup]
    · simp [isNew, isParent]

theorem childOf_graft (lookup : links parent = some above) (new : links node = none) {first second : Node} :
    ChildOf (graft links parent above node) first second ↔
      ChildOf links first second ∨ first = parent ∧ second = node := by
  have different : parent ≠ node := by
    rintro rfl
    rw [lookup] at new
    contradiction
  unfold ChildOf graft
  by_cases isNew : first = node
  · subst isNew
    simp [new, different.symm]
  · by_cases isParent : first = parent
    · subst isParent
      simp [isNew, lookup]
    · simp [isNew, isParent]

theorem parentLink_cut (lookup : links parent = some above) (other : Node) :
    parentLink (cut links parent above node) other = if other = node then none else parentLink links other := by
  unfold parentLink cut
  by_cases isGone : other = node
  · simp [isGone]
  · by_cases isParent : other = parent
    · subst isParent
      simp [isGone, lookup]
    · simp [isGone, isParent]

theorem childOf_cut (lookup : links parent = some above) (distinct : above.children.Nodup)
    (leaf : ∀ other, ¬ ChildOf links node other) (only : ∀ other, ChildOf links other node → other = parent)
    {first second : Node} :
    ChildOf (cut links parent above node) first second ↔ ChildOf links first second ∧ second ≠ node := by
  unfold ChildOf cut at *
  by_cases isGone : first = node
  · subst isGone
    simpa using fun cell found member => absurd ⟨cell, found, member⟩ (leaf second)
  · by_cases isParent : first = parent
    · subst isParent
      simp [isGone, lookup, distinct.mem_erase_iff, and_comm]
    · simp only [ne_eq, isGone, not_false_eq_true, Function.update_of_ne, isParent, iff_self_and, forall_exists_index]
      rintro cell ⟨found, member⟩ rfl
      exact isParent (only first ⟨cell, found, member⟩)

variable [LT Node]

theorem Linked.graft (linked : Linked links root) (lookup : links parent = some above) (new : links node = none)
    (older : parent < node) : Linked (graft links parent above node) root where
  rooted := by
    intro other
    rw [parentLink_graft lookup, ← linked.rooted]
    split
    case isTrue isNew => simp [isNew, parentLink, new]
    case isFalse => rfl
  older := by
    intro other up link
    rw [parentLink_graft lookup] at link
    split at link
    case isTrue isNew =>
      cases link
      rwa [isNew]
    case isFalse => exact linked.older other up link
  agree := by
    intro first second
    rw [parentLink_graft lookup, childOf_graft lookup new, ← linked.agree]
    split
    case isTrue isNew => simp [isNew, parentLink, new, eq_comm]
    case isFalse isOld => simp [isOld]
  distinct := by
    intro other cell found
    unfold Library.graft at found
    -- the new node has no children, and its parent did not have it yet
    by_cases isNew : other = node
    · rw [isNew, Function.update_self, Option.some.injEq] at found
      rw [← found]
      exact List.nodup_nil
    · by_cases isParent : other = parent
      · rw [Function.update_of_ne isNew, isParent, Function.update_self, Option.some.injEq] at found
        rw [← found]
        have fresh : node ∉ above.children := by
          intro member
          obtain ⟨cell, there, _⟩ := parentLink_some ((linked.agree parent node).mpr ⟨above, lookup, member⟩)
          rw [new] at there
          contradiction
        refine List.nodup_append.mpr ⟨linked.distinct _ _ lookup, List.pairwise_singleton _ _, ?_⟩
        rintro child member _ (_ | ⟨_, ⟨⟩⟩) rfl
        exact fresh member
      · rw [Function.update_of_ne isNew, Function.update_of_ne isParent] at found
        exact linked.distinct _ _ found

theorem Linked.cut (linked : Linked links root) (lookup : links parent = some above)
    (there : links node = some ⟨some parent, []⟩) : Linked (cut links parent above node) root := by
  -- nobody is below the node, and only its parent is above
  have leaf : ∀ other, ¬ ChildOf links node other := by
    rintro other ⟨cell, found, member⟩
    rw [there, Option.some.injEq] at found
    rw [← found] at member
    contradiction
  have link : parentLink links node = some (some parent) := parentLink_of there
  have only : ∀ other, ChildOf links other node → other = parent := by
    intro other below
    have link' := (linked.agree other node).mpr below
    rw [link] at link'
    injection link' with same
    exact (Option.some.inj same).symm
  constructor
  case rooted =>
    intro other
    rw [parentLink_cut lookup, ← linked.rooted]
    split
    case isTrue isGone => simp [isGone, link]
    case isFalse => rfl
  case older =>
    intro other up has
    rw [parentLink_cut lookup] at has
    split at has
    case isTrue => contradiction
    case isFalse => exact linked.older other up has
  case agree =>
    intro first second
    rw [parentLink_cut lookup, childOf_cut lookup (linked.distinct _ _ lookup) leaf only, ← linked.agree]
    split
    case isTrue isGone => simp [isGone]
    case isFalse isThere => simp [isThere]
  case distinct =>
    intro other cell found
    unfold Library.cut at found
    by_cases isGone : other = node
    · rw [isGone, Function.update_self] at found
      contradiction
    · by_cases isParent : other = parent
      · rw [Function.update_of_ne isGone, isParent, Function.update_self, Option.some.injEq] at found
        rw [← found]
        exact (linked.distinct _ _ lookup).erase _
      · rw [Function.update_of_ne isGone, Function.update_of_ne isParent] at found
        exact linked.distinct _ _ found

end

end Gamin.Library
