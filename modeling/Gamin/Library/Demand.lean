import Mathlib.Logic.Relation
import Mathlib.Data.Nat.Notation

/-! # Keys that are kept for others

A key may have a parent.  Some keys are demanded; a key is kept if it is demanded, or if a key below it is kept, and
with each key its parent is.  So what is kept is what lies above a demanded key.
-/

namespace Gamin.Library

variable {Key : Type*} {parentOf : Key → Option Key} {demanded kept : Key → Prop} {key above below : Key}

/-- The first key is the second, or an ancestor of it. -/
def Above (parentOf : Key → Option Key) (above below : Key) : Prop :=
  Relation.ReflTransGen (fun child parent => parentOf child = some parent) below above

/-- What is kept, and what for. -/
structure Spanned (parentOf : Key → Option Key) (demanded kept : Key → Prop) : Prop where
  keeps : ∀ key, demanded key → kept key
  closed : ∀ key parent, kept key → parentOf key = some parent → kept parent
  used : ∀ key, kept key → demanded key ∨ ∃ child, kept child ∧ parentOf child = some key

theorem Spanned.kept_above (spanned : Spanned parentOf demanded kept) (isAbove : Above parentOf above below)
    (isKept : kept below) : kept above := by
  induction isAbove with
  | refl => exact isKept
  | tail _ edge inductionHypothesis => exact spanned.closed _ _ inductionHypothesis edge

/-- Below a kept key there is a demanded one, if the keys that are kept do not go down for ever.  By induction on how
far it can still go down. -/
theorem Spanned.demand_below (spanned : Spanned parentOf demanded kept) {depth : Key → ℕ}
    (deeper : ∀ child parent, parentOf child = some parent → depth parent < depth child) {bound : ℕ}
    (bounded : ∀ key, kept key → depth key ≤ bound) (isKept : kept key) :
    ∃ demand, demanded demand ∧ Above parentOf key demand := by
  obtain ⟨room, measure⟩ : ∃ room, bound - depth key = room := ⟨_, rfl⟩
  induction room using Nat.strongRecOn generalizing key with
  | ind room inductionHypothesis =>
    cases spanned.used key isKept with
    | inl demand => exact ⟨key, demand, .refl⟩
    | inr child =>
      obtain ⟨child, keptChild, edge⟩ := child
      have order := deeper child key edge
      have limit := bounded child keptChild
      obtain ⟨demand, isDemanded, isAbove⟩ := inductionHypothesis (bound - depth child) (by omega) keptChild rfl
      exact ⟨demand, isDemanded, .tail isAbove edge⟩

theorem Spanned.kept_iff (spanned : Spanned parentOf demanded kept) {depth : Key → ℕ}
    (deeper : ∀ child parent, parentOf child = some parent → depth parent < depth child) {bound : ℕ}
    (bounded : ∀ key, kept key → depth key ≤ bound) :
    kept key ↔ ∃ demand, demanded demand ∧ Above parentOf key demand := by
  constructor
  · exact spanned.demand_below deeper bounded
  · rintro ⟨demand, isDemanded, isAbove⟩
    exact spanned.kept_above isAbove (spanned.keeps demand isDemanded)

end Gamin.Library
