import Mathlib.Data.List.Perm.Basic
import Mathlib.Data.List.Nodup

/-! # A set that may change while it is walked

While the set is walked its changes are only noted down: first the additions are made when the walk is
over, then the removals.  `Holds` looks ahead, to what the set will be then.
-/

namespace Gamin.Library

variable {Item : Type*}

/-! ## The order of a walk -/

/-- The items in some other order: each number takes one of those that are left. -/
def shuffle : List Nat → List Item → List Item
  | [], items => items
  | position :: positions, items =>
    match items[position]? with
    | some item => item :: shuffle positions (items.eraseIdx position)
    | none => shuffle positions items

theorem shuffle_perm (positions : List Nat) (items : List Item) :
    (shuffle positions items).Perm items := by
  induction positions generalizing items with
  | nil => exact .refl _
  | cons position positions inductionHypothesis =>
    rw [shuffle]
    split
    case h_1 item found =>
      obtain ⟨inside, rfl⟩ := List.getElem?_eq_some_iff.mp found
      exact ((inductionHypothesis _).cons _).trans (List.getElem_cons_eraseIdx_perm inside)
    case h_2 => exact inductionHypothesis items

@[simp] theorem mem_shuffle {positions : List Nat} {items : List Item} {item : Item} :
    item ∈ shuffle positions items ↔ item ∈ items :=
  (shuffle_perm positions items).mem_iff

theorem nodup_shuffle {positions : List Nat} {items : List Item} :
    (shuffle positions items).Nodup ↔ items.Nodup :=
  (shuffle_perm positions items).nodup_iff

/-! ## The set -/

/-- The items, whether they are being walked, and the changes noted down meanwhile. -/
structure DeferredSet (Item : Type*) where
  main : List Item
  iterating : Bool
  pendingAdditions : List Item
  pendingRemovals : List Item
  deriving DecidableEq, Repr

namespace DeferredSet

def new : DeferredSet Item :=
  { main := [], iterating := false, pendingAdditions := [], pendingRemovals := [] }

/-- Nothing is noted down unless the set is being walked. -/
def Orderly (table : DeferredSet Item) : Prop :=
  table.iterating = false → table.pendingAdditions = [] ∧ table.pendingRemovals = []

theorem orderly_new : (new : DeferredSet Item).Orderly := fun _ => ⟨rfl, rfl⟩

/-- The walk begins. -/
def walked (table : DeferredSet Item) : DeferredSet Item := { table with iterating := true }

theorem orderly_walked (table : DeferredSet Item) : table.walked.Orderly := nofun

variable [DecidableEq Item]

def insertInto (main : List Item) (item : Item) : List Item := item :: main.filter (· ≠ item)

def eraseFrom (main : List Item) (item : Item) : List Item := main.filter (· ≠ item)

def add (table : DeferredSet Item) (item : Item) : DeferredSet Item :=
  if table.iterating then { table with pendingAdditions := item :: table.pendingAdditions }
  else { table with main := insertInto table.main item }

def remove (table : DeferredSet Item) (item : Item) : DeferredSet Item :=
  if table.iterating then { table with pendingRemovals := item :: table.pendingRemovals }
  else { table with main := eraseFrom table.main item }

/-- The walk is over. -/
def finish (table : DeferredSet Item) : DeferredSet Item where
  main := table.pendingRemovals.foldl eraseFrom (table.pendingAdditions.foldl insertInto table.main)
  iterating := false
  pendingAdditions := []
  pendingRemovals := []

/-- The item is in the set when the walk is over. -/
def Holds (table : DeferredSet Item) (item : Item) : Prop := item ∈ table.finish.main

instance (table : DeferredSet Item) (item : Item) : Decidable (table.Holds item) :=
  inferInstanceAs (Decidable (_ ∈ _))

theorem mem_foldl_insertInto {items main : List Item} {item : Item} :
    item ∈ items.foldl insertInto main ↔ item ∈ main ∨ item ∈ items := by
  induction items generalizing main with
  | nil => simp
  | cons first rest inductionHypothesis =>
    rw [List.foldl_cons, inductionHypothesis, insertInto]
    by_cases same : item = first <;> simp [same]

theorem mem_foldl_eraseFrom {items main : List Item} {item : Item} :
    item ∈ items.foldl eraseFrom main ↔ item ∈ main ∧ item ∉ items := by
  induction items generalizing main with
  | nil => simp
  | cons first rest inductionHypothesis =>
    rw [List.foldl_cons, inductionHypothesis, eraseFrom]
    simp only [List.mem_filter, decide_eq_true_eq, List.mem_cons, not_or]
    tauto

theorem holds_iff {table : DeferredSet Item} {item : Item} :
    table.Holds item ↔
      (item ∈ table.main ∨ item ∈ table.pendingAdditions) ∧ item ∉ table.pendingRemovals := by
  rw [Holds, finish, mem_foldl_eraseFrom, mem_foldl_insertInto]

@[simp] theorem not_holds_new (item : Item) : ¬ (new : DeferredSet Item).Holds item := nofun

@[simp] theorem walked_holds {table : DeferredSet Item} {item : Item} :
    table.walked.Holds item ↔ table.Holds item := by
  rw [holds_iff, holds_iff, walked]

@[simp] theorem finish_holds {table : DeferredSet Item} {item : Item} :
    table.finish.Holds item ↔ table.Holds item := Iff.rfl

theorem orderly_finish (table : DeferredSet Item) : table.finish.Orderly := fun _ => ⟨rfl, rfl⟩

/-- A walk in which nothing was noted down leaves the set as it was. -/
theorem Orderly.finish_walked {table : DeferredSet Item} (orderly : table.Orderly)
    (resting : table.iterating = false) : table.walked.finish = table := by
  obtain ⟨additions, removals⟩ := orderly resting
  cases table
  simp_all [finish, walked]

@[simp] theorem iterating_add (table : DeferredSet Item) (item : Item) :
    (table.add item).iterating = table.iterating := by
  unfold add
  split <;> rfl

@[simp] theorem iterating_remove (table : DeferredSet Item) (item : Item) :
    (table.remove item).iterating = table.iterating := by
  unfold remove
  split <;> rfl

theorem Orderly.holds {table : DeferredSet Item} (orderly : table.Orderly)
    (resting : table.iterating = false) {item : Item} : table.Holds item ↔ item ∈ table.main := by
  obtain ⟨additions, removals⟩ := orderly resting
  simp [holds_iff, additions, removals]

theorem Orderly.add {table : DeferredSet Item} (orderly : table.Orderly) (item : Item) :
    (table.add item).Orderly := by
  unfold DeferredSet.add
  split
  case isTrue walking => exact fun resting => absurd walking (by simp_all)
  case isFalse => exact orderly

theorem Orderly.remove {table : DeferredSet Item} (orderly : table.Orderly) (item : Item) :
    (table.remove item).Orderly := by
  unfold DeferredSet.remove
  split
  case isTrue walking => exact fun resting => absurd walking (by simp_all)
  case isFalse => exact orderly

/-- What is added to a set at rest is in it. -/
theorem Orderly.holds_add {table : DeferredSet Item} (orderly : table.Orderly)
    (resting : table.iterating = false) {item other : Item} :
    (table.add item).Holds other ↔ other = item ∨ table.Holds other := by
  rw [(orderly.add item).holds (by simpa using resting), orderly.holds resting, DeferredSet.add,
    if_neg (by simp [resting])]
  by_cases same : other = item <;> simp [insertInto, same]

/-- An addition concerns nothing else. -/
theorem Orderly.holds_add_other {table : DeferredSet Item} (orderly : table.Orderly) {item other : Item}
    (different : other ≠ item) : (table.add item).Holds other ↔ table.Holds other := by
  cases walking : table.iterating with
  | true =>
    rw [holds_iff, holds_iff, DeferredSet.add, if_pos walking]
    simp only [List.mem_cons, different, false_or]
  | false => exact (orderly.holds_add walking).trans (or_iff_right different)

/-- What is in the set already can be added again, also during a walk. -/
theorem Orderly.holds_add_again {table : DeferredSet Item} (orderly : table.Orderly) {item other : Item}
    (holds : table.Holds item) : (table.add item).Holds other ↔ table.Holds other := by
  by_cases same : other = item
  · subst same
    refine iff_of_true ?_ holds
    cases walking : table.iterating with
    | true =>
      rw [holds_iff] at holds
      rw [holds_iff, DeferredSet.add, if_pos walking]
      exact ⟨.inr List.mem_cons_self, holds.2⟩
    | false => exact (orderly.holds_add walking).mpr (.inl rfl)
  · exact orderly.holds_add_other same

/-- What is removed goes, at once or after the walk. -/
theorem Orderly.holds_remove {table : DeferredSet Item} (orderly : table.Orderly) {item other : Item} :
    (table.remove item).Holds other ↔ table.Holds other ∧ other ≠ item := by
  cases walking : table.iterating with
  | true =>
    rw [holds_iff, holds_iff, DeferredSet.remove, if_pos walking]
    simp only [List.mem_cons, not_or]
    tauto
  | false =>
    rw [(orderly.remove item).holds (by simpa using walking), orderly.holds walking, DeferredSet.remove,
      if_neg (by simp [walking])]
    simp [eraseFrom]

theorem nodup_insertInto {main : List Item} (nodup : main.Nodup) (item : Item) :
    (insertInto main item).Nodup :=
  List.nodup_cons.mpr ⟨by simp, nodup.filter _⟩

theorem nodup_foldl_insertInto {items main : List Item} (nodup : main.Nodup) :
    (items.foldl insertInto main).Nodup := by
  induction items generalizing main with
  | nil => exact nodup
  | cons first rest inductionHypothesis => exact inductionHypothesis (nodup_insertInto nodup first)

theorem nodup_foldl_eraseFrom {items main : List Item} (nodup : main.Nodup) :
    (items.foldl eraseFrom main).Nodup := by
  induction items generalizing main with
  | nil => exact nodup
  | cons first rest inductionHypothesis => exact inductionHypothesis (nodup.filter _)

theorem nodup_add {table : DeferredSet Item} (nodup : table.main.Nodup) (item : Item) :
    (table.add item).main.Nodup := by
  unfold add
  split
  case isTrue => exact nodup
  case isFalse => exact nodup_insertInto nodup item

theorem nodup_remove {table : DeferredSet Item} (nodup : table.main.Nodup) (item : Item) :
    (table.remove item).main.Nodup := by
  unfold remove
  split
  case isTrue => exact nodup
  case isFalse => exact nodup.filter _

theorem nodup_finish {table : DeferredSet Item} (nodup : table.main.Nodup) :
    table.finish.main.Nodup :=
  nodup_foldl_eraseFrom (nodup_foldl_insertInto nodup)

end DeferredSet

end Gamin.Library
