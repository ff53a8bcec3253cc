import Mathlib.Data.List.Basic

/-! # Searching a list that is sorted by size

The largest items come first, and items of one size stay in their order.  A search from the front then
finds a largest match, and among the largest ones the first of the list before it was sorted.
-/

namespace Gamin.Library

variable {Item : Type*} (size : Item → Nat)

/-- Sorted by size, the largest first. -/
def largestFirst (items : List Item) : List Item :=
  items.mergeSort fun first second => size second ≤ size first

theorem mem_largestFirst {items : List Item} {item : Item} :
    item ∈ largestFirst size items ↔ item ∈ items :=
  List.mem_mergeSort

theorem largestFirst_pairwise (items : List Item) :
    (largestFirst size items).Pairwise fun first second => size second ≤ size first := by
  have sorted := @List.pairwise_mergeSort _ (fun first second => decide (size second ≤ size first))
    (fun _ _ _ first second => by simp only [decide_eq_true_eq] at *; omega)
    (fun _ _ => by simp only [Bool.or_eq_true, decide_eq_true_eq]; omega) items
  exact sorted.imp of_decide_eq_true

/-- Items of one size keep their order. -/
theorem largestFirst_stable (items : List Item) (bound : Nat) :
    (largestFirst size items).filter (size · = bound) = items.filter (size · = bound) := by
  have ordered : (items.filter (size · = bound)).Pairwise fun first second =>
      decide (size second ≤ size first) = true := by
    refine List.Pairwise.imp_of_mem (R := fun _ _ => True) (fun first second _ => ?_)
      (List.pairwise_of_forall fun _ _ => trivial)
    simp only [List.mem_filter, decide_eq_true_eq] at first second ⊢
    omega
  have within := @List.sublist_mergeSort _ (fun first second => decide (size second ≤ size first)) _
    (fun _ _ _ first second => by simp only [decide_eq_true_eq] at *; omega)
    (fun _ _ => by simp only [Bool.or_eq_true, decide_eq_true_eq]; omega) _ ordered List.filter_sublist
  have filtered : (items.filter (size · = bound)).Sublist ((largestFirst size items).filter (size · = bound)) := by
    simpa using! within.filter fun item => decide (size item = bound)
  have sameLength : ((largestFirst size items).filter (size · = bound)).length =
      (items.filter (size · = bound)).length :=
    ((List.mergeSort_perm items _).filter _).length_eq
  exact (filtered.eq_of_length sameLength.symm).symm

/-- The search finds a largest match, the first one of the list. -/
theorem find_largestFirst {items : List Item} {matching : Item → Bool} {item : Item}
    (found : (largestFirst size items).find? matching = some item) :
    matching item = true ∧ (∀ other ∈ items, matching other = true → size other ≤ size item) ∧
      ∃ before after, items = before ++ item :: after ∧
        ∀ other ∈ before, matching other = true → size other ≠ size item := by
  obtain ⟨matches', front, back, split, none⟩ := List.find?_eq_some_iff_append.mp found
  have sorted := largestFirst_pairwise size items
  rw [split] at sorted
  refine ⟨matches', fun other member matchesToo => ?_, ?_⟩
  · have inSorted := (mem_largestFirst size).mpr member
    rw [split, List.mem_append] at inSorted
    cases inSorted with
    | inl early => simpa [matchesToo] using none other early
    | inr late =>
      cases List.mem_cons.mp late with
      | inl here => exact here ▸ Nat.le_refl _
      | inr later => exact (List.pairwise_cons.mp (List.pairwise_append.mp sorted).2.1).1 other later
  · -- among the items of that size the order is the one of the list
    have first : (items.filter (size · = size item)).find? matching = some item := by
      rw [← largestFirst_stable size items, split, List.filter_append, List.filter_cons_of_pos (by simp)]
      apply List.find?_eq_some_iff_append.mpr
      exact ⟨matches', _, _, rfl, fun other member => none other (List.mem_of_mem_filter member)⟩
    rw [List.find?_filter] at first
    obtain ⟨_, before, after, whole, earlier⟩ := List.find?_eq_some_iff_append.mp first
    refine ⟨before, after, whole, fun other member matchesToo same => ?_⟩
    simpa [matchesToo, same] using earlier other member

end Gamin.Library
