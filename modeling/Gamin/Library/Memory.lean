import Mathlib.Data.List.Basic

/-! # A flat memory

Memory is a function from addresses to cells.  `window` reads a block as a list,
`store` writes a list, `move` copies a block onto another one as memmove does.
-/

namespace Gamin.Library

variable {Cell : Type*}

def window (memory : Nat → Cell) (address length : Nat) : List Cell :=
  (List.range length).map fun offset => memory (address + offset)

def store (memory : Nat → Cell) (address : Nat) (cells : List Cell) : Nat → Cell :=
  fun position =>
    if address ≤ position then (cells[position - address]?).getD (memory position)
    else memory position

def move (memory : Nat → Cell) (target source length : Nat) : Nat → Cell :=
  fun position =>
    if target ≤ position ∧ position < target + length then memory (source + (position - target))
    else memory position

@[simp] theorem window_length (memory : Nat → Cell) (address length : Nat) :
    (window memory address length).length = length := by
  simp [window]

@[simp] theorem window_zero (memory : Nat → Cell) (address : Nat) :
    window memory address 0 = [] := rfl

@[simp] theorem window_getElem (memory : Nat → Cell) (address length index : Nat)
    (inside : index < (window memory address length).length) :
    (window memory address length)[index] = memory (address + index) := by
  simp [window]

theorem window_congr {first second : Nat → Cell} {address length : Nat}
    (agree : ∀ offset < length, first (address + offset) = second (address + offset)) :
    window first address length = window second address length := by
  apply List.map_congr_left
  intro offset member
  exact agree offset (List.mem_range.mp member)

theorem window_append (memory : Nat → Cell) (address first second : Nat) :
    window memory address (first + second) =
      window memory address first ++ window memory (address + first) second := by
  simp [window, List.range_add, Nat.add_assoc]

theorem window_succ (memory : Nat → Cell) (address length : Nat) :
    window memory address (length + 1) = memory address :: window memory (address + 1) length := by
  rw [Nat.add_comm length 1, window_append]
  rfl

theorem window_take (memory : Nat → Cell) (address length count : Nat) (fits : count ≤ length) :
    (window memory address length).take count = window memory address count := by
  obtain ⟨rest, rfl⟩ := Nat.exists_eq_add_of_le fits
  rw [window_append, List.take_left' (window_length _ _ _)]

theorem window_drop (memory : Nat → Cell) (address length count : Nat) (fits : count ≤ length) :
    (window memory address length).drop count = window memory (address + count) (length - count) := by
  obtain ⟨rest, rfl⟩ := Nat.exists_eq_add_of_le fits
  rw [window_append, List.drop_left' (window_length _ _ _), Nat.add_sub_cancel_left]

theorem window_store_same (memory : Nat → Cell) (address : Nat) (cells : List Cell) :
    window (store memory address cells) address cells.length = cells := by
  apply List.ext_getElem
  · simp
  · intro index inside inCells
    simp [store, inCells]

theorem window_store_before (memory : Nat → Cell) (address target length : Nat) (cells : List Cell)
    (before : address + length ≤ target) :
    window (store memory target cells) address length = window memory address length := by
  apply window_congr
  intro offset inside
  have below : ¬ target ≤ address + offset := by omega
  simp [store, below]

/-- Appending to a block by a store right behind it. -/
theorem window_store_append (memory : Nat → Cell) (address length : Nat) (cells : List Cell) :
    window (store memory (address + length) cells) address (length + cells.length) =
      window memory address length ++ cells := by
  rw [window_append, window_store_same, window_store_before _ _ _ _ _ (Nat.le_refl _)]

theorem window_move_same (memory : Nat → Cell) (target source length : Nat) :
    window (move memory target source length) target length = window memory source length := by
  apply List.map_congr_left
  intro offset member
  have inside := List.mem_range.mp member
  simp [move, inside]

/-- Making room at a position and storing there is inserting into the block. -/
theorem window_store_move (memory : Nat → Cell) (position length : Nat) (cell : Cell) (fits : position ≤ length) :
    window (store (move memory (position + 1) position (length - position)) position [cell]) 0 (length + 1) =
      (window memory 0 length).take position ++ cell :: (window memory 0 length).drop position := by
  rw [window_take _ _ _ _ fits, window_drop _ _ _ _ fits, Nat.zero_add,
    show length + 1 = position + ([cell].length + (length - position)) by simp only [List.length_singleton]; omega,
    window_append, window_append, Nat.zero_add, window_store_same,
    window_store_before _ _ _ _ _ (Nat.le_of_eq (Nat.zero_add position))]
  have front :
      window (move memory (position + 1) position (length - position)) 0 position = window memory 0 position := by
    apply window_congr
    intro offset inside
    rw [move, if_neg (by omega)]
  have back : window (store (move memory (position + 1) position (length - position)) position [cell])
      (position + [cell].length) (length - position) = window memory position (length - position) := by
    rw [← window_move_same memory (position + 1)]
    apply window_congr
    intro offset inside
    rw [List.length_singleton, store, if_pos (by omega),
      List.getElem?_eq_none (by rw [List.length_singleton]; omega), Option.getD_none]
  rw [front, back, List.singleton_append]

end Gamin.Library
