import Mathlib.Data.List.Basic
import Mathlib.Order.Lattice

/-! # Bisection of a strictly sorted list

A bisection keeps two bounds: every entry below the lower one is smaller than the
key, every entry above the upper one is larger.  `Bracketed` is that invariant, with
integer bounds as loops in C keep them.
-/

namespace Gamin.Library

variable {Key : Type*} [LinearOrder Key]

/-- Entries before `lower` are below the key, entries after `upper` are above it. -/
structure Bracketed (keys : List Key) (key : Key) (lower upper : Int) : Prop where
  below : ∀ index, (h : index < keys.length) → (index : Int) < lower → keys[index] < key
  above : ∀ index, (h : index < keys.length) → upper < (index : Int) → key < keys[index]

theorem bracketed_whole (keys : List Key) (key : Key) :
    Bracketed keys key 0 (keys.length - 1) where
  below := by intro index _ outside; omega
  above := by intro index inside outside; omega

theorem sorted_lt {keys : List Key} (sorted : keys.Pairwise (· < ·)) {first second : Nat}
    (ordered : first < second) (inside : second < keys.length) :
    keys[first] < keys[second] :=
  List.pairwise_iff_getElem.mp sorted first second (by omega) inside ordered

theorem Bracketed.raise {keys : List Key} {key : Key} {lower upper : Int}
    (bracket : Bracketed keys key lower upper) (sorted : keys.Pairwise (· < ·))
    (middle : Nat) (inside : middle < keys.length) (smaller : keys[middle] < key) :
    Bracketed keys key (middle + 1) upper where
  below := by
    intro index indexInside before
    rcases Nat.lt_or_eq_of_le (show index ≤ middle by omega) with earlier | same
    · exact lt_trans (sorted_lt sorted earlier inside) smaller
    · subst same; exact smaller
  above := bracket.above

theorem Bracketed.lower {keys : List Key} {key : Key} {lower upper : Int}
    (bracket : Bracketed keys key lower upper) (sorted : keys.Pairwise (· < ·))
    (middle : Nat) (inside : middle < keys.length) (larger : key < keys[middle]) :
    Bracketed keys key lower (middle - 1) where
  below := bracket.below
  above := by
    intro index indexInside after
    rcases Nat.lt_or_eq_of_le (show middle ≤ index by omega) with later | same
    · exact lt_trans larger (sorted_lt sorted later indexInside)
    · subst same; exact larger

/-- A bracket with no position left shows that the key is absent. -/
theorem Bracketed.absent {keys : List Key} {key : Key} {lower upper : Int}
    (bracket : Bracketed keys key lower upper) (empty : upper < lower) : key ∉ keys := by
  intro member
  obtain ⟨index, inside, found⟩ := List.mem_iff_getElem.mp member
  by_cases before : (index : Int) < lower
  · exact absurd (bracket.below index inside before) (by rw [found]; exact lt_irrefl key)
  · exact absurd (bracket.above index inside (by omega)) (by rw [found]; exact lt_irrefl key)

/-- Inserting a key between the smaller and the larger entries keeps the list sorted. -/
theorem pairwise_insertIdx {Entry : Type*} {key : Entry → Key} {entries : List Entry}
    (sorted : (entries.map key).Pairwise (· < ·)) {entry : Entry} {position : Nat}
    (fits : position ≤ entries.length)
    (below : ∀ index, (h : index < entries.length) → index < position → key entries[index] < key entry)
    (above : ∀ index, (h : index < entries.length) → position ≤ index → key entry < key entries[index]) :
    ((entries.take position ++ entry :: entries.drop position).map key).Pairwise (· < ·) := by
  rw [List.map_append, List.map_cons, List.map_take, List.map_drop]
  have whole : ((entries.map key).take position ++ (entries.map key).drop position).Pairwise (· < ·) := by
    rw [List.take_append_drop]; exact sorted
  obtain ⟨front, back, across⟩ := List.pairwise_append.mp whole
  have frontBelow : ∀ other ∈ (entries.map key).take position, other < key entry := by
    intro other member
    obtain ⟨index, inside, found⟩ := List.mem_iff_getElem.mp member
    simp only [List.length_take, List.length_map] at inside
    rw [← found, List.getElem_take, List.getElem_map]
    exact below index (by omega) (by omega)
  have backAbove : ∀ other ∈ (entries.map key).drop position, key entry < other := by
    intro other member
    obtain ⟨index, inside, found⟩ := List.mem_iff_getElem.mp member
    simp only [List.length_drop, List.length_map] at inside
    rw [← found, List.getElem_drop, List.getElem_map]
    exact above (position + index) (by omega) (by omega)
  refine List.pairwise_append.mpr ⟨front, List.pairwise_cons.mpr ⟨backAbove, back⟩, ?_⟩
  intro first firstMember second secondMember
  rcases List.mem_cons.mp secondMember with same | later
  · subst same; exact frontBelow first firstMember
  · exact across first firstMember second later

end Gamin.Library
