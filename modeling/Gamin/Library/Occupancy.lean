import Mathlib.Data.List.Basic

/-! # Lights and guests

Guests come to places and leave them.  A light belongs to each place, and it should burn as long as somebody is
there.  Whoever comes or leaves is at one place, so only the light there has to be looked at.
-/

namespace Gamin.Library

variable {Guest Place : Type*} {lit after : Place → Prop} {guests : List Guest} {place : Guest → Option Place}

/-- The light burns just where somebody is. -/
def Balanced (lit : Place → Prop) (guests : List Guest) (place : Guest → Option Place) : Prop :=
  ∀ here, lit here ↔ ∃ guest ∈ guests, place guest = some here

/-- Only the places of the guests matter. -/
theorem Balanced.congr {other : Guest → Option Place} (balanced : Balanced lit guests place)
    (same : ∀ here, after here ↔ lit here) (stay : ∀ guest ∈ guests, other guest = place guest) :
    Balanced after guests other := by
  intro here
  rw [same, balanced]
  constructor
  · rintro ⟨guest, member, there⟩
    exact ⟨guest, member, (stay guest member).trans there⟩
  · rintro ⟨guest, member, there⟩
    exact ⟨guest, member, (stay guest member).symm.trans there⟩

section

variable {guest : Guest} {here : Place} {out : Prop}

/-- Somebody comes, and the light burns there. -/
theorem Balanced.enter (balanced : Balanced lit guests place) (at_place : place guest = some here)
    (elsewhere : ∀ there, there ≠ here → (after there ↔ lit there)) (burns : after here) :
    Balanced after (guest :: guests) place := by
  intro there
  by_cases same : there = here
  · subst same
    exact iff_of_true burns ⟨guest, List.mem_cons_self, at_place⟩
  · rw [elsewhere there same, balanced]
    constructor
    · rintro ⟨old, member, oldPlace⟩
      exact ⟨old, List.mem_cons_of_mem _ member, oldPlace⟩
    · rintro ⟨old, member, oldPlace⟩
      cases List.mem_cons.mp member with
      | inl new =>
        rw [new, at_place, Option.some.injEq] at oldPlace
        exact absurd oldPlace.symm same
      | inr member => exact ⟨old, member, oldPlace⟩

/-- The light may be put out at a place where nobody is. -/
theorem Balanced.touch (balanced : Balanced lit guests place)
    (elsewhere : ∀ there, there ≠ here → (after there ↔ lit there)) (burns : after here ↔ lit here ∧ ¬ out)
    (stay : (∃ guest ∈ guests, place guest = some here) → ¬ out) : Balanced after guests place := by
  refine balanced.congr (fun there => ?_) fun _ _ => rfl
  by_cases same : there = here
  · rw [same, burns]
    exact and_iff_left_of_imp fun lit => stay ((balanced here).mp lit)
  · exact elsewhere there same

/-- Somebody leaves, if he was there at all.  The light is to be put out by the last one. -/
theorem Balanced.leave [DecidableEq Guest] (balanced : Balanced lit guests place) (at_place : place guest = some here)
    (elsewhere : ∀ there, there ≠ here → (after there ↔ lit there)) (burns : after here ↔ lit here ∧ ¬ out)
    (stay : (∃ other ∈ guests, other ≠ guest ∧ place other = some here) → ¬ out)
    (last : guest ∈ guests → (¬ ∃ other ∈ guests, other ≠ guest ∧ place other = some here) → out) :
    Balanced after (guests.filter (· ≠ guest)) place := by
  intro there
  have remain : (∃ other ∈ guests.filter (· ≠ guest), place other = some there) ↔
      ∃ other ∈ guests, other ≠ guest ∧ place other = some there := by
    simp only [List.mem_filter, decide_eq_true_eq, and_assoc]
  rw [remain]
  by_cases same : there = here
  · rw [same, burns, balanced here]
    constructor
    · rintro ⟨⟨old, member, oldPlace⟩, burning⟩
      by_cases leaves : old = guest
      · by_contra nobody
        exact burning (last (leaves ▸ member) nobody)
      · exact ⟨old, member, leaves, oldPlace⟩
    · rintro ⟨old, member, different, oldPlace⟩
      exact ⟨⟨old, member, oldPlace⟩, stay ⟨old, member, different, oldPlace⟩⟩
  · rw [elsewhere there same, balanced]
    constructor
    · rintro ⟨old, member, oldPlace⟩
      refine ⟨old, member, ?_, oldPlace⟩
      rintro rfl
      rw [at_place, Option.some.injEq] at oldPlace
      exact same oldPlace.symm
    · rintro ⟨old, member, -, oldPlace⟩
      exact ⟨old, member, oldPlace⟩

end

end Gamin.Library
