import Mathlib.Data.List.Perm.Subperm

/-! # Walks by index over a list that changes

A walk visits the first item of a list, then the second of what the list has become, and so on until there
is nothing at the index.  A visit may take items off the list and put others in front.  If what has come off
the part that is behind the walk is made up in front, nobody is passed over.
-/

namespace Gamin.Library

/-! ## Walks -/

section

variable {State Item : Type*} (list : State → List Item) (visit : State → Item → State)

/-- A walk from an index, for as many rounds. -/
def walk : Nat → Nat → State → State
  | 0, _, state => state
  | rounds + 1, idx, state =>
    match (list state)[idx]? with
    | none => state
    | some item => walk rounds (idx + 1) (visit state item)

/-- The walk has come to the end of the list within the rounds. -/
def Ended : Nat → Nat → State → Prop
  | 0, idx, state => (list state)[idx]? = none
  | rounds + 1, idx, state =>
    match (list state)[idx]? with
    | none => True
    | some item => Ended rounds (idx + 1) (visit state item)

/-- What holds at every visit of the walk. -/
def AtEveryVisit (fact : Nat → State → Item → Prop) : Nat → Nat → State → Prop
  | 0, _, _ => True
  | rounds + 1, idx, state =>
    match (list state)[idx]? with
    | none => True
    | some item => fact idx state item ∧ AtEveryVisit fact rounds (idx + 1) (visit state item)

/-- What holds at one of them. -/
def AtSomeVisit (fact : State → Item → Prop) : Nat → Nat → State → Prop
  | 0, _, _ => False
  | rounds + 1, idx, state =>
    match (list state)[idx]? with
    | none => False
    | some item => fact state item ∨ AtSomeVisit fact rounds (idx + 1) (visit state item)

instance decidableEnded : (rounds idx : Nat) → (state : State) → Decidable (Ended list visit rounds idx state)
  | 0, idx, state => decidable_of_iff ((list state)[idx]?.isNone) Option.isNone_iff_eq_none
  | rounds + 1, idx, state =>
    match here : (list state)[idx]? with
    | none => .isTrue (by simp only [Ended, here])
    | some item =>
      have := decidableEnded rounds (idx + 1) (visit state item)
      decidable_of_iff (Ended list visit rounds (idx + 1) (visit state item)) (by simp only [Ended, here])

instance decidableAtEveryVisit {fact : Nat → State → Item → Prop}
    [∀ idx state item, Decidable (fact idx state item)] :
    (rounds idx : Nat) → (state : State) → Decidable (AtEveryVisit list visit fact rounds idx state)
  | 0, _, _ => .isTrue trivial
  | rounds + 1, idx, state =>
    match here : (list state)[idx]? with
    | none => .isTrue (by simp only [AtEveryVisit, here])
    | some item =>
      have : Decidable (AtEveryVisit list visit fact rounds (idx + 1) (visit state item)) :=
        decidableAtEveryVisit rounds (idx + 1) (visit state item)
      decidable_of_iff (fact idx state item ∧ AtEveryVisit list visit fact rounds (idx + 1) (visit state item))
        (by simp only [AtEveryVisit, here])

instance decidableAtSomeVisit {fact : State → Item → Prop} [∀ state item, Decidable (fact state item)] :
    (rounds idx : Nat) → (state : State) → Decidable (AtSomeVisit list visit fact rounds idx state)
  | 0, _, _ => .isFalse id
  | rounds + 1, idx, state =>
    match here : (list state)[idx]? with
    | none => .isFalse (by simp only [AtSomeVisit, here, not_false_eq_true])
    | some item =>
      have : Decidable (AtSomeVisit list visit fact rounds (idx + 1) (visit state item)) :=
        decidableAtSomeVisit rounds (idx + 1) (visit state item)
      decidable_of_iff (fact state item ∨ AtSomeVisit list visit fact rounds (idx + 1) (visit state item))
        (by simp only [AtSomeVisit, here])

end

section

variable {State Item : Type*} {list : State → List Item} {visit : State → Item → State}

/-- A function with the equations of a walk is one. -/
theorem eq_walk {step : Nat → Nat → State → State} (zero : ∀ idx state, step 0 idx state = state)
    (past : ∀ rounds idx state, (list state)[idx]? = none → step (rounds + 1) idx state = state)
    (next : ∀ rounds idx state item, (list state)[idx]? = some item →
      step (rounds + 1) idx state = step rounds (idx + 1) (visit state item))
    (rounds idx : Nat) (state : State) : step rounds idx state = walk list visit rounds idx state := by
  induction rounds generalizing idx state with
  | zero => exact zero idx state
  | succ rounds inductionHypothesis =>
    rw [walk]
    cases here : (list state)[idx]? with
    | none => exact past rounds idx state here
    | some item => rw [next rounds idx state item here, inductionHypothesis]

theorem AtEveryVisit.imp {fact weaker : Nat → State → Item → Prop}
    (implies : ∀ idx state item, (list state)[idx]? = some item → fact idx state item → weaker idx state item)
    {rounds idx : Nat} {state : State} (every : AtEveryVisit list visit fact rounds idx state) :
    AtEveryVisit list visit weaker rounds idx state := by
  induction rounds generalizing idx state with
  | zero => trivial
  | succ rounds inductionHypothesis =>
    unfold AtEveryVisit at every ⊢
    cases here : (list state)[idx]? with
    | none => trivial
    | some item =>
      simp only [here] at every ⊢
      exact ⟨implies idx state item here every.1, inductionHypothesis every.2⟩

/-- Further rounds do nothing when a walk has come to its end. -/
theorem walk_of_ended {rounds idx : Nat} {state : State} (ended : Ended list visit rounds idx state) (more : Nat) :
    walk list visit (rounds + more) idx state = walk list visit rounds idx state := by
  induction rounds generalizing idx state with
  | zero =>
    rw [Ended] at ended
    cases more with
    | zero => rfl
    | succ more => simp only [walk, ended]
  | succ rounds inductionHypothesis =>
    unfold Ended at ended
    rw [Nat.add_right_comm, walk, walk]
    cases here : (list state)[idx]? with
    | none => rfl
    | some item =>
      simp only [here] at ended
      exact inductionHypothesis ended

theorem AtEveryVisit.of_ended {fact : Nat → State → Item → Prop} {rounds idx : Nat} {state : State}
    (ended : Ended list visit rounds idx state) (every : AtEveryVisit list visit fact rounds idx state) (more : Nat) :
    AtEveryVisit list visit fact (rounds + more) idx state := by
  induction rounds generalizing idx state with
  | zero =>
    rw [Ended] at ended
    cases more with
    | zero => trivial
    | succ more =>
      simp only [AtEveryVisit, ended]
  | succ rounds inductionHypothesis =>
    unfold Ended at ended
    unfold AtEveryVisit at every
    rw [Nat.add_right_comm, AtEveryVisit]
    cases here : (list state)[idx]? with
    | none => trivial
    | some item =>
      simp only [here] at ended every ⊢
      exact ⟨every.1, inductionHypothesis ended every.2⟩

/-- A walk ends if the list stays bounded. -/
theorem ended_of_bounded {invariant : State → Prop} {bound : Nat}
    (kept : ∀ state, ∀ item ∈ list state, invariant state → invariant (visit state item))
    (bounded : ∀ state, invariant state → (list state).length ≤ bound) {rounds idx : Nat} {state : State}
    (holds : invariant state) (enough : bound ≤ rounds + idx) : Ended list visit rounds idx state := by
  induction rounds generalizing idx state with
  | zero =>
    rw [Ended, List.getElem?_eq_none_iff]
    have short := bounded state holds
    omega
  | succ rounds inductionHypothesis =>
    unfold Ended
    cases here : (list state)[idx]? with
    | none => trivial
    | some item => exact inductionHypothesis (kept state item (List.mem_of_getElem? here) holds) (by omega)

/-- Whoever waits on the list is visited or dealt with by the visit of another, if every visit deals with
those that it does not leave to wait. -/
theorem atSomeVisit_of_waits {touches : State → Item → Item → Prop} (self : ∀ state item, touches state item item)
    {rounds idx : Nat} {state : State} {item : Item} (ended : Ended list visit rounds idx state)
    (waits : AtEveryVisit list visit (fun idx state visited => ∀ other ∈ (list state).drop (idx + 1),
      touches state visited other ∨ other ∈ (list (visit state visited)).drop (idx + 1)) rounds idx state)
    (member : item ∈ (list state).drop idx) :
    AtSomeVisit list visit (fun state visited => touches state visited item) rounds idx state := by
  induction rounds generalizing idx state with
  | zero =>
    rw [Ended, List.getElem?_eq_none_iff] at ended
    rw [List.drop_eq_nil_of_le ended] at member
    contradiction
  | succ rounds inductionHypothesis =>
    unfold Ended at ended
    unfold AtEveryVisit at waits
    unfold AtSomeVisit
    cases here : (list state)[idx]? with
    | none =>
      rw [List.drop_eq_nil_of_le (List.getElem?_eq_none_iff.mp here)] at member
      contradiction
    | some visited =>
      simp only [here] at ended waits ⊢
      obtain ⟨inside, atIdx⟩ := List.getElem?_eq_some_iff.mp here
      rw [List.drop_eq_getElem_cons inside, atIdx] at member
      cases List.mem_cons.mp member with
      | inl first => exact .inl (first ▸ self state item)
      | inr later =>
        cases waits.1 item later with
        | inl touched => exact .inl touched
        | inr still => exact .inr (inductionHypothesis ended waits.2 still)

end

/-! ## Lists that change in front -/

section

variable {Item : Type*}

/-- These items have kept their places among those that are left, and what is new is in front of them. -/
def StaysIn (stay : Item → Prop) (before after : List Item) : Prop :=
  ∃ front keep, after = front ++ before.filter keep ∧ ∀ item, stay item → keep item = true

variable {stay : Item → Prop}

theorem StaysIn.refl (stay : Item → Prop) (list : List Item) : StaysIn stay list list :=
  ⟨[], fun _ => true, by simp, fun _ _ => rfl⟩

theorem StaysIn.cons {before after : List Item} (stays : StaysIn stay before after) (new : Item) :
    StaysIn stay before (new :: after) := by
  obtain ⟨front, keep, rfl, kept⟩ := stays
  exact ⟨new :: front, keep, rfl, kept⟩

theorem StaysIn.filter {before after : List Item} (stays : StaysIn stay before after)
    {keep : Item → Bool} (kept : ∀ item, stay item → keep item = true) :
    StaysIn stay before (after.filter keep) := by
  obtain ⟨front, already, rfl, there⟩ := stays
  refine ⟨front.filter keep, fun other => keep other && already other, ?_, fun item stays => ?_⟩
  · rw [List.filter_append, List.filter_filter]
  · exact Bool.and_eq_true_iff.mpr ⟨kept item stays, there item stays⟩

theorem StaysIn.trans {before middle after : List Item} (first : StaysIn stay before middle)
    (second : StaysIn stay middle after) : StaysIn stay before after := by
  obtain ⟨front, keep, rfl, kept⟩ := second
  obtain ⟨more, all, whole, there⟩ := first.filter kept
  exact ⟨front ++ more, all, by rw [whole, List.append_assoc], there⟩

/-- Whoever waits behind others still waits if they all stay. -/
theorem StaysIn.waits {before after : List Item} (stays : StaysIn stay before after) {idx : Nat} {item : Item}
    (waits : item ∈ before.drop (idx + 1)) (walked : ∀ other ∈ before.take (idx + 1), stay other)
    (waiting : stay item) : item ∈ after.drop (idx + 1) := by
  obtain ⟨front, keep, rfl, kept⟩ := stays
  have inside : idx + 1 ≤ before.length := by
    by_contra past
    rw [List.drop_eq_nil_of_le (by omega)] at waits
    exact List.not_mem_nil waits
  have whole : (before.take (idx + 1)).filter keep = before.take (idx + 1) :=
    List.filter_eq_self.mpr fun other member => kept other (walked other member)
  have parts : before.filter keep = before.take (idx + 1) ++ (before.drop (idx + 1)).filter keep := by
    conv_lhs => rw [← List.take_append_drop (idx + 1) before, List.filter_append, whole]
  have behind : idx + 1 ≤ (front ++ before.take (idx + 1)).length := by
    rw [List.length_append, List.length_take]
    omega
  rw [parts, ← List.append_assoc, List.drop_append_of_le_length behind]
  exact List.mem_append_right _ (List.mem_filter.mpr ⟨waits, kept item waiting⟩)

/-- New items are in front, each of them once and known. -/
def Confined (known before after : List Item) : Prop :=
  ∃ front keep, after = front ++ before.filter keep ∧ front.Nodup ∧ ∀ item ∈ front, item ∈ known

theorem Confined.refl (known list : List Item) : Confined known list list :=
  ⟨[], fun _ => true, by simp, List.nodup_nil, fun _ member => absurd member List.not_mem_nil⟩

theorem Confined.cons {known before after : List Item} (confined : Confined known before after) {new : Item}
    (isKnown : new ∈ known) (fresh : new ∉ after) : Confined known before (new :: after) := by
  obtain ⟨front, keep, rfl, distinct, inside⟩ := confined
  refine ⟨new :: front, keep, rfl, List.nodup_cons.mpr ⟨fun old => ?_, distinct⟩, ?_⟩
  · exact fresh (List.mem_append_left _ old)
  · exact List.forall_mem_cons.mpr ⟨isKnown, inside⟩

theorem Confined.filter {known before after : List Item} (confined : Confined known before after)
    (keep : Item → Bool) : Confined known before (after.filter keep) := by
  obtain ⟨front, already, rfl, distinct, inside⟩ := confined
  refine ⟨front.filter keep, fun other => keep other && already other, ?_, distinct.filter _, ?_⟩
  · rw [List.filter_append, List.filter_filter]
  · exact fun item member => inside item (List.mem_of_mem_filter member)

theorem Confined.length_le {known before after : List Item} (confined : Confined known before after) :
    after.length ≤ known.length + before.length := by
  obtain ⟨front, keep, rfl, distinct, inside⟩ := confined
  rw [List.length_append]
  exact Nat.add_le_add (distinct.subperm inside).length_le (List.length_filter_le _ _)

end

end Gamin.Library
