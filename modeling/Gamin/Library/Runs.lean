import Mathlib.Data.List.Basic

/-! # Runs of a deterministic system

A system is a step function; its inputs carry every choice of the environment.
`Guarded` says that each step of a run is taken under a condition on the state
before it, `Throughout` that a property holds in every state of the run.
-/

namespace Gamin.Library

variable {State Input : Type*}

/-- The state after a list of inputs. -/
def run (step : State → Input → State) (state : State) (inputs : List Input) : State :=
  inputs.foldl step state

/-- Every step of the run is taken in a state that meets the guard. -/
def Guarded (step : State → Input → State) (guard : State → Input → Prop) :
    State → List Input → Prop
  | _, [] => True
  | state, input :: inputs => guard state input ∧ Guarded step guard (step state input) inputs

/-- The property holds in every state of the run, the first and the last included. -/
def Throughout (step : State → Input → State) (property : State → Prop) :
    State → List Input → Prop
  | state, [] => property state
  | state, input :: inputs => property state ∧ Throughout step property (step state input) inputs

variable {step : State → Input → State} {guard : State → Input → Prop}
  {invariant property : State → Prop}

@[simp] theorem run_nil (state : State) : run step state [] = state := rfl

@[simp] theorem run_cons (state : State) (input : Input) (inputs : List Input) :
    run step state (input :: inputs) = run step (step state input) inputs := rfl

theorem run_append (state : State) (first second : List Input) :
    run step state (first ++ second) = run step (run step state first) second :=
  List.foldl_append

theorem guarded_append {state : State} {first second : List Input} :
    Guarded step guard state (first ++ second) ↔
      Guarded step guard state first ∧ Guarded step guard (run step state first) second := by
  induction first generalizing state with
  | nil => exact ⟨fun guarded => ⟨trivial, guarded⟩, fun guarded => guarded.2⟩
  | cons input inputs inductionHypothesis =>
    rw [List.cons_append, Guarded, Guarded, inductionHypothesis, and_assoc]
    rfl

theorem Guarded.imp {weaker : State → Input → Prop} {state : State} {inputs : List Input}
    (guarded : Guarded step guard state inputs)
    (implied : ∀ state input, guard state input → weaker state input) : Guarded step weaker state inputs := by
  induction inputs generalizing state with
  | nil => trivial
  | cons input inputs inductionHypothesis =>
    exact ⟨implied state input guarded.1, inductionHypothesis guarded.2⟩

/-- An invariant that guarded steps preserve holds throughout a guarded run. -/
theorem Throughout.of_guarded
    (preserved : ∀ state input, invariant state → guard state input → invariant (step state input))
    {state : State} {inputs : List Input} (holds : invariant state)
    (guarded : Guarded step guard state inputs) : Throughout step invariant state inputs := by
  induction inputs generalizing state with
  | nil => exact holds
  | cons input inputs inductionHypothesis =>
    exact ⟨holds, inductionHypothesis (preserved state input holds guarded.1) guarded.2⟩

/-- An invariant that every step preserves holds throughout every run. -/
theorem Throughout.of_kept (kept : ∀ state input, invariant state → invariant (step state input))
    {state : State} (holds : invariant state) (inputs : List Input) :
    Throughout step invariant state inputs := by
  induction inputs generalizing state with
  | nil => exact holds
  | cons input inputs inductionHypothesis =>
    exact ⟨holds, inductionHypothesis (kept state input holds)⟩

theorem Throughout.imp (weaker : ∀ state, invariant state → property state)
    {state : State} {inputs : List Input} (throughout : Throughout step invariant state inputs) :
    Throughout step property state inputs := by
  induction inputs generalizing state with
  | nil => exact weaker state throughout
  | cons input inputs inductionHypothesis =>
    exact ⟨weaker state throughout.1, inductionHypothesis throughout.2⟩

theorem Throughout.first {state : State} {inputs : List Input}
    (throughout : Throughout step property state inputs) : property state := by
  cases inputs with
  | nil => exact throughout
  | cons input inputs => exact throughout.1

theorem Throughout.last {state : State} {inputs : List Input}
    (throughout : Throughout step property state inputs) : property (run step state inputs) := by
  induction inputs generalizing state with
  | nil => exact throughout
  | cons input inputs inductionHypothesis => exact inductionHypothesis throughout.2

theorem Throughout.concat {state : State} {inputs : List Input} {input : Input}
    (throughout : Throughout step property state inputs) (last : property (run step state (inputs ++ [input]))) :
    Throughout step property state (inputs ++ [input]) := by
  induction inputs generalizing state with
  | nil => exact ⟨throughout, last⟩
  | cons first inputs inductionHypothesis => exact ⟨throughout.1, inductionHypothesis throughout.2 last⟩

/-- A property holds throughout a run exactly when every step is guarded, if the guard
makes a step keep the property and a step that keeps it must have been guarded.  Both may
rely on an invariant that every step keeps. -/
theorem throughout_iff_guarded (invariant : State → Prop)
    (kept : ∀ state input, invariant state → invariant (step state input))
    (preserved : ∀ state input, invariant state → property state → guard state input →
      property (step state input))
    (forced : ∀ state input, invariant state → property state → property (step state input) →
      guard state input)
    {state : State} (invariantHolds : invariant state) (holds : property state) (inputs : List Input) :
    Throughout step property state inputs ↔ Guarded step guard state inputs := by
  induction inputs generalizing state with
  | nil => exact ⟨fun _ => trivial, fun _ => holds⟩
  | cons input inputs inductionHypothesis =>
    have invariantNext := kept state input invariantHolds
    constructor
    · rintro ⟨_, rest⟩
      have holdsNext := rest.first
      exact ⟨forced state input invariantHolds holds holdsNext,
        (inductionHypothesis invariantNext holdsNext).mp rest⟩
    · rintro ⟨guarded, rest⟩
      have holdsNext := preserved state input invariantHolds holds guarded
      exact ⟨holds, (inductionHypothesis invariantNext holdsNext).mpr rest⟩

instance decidableGuarded [∀ state input, Decidable (guard state input)] :
    (state : State) → (inputs : List Input) → Decidable (Guarded step guard state inputs)
  | _, [] => .isTrue trivial
  | state, input :: inputs =>
    have := decidableGuarded (step state input) inputs
    inferInstanceAs (Decidable (_ ∧ _))

/-! ## Steps that may not return -/

/-- A step of a run that may have ended. -/
def partialStep (step : State → Input → Option State) (state : Option State) (input : Input) :
    Option State :=
  state.bind (step · input)

@[simp] theorem run_none {step : State → Input → Option State} (inputs : List Input) :
    run (partialStep step) none inputs = none := by
  induction inputs with
  | nil => rfl
  | cons input inputs inductionHypothesis => exact inductionHypothesis

/-- The property holds if there is a state. -/
def IfAny (property : State → Prop) : Option State → Prop
  | none => True
  | some state => property state

instance [DecidablePred property] : DecidablePred (IfAny property)
  | none => .isTrue trivial
  | some state => inferInstanceAs (Decidable (property state))

/-- The guard holds if there is a state. -/
def GuardIfAny (guard : State → Input → Prop) : Option State → Input → Prop
  | none, _ => True
  | some state, input => guard state input

instance decidableGuardIfAny [∀ state input, Decidable (guard state input)] :
    (state : Option State) → (input : Input) → Decidable (GuardIfAny guard state input)
  | none, _ => .isTrue trivial
  | some state, input => inferInstanceAs (Decidable (guard state input))

theorem ifAny_partialStep {step : State → Input → Option State}
    (preserved : ∀ state input after, invariant state → guard state input →
      step state input = some after → invariant after)
    (state : Option State) (input : Input) (holds : IfAny invariant state)
    (guarded : GuardIfAny guard state input) : IfAny invariant (partialStep step state input) := by
  cases state with
  | none => trivial
  | some state =>
    cases next : step state input with
    | none => simp [partialStep, next, IfAny]
    | some after =>
      simp only [partialStep, Option.bind_some, next, IfAny]
      exact preserved state input after holds guarded next

/-- An invariant that guarded steps preserve when they return holds throughout. -/
theorem Throughout.of_partial {step : State → Input → Option State}
    (preserved : ∀ state input after, invariant state → guard state input →
      step state input = some after → invariant after)
    {state : State} {inputs : List Input} (holds : invariant state)
    (guarded : Guarded (partialStep step) (GuardIfAny guard) (some state) inputs) :
    Throughout (partialStep step) (IfAny invariant) (some state) inputs :=
  .of_guarded (ifAny_partialStep preserved) (show IfAny invariant (some state) from holds) guarded

/-- An invariant that every step preserves when it returns holds throughout every run. -/
theorem Throughout.of_partial_kept {step : State → Input → Option State}
    (kept : ∀ state input after, invariant state → step state input = some after → invariant after)
    {state : State} (holds : invariant state) (inputs : List Input) :
    Throughout (partialStep step) (IfAny invariant) (some state) inputs := by
  refine .of_kept (fun state input before => ?_) (show IfAny invariant (some state) from holds) inputs
  exact @ifAny_partialStep _ _ (fun _ _ => True) _ _
    (fun state input after holds _ next => kept state input after holds next)
    state input before (by cases state <;> trivial)

/-- What a guarded step does while the invariant holds, every step of a guarded run does. -/
theorem guarded_of_returns {step : State → Input → Option State} {done : State → Input → Prop}
    (does : ∀ state input, invariant state → guard state input →
      done state input ∧ ∀ after, step state input = some after → invariant after)
    {state : State} {inputs : List Input} (holds : invariant state)
    (guarded : Guarded (partialStep step) (GuardIfAny guard) (some state) inputs) :
    Guarded (partialStep step) (GuardIfAny done) (some state) inputs := by
  have ended (inputs : List Input) : Guarded (partialStep step) (GuardIfAny done) none inputs := by
    induction inputs with
    | nil => trivial
    | cons input inputs inductionHypothesis => exact ⟨trivial, inductionHypothesis⟩
  induction inputs generalizing state with
  | nil => trivial
  | cons input inputs inductionHypothesis =>
    obtain ⟨first, rest⟩ := guarded
    obtain ⟨doneNow, kept⟩ := does state input holds first
    refine ⟨doneNow, ?_⟩
    cases next : step state input with
    | none =>
      simp only [partialStep, Option.bind_some, next]
      exact ended inputs
    | some after =>
      simp only [partialStep, Option.bind_some, next] at rest ⊢
      exact inductionHypothesis (kept after next) rest

/-- The exact condition for a step that may not return: the guard asks nothing of a step that
does not, and otherwise decides whether the step keeps the property. -/
theorem throughout_iff_guarded_partial {step : State → Input → Option State}
    (invariant : State → Prop)
    (kept : ∀ state input after, invariant state → step state input = some after → invariant after)
    (unreturned : ∀ state input, step state input = none → guard state input)
    (decides : ∀ state input after, invariant state → property state →
      step state input = some after → (property after ↔ guard state input))
    {state : State} (invariantHolds : invariant state) (holds : property state)
    (inputs : List Input) :
    Throughout (partialStep step) (IfAny property) (some state) inputs ↔
      Guarded (partialStep step) (GuardIfAny guard) (some state) inputs := by
  -- a step that does not return leaves no state, and asks nothing
  refine throughout_iff_guarded (IfAny invariant) ?_ ?_ ?_
    (show IfAny invariant (some state) from invariantHolds)
    (show IfAny property (some state) from holds) inputs
  · intro state input invariantHolds
    exact @ifAny_partialStep _ _ (fun _ _ => True) _ _
      (fun state input after holds _ next => kept state input after holds next)
      state input invariantHolds (by cases state <;> trivial)
  · intro state input invariantHolds holds guarded
    cases state with
    | none => trivial
    | some state =>
      cases next : step state input with
      | none => simp [partialStep, next, IfAny]
      | some after =>
        simp only [partialStep, Option.bind_some, next]
        exact (decides state input after invariantHolds holds next).mpr guarded
  · intro state input invariantHolds holds holdsNext
    cases state with
    | none => trivial
    | some state =>
      cases next : step state input with
      | none => exact unreturned state input next
      | some after =>
        simp only [partialStep, Option.bind_some, next] at holdsNext
        exact (decides state input after invariantHolds holds next).mp holdsNext

theorem IfAny.imp (weaker : ∀ state, invariant state → property state) :
    ∀ state : Option State, IfAny invariant state → IfAny property state
  | none, _ => trivial
  | some state, holds => weaker state holds

end Gamin.Library
