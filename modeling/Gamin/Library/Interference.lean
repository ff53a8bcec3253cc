import Mathlib.Logic.Relation

/-! # A thread among others

A thread changes a world by atomic calls, and before each of its calls the others move.  What they may do is a
relation, the rely of the thread.  A triple says what holds when the thread ends, whatever moves the others make
that the rely allows; what is known before a call has to survive a move.
-/

namespace Gamin.Library

open Relation

variable {World : Type} {rely : World → World → Prop}

/-- The moves of the others, one for each call. -/
structure Others (rely : World → World → Prop) where
  move : Nat → World → World
  allowed : ∀ call world, rely world (move call world)

/-- A thread reads what the others will do, and counts its calls. -/
abbrev Thread (World : Type) := ReaderT (Nat → World → World) (StateM (Nat × World))

/-- An atomic call. -/
def call {Result : Type} (act : World → Result × World) : Thread World Result :=
  fun move state => ((act (move state.1 state.2)).1, (state.1 + 1, (act (move state.1 state.2)).2))

/-- What a thread ends with, from its first call on. -/
def Thread.outcome {Result : Type} (thread : Thread World Result) (move : Nat → World → World) (world : World) :
    Result × World :=
  ((thread move (0, world)).1, (thread move (0, world)).2.2)

/-- The property survives every move of the others. -/
def Stable (rely : World → World → Prop) (property : World → Prop) : Prop :=
  ∀ {before after}, rely before after → property before → property after

/-- What survives a move survives all that come. -/
theorem Stable.forever {property : World → Prop} (stable : Stable rely property) {before after : World}
    (later : ReflTransGen rely before after) (holds : property before) : property after := by
  induction later with
  | refl => exact holds
  | tail _ moves inductionHypothesis => exact stable moves inductionHypothesis

/-- From a world with the first property the thread ends in one with the second. -/
def Triple (rely : World → World → Prop) {Result : Type} (before : World → Prop) (thread : Thread World Result)
    (after : Result → World → Prop) : Prop :=
  ∀ (others : Others rely) (count : Nat) (world : World), before world →
    after (thread others.move (count, world)).1 (thread others.move (count, world)).2.2

section

variable {Result Next : Type} {before between : World → Prop} {after : Result → World → Prop}

theorem Triple.outcome {thread : Thread World Result} (triple : Triple rely before thread after)
    (others : Others rely) (world : World) (holds : before world) :
    after (thread.outcome others.move world).1 (thread.outcome others.move world).2 :=
  triple others 0 world holds

theorem Triple.pure {result : Result} (holds : ∀ world, before world → after result world) :
    Triple rely before (pure result) after :=
  fun _ _ world first => holds world first

theorem Triple.bind {first : Thread World Result} {rest : Result → Thread World Next}
    {last : Next → World → Prop} (after : Result → World → Prop) (begins : Triple rely before first after)
    (continues : ∀ result, Triple rely (after result) (rest result) last) :
    Triple rely before (first >>= rest) last :=
  fun others count world holds => continues _ others _ _ (begins others count world holds)

/-- The others move first, so what is known has to be stable. -/
theorem Triple.call {act : World → Result × World} (stable : Stable rely before)
    (holds : ∀ world, before world → after (act world).1 (act world).2) :
    Triple rely before (call act) after :=
  fun others count world first => holds _ (stable (others.allowed count world) first)

theorem Triple.strengthen {thread : Thread World Result} (before : World → Prop)
    (triple : Triple rely before thread after) (stronger : ∀ world, between world → before world) :
    Triple rely between thread after :=
  fun others count world holds => triple others count world (stronger world holds)

/-- A thread that may begin anywhere. -/
theorem Triple.anywhere {thread : Thread World Result} (triple : Triple rely (fun _ => True) thread after) :
    Triple rely between thread after :=
  .strengthen _ triple fun _ _ => trivial

theorem Triple.weaken {weaker : Result → World → Prop} {thread : Thread World Result}
    (triple : Triple rely before thread after) (implied : ∀ result world, after result world → weaker result world) :
    Triple rely before thread weaker :=
  fun others count world holds => implied _ _ (triple others count world holds)

theorem Triple.ite {condition : Prop} [Decidable condition] {yes no : Thread World Result}
    (ifTrue : condition → Triple rely before yes after) (ifFalse : ¬ condition → Triple rely before no after) :
    Triple rely before (if condition then yes else no) after := by
  by_cases holds : condition
  · rw [if_pos holds]
    exact ifTrue holds
  · rw [if_neg holds]
    exact ifFalse holds

end

/-! ## A thread on its own -/

/-- The others do nothing. -/
def Idle (before after : World) : Prop := after = before

/-- From a known world a call leads to a known world. -/
theorem Triple.call_known {Result : Type} (act : World → Result × World) (world : World) :
    Triple Idle (· = world) (Library.call act)
      (fun result after => result = (act world).1 ∧ after = (act world).2) := by
  refine .call (fun {before after} idle known => ?_) fun _ known => ?_
  · exact (show after = before from idle).trans known
  · rw [known]
    exact ⟨rfl, rfl⟩

end Gamin.Library
