import Mathlib.Data.List.Basic

/-! # A mutex that is not recursive

A call that acquires the mutex while it is held waits for itself.  A critical section runs a
body between the acquisition and the release.
-/

namespace Gamin.Library

/-- Why a call does not return: it waits for a mutex that it holds itself, or its body does
not return. -/
inductive Stuck where
  | deadlock
  | noReturn
  deriving DecidableEq, Repr

/-- A state with the mutex that guards it. -/
structure Locked (State : Type*) where
  held : Bool
  state : State

variable {State : Type*}

def acquire (locked : Locked State) : Except Stuck (Locked State) :=
  if locked.held then .error .deadlock else .ok { locked with held := true }

def release (locked : Locked State) : Locked State := { locked with held := false }

/-- A critical section. -/
def withLock (body : State → Option State) (locked : Locked State) :
    Except Stuck (Locked State) :=
  (acquire locked).bind fun locked =>
    match body locked.state with
    | none => .error .noReturn
    | some state => .ok (release { locked with state := state })

/-- The call does not wait for itself, and has released the mutex when it returns. -/
def LockSafe : Except Stuck (Locked State) → Prop
  | .error .deadlock => False
  | .error .noReturn => True
  | .ok after => after.held = false

/-- Nobody holds the mutex. -/
def LockFree (locked : Locked State) : Prop := locked.held = false

@[simp] theorem acquire_free (state : State) :
    acquire { held := false, state := state } = .ok { held := true, state := state } := rfl

@[simp] theorem acquire_held (state : State) :
    acquire { held := true, state := state } = .error .deadlock := rfl

theorem withLock_free (body : State → Option State) (state : State) :
    withLock body { held := false, state := state } =
      match body state with
      | none => .error .noReturn
      | some after => .ok { held := false, state := after } := rfl

theorem withLock_held (body : State → Option State) (state : State) :
    withLock body { held := true, state := state } = .error .deadlock := rfl

theorem withLock_lockSafe (body : State → Option State) (state : State) :
    LockSafe (withLock body { held := false, state := state }) := by
  rw [withLock_free]
  cases body state with
  | none => trivial
  | some after => rfl

end Gamin.Library
