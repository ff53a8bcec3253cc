import Mathlib.Data.List.Basic

/-! # Rate limits

An action is requested again and again, at times that a clock gives, and each time it is taken or
refused.  A rate limit keeps two actions a period apart, lets the action be taken once the period is
over, and, when the clock is set back, holds it up for no more than a period of the new clock.
-/

namespace Gamin.Library

/-- A request at a time, and whether the action was taken. -/
structure Request where
  now : Nat
  taken : Bool
  deriving DecidableEq, Repr

/-- The action was taken at a time; the next requests were refused, and then comes this one. -/
def NextRequest (trace : List Request) (last : Nat) (refused : List Nat) (request : Request) : Prop :=
  ∃ before after, trace = before ++ ⟨last, true⟩ :: (refused.map (⟨·, false⟩) ++ request :: after)

/-- The readings of the clock from the last action to a request. -/
def readings (last : Nat) (refused : List Nat) (request : Request) : List Nat :=
  last :: (refused ++ [request.now])

/-- The rate limit.  While the clock does not go back, two actions are a period apart, and the first request
after a period is not refused.  After the clock has been set back, no request is refused that comes a period
after the new reading. -/
structure RateLimited (period : Nat) (trace : List Request) : Prop where
  apart : ∀ {last refused request}, NextRequest trace last refused request →
    (readings last refused request).Pairwise (· ≤ ·) → request.taken = true → last + period ≤ request.now
  prompt : ∀ {last refused request}, NextRequest trace last refused request →
    (readings last refused request).Pairwise (· ≤ ·) → last + period ≤ request.now → request.taken = true
  setBack : ∀ {last refused request}, NextRequest trace last refused request →
    ∀ {front previous reset rest}, readings last refused request = front ++ previous :: reset :: rest →
      reset < previous → (reset :: rest).Pairwise (· ≤ ·) → reset + period ≤ request.now →
        request.taken = true

/-! ## A limiter that remembers the last action -/

/-- Every request finds the last action in the past, and is granted if a period has gone by. -/
def Timely (period : Nat) : Option Nat → List Request → Prop
  | _, [] => True
  | last, request :: requests =>
    (∀ time, last = some time → time ≤ request.now ∧ (request.taken = true ↔ time + period ≤ request.now)) ∧
      Timely period (if request.taken then some request.now else last) requests

section

variable {period : Nat} {last : Option Nat} {requests : List Request}

theorem Timely.behind {before : List Request} (timely : Timely period last (before ++ requests)) :
    ∃ later, Timely period later requests := by
  induction before generalizing last with
  | nil => exact ⟨last, timely⟩
  | cons request before inductionHypothesis => exact inductionHypothesis timely.2

/-- Refused requests leave the last action as it is. -/
theorem Timely.refused {time : Nat} {refused : List Nat}
    (timely : Timely period (some time) (refused.map (⟨·, false⟩) ++ requests)) :
    (∀ reading ∈ refused, time ≤ reading) ∧ Timely period (some time) requests := by
  induction refused with
  | nil => exact ⟨fun _ member => (nomatch member), timely⟩
  | cons reading refused inductionHypothesis =>
    obtain ⟨later, rest⟩ := inductionHypothesis timely.2
    have first := (timely.1 time rfl).1
    exact ⟨List.forall_mem_cons.mpr ⟨first, later⟩, rest⟩

/-- Between two actions the clock is not behind the first of them, and the time decides. -/
theorem Timely.next {trace : List Request} (timely : Timely period last trace) {time : Nat} {refused : List Nat}
    {request : Request} (follows : NextRequest trace time refused request) :
    (∀ reading ∈ refused ++ [request.now], time ≤ reading) ∧
      (request.taken = true ↔ time + period ≤ request.now) := by
  obtain ⟨before, after, rfl⟩ := follows
  obtain ⟨_, _, rest⟩ := timely.behind
  obtain ⟨earlier, now, _⟩ := Timely.refused rest
  obtain ⟨past, decides⟩ := now time rfl
  refine ⟨fun reading member => ?_, decides⟩
  cases List.mem_append.mp member with
  | inl isRefused => exact earlier reading isRefused
  | inr isRequest =>
    rw [List.mem_singleton.mp isRequest]
    exact past

/-- A limiter that remembers the last action, and never finds it in the future, is a rate limit. -/
theorem rateLimited_of_timely (timely : Timely period last requests) : RateLimited period requests where
  apart follows _ taken := (timely.next follows).2.mp taken
  prompt follows _ late := (timely.next follows).2.mpr late
  setBack {time refused request} follows {front previous reset rest} split _ _ late := by
    obtain ⟨past, decides⟩ := timely.next follows
    -- the reading after which the clock has been set back comes after the last action
    have behind : reset ∈ refused ++ [request.now] := by
      cases front with
      | nil =>
        rw [(List.cons.inj split).2]
        exact List.mem_cons_self
      | cons first front =>
        rw [(List.cons.inj split).2]
        exact List.mem_append_right _ (List.mem_cons_of_mem _ List.mem_cons_self)
    have notBefore := past reset behind
    exact decides.mpr (by omega)

/-- Without a period no request need be refused. -/
theorem rateLimited_zero (granted : ∀ request ∈ requests, request.taken = true) : RateLimited 0 requests := by
  have isGranted {time : Nat} {refused : List Nat} {request : Request}
      (follows : NextRequest requests time refused request) : request.taken = true := by
    obtain ⟨before, after, rfl⟩ := follows
    apply granted
    simp
  refine ⟨fun {time refused request} follows ordered _ => ?_, fun follows _ _ => isGranted follows,
    fun follows _ _ _ _ _ _ _ _ => isGranted follows⟩
  have first := (List.pairwise_cons.mp ordered).1 request.now (List.mem_append_right _ List.mem_cons_self)
  omega

end

end Gamin.Library
