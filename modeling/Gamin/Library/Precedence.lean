import Mathlib.Data.List.Basic

/-! # Which of several rules counts

Rules come in an order.  In a list that is searched the first rule that applies counts; in a table
that is written to, the last rule for a key.
-/

namespace Gamin.Library

/-! ## The first rule -/

section

variable {Rule Verdict : Type*} (applies : Rule → Bool) (verdict : Rule → Verdict)

/-- The verdict of the first rule that applies. -/
def firstVerdict (rules : List Rule) : Option Verdict := (rules.find? applies).map verdict

theorem firstVerdict_append (first second : List Rule) :
    firstVerdict applies verdict (first ++ second) =
      (firstVerdict applies verdict first).or (firstVerdict applies verdict second) := by
  unfold firstVerdict
  rw [List.find?_append]
  cases first.find? applies with
  | none => rfl
  | some rule => rfl

/-- A rule behind others counts exactly when none of them applies first with another verdict. -/
theorem firstVerdict_append_eq_iff {first second : List Rule} {result : Verdict}
    (found : firstVerdict applies verdict second = some result) :
    firstVerdict applies verdict (first ++ second) = some result ↔
      ∀ earlier, firstVerdict applies verdict first = some earlier → earlier = result := by
  rw [firstVerdict_append, found]
  cases firstVerdict applies verdict first with
  | none => simp
  | some earlier => simp

end

/-! ## The last rule -/

section

variable {Key Value State Result : Type*} [DecidableEq Key]

/-- The value of the last rule for a key. -/
def lastWrite (key : Key) : List (Key × Value) → Option Value
  | [] => none
  | rule :: rules => (lastWrite key rules).or (if rule.1 = key then some rule.2 else none)

/-- What is written to a table last is read from it, if other keys leave what is there. -/
theorem foldl_lastWrite {read : State → Option Result} {write : State → Key × Value → State}
    {meaning : Value → Result} {key : Key}
    (here : ∀ state value, read (write state (key, value)) = some (meaning value))
    (elsewhere : ∀ state rule result, rule.1 ≠ key → read state = some result →
      read (write state rule) = some result)
    {rules : List (Key × Value)} {state : State} {result : Result}
    (written : ((lastWrite key rules).map meaning).or (read state) = some result) :
    read (rules.foldl write state) = some result := by
  induction rules generalizing state with
  | nil => exact written
  | cons rule rules inductionHypothesis =>
    apply inductionHypothesis
    rw [lastWrite] at written
    cases later : lastWrite key rules with
    | some last =>
      rw [later] at written
      exact written
    | none =>
      rw [later, Option.none_or] at written
      obtain ⟨name, new⟩ := rule
      by_cases same : name = key
      · subst same
        simp only [Option.map_none, Option.none_or, here]
        simpa using written
      · rw [if_neg same] at written
        exact elsewhere state (name, new) result same written

end

end Gamin.Library
