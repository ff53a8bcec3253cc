import Mathlib.Data.List.Basic

/-! # Reports about presence

A stream of reports about one thing, which is there or is not.  Whoever hears the stream believes the last
report.  The stream alternates if no report contradicts what the listener believes when it comes.
-/

namespace Gamin.Library

/-- The thing is there, it has changed, it is gone; `other` says something else. -/
inductive Notice where
  | present
  | changed
  | absent
  | other
  deriving DecidableEq, Repr

/-- What the listener believes after a report. -/
def Notice.leaves (believed : Bool) : Notice → Bool
  | .present => true
  | .absent => false
  | .changed | .other => believed

/-- A thing appears while it is not there; it changes or goes while it is; and nothing else is said. -/
def Notice.Fits (believed : Bool) : Notice → Prop
  | .present => believed = false
  | .changed | .absent => believed = true
  | .other => False

instance (believed : Bool) : (report : Notice) → Decidable (report.Fits believed)
  | .present => inferInstanceAs (Decidable (believed = false))
  | .changed | .absent => inferInstanceAs (Decidable (believed = true))
  | .other => inferInstanceAs (Decidable False)

/-- What the listener believes after the reports. -/
def lastReported (believed : Bool) (reports : List Notice) : Bool := reports.foldl Notice.leaves believed

/-- Every report fits what is believed when it comes. -/
def Alternating : Bool → List Notice → Prop
  | _, [] => True
  | believed, report :: reports => report.Fits believed ∧ Alternating (report.leaves believed) reports

instance decidableAlternating : (believed : Bool) → (reports : List Notice) → Decidable (Alternating believed reports)
  | _, [] => .isTrue trivial
  | believed, report :: reports =>
    have := decidableAlternating (report.leaves believed) reports
    inferInstanceAs (Decidable (_ ∧ _))

variable {believed : Bool} {reports : List Notice}

@[simp] theorem lastReported_nil : lastReported believed [] = believed := rfl

theorem lastReported_concat (report : Notice) :
    lastReported believed (reports ++ [report]) = report.leaves (lastReported believed reports) := by
  rw [lastReported, List.foldl_append, List.foldl_cons, List.foldl_nil, lastReported]

/-- One more report. -/
theorem alternating_concat (report : Notice) :
    Alternating believed (reports ++ [report]) ↔
      Alternating believed reports ∧ report.Fits (lastReported believed reports) := by
  induction reports generalizing believed with
  | nil => simp [Alternating]
  | cons first reports inductionHypothesis =>
    rw [List.cons_append, Alternating, inductionHypothesis, Alternating, and_assoc]
    exact Iff.rfl

end Gamin.Library
