import Mathlib.Data.List.Destutter

/-! # A queue that drops repeats

An item equal to the last one of the queue is dropped.  So a queue holds what has been put into
it since it was last empty, with each run of equal items as one, which is `List.destutter`.
`Windows` keeps what has been put into it, one list for each time it was emptied.
-/

namespace Gamin.Library

variable {Item Other : Type*} [DecidableEq Item] [DecidableEq Other]

/-- The item at the end of the queue, unless it is there already. -/
def coalesce (queue : List Item) (item : Item) : List Item :=
  if queue.getLast? = some item then queue else queue ++ [item]

/-- What stands in front of the last item makes no difference. -/
theorem coalesce_cons {first : Item} {queue : List Item} (nonempty : queue ≠ []) (item : Item) :
    coalesce (first :: queue) item = first :: coalesce queue item := by
  unfold coalesce
  rw [List.getLast?_cons, List.getLast?_eq_some_getLast nonempty]
  simp only [Option.getD_some]
  split <;> rfl

theorem coalesce_map {translate : Item → Other} (injective : Function.Injective translate)
    (queue : List Item) (item : Item) :
    coalesce (queue.map translate) (translate item) = (coalesce queue item).map translate := by
  unfold coalesce
  have same : (queue.map translate).getLast? = some (translate item) ↔ queue.getLast? = some item := by
    rw [List.getLast?_map, Option.map_eq_some_iff]
    constructor
    · rintro ⟨last, found, equal⟩
      rw [found, injective equal]
    · exact fun found => ⟨item, found, rfl⟩
  simp only [same]
  split
  · rfl
  · rw [List.map_append, List.map_singleton]

theorem destutter'_queued (first : Item) (items : List Item) (item : Item) :
    (items ++ [item]).destutter' (· ≠ ·) first = coalesce (items.destutter' (· ≠ ·) first) item := by
  induction items generalizing first with
  | nil =>
    by_cases same : first = item
    · simp [coalesce, same]
    · simp [coalesce, same]
  | cons second items inductionHypothesis =>
    rw [List.cons_append]
    by_cases same : first = second
    · rw [List.destutter'_cons_neg _ (not_not.mpr same), List.destutter'_cons_neg _ (not_not.mpr same),
        inductionHypothesis]
    · rw [List.destutter'_cons_pos _ same, List.destutter'_cons_pos _ same, inductionHypothesis,
        coalesce_cons (List.destutter'_ne_nil items (· ≠ ·))]

/-- One more item behind the others goes into the queue of the others. -/
theorem destutter_queued (items : List Item) (item : Item) :
    (items ++ [item]).destutter (· ≠ ·) = coalesce (items.destutter (· ≠ ·)) item := by
  cases items with
  | nil => rfl
  | cons first items => exact destutter'_queued first items item

/-! ## Windows -/

/-- What was put into a queue before each time it was emptied, and since the last time. -/
structure Windows (Item : Type*) where
  closed : List (List Item)
  current : List Item

def Windows.empty : Windows Item where
  closed := []
  current := []

def Windows.put (windows : Windows Item) (item : Item) : Windows Item :=
  { windows with current := windows.current ++ [item] }

def Windows.close (windows : Windows Item) : Windows Item where
  closed := windows.closed ++ [windows.current]
  current := []

/-- What is taken out when the windows are closed, in order. -/
def Windows.delivered (windows : Windows Item) : List Item :=
  windows.closed.flatMap (List.destutter (· ≠ ·))

/-- What is waiting in the open window. -/
def Windows.waiting (windows : Windows Item) : List Item :=
  windows.current.destutter (· ≠ ·)

theorem Windows.waiting_put (windows : Windows Item) (item : Item) :
    (windows.put item).waiting = coalesce windows.waiting item :=
  destutter_queued windows.current item

theorem Windows.delivered_close (windows : Windows Item) :
    windows.close.delivered = windows.delivered ++ windows.waiting := by
  simp only [Windows.delivered, Windows.close, Windows.waiting, List.flatMap_append, List.flatMap_singleton]

@[simp] theorem Windows.waiting_close (windows : Windows Item) : windows.close.waiting = [] := rfl

end Gamin.Library
