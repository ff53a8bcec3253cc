import Mathlib.Data.List.Induction
import Mathlib.Logic.Function.Basic

/-! # A keyed table whose updates are put off

An update asks for an item to be added, in the place of what stands under its key, or for what stands
under its key to be removed.  `now` makes the updates in the order in which they are asked for; `later`
makes all additions and then all removals, each from the last one asked for to the first.  What is known
of the table under one key depends only on the calls with that key.
-/

namespace Gamin.Library

namespace KeyedTable

/-- An update that is asked for. -/
inductive Call (Item : Type*) where
  | add (item : Item)
  | remove (item : Item)
  deriving DecidableEq, Repr

variable {Key Item : Type*} [DecidableEq Key] (key : Item → Key)

/-! ## Updates -/

def put (table : Key → Option Item) (item : Item) : Key → Option Item :=
  Function.update table (key item) (some item)

def drop (table : Key → Option Item) (item : Item) : Key → Option Item :=
  Function.update table (key item) none

def Call.item : Call Item → Item
  | .add item => item
  | .remove item => item

@[simp] theorem Call.item_add (item : Item) : (Call.add item).item = item := rfl

@[simp] theorem Call.item_remove (item : Item) : (Call.remove item).item = item := rfl

def apply (table : Key → Option Item) : Call Item → Key → Option Item
  | .add item => put key table item
  | .remove item => drop key table item

def Call.added : Call Item → Option Item
  | .add item => some item
  | .remove _ => none

def Call.removed : Call Item → Option Item
  | .add _ => none
  | .remove item => some item

def additions (calls : List (Call Item)) : List Item := calls.filterMap Call.added

def removals (calls : List (Call Item)) : List Item := calls.filterMap Call.removed

@[simp] theorem additions_add (item : Item) (calls : List (Call Item)) :
    additions (.add item :: calls) = item :: additions calls := rfl

@[simp] theorem additions_remove (item : Item) (calls : List (Call Item)) :
    additions (.remove item :: calls) = additions calls := rfl

@[simp] theorem removals_add (item : Item) (calls : List (Call Item)) :
    removals (.add item :: calls) = removals calls := rfl

@[simp] theorem removals_remove (item : Item) (calls : List (Call Item)) :
    removals (.remove item :: calls) = item :: removals calls := rfl

/-- The updates at once. -/
def now (table : Key → Option Item) (calls : List (Call Item)) : Key → Option Item :=
  calls.foldl (apply key) table

/-- The additions, before anything is removed. -/
def grown (table : Key → Option Item) (calls : List (Call Item)) : Key → Option Item :=
  (additions calls).reverse.foldl (put key) table

/-- The updates put off. -/
def later (table : Key → Option Item) (calls : List (Call Item)) : Key → Option Item :=
  (removals calls).reverse.foldl (drop key) (grown key table calls)

/-- Each removal takes out its own item, or nothing. -/
def TakesOwn (table : Key → Option Item) : List Item → Prop
  | [] => True
  | item :: items => (∀ other, table (key item) = some other → other = item) ∧
      TakesOwn (drop key table item) items

/-- The last call with a key. -/
def lastCall (calls : List (Call Item)) (k : Key) : Option (Call Item) :=
  calls.reverse.find? fun call => key call.item = k

/-- The last call with a key is the addition of the item that was the first to be added with it, and
nothing is removed with it; or it is the removal of the item that has come to stand there. -/
def Deferrable (table : Key → Option Item) (calls : List (Call Item)) : Prop :=
  ∀ k, match lastCall key calls k with
    | none => True
    | some (.add item) =>
      (∀ gone ∈ removals calls, key gone ≠ k) ∧ (additions calls).find? (key · = k) = some item
    | some (.remove item) =>
      ∀ other, ((additions calls).find? (key · = k)).or (table k) = some other → other = item

/-! ## One key -/

theorem now_apply (table : Key → Option Item) (calls : List (Call Item)) (k : Key) :
    now key table calls k =
      match lastCall key calls k with
      | none => table k
      | some call => call.added := by
  induction calls using List.reverseRecOn with
  | nil => rfl
  | append_singleton calls call inductionHypothesis =>
    simp only [now, List.foldl_append, List.foldl_cons, List.foldl_nil, lastCall, List.reverse_append,
      List.reverse_singleton, List.singleton_append, List.find?_cons] at inductionHypothesis ⊢
    by_cases here : key call.item = k
    · cases call with
      | add item => simp_all [apply, put, Call.added]
      | remove item => simp_all [apply, drop, Call.added]
    · simp only [here, decide_false, ← inductionHypothesis]
      cases call with
      | add item => exact Function.update_of_ne (Ne.symm here) _ _
      | remove item => exact Function.update_of_ne (Ne.symm here) _ _

theorem grown_apply (table : Key → Option Item) (calls : List (Call Item)) (k : Key) :
    grown key table calls k = ((additions calls).find? (key · = k)).or (table k) := by
  unfold grown
  rw [List.foldl_reverse]
  induction additions calls with
  | nil => rfl
  | cons item items inductionHypothesis =>
    rw [List.foldr_cons, List.find?_cons]
    by_cases here : key item = k
    · simp [put, here]
    · simp only [here, decide_false, ← inductionHypothesis]
      exact Function.update_of_ne (Ne.symm here) _ _

theorem foldl_drop_apply (table : Key → Option Item) (items : List Item) (k : Key) :
    items.foldl (drop key) table k = if ∃ item ∈ items, key item = k then none else table k := by
  induction items generalizing table with
  | nil => simp
  | cons item items inductionHypothesis =>
    rw [List.foldl_cons, inductionHypothesis, drop]
    by_cases here : key item = k
    · simp [here]
    · simp [here, Function.update_of_ne (Ne.symm here)]

theorem takesOwn_iff {table : Key → Option Item} {items : List Item} :
    TakesOwn key table items ↔ ∀ k first, items.find? (key · = k) = some first →
      ∀ other, table k = some other → other = first := by
  induction items generalizing table with
  | nil => simp [TakesOwn]
  | cons item items inductionHypothesis =>
    rw [TakesOwn, inductionHypothesis]
    constructor
    · rintro ⟨own, others⟩ k first found other stands
      rw [List.find?_cons] at found
      by_cases here : key item = k
      · simp only [here, decide_true, Option.some.injEq] at found
        exact found ▸ own other (here ▸ stands)
      · simp only [here, decide_false] at found
        exact others k first found other (by rwa [drop, Function.update_of_ne (Ne.symm here)])
    · intro all
      refine ⟨fun other stands => all (key item) item (by simp) other stands, ?_⟩
      intro k first found other stands
      by_cases here : key item = k
      · simp [drop, here] at stands
      · rw [drop, Function.update_of_ne (Ne.symm here)] at stands
        exact all k first (by simpa [List.find?_cons, here] using found) other stands

theorem mem_additions {calls : List (Call Item)} {item : Item} :
    item ∈ additions calls ↔ .add item ∈ calls := by
  simp only [additions, List.mem_filterMap]
  refine ⟨fun ⟨call, member, added⟩ => ?_, fun member => ⟨_, member, rfl⟩⟩
  cases call with
  | add other => exact Option.some.inj added ▸ member
  | remove other => contradiction

theorem mem_removals {calls : List (Call Item)} {item : Item} :
    item ∈ removals calls ↔ .remove item ∈ calls := by
  simp only [removals, List.mem_filterMap]
  refine ⟨fun ⟨call, member, removed⟩ => ?_, fun member => ⟨_, member, rfl⟩⟩
  cases call with
  | add other => contradiction
  | remove other => exact Option.some.inj removed ▸ member

/-- The last call with a key, if it is a removal, is the last removal. -/
theorem find_removals {calls : List (Call Item)} {k : Key} {item : Item}
    (last : lastCall key calls k = some (.remove item)) :
    (removals calls).reverse.find? (key · = k) = some item := by
  unfold lastCall at last
  rw [removals, ← List.filterMap_reverse]
  generalize calls.reverse = calls at last ⊢
  induction calls with
  | nil => contradiction
  | cons call calls inductionHypothesis =>
    rw [List.find?_cons] at last
    by_cases here : key call.item = k
    · simp only [here, decide_true, Option.some.injEq] at last
      rw [last, List.filterMap_cons_some (by rfl), List.find?_cons]
      have same : key item = k := by rw [last] at here; exact here
      simp [same]
    · simp only [here, decide_false] at last
      cases call with
      | add other => exact inductionHypothesis last
      | remove other =>
        have different : ¬ key other = k := here
        rw [List.filterMap_cons_some (by rfl), List.find?_cons]
        simpa [different] using inductionHypothesis last

theorem lastCall_mem {calls : List (Call Item)} {k : Key} {call : Call Item}
    (last : lastCall key calls k = some call) : call ∈ calls ∧ key call.item = k :=
  ⟨List.mem_reverse.mp (List.mem_of_find?_eq_some last), by simpa using List.find?_some last⟩

theorem later_apply (table : Key → Option Item) (calls : List (Call Item)) (k : Key) :
    later key table calls k =
      if ∃ item ∈ removals calls, key item = k then none else grown key table calls k := by
  simp only [later, foldl_drop_apply, List.mem_reverse]

/-! ## All keys -/

theorem deferrable_at (table : Key → Option Item) (calls : List (Call Item)) (k : Key) :
    (later key table calls k = now key table calls k ∧
      ∀ first, (removals calls).reverse.find? (key · = k) = some first →
        ∀ other, grown key table calls k = some other → other = first) ↔
      match lastCall key calls k with
      | none => True
      | some (.add item) =>
        (∀ gone ∈ removals calls, key gone ≠ k) ∧ (additions calls).find? (key · = k) = some item
      | some (.remove item) =>
        ∀ other, ((additions calls).find? (key · = k)).or (table k) = some other → other = item := by
  rw [later_apply, now_apply, grown_apply]
  cases last : lastCall key calls k with
  | none =>
    have without : ∀ call ∈ calls, key call.item ≠ k := by
      intro call member here
      have absent := List.find?_eq_none.mp last call (List.mem_reverse.mpr member)
      exact absent (by simpa using here)
    have unremoved : ¬ ∃ item ∈ removals calls, key item = k :=
      fun ⟨item, member, here⟩ => without _ (mem_removals.mp member) here
    have unadded : (additions calls).find? (key · = k) = none :=
      List.find?_eq_none.mpr fun item member => by simpa using without _ (mem_additions.mp member)
    have unfound : (removals calls).reverse.find? (key · = k) = none :=
      List.find?_eq_none.mpr fun item member => by
        simpa using without _ (mem_removals.mp (List.mem_reverse.mp member))
    simp [unremoved, unadded, unfound]
  | some call =>
    obtain ⟨member, here⟩ := lastCall_mem key last
    cases call with
    | add item =>
      by_cases removed : ∃ item ∈ removals calls, key item = k
      · obtain ⟨gone, goneMember, goneHere⟩ := removed
        have kept : ¬ ∀ gone ∈ removals calls, key gone ≠ k := fun all => all gone goneMember goneHere
        have removed : ∃ item ∈ removals calls, key item = k := ⟨gone, goneMember, goneHere⟩
        simp only [if_pos removed, Call.added, reduceCtorEq, false_and, kept]
      · have unfound : (removals calls).reverse.find? (key · = k) = none :=
          List.find?_eq_none.mpr fun gone inRemovals => by
            simpa using fun goneHere => removed ⟨gone, List.mem_reverse.mp inRemovals, goneHere⟩
        have kept : ∀ gone ∈ removals calls, key gone ≠ k :=
          fun gone inRemovals goneHere => removed ⟨gone, inRemovals, goneHere⟩
        -- the addition itself is found if no other is
        obtain ⟨first, found⟩ : ∃ first, (additions calls).find? (key · = k) = some first :=
          Option.isSome_iff_exists.mp (List.find?_isSome.mpr
            ⟨item, mem_additions.mpr member, by simpa using here⟩)
        rw [if_neg removed, unfound, found]
        dsimp only
        rw [and_iff_right kept]
        simp [Call.added]
    | remove item =>
      have removed : ∃ item ∈ removals calls, key item = k := ⟨item, mem_removals.mpr member, here⟩
      rw [if_pos removed, find_removals key last]
      simp [Call.added]

/-- Putting the updates off makes no difference, and each removal takes out its own item, exactly if
the calls can be deferred. -/
theorem later_eq_now_iff (table : Key → Option Item) (calls : List (Call Item)) :
    later key table calls = now key table calls ∧
        TakesOwn key (grown key table calls) (removals calls).reverse ↔
      Deferrable key table calls := by
  rw [funext_iff, takesOwn_iff, ← forall_and]
  exact forall_congr' (deferrable_at key table calls)

end KeyedTable

end Gamin.Library
