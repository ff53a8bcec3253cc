import Gamin.Kqueue.Tables
import Gamin.Library.DeferredTable

/-! # Tables that are changed while they are walked

`HashTable` of `gam_kqueue.c`: what the function that walks a table adds and removes is noted down and
made up for when the walk is over, first the additions and then the removals, from the last one noted
down to the first.  The tables of the backend are of this kind: those of pointers have the pointers for
their keys, those of file monitors the names of the files.

An item keeps its key here whatever becomes of it.  In the program `g_hash_table_replace` frees a file
monitor that gives way to another one, and a removal of it that was noted down reads its name after that.
-/

namespace Gamin.Kqueue

open Gamin Gamin.Server Gamin.Inotify Gamin.Library Gamin.Library.KeyedTable

/-! ## The tables -/

/-- A `GHashTable` by what it holds under each key. -/
abbrev GHashTable (Key Item : Type*) := Key → Option Item

/-- The two methods of `HashTableMethods` that change the table. -/
structure HashTableMethods (Key Item : Type*) where
  add : GHashTable Key Item → Item → GHashTable Key Item
  remove : GHashTable Key Item → Item → GHashTable Key Item

/-- `HashTable`.  What the other methods do to the pollers is left out. -/
structure HashTable (Key Item : Type*) where
  main : GHashTable Key Item
  iterating : Bool
  pendingAdditions : List Item
  pendingRemovals : List Item

/-- `gam_kqueue_hash_table_new`, for a table that has been filled. -/
def gamKqueueHashTableNew {Key Item : Type*} (main : GHashTable Key Item) : HashTable Key Item where
  main := main
  iterating := false
  pendingAdditions := []
  pendingRemovals := []

section

variable {Key Item World : Type*}

/-- `g_hash_table_replace` and `g_hash_table_remove` with the key of an item. -/
def keyedMethods [DecidableEq Key] (key : Item → Key) : HashTableMethods Key Item where
  add table item := Function.update table (key item) (some item)
  remove table item := Function.update table (key item) none

/-- `gam_kqueue_hash_table_default_add_cb` and `gam_kqueue_hash_table_default_remove_cb`. -/
def defaultHashTableMethods [DecidableEq Key] : HashTableMethods Key Key where
  add table item := Function.update table item (some item)
  remove table item := Function.update table item none

theorem defaultHashTableMethods_eq [DecidableEq Key] :
    (defaultHashTableMethods : HashTableMethods Key Key) = keyedMethods id := rfl

/-- `gam_kqueue_hash_table_add`. -/
def gamKqueueHashTableAdd (methods : HashTableMethods Key Item) (table : HashTable Key Item)
    (item : Item) : HashTable Key Item :=
  if table.iterating then { table with pendingAdditions := item :: table.pendingAdditions }
  else { table with main := methods.add table.main item }

/-- `gam_kqueue_hash_table_remove`. -/
def gamKqueueHashTableRemove (methods : HashTableMethods Key Item) (table : HashTable Key Item)
    (item : Item) : HashTable Key Item :=
  if table.iterating then { table with pendingRemovals := item :: table.pendingRemovals }
  else { table with main := methods.remove table.main item }

def gamKqueueHashTableCall (methods : HashTableMethods Key Item) (table : HashTable Key Item) :
    Call Item → HashTable Key Item
  | .add item => gamKqueueHashTableAdd methods table item
  | .remove item => gamKqueueHashTableRemove methods table item

/-- `g_hash_table_foreach`: for each entry `func` changes the world and calls for updates. -/
def gHashTableForeach (methods : HashTableMethods Key Item)
    (func : World → Item → World × List (Call Item)) :
    List Item → HashTable Key Item → World → HashTable Key Item
  | [], table, _ => table
  | entry :: entries, table, world =>
    let (world, calls) := func world entry
    gHashTableForeach methods func entries (calls.foldl (gamKqueueHashTableCall methods) table) world

/-- The additions that are made when the walk is over. -/
def HashTable.withAdditions (methods : HashTableMethods Key Item) (table : HashTable Key Item) :
    GHashTable Key Item :=
  table.pendingAdditions.foldl methods.add table.main

/-- What `gam_kqueue_hash_table_foreach` does when the walk is over. -/
def HashTable.flush (methods : HashTableMethods Key Item) (table : HashTable Key Item) :
    HashTable Key Item where
  main := table.pendingRemovals.foldl methods.remove (table.withAdditions methods)
  iterating := false
  pendingAdditions := []
  pendingRemovals := []

/-- The table at the end of the walk. -/
def HashTable.walk (methods : HashTableMethods Key Item) (func : World → Item → World × List (Call Item))
    (entries : List Item) (table : HashTable Key Item) (world : World) : HashTable Key Item :=
  gHashTableForeach methods func entries { table with iterating := true } world

/-- `gam_kqueue_hash_table_foreach`, with the entries in the order of the walk. -/
def gamKqueueHashTableForeach (methods : HashTableMethods Key Item)
    (func : World → Item → World × List (Call Item)) (entries : List Item) (table : HashTable Key Item)
    (world : World) : HashTable Key Item :=
  (table.walk methods func entries world).flush methods

/-- The updates that are called for in a walk, in their order. -/
def issued (func : World → Item → World × List (Call Item)) : List Item → World → List (Call Item)
  | [], _ => []
  | entry :: entries, world => (func world entry).2 ++ issued func entries (func world entry).1

/-! ## What is noted down -/

theorem foldl_call_walking (methods : HashTableMethods Key Item) (calls : List (Call Item))
    {table : HashTable Key Item} (walking : table.iterating = true) :
    calls.foldl (gamKqueueHashTableCall methods) table =
      { table with
        pendingAdditions := (additions calls).reverse ++ table.pendingAdditions
        pendingRemovals := (removals calls).reverse ++ table.pendingRemovals } := by
  induction calls generalizing table with
  | nil => rfl
  | cons call calls inductionHypothesis =>
    rw [List.foldl_cons]
    cases call with
    | add item =>
      rw [gamKqueueHashTableCall, gamKqueueHashTableAdd, if_pos walking,
        @inductionHypothesis { table with pendingAdditions := item :: table.pendingAdditions } walking]
      simp
    | remove item =>
      rw [gamKqueueHashTableCall, gamKqueueHashTableRemove, if_pos walking,
        @inductionHypothesis { table with pendingRemovals := item :: table.pendingRemovals } walking]
      simp

theorem gHashTableForeach_eq (methods : HashTableMethods Key Item)
    (func : World → Item → World × List (Call Item)) (entries : List Item) (table : HashTable Key Item)
    (world : World) :
    gHashTableForeach methods func entries table world =
      (issued func entries world).foldl (gamKqueueHashTableCall methods) table := by
  induction entries generalizing table world with
  | nil => rfl
  | cons entry entries inductionHypothesis =>
    simp only [gHashTableForeach, issued, List.foldl_append, inductionHypothesis]

theorem walk_new (methods : HashTableMethods Key Item) (func : World → Item → World × List (Call Item))
    (entries : List Item) (main : GHashTable Key Item) (world : World) :
    (gamKqueueHashTableNew main).walk methods func entries world =
      { main := main
        iterating := true
        pendingAdditions := (additions (issued func entries world)).reverse
        pendingRemovals := (removals (issued func entries world)).reverse } := by
  rw [HashTable.walk, gHashTableForeach_eq, foldl_call_walking methods _ rfl]
  simp [gamKqueueHashTableNew]

/-- Calls on a table that is not walked are made at once. -/
theorem foldl_call_resting [DecidableEq Key] (key : Item → Key) (calls : List (Call Item))
    (main : GHashTable Key Item) :
    (calls.foldl (gamKqueueHashTableCall (keyedMethods key)) (gamKqueueHashTableNew main)).main =
      now key main calls := by
  induction calls generalizing main with
  | nil => rfl
  | cons call calls inductionHypothesis =>
    cases call with
    | add item => exact inductionHypothesis _
    | remove item => exact inductionHypothesis _

/-- What is called for during the walk has the effect of the same calls at once, and no removal takes out
another item than its own, exactly if the last call with each key is the addition of the item that was
the first to be added with it and nothing is removed with it, or the removal of the item that has come
to stand there. -/
theorem gamKqueueHashTableForeach_iff [DecidableEq Key] (key : Item → Key) (main : GHashTable Key Item)
    (func : World → Item → World × List (Call Item)) (entries : List Item) (world : World) :
    (let table := gamKqueueHashTableNew main
      let walked := table.walk (keyedMethods key) func entries world
      (gamKqueueHashTableForeach (keyedMethods key) func entries table world).main =
          ((issued func entries world).foldl (gamKqueueHashTableCall (keyedMethods key)) table).main ∧
        TakesOwn key (walked.withAdditions (keyedMethods key)) walked.pendingRemovals) ↔
      Deferrable key main (issued func entries world) := by
  dsimp only
  rw [gamKqueueHashTableForeach, walk_new, foldl_call_resting]
  exact later_eq_now_iff key main (issued func entries world)

/-- A file that is removed and made again during the walk is not in the table when it is over. -/
theorem removed_recreated :
    ¬ (let table := gamKqueueHashTableNew fun name =>
          if name = [97] then some (([97], 1) : Bytes × Pointer) else none
        let func : Unit → Bytes × Pointer → Unit × List (Call (Bytes × Pointer)) :=
          fun world entry => (world, [.remove entry, .add ([97], 2)])
        let walked := table.walk (keyedMethods Prod.fst) func [([97], 1)] ()
        (gamKqueueHashTableForeach (keyedMethods Prod.fst) func [([97], 1)] table ()).main =
            ((issued func [([97], 1)] ()).foldl
              (gamKqueueHashTableCall (keyedMethods Prod.fst)) table).main ∧
          TakesOwn Prod.fst (walked.withAdditions (keyedMethods Prod.fst)) walked.pendingRemovals) := by
  intro replaced
  have here := congrFun replaced.1 [97]
  revert here
  decide

end

/-! ## The tables of the backend -/

/-- A set of pointers by what stands under each. -/
def contentsOf (main : List Pointer) : GHashTable Pointer Pointer :=
  fun item => if item ∈ main then some item else none

/-- File monitors by what stands under each name. -/
def filesOf (main : List (Bytes × Pointer)) : GHashTable Bytes (Bytes × Pointer) :=
  fun filename => main.find? (·.1 = filename)

def ofSet (table : DeferredSet Pointer) : HashTable Pointer Pointer where
  main := contentsOf table.main
  iterating := table.iterating
  pendingAdditions := table.pendingAdditions
  pendingRemovals := table.pendingRemovals

def ofFiles (table : DeferredSet (Bytes × Pointer)) : HashTable Bytes (Bytes × Pointer) where
  main := filesOf table.main
  iterating := table.iterating
  pendingAdditions := table.pendingAdditions
  pendingRemovals := table.pendingRemovals

theorem contentsOf_insertInto (main : List Pointer) (item : Pointer) :
    contentsOf (DeferredSet.insertInto main item) = defaultHashTableMethods.add (contentsOf main) item := by
  funext other
  by_cases same : other = item <;>
    simp [contentsOf, DeferredSet.insertInto, defaultHashTableMethods, same]

theorem contentsOf_eraseFrom (main : List Pointer) (item : Pointer) :
    contentsOf (DeferredSet.eraseFrom main item) =
      defaultHashTableMethods.remove (contentsOf main) item := by
  funext other
  by_cases same : other = item <;>
    simp [contentsOf, DeferredSet.eraseFrom, defaultHashTableMethods, same]

theorem filesOf_filter (main : List (Bytes × Pointer)) (entry : Bytes × Pointer) :
    filesOf (main.filter (·.1 ≠ entry.1)) = (keyedMethods Prod.fst).remove (filesOf main) entry := by
  funext filename
  simp only [filesOf, keyedMethods, List.find?_filter]
  by_cases same : filename = entry.1
  · rw [same, Function.update_self, List.find?_eq_none]
    intro other _
    simp
  · rw [Function.update_of_ne same]
    congr 1
    funext other
    by_cases here : other.1 = filename <;> simp [here, same]

theorem filesOf_replace (main : List (Bytes × Pointer)) (entry : Bytes × Pointer) :
    filesOf (entry :: main.filter (·.1 ≠ entry.1)) =
      (keyedMethods Prod.fst).add (filesOf main) entry := by
  funext filename
  by_cases same : entry.1 = filename
  · simp [filesOf, keyedMethods, same]
  · have others := congrFun (filesOf_filter main entry) filename
    have behind : filesOf (entry :: main.filter (·.1 ≠ entry.1)) filename =
        filesOf (main.filter (·.1 ≠ entry.1)) filename := by
      simp only [filesOf, List.find?_cons, same, decide_false]
    rw [behind, others]
    simp only [keyedMethods, Function.update_of_ne (Ne.symm same)]

theorem ofSet_add (table : DeferredSet Pointer) (item : Pointer) :
    ofSet (table.add item) = gamKqueueHashTableAdd defaultHashTableMethods (ofSet table) item := by
  unfold DeferredSet.add gamKqueueHashTableAdd
  cases walking : table.iterating with
  | true => simp [ofSet, walking]
  | false => simp [ofSet, walking, contentsOf_insertInto]

theorem ofSet_remove (table : DeferredSet Pointer) (item : Pointer) :
    ofSet (table.remove item) = gamKqueueHashTableRemove defaultHashTableMethods (ofSet table) item := by
  unfold DeferredSet.remove gamKqueueHashTableRemove
  cases walking : table.iterating with
  | true => simp [ofSet, walking]
  | false => simp [ofSet, walking, contentsOf_eraseFrom]

/-- The sets of the backend end a walk as a `HashTable` does. -/
theorem ofSet_finish (table : DeferredSet Pointer) :
    ofSet table.finish = (ofSet table).flush defaultHashTableMethods := by
  have grown := @List.foldl_hom _ _ _ contentsOf DeferredSet.insertInto defaultHashTableMethods.add
    table.pendingAdditions table.main fun main item => (contentsOf_insertInto main item).symm
  have shrunk := fun main => @List.foldl_hom _ _ _ contentsOf DeferredSet.eraseFrom
    defaultHashTableMethods.remove table.pendingRemovals main
    fun main item => (contentsOf_eraseFrom main item).symm
  simp only [ofSet, DeferredSet.finish, HashTable.flush, HashTable.withAdditions, grown, shrunk]

variable {state : Backend} {smon : Pointer}

/-- The file monitors of a directory as a `HashTable`. -/
def Backend.files (state : Backend) (smon : Pointer) : Option (HashTable Bytes (Bytes × Pointer)) :=
  (state.subMonitors smon).map fun sub => ofFiles sub.fmons

theorem files_addFmon (state : Backend) (smon : Pointer) (entry : Bytes × Pointer) :
    (addFmon state smon entry).files smon =
      (state.files smon).map (gamKqueueHashTableAdd (keyedMethods Prod.fst) · entry) := by
  unfold addFmon Backend.files
  cases found : state.subMonitors smon with
  | none => simp [found]
  | some sub =>
    cases walking : sub.fmons.iterating with
    | true => simp [walking, subMonitors_setSub, ofFiles, gamKqueueHashTableAdd]
    | false =>
      simp only [walking, Bool.false_eq_true, if_false, (sameTables_freeEntries _ _).subMonitors,
        subMonitors_setSub, if_true, Option.map_some, ofFiles, SubMonitor.setFiles, gamKqueueHashTableAdd,
        filesOf_replace]

theorem files_removeFmon (state : Backend) (smon : Pointer) (entry : Bytes × Pointer) :
    (removeFmon state smon entry).files smon =
      (state.files smon).map (gamKqueueHashTableRemove (keyedMethods Prod.fst) · entry) := by
  unfold removeFmon Backend.files
  cases found : state.subMonitors smon with
  | none => simp [found]
  | some sub =>
    cases walking : sub.fmons.iterating with
    | true => simp [walking, subMonitors_setSub, ofFiles, gamKqueueHashTableRemove]
    | false =>
      simp only [walking, Bool.false_eq_true, if_false, (sameTables_freeEntries _ _).subMonitors,
        subMonitors_setSub, if_true, Option.map_some, ofFiles, SubMonitor.setFiles,
        gamKqueueHashTableRemove, filesOf_filter]

theorem files_foldl_addFmon (entries : List (Bytes × Pointer)) {main : GHashTable Bytes (Bytes × Pointer)}
    (resting : state.files smon = some (gamKqueueHashTableNew main)) :
    (entries.foldl (addFmon · smon) state).files smon =
      some (gamKqueueHashTableNew (entries.foldl (keyedMethods Prod.fst).add main)) := by
  induction entries generalizing state main with
  | nil => exact resting
  | cons entry entries inductionHypothesis =>
    refine inductionHypothesis ?_
    rw [files_addFmon, resting]
    rfl

theorem files_foldl_removeFmon (entries : List (Bytes × Pointer))
    {main : GHashTable Bytes (Bytes × Pointer)}
    (resting : state.files smon = some (gamKqueueHashTableNew main)) :
    (entries.foldl (removeFmon · smon) state).files smon =
      some (gamKqueueHashTableNew (entries.foldl (keyedMethods Prod.fst).remove main)) := by
  induction entries generalizing state main with
  | nil => exact resting
  | cons entry entries inductionHypothesis =>
    refine inductionHypothesis ?_
    rw [files_removeFmon, resting]
    rfl

/-- The file monitors of a directory end a walk as a `HashTable` does. -/
theorem files_finishFmons (state : Backend) (smon : Pointer) :
    (finishFmons state smon).files smon =
      (state.files smon).map (HashTable.flush (keyedMethods Prod.fst)) := by
  unfold finishFmons
  cases found : state.subMonitors smon with
  | none => simp [Backend.files, found]
  | some sub =>
    have resting : (state.setSub smon
        { sub with fmons := { DeferredSet.new with main := sub.fmons.main } }).files smon =
          some (gamKqueueHashTableNew (filesOf sub.fmons.main)) := by
      simp [Backend.files, subMonitors_setSub, ofFiles, gamKqueueHashTableNew, DeferredSet.new]
    dsimp only
    rw [files_foldl_removeFmon _ (files_foldl_addFmon _ resting), Backend.files, found]
    rfl

end Gamin.Kqueue
