import Gamin.Client.Requests
import Gamin.Library.Runs
import Gamin.Library.SortedSearch
import Mathlib.Data.Int.Order.Basic

/-! # The order of the request table

Both binary searches rely on `req_tab` being sorted by request number.  On a sorted
table they are exact; insertion, cancelling and deletion keep it sorted.  The append of
`gamin_data_add_req` keeps it sorted exactly when the private counter is ahead of the
table, which a number chosen by the caller or a reset breaks.
-/

namespace Gamin.Client

open Gamin.Library

/-- The numbers of the live requests, in table order. -/
def reqnos (reqTab : List GAMReqData) : List Int := reqTab.map (·.reqno)

/-- The live part of the table is strictly increasing in the request number. -/
def TableSorted (conn : GAMData) : Prop := (reqnos conn.reqTab).Pairwise (· < ·)

instance (conn : GAMData) : Decidable (TableSorted conn) :=
  inferInstanceAs (Decidable (List.Pairwise _ _))

/-- Every live request is found at its own position under its own number. -/
def FindsLive (conn : GAMData) : Prop :=
  ∀ index, (h : index < conn.reqTab.length) →
    gaminDataGetReqIdx conn conn.reqTab[index].reqno = index

@[simp] theorem reqnos_length (reqTab : List GAMReqData) : (reqnos reqTab).length = reqTab.length := by
  simp [reqnos]

theorem reqnos_getElem (reqTab : List GAMReqData) (index : Nat) (inside : index < reqTab.length)
    (counted : index < (reqnos reqTab).length) :
    (reqnos reqTab)[index] = reqTab[index].reqno := by
  simp [reqnos]

/-! ## Exactness of `gamin_data_get_req_idx` -/

/-- A non-negative answer is the position of an entry with that number, sorted or not. -/
theorem getReqIdxLoop_sound {reqTab : List GAMReqData} {reqno min max : Int} (positive : 0 ≤ min)
    (found : 0 ≤ gaminDataGetReqIdxLoop reqTab reqno min max) :
    ∃ inside : (gaminDataGetReqIdxLoop reqTab reqno min max).toNat < reqTab.length,
      reqTab[(gaminDataGetReqIdxLoop reqTab reqno min max).toNat].reqno = reqno := by
  fun_induction gaminDataGetReqIdxLoop reqTab reqno min max with
  | case1 => omega
  | case2 min max nonempty cur req lookup same =>
    obtain ⟨inside, equal⟩ := List.getElem?_eq_some_iff.mp lookup
    exact ⟨inside, by rw [equal, same]⟩
  | case3 min max nonempty cur req lookup different smaller inductionHypothesis =>
    exact inductionHypothesis (by omega) found
  | case4 min max nonempty cur req lookup different larger inductionHypothesis =>
    exact inductionHypothesis positive found
  | case5 => omega

theorem getReqIdxLoop_complete {reqTab : List GAMReqData} {reqno min max : Int}
    (sorted : (reqnos reqTab).Pairwise (· < ·)) (positive : 0 ≤ min) (fits : max < reqTab.length)
    (bracket : Bracketed (reqnos reqTab) reqno min max)
    (missed : gaminDataGetReqIdxLoop reqTab reqno min max < 0) : reqno ∉ reqnos reqTab := by
  fun_induction gaminDataGetReqIdxLoop reqTab reqno min max with
  | case1 min max nonempty cur lookup =>
    have outside := List.getElem?_eq_none_iff.mp lookup
    omega
  | case2 => omega
  | case3 min max nonempty cur req lookup different smaller inductionHypothesis =>
    obtain ⟨inside, equal⟩ := List.getElem?_eq_some_iff.mp lookup
    have raised := bracket.raise sorted cur.toNat (by simpa using inside)
      (by rw [reqnos_getElem _ _ inside (by simpa using inside), equal]; exact smaller)
    exact inductionHypothesis (by omega) fits
      (by rwa [show ((cur.toNat : Int) + 1) = cur + 1 by omega] at raised) missed
  | case4 min max nonempty cur req lookup different larger inductionHypothesis =>
    obtain ⟨inside, equal⟩ := List.getElem?_eq_some_iff.mp lookup
    have lowered := bracket.lower sorted cur.toNat (by simpa using inside)
      (by rw [reqnos_getElem _ _ inside (by simpa using inside), equal]; omega)
    exact inductionHypothesis positive (by omega)
      (by rwa [show ((cur.toNat : Int) - 1) = cur - 1 by omega] at lowered) missed
  | case5 min max exhausted => exact bracket.absent (by omega)

theorem getReqIdx_sound {conn : GAMData} {reqno : Int} (found : 0 ≤ gaminDataGetReqIdx conn reqno) :
    ∃ inside : (gaminDataGetReqIdx conn reqno).toNat < conn.reqTab.length,
      conn.reqTab[(gaminDataGetReqIdx conn reqno).toNat].reqno = reqno :=
  getReqIdxLoop_sound (Int.le_refl 0) found

theorem getReqIdx_complete {conn : GAMData} {reqno : Int} (sorted : TableSorted conn)
    (missed : gaminDataGetReqIdx conn reqno < 0) : reqno ∉ reqnos conn.reqTab := by
  have whole := bracketed_whole (reqnos conn.reqTab) reqno
  rw [reqnos_length] at whole
  exact getReqIdxLoop_complete sorted (Int.le_refl 0) (by omega) whole missed

/-- In a sorted table a number occurs at one position only. -/
theorem sorted_position_unique {reqTab : List GAMReqData} (sorted : (reqnos reqTab).Pairwise (· < ·))
    {first second : Nat} (firstInside : first < reqTab.length) (secondInside : second < reqTab.length)
    (same : reqTab[first].reqno = reqTab[second].reqno) : first = second := by
  rw [← reqnos_getElem _ _ firstInside (by simpa using firstInside),
    ← reqnos_getElem _ _ secondInside (by simpa using secondInside)] at same
  rcases Nat.lt_trichotomy first second with before | equal | after
  · have less := sorted_lt sorted before (by simpa using secondInside); omega
  · exact equal
  · have less := sorted_lt sorted after (by simpa using firstInside); omega

theorem finds_live_of_sorted {conn : GAMData} (sorted : TableSorted conn) : FindsLive conn := by
  intro index inside
  have present : conn.reqTab[index].reqno ∈ reqnos conn.reqTab :=
    List.mem_map_of_mem (List.getElem_mem inside)
  have found : 0 ≤ gaminDataGetReqIdx conn conn.reqTab[index].reqno := by
    by_contra missed
    exact getReqIdx_complete sorted (by omega) present
  obtain ⟨foundInside, equal⟩ := getReqIdx_sound found
  have position := sorted_position_unique sorted foundInside inside equal
  omega

/-- On a sorted table the lookup answers exactly the live request with that number. -/
theorem getReq_eq_some_iff {conn : GAMData} (sorted : TableSorted conn) (reqno : Int)
    (req : GAMReqData) :
    gaminDataGetReq conn reqno = some req ↔ req ∈ conn.reqTab ∧ req.reqno = reqno := by
  constructor
  · intro answered
    simp only [gaminDataGetReq] at answered
    split at answered
    · contradiction
    · have located : 0 ≤ gaminDataGetReqIdx conn reqno := by omega
      obtain ⟨inside, same⟩ := getReqIdx_sound located
      rw [List.getElem?_eq_getElem inside, Option.some.injEq] at answered
      subst answered
      exact ⟨List.getElem_mem inside, same⟩
  · rintro ⟨member, rfl⟩
    obtain ⟨index, inside, rfl⟩ := List.mem_iff_getElem.mp member
    have position := finds_live_of_sorted sorted index inside
    simp [gaminDataGetReq, position, inside]

/-! ## The insertion point of `gamin_data_get_req_loc` -/

/-- Where a number that is absent belongs: behind the smaller and before the larger ones. -/
structure InsertionPoint (reqTab : List GAMReqData) (reqno position : Int) : Prop where
  nonnegative : 0 ≤ position
  fits : position ≤ reqTab.length
  below : ∀ index, (h : index < reqTab.length) → (index : Int) < position → reqTab[index].reqno < reqno
  above : ∀ index, (h : index < reqTab.length) → position ≤ (index : Int) → reqno ≤ reqTab[index].reqno

theorem getReqLocLoop_spec {reqTab : List GAMReqData} {reqno min max : Int}
    (sorted : (reqnos reqTab).Pairwise (· < ·)) (positive : 0 ≤ min) (inTable : min < reqTab.length)
    (fits : max < reqTab.length) (near : min ≤ max + 1)
    (bracket : Bracketed (reqnos reqTab) reqno min max) :
    (gaminDataGetReqLocLoop reqTab reqno min max < 0 ∧ reqno ∈ reqnos reqTab) ∨
      InsertionPoint reqTab reqno (gaminDataGetReqLocLoop reqTab reqno min max) := by
  fun_induction gaminDataGetReqLocLoop reqTab reqno min max with
  -- while the bounds are apart, each comparison brings one of them in
  | case1 min max open' cur lookup =>
    have outside := List.getElem?_eq_none_iff.mp lookup
    omega
  | case2 min max open' cur req lookup same =>
    obtain ⟨inside, equal⟩ := List.getElem?_eq_some_iff.mp lookup
    exact .inl ⟨by omega, List.mem_map.mpr ⟨req, equal ▸ List.getElem_mem inside, same⟩⟩
  | case3 min max open' cur req lookup different smaller inductionHypothesis =>
    obtain ⟨inside, equal⟩ := List.getElem?_eq_some_iff.mp lookup
    have raised := bracket.raise sorted cur.toNat (by simpa using inside)
      (by rw [reqnos_getElem _ _ inside (by simpa using inside), equal]; exact smaller)
    exact inductionHypothesis (by omega) (by omega) fits (by omega)
      (by rwa [show ((cur.toNat : Int) + 1) = cur + 1 by omega] at raised)
  | case4 min max open' cur req lookup different larger inductionHypothesis =>
    obtain ⟨inside, equal⟩ := List.getElem?_eq_some_iff.mp lookup
    have lowered := bracket.lower sorted cur.toNat (by simpa using inside)
      (by rw [reqnos_getElem _ _ inside (by simpa using inside), equal]; omega)
    exact inductionHypothesis positive inTable (by omega) (by omega)
      (by rwa [show ((cur.toNat : Int) - 1) = cur - 1 by omega] at lowered)
  -- the bounds have met, and the last comparison tells on which side the number goes
  | case5 min max closed lookup =>
    have outside := List.getElem?_eq_none_iff.mp lookup
    omega
  | case6 min max closed req lookup greater =>
    obtain ⟨inside, equal⟩ := List.getElem?_eq_some_iff.mp lookup
    have raised := bracket.raise sorted min.toNat (by simpa using inside)
      (by rw [reqnos_getElem _ _ inside (by simpa using inside), equal]; exact greater)
    refine .inr ⟨by omega, by omega, ?_, ?_⟩
    · intro index indexInside before
      rw [← reqnos_getElem _ _ indexInside (by simpa using indexInside)]
      exact raised.below index (by simpa using indexInside) (by omega)
    · intro index indexInside after
      rw [← reqnos_getElem _ _ indexInside (by simpa using indexInside)]
      exact Int.le_of_lt (raised.above index (by simpa using indexInside) (by omega))
  | case7 min max closed req lookup notGreater =>
    obtain ⟨inside, equal⟩ := List.getElem?_eq_some_iff.mp lookup
    refine .inr ⟨positive, by omega, ?_, ?_⟩
    · intro index indexInside before
      rw [← reqnos_getElem _ _ indexInside (by simpa using indexInside)]
      exact bracket.below index (by simpa using indexInside) before
    · intro index indexInside after
      rcases Nat.lt_or_eq_of_le (show min.toNat ≤ index by omega) with later | same
      · have less := sorted_lt sorted later (by simpa using indexInside)
        rw [reqnos_getElem _ _ inside (by simpa using inside),
          reqnos_getElem _ _ indexInside (by simpa using indexInside), equal] at less
        omega
      · subst same
        rw [equal]
        omega

/-- On a sorted table `gamin_data_get_req_loc` either refuses a number that is present
or answers where it belongs. -/
theorem getReqLoc_spec {conn : GAMData} (sorted : TableSorted conn) (reqno : Int) :
    (gaminDataGetReqLoc conn reqno < 0 ∧ reqno ∈ reqnos conn.reqTab) ∨
      InsertionPoint conn.reqTab reqno (gaminDataGetReqLoc conn reqno) := by
  simp only [gaminDataGetReqLoc]
  split
  · rename_i empty
    exact .inr ⟨by omega, by omega, fun index inside => by omega, fun index inside => by omega⟩
  · have whole := bracketed_whole (reqnos conn.reqTab) reqno
    rw [reqnos_length] at whole
    exact getReqLocLoop_spec sorted (Int.le_refl 0) (by omega) (by omega) (by omega) whole

/-! ## The operations -/

/-- An allocation that succeeds leaves the entries alone, but for an array that is not
there yet, which is empty then. -/
theorem gaminAllocateRequest_success {conn after : GAMData} {memory : Allocation}
    (success : gaminAllocateRequest conn memory = (true, after)) :
    after.reqno = conn.reqno ∧ after.reqTabAllocated = true ∧
      (after.reqTab = conn.reqTab ∨ (conn.reqTabAllocated = false ∧ after.reqTab = [])) := by
  unfold gaminAllocateRequest at success
  split at success
  · rename_i missing
    split at success
    · simp at success
    · simp only [Prod.mk.injEq] at success
      obtain ⟨_, rfl⟩ := success
      exact ⟨rfl, rfl, .inr ⟨by simpa using missing, rfl⟩⟩
  · rename_i present
    have allocated : conn.reqTabAllocated = true := by simpa using present
    split at success
    · split at success
      · simp at success
      · simp only [Prod.mk.injEq] at success
        obtain ⟨_, rfl⟩ := success
        exact ⟨rfl, allocated, .inl rfl⟩
    · split at success
      · simp at success
      · simp only [Prod.mk.injEq] at success
        obtain ⟨_, rfl⟩ := success
        exact ⟨rfl, allocated, .inl rfl⟩

/-- Every allocation keeps a prefix of the entries and the counter. -/
theorem gaminAllocateRequest_prefix (conn : GAMData) (memory : Allocation) :
    ∃ count, (gaminAllocateRequest conn memory).2.reqTab = conn.reqTab.take count := by
  unfold gaminAllocateRequest
  split
  · split <;> exact ⟨0, by simp⟩
  · split
    · split <;> exact ⟨conn.reqTab.length, by simp⟩
    · split
      · exact ⟨conn.reqMax, rfl⟩
      · exact ⟨conn.reqTab.length, by simp⟩

theorem sorted_take {conn after : GAMData} (sorted : TableSorted conn) {count : Nat}
    (taken : after.reqTab = conn.reqTab.take count) : TableSorted after := by
  unfold TableSorted reqnos
  rw [taken, List.map_take]
  exact List.Pairwise.sublist (List.take_sublist _ _) sorted

theorem gaminDataAddReq2_sorted {conn : GAMData} (sorted : TableSorted conn) (filename : Bytes)
    (type : Nat) (userData : Pointer) (reqno : Int) (memory : Allocation) :
    TableSorted (gaminDataAddReq2 conn filename type userData reqno memory).2 := by
  unfold gaminDataAddReq2
  simp only
  split
  · exact sorted
  rename_i located
  split
  · exact sorted
  rename_i fresh
  rcases getReqLoc_spec sorted reqno with ⟨refused, _⟩ | point
  · omega
  split
  -- a failed allocation leaves a beginning of the table
  · rename_i after failed
    obtain ⟨count, taken⟩ := gaminAllocateRequest_prefix conn memory
    rw [failed] at taken
    exact sorted_take sorted taken
  · rename_i after success
    obtain ⟨_, _, unchanged | ⟨_, empty⟩⟩ := gaminAllocateRequest_success success
    · -- the second comparison at the slot never moves it: nothing smaller stands there
      have settled : (after.reqTab[(gaminDataGetReqLoc conn reqno).toNat]?).any (·.reqno < reqno) = false := by
        rw [unchanged]
        cases lookup : conn.reqTab[(gaminDataGetReqLoc conn reqno).toNat]? with
        | none => rfl
        | some req =>
          obtain ⟨inside, equal⟩ := List.getElem?_eq_some_iff.mp lookup
          have above := point.above _ inside (by omega)
          rw [equal] at above
          simpa using above
      simp only [settled, Bool.false_eq_true, if_false]
      rw [unchanged]
      apply pairwise_insertIdx sorted
      · have := point.fits; omega
      · intro index inside before
        exact point.below index inside (by have := point.nonnegative; simp at before; omega)
      · intro index inside after'
        have above := point.above index inside (by simp at after'; omega)
        rcases Nat.lt_or_eq_of_le
          (show (gaminDataGetReqLoc conn reqno).toNat ≤ index by simpa using after') with later | same
        · have less := sorted_lt sorted later (by simpa using inside)
          rw [reqnos_getElem _ _ (by omega) (by simp; omega), reqnos_getElem _ _ inside (by simpa using inside)] at less
          have slot := point.above _ (show (gaminDataGetReqLoc conn reqno).toNat < conn.reqTab.length by omega)
            (by omega)
          simp only [newRequest]
          omega
        · subst same
          rw [List.getElem?_eq_getElem inside] at fresh
          simp only [Option.any_some, decide_eq_true_eq] at fresh
          simp only [newRequest]
          omega
    · unfold TableSorted reqnos
      simp [empty]

theorem gaminDataDelReq_sorted {conn : GAMData} (sorted : TableSorted conn) (reqno : Int) :
    TableSorted (gaminDataDelReq conn reqno).2 := by
  simp only [gaminDataDelReq]
  split
  · exact sorted
  · exact List.Pairwise.sublist ((List.eraseIdx_sublist _ _).map _) sorted

/-- Cancelling changes the state of an entry, never a number. -/
theorem gaminDataCancel_reqnos (conn : GAMData) (reqno : Int) :
    reqnos (gaminDataCancel conn reqno).2.reqTab = reqnos conn.reqTab := by
  unfold gaminDataCancel
  simp only
  split
  · rfl
  split
  · rfl
  rename_i data lookup
  split
  · rfl
  · obtain ⟨inside, equal⟩ := List.getElem?_eq_some_iff.mp lookup
    simp only [reqnos, List.map_set]
    rw [← equal]
    apply List.ext_getElem
    · simp
    · intro index first second
      rw [List.getElem_set]
      split <;> simp_all

/-- The appended number keeps the table sorted exactly when it is ahead of it. -/
theorem append_sorted_iff {conn : GAMData} (sorted : TableSorted conn) (req : GAMReqData) :
    (reqnos (conn.reqTab ++ [req])).Pairwise (· < ·) ↔
      ∀ other ∈ conn.reqTab, other.reqno < req.reqno := by
  unfold TableSorted at sorted
  simp only [reqnos, List.map_append, List.map_cons, List.map_nil] at *
  rw [List.pairwise_append]
  constructor
  · rintro ⟨_, _, across⟩ other member
    exact across _ (List.mem_map_of_mem member) _ (List.mem_singleton.mpr rfl)
  · intro ahead
    refine ⟨sorted, List.pairwise_singleton _ _, ?_⟩
    intro first firstMember second secondMember
    obtain ⟨other, member, rfl⟩ := List.mem_map.mp firstMember
    rw [List.mem_singleton.mp secondMember]
    exact ahead other member

/-! ## Runs -/

/-- A client operation on the request table, with the answers of the allocator. -/
inductive RequestOp where
  | getReqnum (filename : Bytes) (type : Nat) (userData : Pointer) (memory : Allocation)
  | getRequest (filename : Bytes) (type : Nat) (userData : Pointer) (reqno : Int) (memory : Allocation)
  | cancel (reqno : Int)
  | delReq (reqno : Int)
  | reset
  deriving DecidableEq, Repr

def requestStep (conn : GAMData) : RequestOp → GAMData
  | .getReqnum filename type userData memory =>
    (gaminDataGetReqnum conn filename type userData memory).2
  | .getRequest filename type userData reqno memory =>
    (gaminDataGetRequest conn filename type userData reqno memory).2
  | .cancel reqno => (gaminDataCancel conn reqno).2
  | .delReq reqno => (gaminDataDelReq conn reqno).2
  | .reset => (gaminDataReset conn).2

/-- The private counter is greater than the number of every live request. -/
def CounterAhead (conn : GAMData) : Prop := ∀ req ∈ conn.reqTab, req.reqno < conn.reqno

/-- The allocator grants an entry, and a larger array where the table is full. -/
def EntryGranted (conn : GAMData) (memory : Allocation) : Prop :=
  memory.request = true ∧
    if conn.reqTabAllocated then
      conn.reqTab.length < conn.reqMax ∨ (conn.reqTab.length = conn.reqMax ∧ memory.reqTab = true)
    else memory.reqTab = true

/-- A number is drawn from the counter only when the counter is ahead of the table. -/
def CounterGuard (conn : GAMData) : RequestOp → Prop
  | .getReqnum _ _ _ memory => EntryGranted conn memory → CounterAhead conn
  | _ => True

/-- What the binary searches rely on, and what they give for it. -/
def TableSearchable (conn : GAMData) : Prop := TableSorted conn ∧ FindsLive conn

theorem searchable_iff_sorted (conn : GAMData) : TableSearchable conn ↔ TableSorted conn :=
  ⟨And.left, fun sorted => ⟨sorted, finds_live_of_sorted sorted⟩⟩

/-- An array that was never allocated has no live part. -/
def ArrayPresent (conn : GAMData) : Prop := conn.reqTabAllocated = false → conn.reqTab = []

theorem gaminAllocateRequest_true_iff (conn : GAMData) (memory : Allocation) :
    (gaminAllocateRequest conn memory).1 = true ↔ EntryGranted conn memory := by
  unfold gaminAllocateRequest EntryGranted
  split <;> split <;> grind

theorem gaminAllocateRequest_present {conn : GAMData} (present : ArrayPresent conn)
    (memory : Allocation) : ArrayPresent (gaminAllocateRequest conn memory).2 := by
  have empty : conn.reqTabAllocated = false → conn.reqTab = [] := present
  unfold ArrayPresent gaminAllocateRequest
  grind

theorem gaminAllocateRequest_granted {conn after : GAMData} {memory : Allocation}
    (present : ArrayPresent conn) (success : gaminAllocateRequest conn memory = (true, after)) :
    after.reqTab = conn.reqTab ∧ after.reqno = conn.reqno := by
  obtain ⟨counter, _, unchanged | ⟨missing, empty⟩⟩ := gaminAllocateRequest_success success
  · exact ⟨unchanged, counter⟩
  · rw [empty, present missing]
    exact ⟨rfl, counter⟩

theorem gaminDataAddReq_present {conn : GAMData} (present : ArrayPresent conn) (filename : Bytes)
    (type : Nat) (userData : Pointer) (memory : Allocation) :
    ArrayPresent (gaminDataAddReq conn filename type userData memory).2 := by
  have allocated := gaminAllocateRequest_present present memory
  unfold gaminDataAddReq
  split
  · rename_i after failed
    rwa [failed] at allocated
  · rename_i after success
    intro missing
    have table := (gaminAllocateRequest_success success).2.1
    simp only [table] at missing
    contradiction

theorem gaminDataAddReq2_present {conn : GAMData} (present : ArrayPresent conn) (filename : Bytes)
    (type : Nat) (userData : Pointer) (reqno : Int) (memory : Allocation) :
    ArrayPresent (gaminDataAddReq2 conn filename type userData reqno memory).2 := by
  have allocated := gaminAllocateRequest_present present memory
  unfold gaminDataAddReq2
  simp only
  split
  · exact present
  split
  · exact present
  split
  · rename_i after failed
    rwa [failed] at allocated
  · rename_i after success
    intro missing
    have table := (gaminAllocateRequest_success success).2.1
    simp only [table] at missing
    contradiction

theorem requestStep_present (conn : GAMData) (op : RequestOp) (present : ArrayPresent conn) :
    ArrayPresent (requestStep conn op) := by
  cases op with
  | getReqnum filename type userData memory =>
    have added := gaminDataAddReq_present present filename type userData memory
    simp only [requestStep, gaminDataGetReqnum]
    split <;> simp_all
  | getRequest filename type userData reqno memory =>
    have added := gaminDataAddReq2_present present filename type userData reqno memory
    simp only [requestStep, gaminDataGetRequest]
    split <;> simp_all
  | cancel reqno =>
    unfold requestStep gaminDataCancel ArrayPresent at *
    grind
  | delReq reqno =>
    unfold requestStep gaminDataDelReq ArrayPresent at *
    grind
  | reset => exact present

/-- The append of `gamin_data_add_req` keeps the table sorted exactly under the guard. -/
theorem gaminDataAddReq_sorted_iff {conn : GAMData} (present : ArrayPresent conn)
    (sorted : TableSorted conn) (filename : Bytes) (type : Nat) (userData : Pointer)
    (memory : Allocation) :
    TableSorted (gaminDataAddReq conn filename type userData memory).2 ↔
      (EntryGranted conn memory → CounterAhead conn) := by
  rw [← gaminAllocateRequest_true_iff]
  unfold gaminDataAddReq
  split
  · rename_i after failed
    obtain ⟨count, taken⟩ := gaminAllocateRequest_prefix conn memory
    rw [failed] at taken ⊢
    simpa using sorted_take sorted taken
  · rename_i after success
    obtain ⟨table, counter⟩ := gaminAllocateRequest_granted present success
    have extends_iff := append_sorted_iff sorted
      (newRequest filename type userData after.reqno memory)
    simp only [success, true_implies, TableSorted, table]
    rw [extends_iff]
    simp only [newRequest, counter, CounterAhead]

theorem requestStep_sorted_iff {conn : GAMData} (present : ArrayPresent conn)
    (sorted : TableSorted conn) (op : RequestOp) :
    TableSorted (requestStep conn op) ↔ CounterGuard conn op := by
  cases op with
  | getReqnum filename type userData memory =>
    have appended := gaminDataAddReq_sorted_iff present sorted filename type userData memory
    simp only [requestStep, gaminDataGetReqnum, CounterGuard]
    rw [← appended]
    split <;> simp_all
  | getRequest filename type userData reqno memory =>
    have inserted := gaminDataAddReq2_sorted sorted filename type userData reqno memory
    simp only [requestStep, gaminDataGetRequest, CounterGuard, iff_true]
    split <;> simp_all
  | cancel reqno =>
    simp only [requestStep, CounterGuard, iff_true, TableSorted, gaminDataCancel_reqnos]
    exact sorted
  | delReq reqno =>
    simp only [requestStep, CounterGuard, iff_true]
    exact gaminDataDelReq_sorted sorted reqno
  | reset =>
    simp only [requestStep, CounterGuard, iff_true]
    exact sorted

/-- The table stays searchable throughout a run exactly when every number that is drawn
from the private counter is drawn while the counter is ahead of the table. -/
theorem table_searchable_iff_counter_ahead (ops : List RequestOp) :
    Throughout requestStep TableSearchable gaminDataNew ops ↔
      Guarded requestStep CounterGuard gaminDataNew ops := by
  apply throughout_iff_guarded ArrayPresent
  · exact requestStep_present
  · intro conn op present searchable guard
    rw [searchable_iff_sorted] at *
    exact (requestStep_sorted_iff present searchable op).mpr guard
  · intro conn op present searchable kept
    rw [searchable_iff_sorted] at *
    exact (requestStep_sorted_iff present searchable op).mp kept
  · intro _
    rfl
  · rw [searchable_iff_sorted]
    exact List.Pairwise.nil

/-- Registers request 5, chosen by the application, and then takes a number from the counter. -/
def chosenThenCounted : List RequestOp :=
  [.getRequest [47, 97] 1 0 5 ⟨true, true, true⟩, .getReqnum [47, 98] 1 0 ⟨true, true, true⟩]

/-- The table is then 5, 1, and the live request 1 is not found any more. -/
theorem chosen_number_breaks_order :
    reqnos (run requestStep gaminDataNew chosenThenCounted).reqTab = [5, 1] ∧
      gaminDataGetReqIdx (run requestStep gaminDataNew chosenThenCounted) 1 = -1 ∧
      ¬ Throughout requestStep TableSearchable gaminDataNew chosenThenCounted := by
  have table : reqnos (run requestStep gaminDataNew chosenThenCounted).reqTab = [5, 1] := by
    decide +kernel
  refine ⟨table, by decide +kernel, ?_⟩
  intro searchable
  have sorted := searchable.last.1
  rw [TableSorted, table] at sorted
  exact absurd sorted (by decide)

end Gamin.Client
