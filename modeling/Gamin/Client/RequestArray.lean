import Gamin.Client.RequestOrder
import Gamin.Library.Memory
import Mathlib.Algebra.Group.Int.Defs
import Mathlib.Algebra.Group.Nat.Defs

/-! # The array behind the request table

`req_tab` is an array of pointers, and the searches and the insertion go through it with indices that are
C ints.  As long as the sum of two indices is one, they do to the array what they do to the list of its
entries.  A table of more than `2 ^ 30` entries is too long for that: the midpoint of the last indices is
negative.
-/

namespace Gamin.Client

open Gamin.Library

/-- `req_tab`, `req_nr` and `req_max`.  A pointer that is NULL is `none`. -/
structure ReqTab where
  cells : Nat → Option GAMReqData
  reqNr : Nat
  reqMax : Nat
  allocated : Bool

/-- How a search ends.  It strays when it reads where there is no entry; it is still running when the rounds
do not suffice. -/
inductive SearchEnd where
  | returned (idx : Int)
  | strays (idx : Int)
  | running
  deriving DecidableEq, Repr

/-- `(max + min) / 2`, as ints. -/
def midpoint (min max : Int) : Int := (wrapInt (max + min)).tdiv 2

/-- The pointer at an index, if the index is one of an entry. -/
def ReqTab.pointer (table : ReqTab) (idx : Int) : Option (Option GAMReqData) :=
  if 0 ≤ idx ∧ idx < table.reqNr then some (table.cells idx.toNat) else none

/-! ## The functions -/

/-- The loop of `gamin_data_get_req_loc` and the comparison behind it, for as many rounds. -/
def ReqTab.locLoop (table : ReqTab) (reqno : Int) : Nat → Int → Int → SearchEnd
  | 0, _, _ => .running
  | rounds + 1, min, max =>
    if min < max then
      let cur := midpoint min max
      match table.pointer cur with
      | none => .strays cur
      | some none => .returned (-1)
      | some (some req) =>
        if req.reqno = reqno then .returned (-1)
        else if req.reqno < reqno then table.locLoop reqno rounds (cur + 1) max
        else table.locLoop reqno rounds min (cur - 1)
    else
      match table.pointer min with
      | some (some req) => .returned (if reqno > req.reqno then min + 1 else min)
      | _ => .strays min

def ReqTab.gaminDataGetReqLoc (table : ReqTab) (rounds : Nat) (reqno : Int) : SearchEnd :=
  if table.reqNr = 0 then .returned 0 else table.locLoop reqno rounds 0 (table.reqNr - 1)

/-- The loop of `gamin_data_get_req_idx`, for as many rounds. -/
def ReqTab.idxLoop (table : ReqTab) (reqno : Int) : Nat → Int → Int → SearchEnd
  | 0, _, _ => .running
  | rounds + 1, min, max =>
    if min ≤ max then
      let cur := midpoint min max
      match table.pointer cur with
      | none => .strays cur
      | some none => .returned (-1)
      | some (some req) =>
        if req.reqno = reqno then .returned cur
        else if req.reqno < reqno then table.idxLoop reqno rounds (cur + 1) max
        else table.idxLoop reqno rounds min (cur - 1)
    else .returned (-1)

def ReqTab.gaminDataGetReqIdx (table : ReqTab) (rounds : Nat) (reqno : Int) : SearchEnd :=
  table.idxLoop reqno rounds 0 (table.reqNr - 1)

/-- `gamin_allocate_request`.  There is no memory for twice as many entries as an int can count. -/
def ReqTab.gaminAllocateRequest (table : ReqTab) (memory : Allocation) : Bool × ReqTab :=
  if ¬ table.allocated then
    let table := { table with reqMax := 10, reqNr := 0 }
    if ¬ memory.reqTab then (false, table)
    else (memory.request, { table with allocated := true })
  else if table.reqNr = table.reqMax then
    if ¬ memory.reqTab ∨ wrapInt (2 * table.reqMax) < 0 then (false, table)
    else (memory.request, { table with reqMax := table.reqMax * 2 })
  else if table.reqNr > table.reqMax then (false, { table with reqNr := table.reqMax })
  else (memory.request, table)

/-- The entry at an index that is not negative, as both comparisons of `gamin_data_add_req2` take it. -/
def ReqTab.entry (table : ReqTab) (idx : Nat) : Option GAMReqData :=
  if idx < table.reqNr then table.cells idx else none

/-- The `memmove` and the store behind it; `none` when they do not stay within the array. -/
def ReqTab.insert (table : ReqTab) (idx : Nat) (req : GAMReqData) : Option ReqTab :=
  if idx < table.reqMax ∧ (idx < table.reqNr → table.reqNr < table.reqMax) then
    let cells :=
      if idx < table.reqNr then move table.cells (idx + 1) idx (table.reqNr - idx) else table.cells
    some { table with cells := store cells idx [some req], reqNr := table.reqNr + 1 }
  else none

/-- `gamin_data_add_req2`; `none` when it does not stay within the array, or does not come back. -/
def ReqTab.gaminDataAddReq2 (table : ReqTab) (rounds : Nat) (filename : Bytes) (type : Nat)
    (userData : Pointer) (reqno : Int) (memory : Allocation) : Option (Option GAMReqData × ReqTab) :=
  match table.gaminDataGetReqLoc rounds reqno with
  | .strays _ | .running => none
  | .returned idx =>
    if idx < 0 then some (none, table)
    else if (table.entry idx.toNat).any (·.reqno = reqno) then some (none, table)
    else
      match table.gaminAllocateRequest memory with
      | (false, table) => some (none, table)
      | (true, table) =>
        let req := newRequest filename type userData reqno memory
        let idx := if (table.entry idx.toNat).any (·.reqno < reqno) then idx + 1 else idx
        (table.insert idx.toNat req).map fun table => (some req, table)

/-! ## The entries -/

/-- The array holds the table of a connection. -/
structure ReqTab.Holds (table : ReqTab) (conn : GAMData) : Prop where
  cells : window table.cells 0 table.reqNr = conn.reqTab.map some
  reqMax : table.reqMax = conn.reqMax
  allocated : table.allocated = conn.reqTabAllocated

/-- The room of the array: for ten entries first, and twice as many each time that it grows. -/
structure ReqTab.Roomy (table : ReqTab) : Prop where
  fits : table.reqNr ≤ table.reqMax
  doubled : table.allocated = true → ∃ growths, table.reqMax = 10 * 2 ^ growths
  counts : table.reqMax < 2 ^ 31
  empty : table.allocated = false → table.reqNr = 0

/-- What the searches and the insertion owe to a table: an answer, without straying. -/
structure ReqTab.Exact (table : ReqTab) (conn : GAMData) : Prop where
  idx : ∀ reqno rounds, table.reqNr < rounds → ∃ idx, table.gaminDataGetReqIdx rounds reqno = .returned idx ∧
    (idx = -1 ∧ reqno ∉ reqnos conn.reqTab ∨
      0 ≤ idx ∧ (conn.reqTab[idx.toNat]?).map (·.reqno) = some reqno)
  loc : ∀ reqno rounds, table.reqNr < rounds → ∃ idx, table.gaminDataGetReqLoc rounds reqno = .returned idx
  refuses : ∀ rounds filename type userData reqno memory, table.reqNr < rounds → reqno ∈ reqnos conn.reqTab →
    table.gaminDataAddReq2 rounds filename type userData reqno memory = some (none, table)
  inserts : ∀ rounds filename type userData reqno memory, table.reqNr < rounds → memory.reqTab = true →
    memory.request = true → reqno ∉ reqnos conn.reqTab → ∃ after next front back,
      table.gaminDataAddReq2 rounds filename type userData reqno memory =
        some (some (newRequest filename type userData reqno memory), after) ∧
      after.Holds next ∧ after.Roomy ∧ TableSorted next ∧ conn.reqTab = front ++ back ∧
      next.reqTab = front ++ newRequest filename type userData reqno memory :: back

section

variable {table : ReqTab} {conn : GAMData} {reqno min max : Int} {rounds : Nat}

theorem ReqTab.Holds.length (holds : table.Holds conn) : conn.reqTab.length = table.reqNr := by
  have same := congrArg List.length holds.cells
  rwa [window_length, List.length_map, eq_comm] at same

theorem ReqTab.Holds.cell (holds : table.Holds conn) {idx : Nat} (inside : idx < table.reqNr) :
    table.cells idx = conn.reqTab[idx]? := by
  have here := congrArg (·[idx]?) holds.cells
  have counted : idx < (window table.cells 0 table.reqNr).length := by rwa [window_length]
  simp only [List.getElem?_eq_getElem counted, window_getElem, Nat.zero_add, List.getElem?_map] at here
  rw [List.getElem?_eq_getElem (by rwa [holds.length])] at here ⊢
  exact Option.some.inj here

theorem ReqTab.Holds.pointer (holds : table.Holds conn) {idx : Int} (positive : 0 ≤ idx) :
    table.pointer idx = (conn.reqTab[idx.toNat]?).map some := by
  unfold ReqTab.pointer
  split
  case isTrue inside =>
    rw [holds.cell (by omega), List.getElem?_eq_getElem (by rw [holds.length]; omega), Option.map_some]
  case isFalse outside =>
    rw [List.getElem?_eq_none (by rw [holds.length]; omega), Option.map_none]

theorem ReqTab.Holds.entry (holds : table.Holds conn) (idx : Nat) : table.entry idx = conn.reqTab[idx]? := by
  unfold ReqTab.entry
  split
  case isTrue inside => exact holds.cell inside
  case isFalse outside => rw [List.getElem?_eq_none (by rw [holds.length]; omega)]

/-! ## Short tables -/

theorem midpoint_eq (positive : 0 ≤ max + min) (small : max + min < 2 ^ 31) :
    midpoint min max = (max + min) / 2 := by
  rw [midpoint, wrapInt, Int.bmod_eq_of_le (by omega) (by omega), Int.tdiv_eq_ediv_of_nonneg positive]

/-- Half of an int is less than half of the ints that are positive. -/
theorem midpoint_lt : 2 * midpoint min max < 2 ^ 31 := by
  have below := @Int.bmod_lt (max + min) 4294967296 (by decide)
  rw [midpoint, wrapInt]
  rcases Int.le_total 0 ((max + min).bmod 4294967296) with positive | negative
  · rw [Int.tdiv_eq_ediv_of_nonneg positive]
    omega
  · have nonpositive := Int.tdiv_nonneg_of_nonpos_of_nonpos negative (show (-2 : Int) ≤ 0 by decide)
    rw [Int.tdiv_neg] at nonpositive
    omega

theorem ReqTab.pointer_inside {idx : Int} {cell : Option GAMReqData} (pointer : table.pointer idx = some cell) :
    0 ≤ idx ∧ idx < table.reqNr := by
  unfold ReqTab.pointer at pointer
  split at pointer
  · assumption
  · contradiction

theorem ReqTab.Holds.idxLoop (holds : table.Holds conn) (short : table.reqNr ≤ 2 ^ 30) (positive : 0 ≤ min)
    (fits : max < table.reqNr) :
    ∀ rounds : Nat, 0 < rounds → max + 1 - min < rounds →
      table.idxLoop reqno rounds min max = .returned (gaminDataGetReqIdxLoop conn.reqTab reqno min max) := by
  have length := holds.length
  -- along the search in the list, which the search in the array follows with a round for each step
  fun_induction gaminDataGetReqIdxLoop conn.reqTab reqno min max with
  | case1 min max nonempty cur lookup =>
    have outside := List.getElem?_eq_none_iff.mp lookup
    omega
  | case2 min max nonempty cur req lookup same =>
    rintro (_ | rounds) going enough
    · contradiction
    have middle : midpoint min max = cur := midpoint_eq (by omega) (by omega)
    have pointer : table.pointer cur = some (some req) := by rw [holds.pointer (by omega), lookup, Option.map_some]
    simp only [ReqTab.idxLoop, if_pos nonempty, middle, pointer, if_pos same]
  | case3 min max nonempty cur req lookup different smaller inductionHypothesis =>
    rintro (_ | rounds) going enough
    · contradiction
    have middle : midpoint min max = cur := midpoint_eq (by omega) (by omega)
    have pointer : table.pointer cur = some (some req) := by rw [holds.pointer (by omega), lookup, Option.map_some]
    simp only [ReqTab.idxLoop, if_pos nonempty, middle, pointer, if_neg different, if_pos smaller]
    exact inductionHypothesis (by omega) fits rounds (by omega) (by omega)
  | case4 min max nonempty cur req lookup different larger inductionHypothesis =>
    rintro (_ | rounds) going enough
    · contradiction
    have middle : midpoint min max = cur := midpoint_eq (by omega) (by omega)
    have pointer : table.pointer cur = some (some req) := by rw [holds.pointer (by omega), lookup, Option.map_some]
    simp only [ReqTab.idxLoop, if_pos nonempty, middle, pointer, if_neg different, if_neg larger]
    exact inductionHypothesis positive (by omega) rounds (by omega) (by omega)
  | case5 min max exhausted =>
    rintro (_ | rounds) going enough
    · contradiction
    rw [ReqTab.idxLoop, if_neg exhausted]

theorem ReqTab.Holds.locLoop (holds : table.Holds conn) (short : table.reqNr ≤ 2 ^ 30) (positive : 0 ≤ min)
    (inTable : min < table.reqNr) (fits : max < table.reqNr) :
    ∀ rounds : Nat, 0 < rounds → max + 1 - min < rounds →
      table.locLoop reqno rounds min max = .returned (gaminDataGetReqLocLoop conn.reqTab reqno min max) := by
  have length := holds.length
  -- along the search in the list, as for the index
  fun_induction gaminDataGetReqLocLoop conn.reqTab reqno min max with
  | case1 min max apart cur lookup =>
    have outside := List.getElem?_eq_none_iff.mp lookup
    omega
  | case2 min max apart cur req lookup same =>
    rintro (_ | rounds) going enough
    · contradiction
    have middle : midpoint min max = cur := midpoint_eq (by omega) (by omega)
    have pointer : table.pointer cur = some (some req) := by rw [holds.pointer (by omega), lookup, Option.map_some]
    simp only [ReqTab.locLoop, if_pos apart, middle, pointer, if_pos same]
  | case3 min max apart cur req lookup different smaller inductionHypothesis =>
    rintro (_ | rounds) going enough
    · contradiction
    have middle : midpoint min max = cur := midpoint_eq (by omega) (by omega)
    have pointer : table.pointer cur = some (some req) := by rw [holds.pointer (by omega), lookup, Option.map_some]
    simp only [ReqTab.locLoop, if_pos apart, middle, pointer, if_neg different, if_pos smaller]
    exact inductionHypothesis (by omega) (by omega) fits rounds (by omega) (by omega)
  | case4 min max apart cur req lookup different larger inductionHypothesis =>
    rintro (_ | rounds) going enough
    · contradiction
    have middle : midpoint min max = cur := midpoint_eq (by omega) (by omega)
    have pointer : table.pointer cur = some (some req) := by rw [holds.pointer (by omega), lookup, Option.map_some]
    simp only [ReqTab.locLoop, if_pos apart, middle, pointer, if_neg different, if_neg larger]
    exact inductionHypothesis positive inTable (by omega) rounds (by omega) (by omega)
  -- the bounds have met
  | case5 min max met lookup =>
    have outside := List.getElem?_eq_none_iff.mp lookup
    omega
  | case6 min max met req lookup greater =>
    rintro (_ | rounds) going enough
    · contradiction
    simp only [ReqTab.locLoop, if_neg met, holds.pointer positive, lookup, Option.map_some, if_pos greater]
  | case7 min max met req lookup notGreater =>
    rintro (_ | rounds) going enough
    · contradiction
    simp only [ReqTab.locLoop, if_neg met, holds.pointer positive, lookup, Option.map_some, if_neg notGreater]

/-- The searches answer for the array as for the list of its entries. -/
theorem ReqTab.Holds.getReqIdx (holds : table.Holds conn) (short : table.reqNr ≤ 2 ^ 30)
    (enough : table.reqNr < rounds) :
    table.gaminDataGetReqIdx rounds reqno = .returned (Client.gaminDataGetReqIdx conn reqno) := by
  rw [ReqTab.gaminDataGetReqIdx, Client.gaminDataGetReqIdx, holds.length]
  exact holds.idxLoop short le_rfl (by omega) rounds (by omega) (by omega)

theorem ReqTab.Holds.getReqLoc (holds : table.Holds conn) (short : table.reqNr ≤ 2 ^ 30)
    (enough : table.reqNr < rounds) :
    table.gaminDataGetReqLoc rounds reqno = .returned (Client.gaminDataGetReqLoc conn reqno) := by
  rw [ReqTab.gaminDataGetReqLoc, Client.gaminDataGetReqLoc, holds.length]
  split
  case isTrue => rfl
  case isFalse nonempty => exact holds.locLoop short le_rfl (by omega) (by omega) rounds (by omega) (by omega)

/-! ## Adding to a short table -/

theorem getReqIdxLoop_missed {reqTab : List GAMReqData} (positive : 0 ≤ min)
    (missed : gaminDataGetReqIdxLoop reqTab reqno min max < 0) : gaminDataGetReqIdxLoop reqTab reqno min max = -1 := by
  fun_induction gaminDataGetReqIdxLoop reqTab reqno min max with
  | case1 => rfl
  | case2 => omega
  | case3 min max nonempty cur req lookup different smaller inductionHypothesis =>
    exact inductionHypothesis (by omega) missed
  | case4 min max nonempty cur req lookup different larger inductionHypothesis =>
    exact inductionHypothesis positive missed
  | case5 => rfl

/-- A number that is there stands where it belongs. -/
theorem InsertionPoint.present {reqTab : List GAMReqData} {position : Int}
    (point : InsertionPoint reqTab reqno position) (sorted : (reqnos reqTab).Pairwise (· < ·))
    (member : reqno ∈ reqnos reqTab) : (reqTab[position.toNat]?).any (·.reqno = reqno) = true := by
  obtain ⟨index, counted, same⟩ := List.mem_iff_getElem.mp member
  have inside : index < reqTab.length := by rwa [reqnos_length] at counted
  rw [reqnos_getElem _ _ inside counted] at same
  have notBefore : position ≤ index := by
    by_contra before
    have less := point.below index inside (by omega)
    omega
  have nonnegative := point.nonnegative
  rcases Nat.lt_or_eq_of_le (show position.toNat ≤ index by omega) with earlier | here
  · have less := sorted_lt sorted earlier counted
    rw [reqnos_getElem _ _ (by omega) (by simp; omega), reqnos_getElem _ _ inside counted] at less
    have above := point.above position.toNat (by omega) (by omega)
    omega
  · rw [here, List.getElem?_eq_getElem inside, Option.any_some, decide_eq_true_eq]
    exact same

/-- Nothing smaller than the number stands where it belongs. -/
theorem InsertionPoint.settled {reqTab : List GAMReqData} {position : Int}
    (point : InsertionPoint reqTab reqno position) :
    (reqTab[position.toNat]?).any (·.reqno < reqno) = false := by
  cases lookup : reqTab[position.toNat]? with
  | none => rfl
  | some req =>
    obtain ⟨inside, equal⟩ := List.getElem?_eq_some_iff.mp lookup
    have above := point.above _ inside (by have := point.nonnegative; omega)
    rw [equal] at above
    rw [Option.any_some, decide_eq_false_iff_not]
    omega

theorem ReqTab.Holds.refuses (holds : table.Holds conn) (sorted : TableSorted conn)
    (short : table.reqNr ≤ 2 ^ 30) (enough : table.reqNr < rounds) (member : reqno ∈ reqnos conn.reqTab)
    (filename : Bytes) (type : Nat) (userData : Pointer) (memory : Allocation) :
    table.gaminDataAddReq2 rounds filename type userData reqno memory = some (none, table) := by
  rw [ReqTab.gaminDataAddReq2, holds.getReqLoc short enough]
  dsimp only
  split
  case isTrue => rfl
  case isFalse located =>
    obtain refused | point := getReqLoc_spec sorted reqno
    · omega
    · rw [holds.entry, if_pos (point.present sorted member)]

/-- The array grows when it is full; a table of at most `2 ^ 30` entries is never too long for that. -/
theorem ReqTab.Roomy.grows {growths : Nat} (short : table.reqNr ≤ 2 ^ 30) (full : table.reqNr = table.reqMax)
    (doubled : table.reqMax = 10 * 2 ^ growths) : 2 * table.reqMax < 2 ^ 31 := by
  have uneven : 10 * 2 ^ growths ≠ 2 ^ 30 := by
    intro even
    have divides : 5 ∣ 2 ^ 30 := ⟨2 * 2 ^ growths, by omega⟩
    exact absurd divides (by decide)
  omega

theorem ReqTab.Holds.allocate {memory : Allocation} (holds : table.Holds conn) (roomy : table.Roomy)
    (short : table.reqNr ≤ 2 ^ 30) (array : memory.reqTab = true) (request : memory.request = true) :
    ∃ grown kept, table.gaminAllocateRequest memory = (true, grown) ∧ grown.Holds kept ∧ grown.Roomy ∧
      kept.reqTab = conn.reqTab ∧ grown.reqNr = table.reqNr ∧ grown.allocated = true ∧
      grown.reqNr < grown.reqMax := by
  unfold ReqTab.gaminAllocateRequest
  cases allocated : table.allocated with
  -- the first array has room for ten requests
  | false =>
    have nothing := roomy.empty allocated
    have noEntries : conn.reqTab = [] := List.eq_nil_of_length_eq_zero (holds.length.trans nothing)
    refine ⟨{ table with reqMax := 10, reqNr := 0, allocated := true },
      { conn with reqMax := 10, reqTabAllocated := true }, by simp [array, request], ?_, ?_, rfl, nothing.symm, rfl,
      Nat.zero_lt_succ 9⟩
    · exact ⟨by rw [noEntries]; rfl, rfl, rfl⟩
    · exact ⟨Nat.zero_le _, fun _ => ⟨0, rfl⟩, by dsimp only; omega, fun _ => rfl⟩
  | true =>
    obtain ⟨growths, doubled⟩ := roomy.doubled allocated
    -- a full array is doubled
    by_cases full : table.reqNr = table.reqMax
    · have counts := ReqTab.Roomy.grows short full doubled
      have positive : ¬ wrapInt (2 * table.reqMax) < 0 := by
        rw [wrapInt, Int.bmod_eq_of_le (by omega) (by omega)]
        omega
      refine ⟨{ table with reqMax := table.reqMax * 2 }, { conn with reqMax := conn.reqMax * 2 },
        by simp [full, array, request, positive, allocated], ?_, ?_, rfl, rfl, allocated, ?_⟩
      · exact ⟨holds.cells, by rw [holds.reqMax], holds.allocated⟩
      · exact ⟨by dsimp only; omega,
          fun _ => ⟨growths + 1, by dsimp only; rw [doubled, Nat.pow_succ, Nat.mul_assoc]⟩,
          by dsimp only; omega, fun missing => roomy.empty missing⟩
      · have positive : 0 < 2 ^ growths := Nat.two_pow_pos growths
        dsimp only
        omega
    · have fits := roomy.fits
      refine ⟨table, conn, by simp [full, request, Nat.not_lt.mpr fits], holds, roomy, rfl, rfl, allocated, by omega⟩

theorem ReqTab.Holds.insert (holds : table.Holds conn) (idx : Nat) (req : GAMReqData)
    (room : table.reqNr < table.reqMax) (fits : idx ≤ table.reqNr) :
    ∃ after, table.insert idx req = some after ∧
      after.Holds { conn with reqTab := conn.reqTab.take idx ++ req :: conn.reqTab.drop idx } ∧
      after.reqNr = table.reqNr + 1 ∧ after.reqMax = table.reqMax ∧ after.allocated = table.allocated := by
  have moved : (if idx < table.reqNr then move table.cells (idx + 1) idx (table.reqNr - idx) else table.cells) =
      move table.cells (idx + 1) idx (table.reqNr - idx) := by
    split
    case isTrue => rfl
    case isFalse behind =>
      funext position
      rw [move, if_neg (by omega)]
  refine ⟨{ table with
      cells := store (move table.cells (idx + 1) idx (table.reqNr - idx)) idx [some req], reqNr := table.reqNr + 1 },
    ?_, ⟨?_, holds.reqMax, holds.allocated⟩, rfl, rfl, rfl⟩
  · rw [ReqTab.insert, if_pos ⟨by omega, fun _ => room⟩, moved]
  · rw [window_store_move _ _ _ _ fits, holds.cells, List.map_append, List.map_cons, List.map_take, List.map_drop]

theorem ReqTab.Holds.inserts {memory : Allocation} (holds : table.Holds conn) (sorted : TableSorted conn)
    (roomy : table.Roomy) (short : table.reqNr ≤ 2 ^ 30) (enough : table.reqNr < rounds)
    (array : memory.reqTab = true) (request : memory.request = true) (absent : reqno ∉ reqnos conn.reqTab)
    (filename : Bytes) (type : Nat) (userData : Pointer) :
    ∃ after next front back,
      table.gaminDataAddReq2 rounds filename type userData reqno memory =
        some (some (newRequest filename type userData reqno memory), after) ∧
      after.Holds next ∧ after.Roomy ∧ TableSorted next ∧ conn.reqTab = front ++ back ∧
      next.reqTab = front ++ newRequest filename type userData reqno memory :: back := by
  obtain ⟨grown, kept, allocation, holding, roomier, entries, count, present, room⟩ :=
    holds.allocate roomy short array request
  obtain ⟨_, member⟩ | point := getReqLoc_spec sorted reqno
  · exact absurd member absent
  have nonnegative := point.nonnegative
  have inside := point.fits
  rw [holds.length] at inside
  generalize located : Client.gaminDataGetReqLoc conn reqno = idx at point nonnegative inside
  -- no entry has the number, so the cell at the place of insertion has another one
  have distinct : ∀ req ∈ conn.reqTab, req.reqno ≠ reqno :=
    fun req member same => absent (List.mem_map.mpr ⟨req, member, same⟩)
  have different : (conn.reqTab[idx.toNat]?).any (·.reqno = reqno) = false := by
    rw [Option.any_eq_false_iff_get]
    intro there
    exact decide_eq_false (distinct _ (List.mem_of_getElem? (Option.some_get there).symm))
  obtain ⟨after, inserted, holdsAfter, counted, sized, there⟩ :=
    holding.insert idx.toNat (newRequest filename type userData reqno memory) room (by omega)
  refine ⟨after, _, conn.reqTab.take idx.toNat, conn.reqTab.drop idx.toNat, ?_, holdsAfter, ?_, ?_,
    (List.take_append_drop _ _).symm, by rw [entries]⟩
  · rw [ReqTab.gaminDataAddReq2, holds.getReqLoc short enough, located]
    dsimp only
    rw [if_neg (by omega), holds.entry, different, if_neg Bool.false_ne_true, allocation]
    dsimp only
    rw [holding.entry, entries, point.settled, if_neg Bool.false_ne_true, inserted, Option.map_some]
  · refine ⟨by omega, fun _ => ?_, by rw [sized]; exact roomier.counts, fun missing => ?_⟩
    · rw [sized]
      exact roomier.doubled present
    · rw [there, present] at missing
      contradiction
  -- the numbers before the place are smaller, those behind it are larger
  · rw [TableSorted, reqnos, entries]
    refine pairwise_insertIdx sorted (by rw [holds.length]; omega) ?_ ?_
    · intro index inside before
      exact point.below index inside (by omega)
    · intro index inside behind
      have above := point.above index inside (by omega)
      have unequal := distinct _ (List.getElem_mem inside)
      dsimp only [newRequest]
      omega

theorem ReqTab.Holds.exact (holds : table.Holds conn) (sorted : TableSorted conn) (roomy : table.Roomy)
    (short : table.reqNr ≤ 2 ^ 30) : table.Exact conn where
  idx := by
    intro reqno rounds enough
    refine ⟨_, holds.getReqIdx short enough, ?_⟩
    by_cases found : 0 ≤ Client.gaminDataGetReqIdx conn reqno
    · obtain ⟨inside, same⟩ := getReqIdx_sound found
      rw [List.getElem?_eq_getElem inside, Option.map_some, same]
      exact .inr ⟨found, rfl⟩
    · have missed := getReqIdx_complete sorted (Int.not_le.mp found)
      exact .inl ⟨getReqIdxLoop_missed le_rfl (Int.not_le.mp found), missed⟩
  loc := fun _ _ enough => ⟨_, holds.getReqLoc short enough⟩
  refuses := fun _ filename type userData _ memory enough member =>
    holds.refuses sorted short enough member filename type userData memory
  inserts := fun _ filename type userData _ _ enough array request absent =>
    holds.inserts sorted roomy short enough array request absent filename type userData

/-! ## Long tables -/

/-- The search for the last entry comes to it with both bounds at it, and adds them. -/
theorem ReqTab.Holds.last_counted {last : GAMReqData} (holds : table.Holds conn) (sorted : TableSorted conn)
    (lookup : conn.reqTab[table.reqNr - 1]? = some last)
    (found : table.idxLoop last.reqno rounds min (table.reqNr - 1) = .returned (table.reqNr - 1)) :
    2 * ((table.reqNr : Int) - 1) < 2 ^ 31 := by
  obtain ⟨lastInside, lastEqual⟩ := List.getElem?_eq_some_iff.mp lookup
  rw [holds.length] at lastInside
  -- by induction on the rounds; the upper bound stays at the last entry
  induction rounds generalizing min with
  | zero => contradiction
  | succ rounds inductionHypothesis =>
    rw [ReqTab.idxLoop] at found
    split at found
    case isFalse exhausted =>
      rw [SearchEnd.returned.injEq] at found
      omega
    case isTrue nonempty =>
      dsimp only at found
      split at found
      case h_1 => contradiction
      case h_2 =>
        rw [SearchEnd.returned.injEq] at found
        omega
      case h_3 req pointer =>
        split at found
        -- only the step that finds the entry adds the bounds, and the sum has not wrapped there
        case isTrue same =>
          rw [SearchEnd.returned.injEq] at found
          have below := @midpoint_lt min (table.reqNr - 1)
          omega
        case isFalse different =>
          split at found
          case isTrue smaller => exact inductionHypothesis found
          -- the search goes down only from a larger number, and the last one is the largest
          case isFalse larger =>
            obtain ⟨positive, behind⟩ := ReqTab.pointer_inside pointer
            rw [holds.pointer positive, Option.map_eq_some_iff] at pointer
            obtain ⟨_, entry, same⟩ := pointer
            rw [Option.some.inj same] at entry
            obtain ⟨inside, equal⟩ := List.getElem?_eq_some_iff.mp entry
            have ordered : req.reqno ≤ last.reqno := by
              rcases Nat.lt_or_eq_of_le (show (midpoint min (table.reqNr - 1)).toNat ≤ table.reqNr - 1 by omega)
                with earlier | here
              · have less := sorted_lt sorted earlier (by rwa [reqnos_length, holds.length])
                rw [reqnos_getElem _ _ inside (by rwa [reqnos_length]), equal,
                  reqnos_getElem _ _ (by rwa [holds.length]) (by rwa [reqnos_length, holds.length]), lastEqual] at less
                omega
              · rw [here, lookup, Option.some.injEq] at entry
                rw [entry]
            omega

/-- The searches and the insertion are exact for an array exactly when it has at most `2 ^ 30` entries. -/
theorem requestArray_exact_iff (holds : table.Holds conn) (sorted : TableSorted conn) (roomy : table.Roomy) :
    table.Exact conn ↔ table.reqNr ≤ 2 ^ 30 := by
  refine ⟨fun exact => ?_, holds.exact sorted roomy⟩
  rcases Nat.eq_zero_or_pos table.reqNr with empty | nonempty
  · omega
  have inside : table.reqNr - 1 < conn.reqTab.length := by rw [holds.length]; omega
  have member : conn.reqTab[table.reqNr - 1].reqno ∈ reqnos conn.reqTab := List.mem_map_of_mem (List.getElem_mem inside)
  obtain ⟨idx, found, ⟨_, absent⟩ | ⟨positive, entry⟩⟩ :=
    exact.idx conn.reqTab[table.reqNr - 1].reqno (table.reqNr + 1) (Nat.lt_succ_self _)
  · exact absurd member absent
  obtain ⟨req, lookup, same⟩ := Option.map_eq_some_iff.mp entry
  obtain ⟨idxInside, equal⟩ := List.getElem?_eq_some_iff.mp lookup
  have last := sorted_position_unique sorted idxInside inside (by rw [equal, same])
  rw [show idx = table.reqNr - 1 by omega] at found
  have counted := holds.last_counted sorted (List.getElem?_eq_getElem inside) found
  omega

end

/-- As many requests, with the numbers from 0 on. -/
def countedConn (count growths : Nat) : GAMData :=
  { gaminDataNew with
    reqMax := 10 * 2 ^ growths
    reqTabAllocated := true
    reqTab := (List.range count).map fun (idx : Nat) => ⟨idx, .reqInit, 1, none, 0⟩ }

def countedTable (count growths : Nat) : ReqTab where
  cells idx := some ⟨idx, .reqInit, 1, none, 0⟩
  reqNr := count
  reqMax := 10 * 2 ^ growths
  allocated := true

theorem countedTable_holds (count growths : Nat) : (countedTable count growths).Holds (countedConn count growths) where
  cells := by simp [window, countedTable, countedConn]
  reqMax := rfl
  allocated := rfl

theorem countedConn_sorted (count growths : Nat) : TableSorted (countedConn count growths) := by
  rw [TableSorted, reqnos, countedConn, List.map_map, List.pairwise_map]
  exact List.pairwise_lt_range.imp fun less => by simpa using less

theorem countedTable_roomy {count growths : Nat} (fits : count ≤ 10 * 2 ^ growths) (short : growths ≤ 27) :
    (countedTable count growths).Roomy where
  fits := fits
  doubled := fun _ => ⟨growths, rfl⟩
  counts := by
    have most : 2 ^ growths ≤ 2 ^ 27 := Nat.pow_le_pow_right (by decide) short
    dsimp only [countedTable]
    omega
  empty := fun missing => by contradiction

/-- Twenty entries fill the array once it has grown. -/
theorem requestArray_exact_iff_twenty :
    (countedTable 20 1).Exact (countedConn 20 1) ↔ (countedTable 20 1).reqNr ≤ 2 ^ 30 :=
  requestArray_exact_iff (countedTable_holds 20 1) (countedConn_sorted 20 1)
    (countedTable_roomy (by decide) (by decide))

/-- With one entry more than `2 ^ 30` the search for the last one reads far in front of the array. -/
theorem long_table_strays :
    (countedTable (2 ^ 30 + 1) 27).Holds (countedConn (2 ^ 30 + 1) 27) ∧ TableSorted (countedConn (2 ^ 30 + 1) 27) ∧
      (countedTable (2 ^ 30 + 1) 27).Roomy ∧
      (countedTable (2 ^ 30 + 1) 27).gaminDataGetReqIdx (2 ^ 30 + 2) (2 ^ 30) = .strays (-2 ^ 30) ∧
      ¬ (countedTable (2 ^ 30 + 1) 27).Exact (countedConn (2 ^ 30 + 1) 27) := by
  have strays : (countedTable (2 ^ 30 + 1) 27).gaminDataGetReqIdx (2 ^ 30 + 2) (2 ^ 30) = .strays (-2 ^ 30) := by
    decide +kernel
  have roomy : (countedTable (2 ^ 30 + 1) 27).Roomy := countedTable_roomy (by omega) (by omega)
  refine ⟨countedTable_holds _ _, countedConn_sorted _ _, roomy, strays, ?_⟩
  intro exact
  obtain ⟨idx, found, _⟩ := exact.idx (2 ^ 30) (2 ^ 30 + 2) (by dsimp only [countedTable]; omega)
  exact SearchEnd.noConfusion (strays.symm.trans found)

end Gamin.Client
