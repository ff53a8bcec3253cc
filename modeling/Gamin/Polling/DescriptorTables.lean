import Gamin.Library.Runs
import Gamin.Polling.Watches
import Mathlib.Data.List.Nodup
import Mathlib.Data.List.Perm.Subperm

/-! # The tables of dnotify with their descriptors

`gam_dnotify.c` finds a directory by its path and, when a signal comes, by its descriptor: two hash
tables over the same records.  Here the records are on a heap, and the kernel hands out descriptors.
`Poll.pathHash` is what the first table says without the descriptors.
-/

namespace Gamin.Polling

open Gamin Gamin.Server Gamin.Inotify Gamin.Library

/-! ## The records and the kernel -/

/-- `DNotifyData` with the descriptor itself. -/
structure DNotifyRecord where
  path : Bytes
  fd : Int
  refcount : Int
  busy : Int
  deriving DecidableEq

/-- What `Poll.pathHash` has for a record. -/
def DNotifyRecord.data (record : DNotifyRecord) : DNotifyData where
  fd := (0 : Int) ≤ record.fd
  refcount := record.refcount.toNat
  busy := record.busy.toNat

/-- `path_hash`, `fd_hash`, the records they point to, the next address, and the descriptors that are
open in the kernel for this layer. -/
structure DescriptorTables where
  pathHash : Bytes → Option Pointer
  fdHash : Int → Option Pointer
  records : Pointer → Option DNotifyRecord
  created : Nat
  openFds : List Int

/-- What a call of `open` meets: whether it succeeds, and what else the process has open. -/
structure OpenOutcome where
  opens : Bool
  others : List Int

/-- The descriptor that the kernel gives out. -/
def lowestUnused (inUse : List Int) : Nat :=
  ((List.range (inUse.length + 1)).find? fun fd : Nat => ((fd : Int) ∉ inUse)).getD 0

theorem lowestUnused_not_mem (inUse : List Int) : ((lowestUnused inUse : Nat) : Int) ∉ inUse := by
  unfold lowestUnused
  cases found : (List.range (inUse.length + 1)).find? fun fd : Nat => ((fd : Int) ∉ inUse) with
  | some fd => simpa using List.find?_some found
  | none =>
    -- more numbers than descriptors in use
    have all : ∀ fd ∈ (List.range (inUse.length + 1)).map Int.ofNat, fd ∈ inUse := by
      intro fd member
      obtain ⟨number, small, rfl⟩ := List.mem_map.mp member
      simpa using List.find?_eq_none.mp found number small
    have distinct : ((List.range (inUse.length + 1)).map Int.ofNat).Nodup :=
      List.Nodup.map (fun _ _ same => Int.ofNat.inj same) List.nodup_range
    have few := (distinct.subperm all).length_le
    rw [List.length_map, List.length_range] at few
    omega

namespace DescriptorTables

/-- Nothing is watched. -/
def init : DescriptorTables where
  pathHash := fun _ => none
  fdHash := fun _ => none
  records := fun _ => none
  created := 0
  openFds := []

/-- `open` on a directory. -/
def openFile (tables : DescriptorTables) (outcome : OpenOutcome) : Int × DescriptorTables :=
  if outcome.opens then
    let fd : Int := lowestUnused (outcome.others ++ tables.openFds)
    (fd, { tables with openFds := fd :: tables.openFds })
  else (-1, tables)

/-- `close`. -/
def closeFile (tables : DescriptorTables) (fd : Int) : DescriptorTables :=
  { tables with openFds := tables.openFds.filter (· ≠ fd) }

def setRecord (tables : DescriptorTables) (data : Pointer) (record : Option DNotifyRecord) :
    DescriptorTables :=
  { tables with records := Function.update tables.records data record }

def setPath (tables : DescriptorTables) (path : Bytes) (data : Option Pointer) : DescriptorTables :=
  { tables with pathHash := Function.update tables.pathHash path data }

def setFd (tables : DescriptorTables) (fd : Int) (data : Option Pointer) : DescriptorTables :=
  { tables with fdHash := Function.update tables.fdHash fd data }

/-- `gam_dnotify_data_new`. -/
def gamDnotifyDataNew (tables : DescriptorTables) (path : Bytes) (fd : Int) : Pointer × DescriptorTables :=
  (tables.created, { tables.setRecord tables.created (some ⟨path, fd, 1, 0⟩) with
    created := tables.created + 1 })

/-- A lookup in `path_hash`, with the record that is found. -/
def lookup (tables : DescriptorTables) (path : Bytes) : Option (Pointer × DNotifyRecord) :=
  (tables.pathHash path).bind fun data => (tables.records data).map fun record => (data, record)

/-! ## The handler -/

/-- `GAMIN_ACTIVATE`. -/
def activate (tables : DescriptorTables) (path : Bytes) (outcome : OpenOutcome) : DescriptorTables :=
  match tables.lookup path with
  | some (data, record) => tables.setRecord data (some { record with refcount := record.refcount + 1 })
  | none =>
    let (fd, tables) := tables.openFile outcome
    if fd < 0 then tables
    else
      let (data, tables) := tables.gamDnotifyDataNew path fd
      (tables.setFd fd (some data)).setPath path (some data)

/-- `GAMIN_DEACTIVATE`. -/
def deactivate (tables : DescriptorTables) (path : Bytes) : DescriptorTables :=
  match tables.lookup path with
  | none => tables
  | some (data, record) =>
    let record := { record with refcount := record.refcount - 1 }
    if record.refcount = 0 then
      (((tables.closeFile record.fd).setPath record.path none).setFd record.fd none).setRecord data none
    else tables.setRecord data (some record)

/-- `GAMIN_FLOWCONTROLSTART`. -/
def flowControlStart (tables : DescriptorTables) (path : Bytes) : DescriptorTables :=
  match tables.lookup path with
  | none => tables
  | some (data, record) =>
    if record.fd ≥ 0 then
      ((tables.closeFile record.fd).setFd record.fd none).setRecord data
        (some { record with fd := -1, busy := record.busy + 1 })
    else tables.setRecord data (some { record with busy := record.busy + 1 })

/-- `GAMIN_FLOWCONTROLSTOP`. -/
def flowControlStop (tables : DescriptorTables) (path : Bytes) (outcome : OpenOutcome) :
    DescriptorTables :=
  match tables.lookup path with
  | none => tables
  | some (data, record) =>
    if record.busy > 0 then
      let record := { record with busy := record.busy - 1 }
      if record.busy = 0 then
        let (fd, tables) := tables.openFile outcome
        -- the record keeps its closed descriptor when it cannot be opened again
        if fd < 0 then tables.setRecord data (some record)
        else (tables.setRecord data (some { record with fd := fd })).setFd fd (some data)
      else tables.setRecord data (some record)
    else tables

/-- A request, with what `open` meets if it comes to that. -/
structure Request where
  path : Bytes
  mode : PollHandlerMode
  outcome : OpenOutcome

/-- `gam_dnotify_directory_handler_internal`. -/
def directoryHandler (tables : DescriptorTables) (request : Request) : DescriptorTables :=
  match request.mode with
  | .activate => tables.activate request.path request.outcome
  | .deactivate => tables.deactivate request.path
  | .flowControlStart => tables.flowControlStart request.path
  | .flowControlStop => tables.flowControlStop request.path request.outcome

/-! ## What the tables are to say -/

/-- The table of paths has this record for the path. -/
def Entry (tables : DescriptorTables) (path : Bytes) (data : Pointer) (record : DNotifyRecord) : Prop :=
  tables.pathHash path = some data ∧ tables.records data = some record

/-- The invariant of the two tables.  A descriptor is open if the kernel has it open. -/
structure Monitoring (tables : DescriptorTables) : Prop where
  refcount : ∀ path data record, tables.Entry path data record → 1 ≤ record.refcount
  registered : ∀ fd data, tables.fdHash fd = some data ↔
    ∃ path record, tables.Entry path data record ∧ record.fd = fd ∧ fd ∈ tables.openFds
  distinct : ∀ path data record otherPath other otherRecord, tables.Entry path data record →
    tables.Entry otherPath other otherRecord → record.fd ∈ tables.openFds →
    otherRecord.fd = record.fd → otherPath = path
  suspended : ∀ path data record, tables.Entry path data record → 0 < record.busy →
    record.fd ∉ tables.openFds
  monitored : ∀ path data record, tables.Entry path data record → record.busy = 0 →
    record.fd ∈ tables.openFds

/-- The condition on a request: the last stop for a directory finds it. -/
def Reopens (tables : DescriptorTables) (request : Request) : Prop :=
  request.mode = .flowControlStop →
    ∀ data record, tables.Entry request.path data record → record.busy = 1 → request.outcome.opens = true

/-- What holds of the tables whatever `open` answers. -/
structure Consistent (tables : DescriptorTables) : Prop where
  live : ∀ path data, tables.pathHash path = some data →
    ∃ record, tables.records data = some record ∧ record.path = path
  bounded : ∀ path data, tables.pathHash path = some data → data < tables.created
  refcount : ∀ path data record, tables.Entry path data record → 1 ≤ record.refcount
  busy : ∀ path data record, tables.Entry path data record → 0 ≤ record.busy
  suspended : ∀ path data record, tables.Entry path data record → 0 < record.busy → record.fd = -1
  descriptor : ∀ path data record, tables.Entry path data record →
    record.fd = -1 ∨ record.fd ∈ tables.openFds
  registered : ∀ fd data, tables.fdHash fd = some data ↔
    ∃ path record, tables.Entry path data record ∧ record.fd = fd ∧ fd ∈ tables.openFds
  natural : ∀ fd ∈ tables.openFds, 0 ≤ fd

variable {tables : DescriptorTables} {path : Bytes} {data : Pointer} {record : DNotifyRecord}

theorem lookup_eq_some : tables.lookup path = some (data, record) ↔ tables.Entry path data record := by
  unfold lookup Entry
  cases tables.pathHash path with
  | none => simp
  | some found =>
    cases held : tables.records found with
    | none =>
      simp only [Option.bind_some, held, Option.map_none, reduceCtorEq, Option.some.injEq, false_iff]
      rintro ⟨rfl, other⟩
      rw [held] at other
      cases other
    | some other =>
      simp only [Option.bind_some, held, Option.map_some, Option.some.injEq, Prod.mk.injEq]
      constructor
      · rintro ⟨rfl, rfl⟩
        exact ⟨rfl, held⟩
      · rintro ⟨rfl, same⟩
        rw [held] at same
        exact ⟨rfl, Option.some.inj same⟩

theorem Consistent.lookup_eq_none (consistent : tables.Consistent) :
    tables.lookup path = none ↔ tables.pathHash path = none := by
  cases known : tables.pathHash path with
  | none => simp [lookup, known]
  | some data =>
    obtain ⟨record, held, _⟩ := consistent.live path data known
    simp [lookup, known, held]

theorem Consistent.path_eq (consistent : tables.Consistent) (entry : tables.Entry path data record) :
    record.path = path := by
  obtain ⟨held, found, same⟩ := consistent.live path data entry.1
  rw [entry.2] at found
  exact Option.some.inj found ▸ same

/-- A record is in the table of paths only once. -/
theorem Consistent.same_path {other : Bytes} (consistent : tables.Consistent)
    (first : tables.pathHash path = some data) (second : tables.pathHash other = some data) :
    other = path := by
  obtain ⟨record, held, same⟩ := consistent.live path data first
  obtain ⟨otherRecord, otherHeld, otherSame⟩ := consistent.live other data second
  rw [held] at otherHeld
  rw [← otherSame, ← same, Option.some.inj otherHeld]

/-- All but the last part of the invariant follows. -/
theorem Consistent.monitoring_iff (consistent : tables.Consistent) :
    tables.Monitoring ↔ ∀ path data record, tables.Entry path data record → record.busy = 0 →
      record.fd ∈ tables.openFds := by
  refine ⟨Monitoring.monitored, fun monitored => ⟨consistent.refcount, consistent.registered, ?_, ?_,
    monitored⟩⟩
  · intro path data record otherPath other otherRecord entry otherEntry opened same
    have here := (consistent.registered record.fd data).mpr ⟨path, record, entry, rfl, opened⟩
    have there := (consistent.registered record.fd other).mpr ⟨otherPath, otherRecord, otherEntry, same, opened⟩
    rw [here] at there
    cases there
    exact consistent.same_path entry.1 otherEntry.1
  · intro path data record entry busy opened
    rw [consistent.suspended path data record entry busy] at opened
    exact absurd (consistent.natural _ opened) (by decide)

/-! ## Changes of one record -/

/-- A record of the table of paths is replaced, with its descriptor; the others keep theirs. -/
structure Replaces (tables : DescriptorTables) (data : Pointer) (next : DNotifyRecord)
    (after : DescriptorTables) : Prop where
  pathHash : after.pathHash = tables.pathHash
  created : after.created = tables.created
  records : after.records = Function.update tables.records data (some next)
  others : ∀ path address found, tables.Entry path address found → address ≠ data →
    (found.fd ∈ after.openFds ↔ found.fd ∈ tables.openFds)
  hashed : ∀ fd address, address ≠ data → (after.fdHash fd = some address ↔ tables.fdHash fd = some address)
  own : ∀ fd, after.fdHash fd = some data ↔ next.fd = fd ∧ fd ∈ after.openFds
  descriptor : next.fd = -1 ∨ next.fd ∈ after.openFds
  natural : ∀ fd ∈ after.openFds, 0 ≤ fd

variable {after : DescriptorTables} {next : DNotifyRecord}

theorem Replaces.entry_iff (replaces : tables.Replaces data next after) {other : Bytes}
    {address : Pointer} {found : DNotifyRecord} :
    after.Entry other address found ↔
      (address = data ∧ tables.pathHash other = some data ∧ found = next) ∨
        (address ≠ data ∧ tables.Entry other address found) := by
  unfold Entry
  rw [replaces.pathHash, replaces.records]
  by_cases same : address = data
  · subst same
    rw [Function.update_self]
    simp [eq_comm]
  · rw [Function.update_of_ne same]
    simp [same]

theorem Replaces.consistent (replaces : tables.Replaces data next after) (consistent : tables.Consistent)
    (entry : tables.Entry path data record) (samePath : next.path = record.path)
    (refcount : 1 ≤ next.refcount) (busy : 0 ≤ next.busy) (suspended : 0 < next.busy → next.fd = -1) :
    after.Consistent where
  live other address known := by
    rw [replaces.pathHash] at known
    rw [replaces.records]
    by_cases same : address = data
    · subst same
      have here := consistent.same_path entry.1 known
      refine ⟨next, Function.update_self _ _ _, ?_⟩
      rw [samePath, here]
      exact consistent.path_eq entry
    · obtain ⟨found, held, named⟩ := consistent.live other address known
      exact ⟨found, (Function.update_of_ne same _ _).trans held, named⟩
  bounded := by
    rw [replaces.pathHash, replaces.created]
    exact consistent.bounded
  refcount other address found held := by
    obtain ⟨_, _, rfl⟩ | ⟨_, held⟩ := replaces.entry_iff.mp held
    · exact refcount
    · exact consistent.refcount _ _ _ held
  busy other address found held := by
    obtain ⟨_, _, rfl⟩ | ⟨_, held⟩ := replaces.entry_iff.mp held
    · exact busy
    · exact consistent.busy _ _ _ held
  suspended other address found held := by
    obtain ⟨_, _, rfl⟩ | ⟨_, held⟩ := replaces.entry_iff.mp held
    · exact suspended
    · exact consistent.suspended _ _ _ held
  descriptor other address found held := by
    obtain ⟨_, _, rfl⟩ | ⟨different, held⟩ := replaces.entry_iff.mp held
    · exact replaces.descriptor
    · exact (consistent.descriptor _ _ _ held).imp_right (replaces.others _ _ _ held different).mpr
  registered fd address := by
    -- the one record is looked at as it is now, the others as they were
    by_cases same : address = data
    · subst same
      rw [replaces.own fd]
      constructor
      · rintro ⟨named, opened⟩
        exact ⟨path, next, replaces.entry_iff.mpr (.inl ⟨rfl, entry.1, rfl⟩), named, opened⟩
      · rintro ⟨other, found, held, named, opened⟩
        obtain ⟨_, _, rfl⟩ | ⟨different, _⟩ := replaces.entry_iff.mp held
        · exact ⟨named, opened⟩
        · exact absurd rfl different
    · rw [replaces.hashed fd address same, consistent.registered fd address]
      constructor
      · rintro ⟨other, found, held, rfl, opened⟩
        exact ⟨other, found, replaces.entry_iff.mpr (.inr ⟨same, held⟩), rfl,
          (replaces.others _ _ _ held same).mpr opened⟩
      · rintro ⟨other, found, held, rfl, opened⟩
        obtain ⟨here, _, _⟩ | ⟨_, held⟩ := replaces.entry_iff.mp held
        · exact absurd here same
        · exact ⟨other, found, held, rfl, (replaces.others _ _ _ held same).mp opened⟩
  natural := replaces.natural

/-- No directory of the table is without a descriptor unless it is busy. -/
def Monitored (tables : DescriptorTables) : Prop :=
  ∀ path data record, tables.Entry path data record → record.busy = 0 → record.fd ∈ tables.openFds

theorem Replaces.monitored_iff (replaces : tables.Replaces data next after)
    (entry : tables.Entry path data record) (monitored : tables.Monitored) :
    after.Monitored ↔ (next.busy = 0 → next.fd ∈ after.openFds) := by
  constructor
  · intro holds
    exact holds path data next (replaces.entry_iff.mpr (.inl ⟨rfl, entry.1, rfl⟩))
  · intro opened other address found held idle
    obtain ⟨_, _, rfl⟩ | ⟨different, held⟩ := replaces.entry_iff.mp held
    · exact opened idle
    · exact (replaces.others _ _ _ held different).mpr (monitored _ _ _ held idle)

/-- Only this record has its descriptor. -/
theorem Consistent.hashed_iff (consistent : tables.Consistent) (entry : tables.Entry path data record)
    {fd : Int} : tables.fdHash fd = some data ↔ record.fd = fd ∧ fd ∈ tables.openFds := by
  rw [consistent.registered]
  constructor
  · rintro ⟨other, found, held, named, opened⟩
    rw [Option.some.inj (entry.2.symm.trans held.2)]
    exact ⟨named, opened⟩
  · rintro ⟨named, opened⟩
    exact ⟨path, record, entry, named, opened⟩

/-- The counters change, and the descriptor stays. -/
theorem Consistent.recounts (consistent : tables.Consistent) (entry : tables.Entry path data record)
    (sameFd : next.fd = record.fd) : tables.Replaces data next (tables.setRecord data (some next)) where
  pathHash := rfl
  created := rfl
  records := rfl
  others _ _ _ _ _ := Iff.rfl
  hashed _ _ _ := Iff.rfl
  own _ := by
    rw [sameFd]
    exact consistent.hashed_iff entry
  descriptor := by
    rw [sameFd]
    exact consistent.descriptor _ _ _ entry
  natural := consistent.natural

/-- The descriptor is closed. -/
theorem Consistent.closes (consistent : tables.Consistent) (entry : tables.Entry path data record)
    (closed : next.fd = -1) :
    tables.Replaces data next
      (((tables.closeFile record.fd).setFd record.fd none).setRecord data (some next)) where
  pathHash := rfl
  created := rfl
  records := rfl
  others other address found held different := by
    -- no other record has the descriptor that is closed
    have kept (opened : found.fd ∈ tables.openFds) : found.fd ≠ record.fd := by
      intro same
      have here := (consistent.hashed_iff entry).mpr ⟨rfl, same ▸ opened⟩
      have there := (consistent.hashed_iff held).mpr ⟨same, same ▸ opened⟩
      rw [here] at there
      exact different (Option.some.inj there).symm
    simp only [setRecord, setFd, closeFile, List.mem_filter, decide_eq_true_eq]
    exact ⟨And.left, fun opened => ⟨opened, kept opened⟩⟩
  hashed fd address different := by
    simp only [setRecord, setFd, closeFile]
    by_cases here : fd = record.fd
    · subst here
      rw [Function.update_self]
      refine ⟨nofun, fun known => ?_⟩
      obtain ⟨other, found, held, named, opened⟩ := (consistent.registered _ _).mp known
      rw [(consistent.hashed_iff entry).mpr ⟨rfl, opened⟩] at known
      exact absurd (Option.some.inj known).symm different
    · rw [Function.update_of_ne here]
  own fd := by
    simp only [setRecord, setFd, closeFile, List.mem_filter, decide_eq_true_eq, closed]
    constructor
    · intro known
      by_cases here : fd = record.fd
      · rw [here, Function.update_self] at known
        cases known
      · rw [Function.update_of_ne here, consistent.hashed_iff entry] at known
        exact absurd known.1.symm here
    · rintro ⟨rfl, opened, _⟩
      exact absurd (consistent.natural _ opened) (by decide)
  descriptor := .inl closed
  natural fd opened := consistent.natural fd (List.mem_filter.mp opened).1

/-- A closed record gets a descriptor that was not in use. -/
theorem Consistent.opens (consistent : tables.Consistent) (entry : tables.Entry path data record)
    (closed : record.fd = -1) (natural : 0 ≤ next.fd) (fresh : next.fd ∉ tables.openFds) :
    tables.Replaces data next
      (({ tables with openFds := next.fd :: tables.openFds }.setRecord data (some next)).setFd next.fd
        (some data)) where
  pathHash := rfl
  created := rfl
  records := rfl
  others other address found held _ := by
    -- another record with the new descriptor would have had it open before
    have different : found.fd ≠ next.fd := by
      intro same
      cases consistent.descriptor _ _ _ held with
      | inl absent => omega
      | inr opened => exact fresh (same ▸ opened)
    simp only [setRecord, setFd, List.mem_cons, different, false_or]
  hashed fd address different := by
    simp only [setRecord, setFd]
    by_cases here : fd = next.fd
    · subst here
      rw [Function.update_self]
      refine ⟨fun same => absurd (Option.some.inj same).symm different, fun known => ?_⟩
      obtain ⟨_, _, _, _, opened⟩ := (consistent.registered _ _).mp known
      exact absurd opened fresh
    · rw [Function.update_of_ne here]
  own fd := by
    simp only [setRecord, setFd, List.mem_cons]
    by_cases here : fd = next.fd
    · subst here
      simp
    · rw [Function.update_of_ne here, consistent.hashed_iff entry, closed]
      constructor
      · rintro ⟨rfl, opened⟩
        exact absurd (consistent.natural _ opened) (by decide)
      · rintro ⟨same, _⟩
        exact absurd same.symm here
  descriptor := .inr List.mem_cons_self
  natural fd opened := by
    cases List.mem_cons.mp opened with
    | inl same => exact same ▸ natural
    | inr before => exact consistent.natural fd before

/-! ## New and forgotten records -/

/-- A record that has no descriptor yet, and is busy until it has one. -/
def awaiting (path : Bytes) : DNotifyRecord := ⟨path, -1, 1, 1⟩

/-- The tables with a new record. -/
def withAwaiting (tables : DescriptorTables) (path : Bytes) : DescriptorTables :=
  { tables.setRecord tables.created (some (awaiting path)) with created := tables.created + 1 }.setPath path
    (some tables.created)

theorem pathHash_withAwaiting (other : Bytes) :
    (tables.withAwaiting path).pathHash other =
      if other = path then some tables.created else tables.pathHash other :=
  Function.update_apply _ _ _ _

theorem Consistent.entry_withAwaiting (consistent : tables.Consistent) {other : Bytes}
    {address : Pointer} {found : DNotifyRecord} :
    (tables.withAwaiting path).Entry other address found ↔
      (other = path ∧ address = tables.created ∧ found = awaiting path) ∨
        (other ≠ path ∧ tables.Entry other address found) := by
  unfold Entry withAwaiting setPath setRecord
  dsimp only
  by_cases same : other = path
  · subst same
    rw [Function.update_self]
    constructor
    · rintro ⟨here, held⟩
      obtain rfl := Option.some.inj here
      rw [Function.update_self] at held
      exact .inl ⟨rfl, rfl, (Option.some.inj held).symm⟩
    · rintro (⟨_, rfl, rfl⟩ | ⟨different, _⟩)
      · exact ⟨rfl, Function.update_self _ _ _⟩
      · exact absurd rfl different
  · rw [Function.update_of_ne same]
    have old (known : tables.pathHash other = some address) : address ≠ tables.created :=
      (consistent.bounded other address known).ne
    constructor
    · rintro ⟨known, held⟩
      rw [Function.update_of_ne (old known)] at held
      exact .inr ⟨same, known, held⟩
    · rintro (⟨here, _⟩ | ⟨_, known, held⟩)
      · exact absurd here same
      · exact ⟨known, (Function.update_of_ne (old known) _ _).trans held⟩

theorem Consistent.withAwaiting (consistent : tables.Consistent) (absent : tables.pathHash path = none) :
    (tables.withAwaiting path).Consistent where
  live other address known := by
    rw [pathHash_withAwaiting] at known
    split at known
    · rename_i here
      cases known
      exact ⟨awaiting path, Function.update_self _ _ _, here.symm⟩
    · rename_i elsewhere
      obtain ⟨found, held, named⟩ := consistent.live other address known
      exact ⟨found, (consistent.entry_withAwaiting.mpr (.inr ⟨elsewhere, known, held⟩)).2, named⟩
  bounded other address known := by
    rw [pathHash_withAwaiting] at known
    split at known
    · cases known
      exact Nat.lt_succ_self _
    · exact Nat.lt_succ_of_lt (consistent.bounded other address known)
  refcount other address found held := by
    obtain ⟨_, _, rfl⟩ | ⟨_, held⟩ := consistent.entry_withAwaiting.mp held
    · exact Int.le_refl 1
    · exact consistent.refcount _ _ _ held
  busy other address found held := by
    obtain ⟨_, _, rfl⟩ | ⟨_, held⟩ := consistent.entry_withAwaiting.mp held
    · exact Int.one_nonneg
    · exact consistent.busy _ _ _ held
  suspended other address found held := by
    obtain ⟨_, _, rfl⟩ | ⟨_, held⟩ := consistent.entry_withAwaiting.mp held
    · exact fun _ => rfl
    · exact consistent.suspended _ _ _ held
  descriptor other address found held := by
    obtain ⟨_, _, rfl⟩ | ⟨_, held⟩ := consistent.entry_withAwaiting.mp held
    · exact .inl rfl
    · exact consistent.descriptor _ _ _ held
  registered fd address := by
    refine (consistent.registered fd address).trans ?_
    constructor
    · rintro ⟨other, found, held, named, opened⟩
      have different : other ≠ path := by
        rintro rfl
        rw [held.1] at absent
        cases absent
      exact ⟨other, found, consistent.entry_withAwaiting.mpr (.inr ⟨different, held⟩), named, opened⟩
    · rintro ⟨other, found, held, named, opened⟩
      obtain ⟨_, _, rfl⟩ | ⟨_, held⟩ := consistent.entry_withAwaiting.mp held
      · -- the new record has no descriptor yet, so none is registered for it
        subst named
        exact absurd (consistent.natural (-1) opened) (by decide)
      · exact ⟨other, found, held, named, opened⟩
  natural := consistent.natural

theorem Consistent.monitored_withAwaiting (consistent : tables.Consistent) (monitored : tables.Monitored) :
    (tables.withAwaiting path).Monitored := by
  intro other address found held idle
  obtain ⟨_, _, rfl⟩ | ⟨_, held⟩ := consistent.entry_withAwaiting.mp held
  · cases idle
  · exact monitored _ _ _ held idle

/-- The tables without a record that has no descriptor any more. -/
def without (tables : DescriptorTables) (path : Bytes) (data : Pointer) : DescriptorTables :=
  (tables.setPath path none).setRecord data none

theorem pathHash_without (other : Bytes) :
    (tables.without path data).pathHash other = if other = path then none else tables.pathHash other :=
  Function.update_apply _ _ _ _

theorem Consistent.entry_without (consistent : tables.Consistent) (entry : tables.Entry path data record)
    {other : Bytes} {address : Pointer} {found : DNotifyRecord} :
    (tables.without path data).Entry other address found ↔
      other ≠ path ∧ tables.Entry other address found := by
  unfold Entry without setPath setRecord
  dsimp only
  by_cases same : other = path
  · subst same
    rw [Function.update_self]
    simp
  · rw [Function.update_of_ne same]
    have different (known : tables.pathHash other = some address) : address ≠ data := by
      rintro rfl
      exact same (consistent.same_path entry.1 known)
    constructor
    · rintro ⟨known, held⟩
      rw [Function.update_of_ne (different known)] at held
      exact ⟨same, known, held⟩
    · rintro ⟨_, known, held⟩
      exact ⟨known, (Function.update_of_ne (different known) _ _).trans held⟩

theorem Consistent.without (consistent : tables.Consistent) (entry : tables.Entry path data record)
    (closed : record.fd = -1) : (tables.without path data).Consistent where
  live other address known := by
    rw [pathHash_without] at known
    split at known
    · cases known
    · rename_i elsewhere
      obtain ⟨found, held, named⟩ := consistent.live other address known
      exact ⟨found, ((consistent.entry_without entry).mpr ⟨elsewhere, known, held⟩).2, named⟩
  bounded other address known := by
    rw [pathHash_without] at known
    split at known
    · cases known
    · exact consistent.bounded other address known
  refcount _ _ _ held := consistent.refcount _ _ _ ((consistent.entry_without entry).mp held).2
  busy _ _ _ held := consistent.busy _ _ _ ((consistent.entry_without entry).mp held).2
  suspended _ _ _ held := consistent.suspended _ _ _ ((consistent.entry_without entry).mp held).2
  descriptor _ _ _ held := consistent.descriptor _ _ _ ((consistent.entry_without entry).mp held).2
  registered fd address := by
    refine (consistent.registered fd address).trans ?_
    constructor
    · rintro ⟨other, found, held, named, opened⟩
      have different : other ≠ path := by
        rintro rfl
        obtain rfl := Option.some.inj (entry.1.symm.trans held.1)
        obtain rfl := Option.some.inj (entry.2.symm.trans held.2)
        rw [← named, closed] at opened
        exact absurd (consistent.natural _ opened) (by decide)
      exact ⟨other, found, (consistent.entry_without entry).mpr ⟨different, held⟩, named, opened⟩
    · rintro ⟨other, found, held, named, opened⟩
      exact ⟨other, found, ((consistent.entry_without entry).mp held).2, named, opened⟩
  natural := consistent.natural

/-! ## What a request does -/

/-- What a request comes to, and when. -/
inductive Handled (tables : DescriptorTables) (request : Request) : DescriptorTables → Prop where
  | unknown (mode : request.mode ≠ .activate) (absent : tables.pathHash request.path = none) :
      Handled tables request tables
  | unopened (mode : request.mode = .activate) (absent : tables.pathHash request.path = none)
      (fails : request.outcome.opens = false) : Handled tables request tables
  | opened {after : DescriptorTables} {fd : Int} (mode : request.mode = .activate)
      (absent : tables.pathHash request.path = none) (opens : request.outcome.opens = true)
      (natural : 0 ≤ fd)
      (replaces : (tables.withAwaiting request.path).Replaces tables.created ⟨request.path, fd, 1, 0⟩ after) :
      Handled tables request after
  | referenced {after : DescriptorTables} {data : Pointer} {record : DNotifyRecord}
      (mode : request.mode = .activate) (entry : tables.Entry request.path data record)
      (replaces : tables.Replaces data { record with refcount := record.refcount + 1 } after) :
      Handled tables request after
  | dereferenced {after : DescriptorTables} {data : Pointer} {record : DNotifyRecord}
      (mode : request.mode = .deactivate) (entry : tables.Entry request.path data record)
      (more : record.refcount ≠ 1)
      (replaces : tables.Replaces data { record with refcount := record.refcount - 1 } after) :
      Handled tables request after
  | removed {middle : DescriptorTables} {data : Pointer} {record : DNotifyRecord}
      (mode : request.mode = .deactivate) (entry : tables.Entry request.path data record)
      (last : record.refcount = 1) (replaces : tables.Replaces data { record with fd := -1 } middle) :
      Handled tables request (middle.without request.path data)
  | started {after : DescriptorTables} {data : Pointer} {record : DNotifyRecord}
      (mode : request.mode = .flowControlStart) (entry : tables.Entry request.path data record)
      (replaces : tables.Replaces data { record with fd := -1, busy := record.busy + 1 } after) :
      Handled tables request after
  | unstarted {data : Pointer} {record : DNotifyRecord} (mode : request.mode = .flowControlStop)
      (entry : tables.Entry request.path data record) (idle : record.busy = 0) :
      Handled tables request tables
  | stopped {after : DescriptorTables} {data : Pointer} {record : DNotifyRecord}
      (mode : request.mode = .flowControlStop) (entry : tables.Entry request.path data record)
      (more : 1 < record.busy)
      (replaces : tables.Replaces data { record with busy := record.busy - 1 } after) :
      Handled tables request after
  | reopened {after : DescriptorTables} {fd : Int} {data : Pointer} {record : DNotifyRecord}
      (mode : request.mode = .flowControlStop) (entry : tables.Entry request.path data record)
      (last : record.busy = 1) (opens : request.outcome.opens = true) (natural : 0 ≤ fd)
      (replaces : tables.Replaces data { record with fd := fd, busy := 0 } after) :
      Handled tables request after
  | lost {after : DescriptorTables} {data : Pointer} {record : DNotifyRecord}
      (mode : request.mode = .flowControlStop) (entry : tables.Entry request.path data record)
      (last : record.busy = 1) (fails : request.outcome.opens = false)
      (replaces : tables.Replaces data { record with busy := 0 } after) : Handled tables request after

theorem openFile_fails {outcome : OpenOutcome} (fails : outcome.opens = false) :
    tables.openFile outcome = (-1, tables) := by
  simp only [openFile, fails, Bool.false_eq_true, if_false]

theorem openFile_opens {outcome : OpenOutcome} (opens : outcome.opens = true) :
    ∃ fd : Int, 0 ≤ fd ∧ fd ∉ tables.openFds ∧
      tables.openFile outcome = (fd, { tables with openFds := fd :: tables.openFds }) := by
  refine ⟨lowestUnused (outcome.others ++ tables.openFds), Int.natCast_nonneg _, ?_, ?_⟩
  · intro used
    exact lowestUnused_not_mem _ (List.mem_append_right _ used)
  · simp only [openFile, opens, if_true]

theorem Consistent.activate (consistent : tables.Consistent) {request : Request}
    (mode : request.mode = .activate) :
    tables.Handled request (tables.activate request.path request.outcome) := by
  unfold DescriptorTables.activate
  split
  · rename_i data record found
    have entry := lookup_eq_some.mp found
    exact .referenced mode entry (consistent.recounts entry rfl)
  rename_i missed
  have absent := consistent.lookup_eq_none.mp missed
  cases opens : request.outcome.opens with
  | false =>
    simp only [openFile_fails opens]
    exact .unopened mode absent opens
  | true =>
    obtain ⟨fd, natural, fresh, opened⟩ := @openFile_opens tables request.outcome opens
    simp only [opened, if_neg (Int.not_lt.mpr natural), gamDnotifyDataNew]
    have entry : (tables.withAwaiting request.path).Entry request.path tables.created (awaiting request.path) :=
      consistent.entry_withAwaiting.mpr (.inl ⟨rfl, rfl, rfl⟩)
    have replaces := @Consistent.opens _ _ _ _ ⟨request.path, fd, 1, 0⟩ (consistent.withAwaiting absent) entry
      rfl natural fresh
    refine .opened mode absent opens natural ?_
    convert replaces using 1
    simp [setFd, setPath, setRecord, DescriptorTables.withAwaiting]

theorem Consistent.deactivate (consistent : tables.Consistent) {request : Request}
    (mode : request.mode = .deactivate) :
    tables.Handled request (tables.deactivate request.path) := by
  unfold DescriptorTables.deactivate
  split
  · rename_i missed
    exact .unknown (by rw [mode]; exact nofun) (consistent.lookup_eq_none.mp missed)
  rename_i data record found
  have entry := lookup_eq_some.mp found
  dsimp only
  split
  · rename_i zero
    -- closing comes first, so that what is taken out has no descriptor
    have replaces := @Consistent.closes _ _ _ _ { record with fd := -1 } consistent entry rfl
    have removed := Handled.removed mode entry (by omega) replaces
    convert removed using 1
    simp [DescriptorTables.without, setFd, setPath, setRecord, closeFile, consistent.path_eq entry]
  · rename_i more
    exact .dereferenced mode entry (by omega) (consistent.recounts entry rfl)

theorem Consistent.flowControlStart (consistent : tables.Consistent) {request : Request}
    (mode : request.mode = .flowControlStart) :
    tables.Handled request (tables.flowControlStart request.path) := by
  unfold DescriptorTables.flowControlStart
  split
  · rename_i missed
    exact .unknown (by rw [mode]; exact nofun) (consistent.lookup_eq_none.mp missed)
  rename_i data record found
  have entry := lookup_eq_some.mp found
  split
  · exact .started mode entry (consistent.closes entry rfl)
  · rename_i negative
    have closed : record.fd = -1 := by
      refine (consistent.descriptor _ _ _ entry).resolve_right fun opened => ?_
      exact negative (consistent.natural _ opened)
    refine .started mode entry ?_
    rw [← closed]
    exact consistent.recounts entry rfl

theorem Consistent.flowControlStop (consistent : tables.Consistent) {request : Request}
    (mode : request.mode = .flowControlStop) :
    tables.Handled request (tables.flowControlStop request.path request.outcome) := by
  unfold DescriptorTables.flowControlStop
  split
  · rename_i missed
    exact .unknown (by rw [mode]; exact nofun) (consistent.lookup_eq_none.mp missed)
  rename_i data record found
  have entry := lookup_eq_some.mp found
  split
  case isFalse idle =>
    have some := consistent.busy _ _ _ entry
    exact .unstarted mode entry (by omega)
  rename_i busy
  dsimp only
  split
  case isFalse more => exact .stopped mode entry (by omega) (consistent.recounts entry rfl)
  rename_i zero
  have closed := consistent.suspended _ _ _ entry busy
  cases opens : request.outcome.opens with
  | false =>
    simp only [openFile_fails opens, zero]
    exact .lost mode entry (by omega) opens (consistent.recounts entry rfl)
  | true =>
    obtain ⟨fd, natural, fresh, opened⟩ := @openFile_opens tables request.outcome opens
    simp only [opened, if_neg (Int.not_lt.mpr natural), zero]
    exact .reopened mode entry (by omega) opens natural
      (@Consistent.opens _ _ _ _ { record with fd := fd, busy := 0 } consistent entry closed natural fresh)

theorem Consistent.handled (consistent : tables.Consistent) (request : Request) :
    tables.Handled request (tables.directoryHandler request) := by
  unfold directoryHandler
  split
  · exact consistent.activate ‹_›
  · exact consistent.deactivate ‹_›
  · exact consistent.flowControlStart ‹_›
  · exact consistent.flowControlStop ‹_›

/-! ## Runs -/

theorem Handled.consistent {request : Request} (handled : tables.Handled request after)
    (consistent : tables.Consistent) : after.Consistent := by
  cases handled with
  | unknown | unopened | unstarted => exact consistent
  | opened mode absent opens natural replaces =>
    refine replaces.consistent (consistent.withAwaiting absent)
      (consistent.entry_withAwaiting.mpr (.inl ⟨rfl, rfl, rfl⟩)) rfl (Int.le_refl 1) (Int.le_refl 0) ?_
    exact fun busy => absurd busy (Int.lt_irrefl 0)
  | referenced mode entry replaces =>
    have refcount := consistent.refcount _ _ _ entry
    have busy := consistent.busy _ _ _ entry
    have suspended := consistent.suspended _ _ _ entry
    exact replaces.consistent consistent entry rfl (by dsimp only; omega) busy suspended
  | dereferenced mode entry more replaces =>
    have refcount := consistent.refcount _ _ _ entry
    have busy := consistent.busy _ _ _ entry
    have suspended := consistent.suspended _ _ _ entry
    exact replaces.consistent consistent entry rfl (by dsimp only; omega) busy suspended
  | removed mode entry last replaces =>
    have refcount := consistent.refcount _ _ _ entry
    have busy := consistent.busy _ _ _ entry
    have middle := replaces.consistent consistent entry rfl refcount busy fun _ => rfl
    exact middle.without (replaces.entry_iff.mpr (.inl ⟨rfl, entry.1, rfl⟩)) rfl
  | started mode entry replaces =>
    have refcount := consistent.refcount _ _ _ entry
    have busy := consistent.busy _ _ _ entry
    exact replaces.consistent consistent entry rfl refcount (by dsimp only; omega) fun _ => rfl
  | stopped mode entry more replaces =>
    have refcount := consistent.refcount _ _ _ entry
    have closed := consistent.suspended _ _ _ entry (by omega)
    exact replaces.consistent consistent entry rfl refcount (by dsimp only; omega) fun _ => closed
  | reopened mode entry last opens natural replaces =>
    have refcount := consistent.refcount _ _ _ entry
    exact replaces.consistent consistent entry rfl refcount (Int.le_refl 0)
      fun busy => absurd busy (Int.lt_irrefl 0)
  | lost mode entry last fails replaces =>
    have refcount := consistent.refcount _ _ _ entry
    exact replaces.consistent consistent entry rfl refcount (Int.le_refl 0)
      fun busy => absurd busy (Int.lt_irrefl 0)

/-- Nothing but a stop that cannot open the directory again leaves it without a descriptor. -/
theorem Handled.monitored_iff {request : Request} (handled : tables.Handled request after)
    (consistent : tables.Consistent) (monitored : tables.Monitored) :
    after.Monitored ↔ tables.Reopens request := by
  -- in all the other cases the condition does not ask for anything
  have vacuous (other : request.mode ≠ .flowControlStop) (holds : after.Monitored) :
      after.Monitored ↔ tables.Reopens request :=
    ⟨fun _ mode => absurd mode other, fun _ => holds⟩
  have met (data : Pointer) (record : DNotifyRecord) (entry : tables.Entry request.path data record)
      (fine : record.busy = 1 → request.outcome.opens = true) : tables.Reopens request := by
    intro _ other found held last
    obtain rfl := Option.some.inj (entry.1.symm.trans held.1)
    obtain rfl := Option.some.inj (entry.2.symm.trans held.2)
    exact fine last
  cases handled with
  | unknown mode absent =>
    refine ⟨fun _ _ data record entry => ?_, fun _ => monitored⟩
    rw [entry.1] at absent
    cases absent
  | unopened mode absent fails => exact vacuous (by rw [mode]; exact nofun) monitored
  | opened mode absent opens natural replaces =>
    refine vacuous (by rw [mode]; exact nofun) ?_
    have entry : (tables.withAwaiting request.path).Entry request.path tables.created (awaiting request.path) :=
      consistent.entry_withAwaiting.mpr (.inl ⟨rfl, rfl, rfl⟩)
    refine (replaces.monitored_iff entry (consistent.monitored_withAwaiting monitored)).mpr fun _ => ?_
    exact replaces.descriptor.resolve_left (by dsimp only; omega)
  | referenced mode entry replaces =>
    refine vacuous (by rw [mode]; exact nofun) ((replaces.monitored_iff entry monitored).mpr fun idle => ?_)
    have opened := monitored _ _ _ entry idle
    exact replaces.descriptor.resolve_left fun closed => by
      have natural := consistent.natural _ opened
      dsimp only at closed
      omega
  | dereferenced mode entry more replaces =>
    refine vacuous (by rw [mode]; exact nofun) ((replaces.monitored_iff entry monitored).mpr fun idle => ?_)
    have opened := monitored _ _ _ entry idle
    exact replaces.descriptor.resolve_left fun closed => by
      have natural := consistent.natural _ opened
      dsimp only at closed
      omega
  | removed mode entry last replaces =>
    refine vacuous (by rw [mode]; exact nofun) fun other address found held idle => ?_
    have refcount := consistent.refcount _ _ _ entry
    have busy := consistent.busy _ _ _ entry
    have middle := replaces.consistent consistent entry rfl refcount busy fun _ => rfl
    have closed := replaces.entry_iff.mpr (.inl ⟨rfl, entry.1, rfl⟩)
    obtain ⟨elsewhere, held⟩ := (middle.entry_without closed).mp held
    obtain ⟨_, known, _⟩ | ⟨different, held⟩ := replaces.entry_iff.mp held
    · exact absurd (consistent.same_path entry.1 known) elsewhere
    · exact (replaces.others _ _ _ held different).mpr (monitored _ _ _ held idle)
  | started mode entry replaces =>
    have busy := consistent.busy _ _ _ entry
    refine vacuous (by rw [mode]; exact nofun) ((replaces.monitored_iff entry monitored).mpr fun idle => ?_)
    dsimp only at idle
    omega
  | unstarted mode entry idle => exact ⟨fun _ => met _ _ entry (by omega), fun _ => monitored⟩
  | stopped mode entry more replaces =>
    refine ⟨fun _ => met _ _ entry (by omega), fun _ => ?_⟩
    refine (replaces.monitored_iff entry monitored).mpr fun idle => ?_
    dsimp only at idle
    omega
  | reopened mode entry last opens natural replaces =>
    refine ⟨fun _ => met _ _ entry fun _ => opens, fun _ => ?_⟩
    refine (replaces.monitored_iff entry monitored).mpr fun _ => ?_
    exact replaces.descriptor.resolve_left (by dsimp only; omega)
  | lost mode entry last fails replaces =>
    have closed := consistent.suspended _ _ _ entry (by omega)
    constructor
    · intro holds
      have opened := (replaces.monitored_iff entry monitored).mp holds rfl
      have natural := replaces.natural _ opened
      dsimp only at natural
      omega
    · intro reopens
      rw [reopens mode _ _ entry last] at fails
      cases fails

theorem consistent_init : init.Consistent where
  live _ _ known := nomatch known
  bounded _ _ known := nomatch known
  refcount _ _ _ entry := nomatch entry.1
  busy _ _ _ entry := nomatch entry.1
  suspended _ _ _ entry := nomatch entry.1
  descriptor _ _ _ entry := nomatch entry.1
  registered _ _ := ⟨fun known => (nomatch known), fun ⟨_, _, entry, _⟩ => nomatch entry.1⟩
  natural _ opened := nomatch opened

/-- The tables are in order throughout a run exactly as long as a directory that leaves flow control
can be opened. -/
theorem monitoring_iff_reopens (requests : List Request) :
    Throughout directoryHandler Monitoring init requests ↔ Guarded directoryHandler Reopens init requests := by
  refine throughout_iff_guarded Consistent ?_ ?_ ?_ consistent_init ?_ requests
  · intro tables request consistent
    exact (consistent.handled request).consistent consistent
  · intro tables request consistent monitoring reopens
    have handled := consistent.handled request
    exact (handled.consistent consistent).monitoring_iff.mpr
      ((handled.monitored_iff consistent monitoring.monitored).mpr reopens)
  · intro tables request consistent monitoring monitoringAfter
    exact ((consistent.handled request).monitored_iff consistent monitoring.monitored).mp
      monitoringAfter.monitored
  · exact consistent_init.monitoring_iff.mpr fun _ _ _ entry => nomatch entry.1

/-- A directory is monitored, its flow control starts, and when it stops the directory cannot be
opened. -/
theorem not_monitoring_lost :
    ¬ Throughout directoryHandler Monitoring init
      [⟨[slash], .activate, ⟨true, [0, 1, 2]⟩⟩, ⟨[slash], .flowControlStart, ⟨true, []⟩⟩,
        ⟨[slash], .flowControlStop, ⟨false, []⟩⟩] := by
  intro throughout
  have monitored := throughout.last.monitored [slash] 0 ⟨[slash], -1, 1, 0⟩ ⟨by decide, by decide⟩ rfl
  revert monitored
  decide

/-! ## The table without the descriptors -/

/-- The table of paths without the descriptors. -/
def watches (tables : DescriptorTables) (path : Bytes) : Option DNotifyData :=
  (tables.lookup path).map fun entry => entry.2.data

theorem watches_of_entry (entry : tables.Entry path data record) :
    tables.watches path = some record.data := by
  rw [watches, lookup_eq_some.mpr entry]
  rfl

theorem Consistent.watches_eq_none (consistent : tables.Consistent) (absent : tables.pathHash path = none) :
    tables.watches path = none := by
  rw [watches, consistent.lookup_eq_none.mpr absent]
  rfl

theorem Replaces.watches (replaces : tables.Replaces data next after) (consistent : tables.Consistent)
    (entry : tables.Entry path data record) :
    after.watches = Function.update tables.watches path (some next.data) := by
  funext other
  by_cases same : other = path
  · subst same
    rw [Function.update_self]
    exact watches_of_entry (replaces.entry_iff.mpr (.inl ⟨rfl, entry.1, rfl⟩))
  rw [Function.update_of_ne same]
  have elsewhere : tables.pathHash other ≠ some data := fun known => same (consistent.same_path entry.1 known)
  unfold DescriptorTables.watches lookup
  rw [replaces.pathHash]
  cases known : tables.pathHash other with
  | none => rfl
  | some address =>
    have different : address ≠ data := by
      rintro rfl
      exact elsewhere known
    rw [replaces.records, Option.bind_some, Function.update_of_ne different, Option.bind_some]

theorem Consistent.watches_withAwaiting (consistent : tables.Consistent) :
    (tables.withAwaiting path).watches = Function.update tables.watches path (some (awaiting path).data) := by
  funext other
  by_cases same : other = path
  · subst same
    rw [Function.update_self]
    exact watches_of_entry (consistent.entry_withAwaiting.mpr (.inl ⟨rfl, rfl, rfl⟩))
  rw [Function.update_of_ne same]
  cases known : tables.pathHash other with
  | none => 
    have absent : (tables.withAwaiting path).pathHash other = none := by
      rw [pathHash_withAwaiting, if_neg same, known]
    simp [DescriptorTables.watches, lookup, absent, known]
  | some address =>
    obtain ⟨found, held, _⟩ := consistent.live other address known
    rw [watches_of_entry (consistent.entry_withAwaiting.mpr (.inr ⟨same, known, held⟩)),
      watches_of_entry ⟨known, held⟩]

theorem Consistent.watches_without (consistent : tables.Consistent)
    (entry : tables.Entry path data record) :
    (tables.without path data).watches = Function.update tables.watches path none := by
  funext other
  by_cases same : other = path
  · subst same
    rw [Function.update_self]
    simp [DescriptorTables.watches, lookup, pathHash_without]
  rw [Function.update_of_ne same]
  cases known : tables.pathHash other with
  | none => simp [DescriptorTables.watches, lookup, pathHash_without, same, known]
  | some address =>
    obtain ⟨found, held, _⟩ := consistent.live other address known
    rw [watches_of_entry ((consistent.entry_without entry).mpr ⟨same, known, held⟩),
      watches_of_entry ⟨known, held⟩]

/-- `Poll.pathHash` follows the table of paths. -/
theorem watches_directoryHandler (consistent : tables.Consistent) {poll : Poll} {request : Request}
    (same : tables.watches = poll.pathHash)
    (opens : request.outcome.opens = poll.view.opens request.path) :
    (tables.directoryHandler request).watches =
      (gamDnotifyDirectoryHandlerInternal poll request.path request.mode).pathHash := by
  have handled := consistent.handled request
  generalize tables.directoryHandler request = after at handled ⊢
  -- the table of paths of the tree is the one of the records, seen by path
  have missing (absent : tables.pathHash request.path = none) : poll.pathHash request.path = none := by
    rw [← same]
    exact consistent.watches_eq_none absent
  have present {data : Pointer} {record : DNotifyRecord} (entry : tables.Entry request.path data record) :
      poll.pathHash request.path = some record.data := by
    rw [← same]
    exact watches_of_entry entry
  cases handled with
  | unknown mode absent =>
    rw [same]
    cases other : request.mode with
    | activate => exact absurd other mode
    | deactivate => simp only [gamDnotifyDirectoryHandlerInternal, deactivateWatch, missing absent]
    | flowControlStart => simp only [gamDnotifyDirectoryHandlerInternal, suspendWatch, missing absent]
    | flowControlStop => simp only [gamDnotifyDirectoryHandlerInternal, resumeWatch, missing absent]
  | unopened mode absent fails =>
    rw [opens] at fails
    simp only [mode, gamDnotifyDirectoryHandlerInternal, activateWatch, missing absent, fails]
    exact same
  | opened mode absent succeeds natural replaces =>
    rw [opens] at succeeds
    have entry : (tables.withAwaiting request.path).Entry request.path tables.created (awaiting request.path) :=
      consistent.entry_withAwaiting.mpr (.inl ⟨rfl, rfl, rfl⟩)
    rw [replaces.watches (consistent.withAwaiting absent) entry, consistent.watches_withAwaiting,
      Function.update_idem, same]
    simp only [mode, gamDnotifyDirectoryHandlerInternal, activateWatch, missing absent, succeeds, if_true,
      Poll.setWatch, Poll.called, DNotifyRecord.data, natural, decide_true]
    rfl
  | @referenced _ data record mode entry replaces =>
    have refcount := consistent.refcount _ _ _ entry
    have counted : (record.refcount + 1).toNat = record.refcount.toNat + 1 := by omega
    rw [replaces.watches consistent entry, same]
    simp only [mode, gamDnotifyDirectoryHandlerInternal, activateWatch, present entry, Poll.setWatch,
      DNotifyRecord.data, counted]
  | @dereferenced _ data record mode entry more replaces =>
    have refcount := consistent.refcount _ _ _ entry
    have counted : (record.refcount - 1).toNat = record.refcount.toNat - 1 := by omega
    have another : record.refcount.toNat ≠ 1 := by omega
    rw [replaces.watches consistent entry, same]
    simp only [mode, gamDnotifyDirectoryHandlerInternal, deactivateWatch, present entry, Poll.setWatch,
      DNotifyRecord.data, counted, another, if_false]
  | @removed middle data record mode entry last replaces =>
    have refcount := consistent.refcount _ _ _ entry
    have busy := consistent.busy _ _ _ entry
    have between := replaces.consistent consistent entry rfl refcount busy fun _ => rfl
    have closed := replaces.entry_iff.mpr (.inl ⟨rfl, entry.1, rfl⟩)
    rw [between.watches_without closed, replaces.watches consistent entry, Function.update_idem, same]
    simp only [mode, gamDnotifyDirectoryHandlerInternal, deactivateWatch, present entry, Poll.setWatch,
      DNotifyRecord.data, last, Int.toNat_one, if_true]
  | @started _ data record mode entry replaces =>
    have busy := consistent.busy _ _ _ entry
    have counted : (record.busy + 1).toNat = record.busy.toNat + 1 := by omega
    have gone : decide ((0 : Int) ≤ -1) = false := by decide
    rw [replaces.watches consistent entry, same]
    simp only [mode, gamDnotifyDirectoryHandlerInternal, suspendWatch, present entry, Poll.setWatch,
      DNotifyRecord.data, counted, gone]
  | @unstarted data record mode entry idle =>
    simp only [mode, gamDnotifyDirectoryHandlerInternal, resumeWatch, present entry, DNotifyRecord.data, idle,
      Int.toNat_zero, if_true]
    exact same
  | @stopped _ data record mode entry more replaces =>
    have counted : (record.busy - 1).toNat = record.busy.toNat - 1 := by omega
    have busy : record.busy.toNat ≠ 0 := by omega
    have another : record.busy.toNat ≠ 1 := by omega
    rw [replaces.watches consistent entry, same]
    simp only [mode, gamDnotifyDirectoryHandlerInternal, resumeWatch, present entry, Poll.setWatch,
      DNotifyRecord.data, counted, busy, another, if_false]
  | @reopened _ fd data record mode entry last succeeds natural replaces =>
    rw [opens] at succeeds
    rw [replaces.watches consistent entry, same]
    simp [mode, gamDnotifyDirectoryHandlerInternal, resumeWatch, present entry, Poll.setWatch, Poll.called,
      DNotifyRecord.data, last, succeeds, natural]
  | @lost _ data record mode entry last fails replaces =>
    rw [opens] at fails
    rw [replaces.watches consistent entry, same]
    simp [mode, gamDnotifyDirectoryHandlerInternal, resumeWatch, present entry, Poll.setWatch, Poll.called,
      DNotifyRecord.data, last, fails]

end DescriptorTables

end Gamin.Polling
