import Gamin.Hurd.Backend
import Gamin.Library.Demand

/-! # The tree of monitors

On paths in normal form the pointers to the parents, the tables of the children and the table of the paths all say the
same: a monitor stands at its path, its parent at the directory that contains it.
-/

namespace Gamin.Hurd

open Gamin Gamin.Server Gamin.Inotify Gamin.Library

/-! ## Paths in normal form -/

theorem stripSlashes_render {names : Path} (valid : ValidPath names) : stripSlashes (render names) = render names := by
  rcases eq_or_ne names [] with rfl | nonempty
  · rfl
  · rw [stripSlashes, render_of_ne_nil nonempty, joined_rdropWhile valid]
    exact if_neg fun empty => nonempty (joined_eq_nil.mp empty)

theorem containingDir_render {names : Path} {name : Bytes} (valid : ValidPath (names ++ [name])) :
    containingDir (render (names ++ [name])) = render names := by
  obtain ⟨validFront, -, noSlash⟩ := validPath_concat.mp valid
  rw [containingDir, render_concat, joined_concat_rdropWhile names noSlash, stripSlashes,
    List.rdropWhile_concat_pos _ _ _ (by simp), joined_rdropWhile validFront]
  simp only [joined_eq_nil, render]

theorem fileName_render {names : Path} {name : Bytes} (valid : ValidPath (names ++ [name])) :
    fileName (render (names ++ [name])) = name := by
  obtain ⟨-, -, noSlash⟩ := validPath_concat.mp valid
  have own : ∀ byte ∈ name.reverse, decide (byte ≠ slash) = true := by
    intro byte member
    exact decide_eq_true (ne_of_mem_of_not_mem (List.mem_reverse.mp member) noSlash)
  rw [fileName, render_concat, List.rtakeWhile, List.reverse_append, List.reverse_cons, List.append_assoc,
    List.takeWhile_append_of_pos own]
  simp

theorem render_concat_ne_root {names : Path} {name : Bytes} (valid : ValidPath (names ++ [name])) :
    render (names ++ [name]) ≠ [slash] := by
  intro same
  have empty := render_injective valid (fun _ member => absurd member List.not_mem_nil) (same.trans render_nil.symm)
  exact absurd empty (by simp)

/-! ## The shape -/

/-- The parent link, the children and the path tables agree. -/
structure Shaped (backend : HurdBackend) : Prop where
  named : ∀ m monitor, backend.monitors m = some monitor → ∃ names, ValidPath names ∧ monitor.path = render names
  hashed : ∀ path m, backend.pathHash path = some m ↔ ∃ monitor, backend.monitors m = some monitor ∧ monitor.path = path
  rooted : ∀ m monitor, backend.monitors m = some monitor → monitor.path = [slash] → monitor.parent = none
  parents : ∀ m monitor names name, backend.monitors m = some monitor → ValidPath (names ++ [name]) →
    monitor.path = render (names ++ [name]) →
    ∃ parent, monitor.parent = some parent ∧ backend.pathHash (render names) = some parent
  children : ∀ m monitor names name child, backend.monitors m = some monitor → ValidPath names →
    monitor.path = render names → (monitor.children.lookup name = some child ↔
      ValidPath (names ++ [name]) ∧ backend.pathHash (render (names ++ [name])) = some child)
  fresh : ∀ m, backend.next ≤ m → backend.monitors m = none
  served : ∀ m monitor, backend.monitors m = some monitor → ∀ sub ∈ monitor.subs,
    (backend.subscriptions sub).path = monitor.path

/-- Every monitor but one has a subscription or a child. -/
def UsedBut (backend : HurdBackend) (spare : Option Pointer) : Prop :=
  ∀ m monitor, backend.monitors m = some monitor → monitor.subs ≠ [] ∨ monitor.children ≠ ∅ ∨ spare = some m

section

variable {backend : HurdBackend} {m : Pointer} {monitor : Monitor} {names : Path} {name : Bytes}

/-- At most one monitor is at a path. -/
theorem Shaped.unique (shaped : Shaped backend) {other : Pointer} {stored : Monitor}
    (present : backend.monitors m = some monitor) (present' : backend.monitors other = some stored)
    (same : monitor.path = stored.path) : m = other := by
  have here := (shaped.hashed monitor.path m).mpr ⟨monitor, present, rfl⟩
  have there := (shaped.hashed monitor.path other).mpr ⟨stored, present', same.symm⟩
  exact Option.some.inj (here.symm.trans there)

theorem Shaped.lookup (shaped : Shaped backend) {path : Bytes} (found : backend.pathHash path = some m) :
    ∃ monitor, backend.monitors m = some monitor ∧ monitor.path = path :=
  (shaped.hashed path m).mp found

/-- Above a path with a monitor there are monitors. -/
theorem Shaped.above (shaped : Shaped backend) (valid : ValidPath (names ++ [name]))
    (found : backend.pathHash (render (names ++ [name])) = some m) :
    ∃ parent, backend.pathHash (render names) = some parent := by
  obtain ⟨monitor, present, path⟩ := shaped.lookup found
  obtain ⟨parent, -, above⟩ := shaped.parents m monitor names name present valid path
  exact ⟨parent, above⟩

/-! ## A new monitor -/

/-- This is what `monitor_create` finds for the parent of a path. -/
def LinkedTo (backend : HurdBackend) (names : Path) (parent : Option Pointer) : Prop :=
  (names = [] → parent = none) ∧ ∀ front name, names = front ++ [name] →
    ∃ above, parent = some above ∧ backend.pathHash (render front) = some above

theorem insertMonitor_monitors (backend : HurdBackend) (path : Bytes) (fd : Option Nat) (parent : Option Pointer)
    (m : Pointer) :
    (backend.insertMonitor path fd parent).monitors m =
      if m = backend.next then some { path := path, fd := fd, subs := [], children := ∅, parent := parent }
      else if parent = some m then (backend.monitors m).map fun above =>
        { above with children := above.children.insert (fileName path) backend.next }
      else backend.monitors m := by
  simp only [HurdBackend.insertMonitor, Function.update_apply]
  by_cases isNew : m = backend.next
  · simp [isNew]
  · rw [if_neg isNew, if_neg isNew]
    cases parent with
    | none => simp
    | some parent =>
      by_cases isParent : parent = m
      · subst isParent
        cases present : backend.monitors parent with
        | none => simp [present]
        | some above => simp [present]
      · simp only [Option.some.injEq, isParent, if_false]
        cases backend.monitors parent with
        | none => rfl
        | some above => simp [Ne.symm isParent]

/-- What was there is there still, with one more child at the parent. -/
theorem insertMonitor_cases {path : Bytes} {fd : Option Nat} {parent : Option Pointer} {stored : Monitor}
    (present : (backend.insertMonitor path fd parent).monitors m = some stored) :
    m = backend.next ∧ stored = { path := path, fd := fd, subs := [], children := ∅, parent := parent } ∨
      m ≠ backend.next ∧ ∃ before, backend.monitors m = some before ∧
        stored = { before with
          children :=
            if parent = some m then before.children.insert (fileName path) backend.next else before.children } := by
  rw [insertMonitor_monitors] at present
  split at present
  · rename_i isNew
    exact .inl ⟨isNew, (Option.some.inj present).symm⟩
  · rename_i notNew
    refine .inr ⟨notNew, ?_⟩
    split at present
    · rename_i isParent
      obtain ⟨before, isBefore, rfl⟩ := Option.map_eq_some_iff.mp present
      exact ⟨before, isBefore, by rw [if_pos isParent]⟩
    · rename_i notParent
      exact ⟨stored, present, by rw [if_neg notParent]⟩

theorem Shaped.insertMonitor (shaped : Shaped backend) (valid : ValidPath names)
    (absent : backend.pathHash (render names) = none) {parent : Option Pointer} (linked : LinkedTo backend names parent)
    (fd : Option Nat) : Shaped (backend.insertMonitor (render names) fd parent) := by
  -- The path is found by the new monitor, and by no other.
  have hash (path : Bytes) : (backend.insertMonitor (render names) fd parent).pathHash path =
      if path = render names then some backend.next else backend.pathHash path := Function.update_apply ..
  have elsewhere {path : Bytes} {m : Pointer} (found : backend.pathHash path = some m) : path ≠ render names := by
    rintro rfl
    exact nomatch absent.symm.trans found
  have away {m : Pointer} {before : Monitor} (present : backend.monitors m = some before) :
      before.path ≠ render names := elsewhere ((shaped.hashed before.path m).mpr ⟨before, present, rfl⟩)
  refine ⟨?_, ?_, ?_, ?_, ?_, ?_, ?_⟩
  · intro m stored present
    obtain ⟨-, rfl⟩ | ⟨-, before, isBefore, rfl⟩ := insertMonitor_cases present
    · exact ⟨names, valid, rfl⟩
    · exact shaped.named m before isBefore
  · intro path m
    rw [hash]
    split
    · rename_i isPath
      rw [Option.some.injEq, isPath]
      constructor
      · rintro rfl
        exact ⟨_, (insertMonitor_monitors ..).trans (if_pos rfl), rfl⟩
      · rintro ⟨stored, present, same⟩
        obtain ⟨isNew, -⟩ | ⟨-, before, isBefore, rfl⟩ := insertMonitor_cases present
        · exact isNew.symm
        · exact absurd same (@away m before isBefore)
    · rename_i notPath
      rw [shaped.hashed]
      constructor
      · rintro ⟨before, present, same⟩
        have notNew : m ≠ backend.next := by
          rintro rfl
          exact nomatch (shaped.fresh _ le_rfl).symm.trans present
        rw [insertMonitor_monitors, if_neg notNew, present]
        split
        · exact ⟨_, rfl, same⟩
        · exact ⟨before, rfl, same⟩
      · rintro ⟨stored, present, same⟩
        obtain ⟨-, rfl⟩ | ⟨-, before, isBefore, rfl⟩ := insertMonitor_cases present
        · exact absurd same.symm notPath
        · exact ⟨before, isBefore, same⟩
  · intro m stored present isRoot
    obtain ⟨-, rfl⟩ | ⟨-, before, isBefore, rfl⟩ := insertMonitor_cases present
    · refine linked.1 ?_
      exact render_injective valid (fun _ member => absurd member List.not_mem_nil) isRoot
    · exact shaped.rooted m before isBefore isRoot
  · intro m stored front name present validFront path
    obtain ⟨-, rfl⟩ | ⟨-, before, isBefore, rfl⟩ := insertMonitor_cases present
    · obtain ⟨above, isParent, found⟩ := linked.2 front name (render_injective valid validFront path)
      exact ⟨above, isParent, by rw [hash, if_neg (elsewhere found), found]⟩
    · obtain ⟨above, isParent, found⟩ := shaped.parents m before front name isBefore validFront path
      exact ⟨above, isParent, by rw [hash, if_neg (elsewhere found), found]⟩
  · intro m stored front name child present validFront path
    rw [hash]
    obtain ⟨-, rfl⟩ | ⟨-, before, isBefore, rfl⟩ := insertMonitor_cases present
    · obtain rfl := render_injective valid validFront path
      refine iff_of_false (by simp) ?_
      rintro ⟨validChild, found⟩
      split at found
      · rename_i same
        exact absurd (render_injective validChild valid same) (by simp)
      · obtain ⟨above, there⟩ := shaped.above validChild found
        exact nomatch absent.symm.trans there
    · have old := shaped.children m before front name child isBefore validFront path
      have up := (shaped.hashed before.path m).mpr ⟨before, isBefore, rfl⟩
      rw [path] at up
      by_cases isNew : names = front ++ [name]
      · -- The new monitor is this child.
        subst isNew
        obtain ⟨above, isParent, there⟩ := linked.2 front name rfl
        obtain rfl := Option.some.inj (up.symm.trans there)
        simp only [isParent, if_true, fileName_render valid, AList.lookup_insert, Option.some.injEq, valid, true_and]
      · have notPath (validChild : ValidPath (front ++ [name])) : render (front ++ [name]) ≠ render names :=
          fun same => isNew (render_injective valid validChild same.symm)
        have same : ((if parent = some m then before.children.insert (fileName (render names)) backend.next
            else before.children).lookup name = some child) = (before.children.lookup name = some child) := by
          split
          · rename_i isParent
            obtain rfl | ⟨front', name', rfl⟩ := names.eq_nil_or_concat
            · exact absurd ((linked.1 rfl).symm.trans isParent) (by simp)
            · rw [List.concat_eq_append] at valid linked isNew ⊢
              obtain ⟨above, isAbove, there⟩ := linked.2 front' name' rfl
              obtain rfl := Option.some.inj (isParent.symm.trans isAbove)
              obtain ⟨found, isFound, path'⟩ := shaped.lookup there
              obtain rfl := Option.some.inj (isBefore.symm.trans isFound)
              obtain rfl := render_injective (validPath_concat.mp valid).1 validFront (path'.symm.trans path)
              have different : name ≠ name' := fun same => isNew (by rw [same])
              rw [fileName_render valid, AList.lookup_insert_ne different]
          · rfl
        refine (Eq.to_iff same).trans (old.trans (and_congr_right fun validChild => ?_))
        rw [if_neg (notPath validChild)]
  · intro m beyond
    have beyond' : backend.next + 1 ≤ m := beyond
    rw [insertMonitor_monitors, if_neg (Nat.ne_of_gt beyond'), shaped.fresh m (Nat.le_of_succ_le beyond')]
    split <;> rfl
  · intro m stored present
    obtain ⟨-, rfl⟩ | ⟨-, before, isBefore, rfl⟩ := insertMonitor_cases present
    · exact fun _ member => absurd member List.not_mem_nil
    · exact shaped.served m before isBefore

/-! ## Creating -/

/-- The subscriptions of a monitor, if there is one. -/
def HurdBackend.subsAt (backend : HurdBackend) (m : Pointer) : List Pointer :=
  ((backend.monitors m).map Monitor.subs).getD []

theorem subsAt_of (present : backend.monitors m = some monitor) : backend.subsAt m = monitor.subs := by
  rw [HurdBackend.subsAt, present]
  rfl

/-- What a step on the monitors leaves alone. -/
structure SameRest (before after : HurdBackend) : Prop where
  subscriptions : after.subscriptions = before.subscriptions
  newSubs : after.newSubs = before.newSubs
  removedSubs : after.removedSubs = before.removedSubs
  haveConsumeIdler : after.haveConsumeIdler = before.haveConsumeIdler
  idleSources : after.idleSources = before.idleSources

theorem SameRest.refl (backend : HurdBackend) : SameRest backend backend := ⟨rfl, rfl, rfl, rfl, rfl⟩

theorem SameRest.trans {first second third : HurdBackend} (front : SameRest first second)
    (back : SameRest second third) : SameRest first third where
  subscriptions := back.subscriptions.trans front.subscriptions
  newSubs := back.newSubs.trans front.newSubs
  removedSubs := back.removedSubs.trans front.removedSubs
  haveConsumeIdler := back.haveConsumeIdler.trans front.haveConsumeIdler
  idleSources := back.idleSources.trans front.idleSources

/-- What `monitor_create` comes to: the new monitors have no subscriptions, and only the one that is returned may be
without a use. -/
structure Creates (names : Path) (before after : HurdBackend) (result : Option Pointer) : Prop where
  shaped : Shaped after
  subs : ∀ m, after.subsAt m = before.subsAt m
  rest : SameRest before after
  emitted : after.emitted = before.emitted
  found : ∀ m, result = some m → after.pathHash (render names) = some m
  added : ∀ other m, ValidPath other → after.pathHash (render other) = some m →
    before.pathHash (render other) = some m ∨ other <+: names
  used : UsedBut after result

theorem subsAt_insertMonitor (shaped : Shaped backend) (path : Bytes) (fd : Option Nat) (parent : Option Pointer)
    (m : Pointer) : (backend.insertMonitor path fd parent).subsAt m = backend.subsAt m := by
  rw [HurdBackend.subsAt, insertMonitor_monitors]
  split
  · rename_i isNew
    rw [isNew, HurdBackend.subsAt, shaped.fresh _ le_rfl]
    rfl
  · split
    · rw [HurdBackend.subsAt, Option.map_map]
      rfl
    · rfl

theorem insert_ne_empty (children : AList fun _ : Bytes => Pointer) (name : Bytes) (child : Pointer) :
    children.insert name child ≠ ∅ := by
  intro empty
  have found := @AList.lookup_insert _ _ _ name child children
  rw [empty] at found
  cases found

/-- The parent of a new monitor has a use. -/
theorem UsedBut.insertMonitor {path : Bytes} {fd : Option Nat} {parent : Option Pointer}
    (used : UsedBut backend parent) : UsedBut (backend.insertMonitor path fd parent) (some backend.next) := by
  intro m stored present
  obtain ⟨isNew, -⟩ | ⟨-, before, isBefore, rfl⟩ := insertMonitor_cases present
  · exact .inr (.inr (congrArg some isNew.symm))
  · by_cases isParent : parent = some m
    · simp only [isParent, if_true]
      exact .inr (.inl (insert_ne_empty _ _ _))
    · simp only [isParent, if_false]
      obtain subscribed | children | spare := used m before isBefore
      · exact .inl subscribed
      · exact .inr (.inl children)
      · exact absurd spare isParent

theorem UsedBut.weaken {spare : Option Pointer} (used : UsedBut backend none) : UsedBut backend spare := by
  intro m stored present
  obtain subscribed | children | spare := used m stored present
  · exact .inl subscribed
  · exact .inr (.inl children)
  · cases spare

theorem Creates.unchanged {result : Option Pointer} (shaped : Shaped backend) (used : UsedBut backend none)
    (found : ∀ m, result = some m → backend.pathHash (render names) = some m) :
    Creates names backend backend result where
  shaped := shaped
  subs _ := rfl
  rest := .refl backend
  emitted := rfl
  found := found
  added _ _ _ present := .inl present
  used := used.weaken

/-- A monitor is put below the ones that are there. -/
theorem Creates.insertMonitor {front : HurdBackend} {parent : Option Pointer}
    (shaped : Shaped front) (subs : ∀ m, front.subsAt m = backend.subsAt m) (rest : SameRest backend front)
    (emitted : front.emitted = backend.emitted) (used : UsedBut front parent) (valid : ValidPath names)
    (added : ∀ other m, ValidPath other → front.pathHash (render other) = some m →
      backend.pathHash (render other) = some m ∨ other <+: names)
    (absent : front.pathHash (render names) = none) (linked : LinkedTo front names parent) (fd : Option Nat) :
    Creates names backend (front.insertMonitor (render names) fd parent) (some front.next) where
  shaped := shaped.insertMonitor valid absent linked fd
  subs m := (subsAt_insertMonitor shaped ..).trans (subs m)
  rest := ⟨rest.subscriptions, rest.newSubs, rest.removedSubs, rest.haveConsumeIdler, rest.idleSources⟩
  emitted := emitted
  found m result := by
    obtain rfl := Option.some.inj result
    exact Function.update_self ..
  added other m validOther present := by
    have hash : (front.insertMonitor (render names) fd parent).pathHash (render other) =
        if render other = render names then some front.next else front.pathHash (render other) :=
      Function.update_apply ..
    rw [hash] at present
    split at present
    · rename_i same
      exact .inr (render_injective validOther valid same ▸ List.prefix_rfl)
    · exact added other m validOther present
  used := used.insertMonitor

theorem render_absolute (names : Path) : (render names).head? = some slash := by
  obtain ⟨rest, same⟩ := render_head names
  rw [← same]
  rfl

/-- `monitor_create` for the root. -/
theorem monitorCreate_root (answers : SystemAnswers) (absent : backend.pathHash [slash] = none) :
    monitorCreate answers backend [slash] =
      if answers.port [slash] ∧ watchFails (answers.watch [slash]) = false then
        (backend.insertMonitor [slash] (monitorWatch (answers.watch [slash])).1 none, some backend.next)
      else (backend, none) := by
  have stripped : stripSlashes [slash] = [slash] := rfl
  rw [monitorCreate, absent]
  cases answers.port [slash] <;> cases fails : watchFails (answers.watch [slash]) <;> simp [stripped, fails]

/-- `monitor_create` below another directory. -/
theorem monitorCreate_concat (answers : SystemAnswers) (valid : ValidPath (names ++ [name]))
    (absent : backend.pathHash (render (names ++ [name])) = none) :
    monitorCreate answers backend (render (names ++ [name])) =
      if answers.port (render (names ++ [name])) ∧
          watchFails (answers.watch (render (names ++ [name]))) = false then
        match monitorCreate answers backend (render names) with
        | (front, none) => (front, none)
        | (front, some parent) =>
          (front.insertMonitor (render (names ++ [name]))
            (monitorWatch (answers.watch (render (names ++ [name])))).1 (some parent), some front.next)
      else (backend, none) := by
  have absolute := render_absolute (names ++ [name])
  have stripped := stripSlashes_render valid
  have above := containingDir_render valid
  have below := render_concat_ne_root valid
  rw [monitorCreate, absent]
  revert absolute stripped above below
  generalize render (names ++ [name]) = path
  intro absolute stripped above below
  cases answers.port path with
  | false => simp
  | true =>
    cases fails : watchFails (answers.watch path) with
    | true => simp [absolute, stripped, fails]
    | false =>
      rcases created : monitorCreate answers backend (render names) with ⟨front, _ | parent⟩ <;>
        simp only [absolute, stripped, fails, above, below, created, dite_true, if_true, and_self, ne_eq,
          not_false_eq_true, Bool.false_eq_true, if_false]

theorem monitorCreate_present (answers : SystemAnswers) {path : Bytes} (present : backend.pathHash path = some m) :
    monitorCreate answers backend path = (backend, some m) := by
  rw [monitorCreate, present]

/-- By induction on the names: the directory that contains the path comes first. -/
theorem monitorCreate_creates (answers : SystemAnswers) {names : Path} (valid : ValidPath names) {backend : HurdBackend}
    (shaped : Shaped backend) (used : UsedBut backend none) :
    Creates names backend (monitorCreate answers backend (render names)).1
        (monitorCreate answers backend (render names)).2 ∧
      ((monitorCreate answers backend (render names)).2 = none →
        (monitorCreate answers backend (render names)).1 = backend) := by
  have failed (names : Path) : Creates names backend backend none :=
    .unchanged shaped used fun m result => absurd result.symm (Option.some_ne_none m)
  have ready {names : Path} {m : Pointer} (present : backend.pathHash (render names) = some m) :
      Creates names backend backend (some m) :=
    .unchanged shaped used fun found same => by rw [present, same]
  induction names using List.reverseRecOn with
  | nil =>
    cases present : backend.pathHash (render []) with
    | some m =>
      rw [monitorCreate_present answers present]
      exact ⟨ready present, fun result => absurd result (Option.some_ne_none m)⟩
    | none =>
      rw [render_nil, monitorCreate_root answers present]
      split
      · refine ⟨.insertMonitor shaped (fun _ => rfl) (.refl backend) rfl used valid (fun _ _ _ found => .inl found)
          present ⟨fun _ => rfl, fun _ _ same => ?_⟩ _, fun result => absurd result (Option.some_ne_none _)⟩
        exact absurd same (by simp)
      · exact ⟨failed [], fun _ => rfl⟩
  | append_singleton names name inductionHypothesis =>
    cases present : backend.pathHash (render (names ++ [name])) with
    | some m =>
      rw [monitorCreate_present answers present]
      exact ⟨ready present, fun result => absurd result (Option.some_ne_none m)⟩
    | none =>
      -- its directory is given a monitor first
      obtain ⟨created, unchanged⟩ := inductionHypothesis (validPath_concat.mp valid).1
      rw [monitorCreate_concat answers valid present]
      split
      · split
        · rename_i front same
          rw [same] at unchanged
          obtain rfl : front = backend := unchanged rfl
          exact ⟨failed _, fun _ => rfl⟩
        · rename_i front parent same
          rw [same] at created
          have grown (other : Path) (m : Pointer) (validOther : ValidPath other)
              (found : front.pathHash (render other) = some m) :=
            (created.added other m validOther found).imp_right (List.IsPrefix.trans · (List.prefix_append names [name]))
          -- what has been created on the way is above the path
          have absent : front.pathHash (render (names ++ [name])) = none := by
            cases found : front.pathHash (render (names ++ [name])) with
            | none => rfl
            | some m =>
              cases created.added _ m valid found with
              | inl before => exact absurd (before.symm.trans present) (Option.some_ne_none m)
              | inr within => exact absurd within.length_le (by simp)
          refine ⟨.insertMonitor created.shaped created.subs created.rest created.emitted created.used valid grown
            absent ⟨fun empty => absurd empty (by simp), fun other last same => ?_⟩ _,
            fun result => absurd result (Option.some_ne_none _)⟩
          obtain ⟨rfl, -⟩ := List.append_inj' same rfl
          exact ⟨parent, rfl, created.found parent rfl⟩
      · exact ⟨failed _, fun _ => rfl⟩

end

end Gamin.Hurd
