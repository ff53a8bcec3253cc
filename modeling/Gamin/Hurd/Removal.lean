import Gamin.Hurd.Tree

/-! # Monitors that go

A monitor without subscriptions and children is killed, and then perhaps the one above it.  The tree keeps its shape,
and no monitor is left without a use.
-/

namespace Gamin.Hurd

open Gamin Gamin.Server Gamin.Inotify Gamin.Library

variable {backend : HurdBackend} {m : Pointer} {monitor : Monitor} {names : Path} {name : Bytes}

/-! ## Writing a monitor -/

/-- A monitor is written that keeps its place. -/
theorem Shaped.setMonitor (shaped : Shaped backend) (present : backend.monitors m = some monitor) {changed : Monitor}
    (path : changed.path = monitor.path) (children : changed.children = monitor.children)
    (parent : changed.parent = monitor.parent)
    (served : ∀ sub ∈ changed.subs, (backend.subscriptions sub).path = monitor.path) :
    Shaped (backend.setMonitor m changed) := by
  -- whatever is found afterwards was there before, at the same place
  have stored (other : Pointer) (found : Monitor)
      (isFound : (backend.setMonitor m changed).monitors other = some found) :
      ∃ before, backend.monitors other = some before ∧ found.path = before.path ∧ found.children = before.children ∧
        found.parent = before.parent ∧ ∀ sub ∈ found.subs, (backend.subscriptions sub).path = before.path := by
    simp only [HurdBackend.setMonitor, Function.update_apply] at isFound
    split at isFound
    · rename_i same
      obtain rfl := Option.some.inj isFound
      exact ⟨monitor, same ▸ present, path, children, parent, served⟩
    · exact ⟨found, isFound, rfl, rfl, rfl, shaped.served other found isFound⟩
  refine ⟨?_, ?_, ?_, ?_, ?_, ?_, ?_⟩
  · intro other found isFound
    obtain ⟨before, isBefore, path, -⟩ := stored other found isFound
    rw [path]
    exact shaped.named other before isBefore
  · intro here other
    refine (shaped.hashed here other).trans ⟨?_, ?_⟩
    · rintro ⟨before, isBefore, rfl⟩
      by_cases same : other = m
      · subst same
        obtain rfl := Option.some.inj (present.symm.trans isBefore)
        exact ⟨changed, Function.update_self .., path⟩
      · exact ⟨before, (Function.update_of_ne same ..).trans isBefore, rfl⟩
    · rintro ⟨found, isFound, rfl⟩
      obtain ⟨before, isBefore, path, -⟩ := stored other found isFound
      exact ⟨before, isBefore, path.symm⟩
  · intro other found isFound isRoot
    obtain ⟨before, isBefore, path, -, parent, -⟩ := stored other found isFound
    rw [parent]
    exact shaped.rooted other before isBefore (path ▸ isRoot)
  · intro other found names name isFound valid here
    obtain ⟨before, isBefore, path, -, parent, -⟩ := stored other found isFound
    rw [parent]
    exact shaped.parents other before names name isBefore valid (path ▸ here)
  · intro other found names name child isFound valid here
    obtain ⟨before, isBefore, path, children, -⟩ := stored other found isFound
    rw [children]
    exact shaped.children other before names name child isBefore valid (path ▸ here)
  · intro other beyond
    have free := shaped.fresh other beyond
    refine (Function.update_of_ne ?_ ..).trans free
    rintro rfl
    exact nomatch free.symm.trans present
  · intro other found isFound sub member
    obtain ⟨before, isBefore, path, -, -, served⟩ := stored other found isFound
    exact (served sub member).trans path.symm

/-! ## The order of the kills -/

/-- The tables without a monitor. -/
def HurdBackend.without (backend : HurdBackend) (m : Pointer) (path : Bytes) : HurdBackend :=
  { backend with
    pathHash := Function.update backend.pathHash path none
    monitors := Function.update backend.monitors m none }

/-- No other monitor has the path, or the monitor for its parent. -/
def Loose (backend : HurdBackend) (m : Pointer) (path : Bytes) : Prop :=
  ∀ other stored, backend.monitors other = some stored → other ≠ m → stored.path ≠ path ∧ stored.parent ≠ some m

/-- What `monitor_consider` does above a monitor does not depend on whether it is still in the tables. -/
theorem monitorConsider_without {depth : Nat} {backend after : HurdBackend} {m above : Pointer} {path : Bytes}
    (loose : Loose backend m path) (other : above ≠ m)
    (dropped : monitorConsider depth (backend.without m path) above = some after) :
    ∃ kept, monitorConsider depth backend above = some kept ∧ kept.without m path = after ∧
      kept.pathHash path = backend.pathHash path := by
  induction depth generalizing backend after above with
  | zero => cases dropped
  | succ depth inductionHypothesis =>
    have same : (backend.without m path).monitors above = backend.monitors above := Function.update_of_ne other ..
    rw [monitorConsider, same] at dropped
    rw [monitorConsider]
    obtain ⟨monitor, present, dropped⟩ := Option.bind_eq_some_iff.mp dropped
    rw [present, Option.bind_some]
    by_cases busy : monitor.subs ≠ [] ∨ monitor.children ≠ ∅
    · rw [if_pos busy] at dropped ⊢
      cases dropped
      exact ⟨backend, rfl, rfl, rfl⟩
    · rw [if_neg busy] at dropped ⊢
      obtain ⟨apart, notParent⟩ := loose above monitor present other
      obtain ⟨front, isFront, last⟩ := Option.bind_eq_some_iff.mp dropped
      -- What is left of the call comes after those above, and does not meet the monitor either.
      have ends (kept : HurdBackend) (isKept : kept.without m path = front)
          (hash : kept.pathHash path = backend.pathHash path) :
          ∃ kept', (if kept.pathHash monitor.path = none then none else some { kept with
              pathHash := Function.update kept.pathHash monitor.path none
              monitors := Function.update kept.monitors above none }) = some kept' ∧
            kept'.without m path = after ∧ kept'.pathHash path = backend.pathHash path := by
        subst isKept
        have hashed : (kept.without m path).pathHash monitor.path = kept.pathHash monitor.path :=
          Function.update_of_ne apart ..
        rw [hashed] at last
        split at last
        · cases last
        · rename_i there
          refine ⟨_, if_neg there, ?_, (Function.update_of_ne apart.symm ..).trans hash⟩
          rw [← Option.some.inj last]
          simp only [HurdBackend.without, Function.update_comm apart, Function.update_comm other]
      cases parent : monitor.parent with
      | none =>
        simp only [parent] at isFront
        split at isFront
        · rename_i isRoot
          simp only [isRoot, if_true, Option.bind_some] at ends ⊢
          exact ends backend (Option.some.inj isFront) rfl
        · cases isFront
      | some grand =>
        have notGrand : grand ≠ m := fun same => notParent (same ▸ parent)
        have sameGrand : (backend.without m path).monitors grand = backend.monitors grand :=
          Function.update_of_ne notGrand ..
        simp only [parent, sameGrand] at isFront
        obtain ⟨containing, isContaining, isFront⟩ := Option.bind_eq_some_iff.mp isFront
        simp only [isContaining, Option.bind_some]
        split at isFront
        · cases isFront
        · rename_i listed
          rw [if_neg listed]
          have moved : (backend.without m path).setMonitor grand { containing with
                children := containing.children.erase (fileName monitor.path) } =
              (backend.setMonitor grand { containing with
                children := containing.children.erase (fileName monitor.path) }).without m path := by
            simp only [HurdBackend.without, HurdBackend.setMonitor, Function.update_comm notGrand]
          rw [moved] at isFront
          have looseFront : Loose (backend.setMonitor grand { containing with
              children := containing.children.erase (fileName monitor.path) }) m path := by
            intro any stored isStored notM
            simp only [HurdBackend.setMonitor, Function.update_apply] at isStored
            split at isStored
            · rename_i isGrand
              obtain rfl := Option.some.inj isStored
              exact loose grand containing isContaining notGrand
            · exact loose any stored isStored notM
          obtain ⟨kept, ran, isKept, hash⟩ := inductionHypothesis looseFront notGrand isFront
          rw [ran, Option.bind_some]
          exact ends kept isKept hash

/-! ## One monitor fewer -/

/-- The parent without a child. -/
def HurdBackend.unlink (backend : HurdBackend) (parent : Option Pointer) (name : Bytes) : HurdBackend :=
  match parent with
  | none => backend
  | some parent => match backend.monitors parent with
    | none => backend
    | some containing => backend.setMonitor parent { containing with children := containing.children.erase name }

/-- A monitor is taken out of all tables. -/
def HurdBackend.drop (backend : HurdBackend) (m : Pointer) (monitor : Monitor) : HurdBackend :=
  (backend.unlink monitor.parent (fileName monitor.path)).without m monitor.path

theorem drop_monitors (backend : HurdBackend) (m : Pointer) (monitor : Monitor) (other : Pointer) :
    (backend.drop m monitor).monitors other =
      if other = m then none
      else if monitor.parent = some other then (backend.monitors other).map fun containing =>
        { containing with children := containing.children.erase (fileName monitor.path) }
      else backend.monitors other := by
  simp only [HurdBackend.drop, HurdBackend.without, Function.update_apply]
  by_cases same : other = m
  · simp [same]
  · rw [if_neg same, if_neg same]
    cases monitor.parent with
    | none => simp [HurdBackend.unlink]
    | some parent =>
      simp only [HurdBackend.unlink, Option.some.injEq]
      by_cases isParent : parent = other
      · subst isParent
        cases present : backend.monitors parent with
        | none => simp [present]
        | some containing => simp [HurdBackend.setMonitor]
      · rw [if_neg isParent]
        cases backend.monitors parent with
        | none => rfl
        | some containing => simp [HurdBackend.setMonitor, Ne.symm isParent]

theorem drop_pathHash (backend : HurdBackend) (m : Pointer) (monitor : Monitor) (path : Bytes) :
    (backend.drop m monitor).pathHash path = if path = monitor.path then none else backend.pathHash path := by
  have same : (backend.unlink monitor.parent (fileName monitor.path)).pathHash = backend.pathHash := by
    unfold HurdBackend.unlink
    split
    · rfl
    · split <;> rfl
  rw [HurdBackend.drop, HurdBackend.without, same]
  exact Function.update_apply ..

/-- What is there after was there before, with one child fewer at the parent. -/
theorem drop_cases {other : Pointer} {stored : Monitor}
    (present : (backend.drop m monitor).monitors other = some stored) :
    other ≠ m ∧ ∃ before, backend.monitors other = some before ∧
      stored = { before with
        children := if monitor.parent = some other then before.children.erase (fileName monitor.path)
          else before.children } := by
  rw [drop_monitors] at present
  split at present
  · cases present
  · rename_i notM
    refine ⟨notM, ?_⟩
    split at present
    · rename_i isParent
      obtain ⟨before, isBefore, rfl⟩ := Option.map_eq_some_iff.mp present
      exact ⟨before, isBefore, by rw [if_pos isParent]⟩
    · rename_i notParent
      exact ⟨stored, present, by rw [if_neg notParent]⟩

theorem Shaped.drop (shaped : Shaped backend) (present : backend.monitors m = some monitor)
    (childless : monitor.children = ∅) : Shaped (backend.drop m monitor) := by
  obtain ⟨names, valid, here⟩ := shaped.named m monitor present
  have own := (shaped.hashed monitor.path m).mpr ⟨monitor, present, rfl⟩
  -- Nothing is below the monitor, or it would have a child.
  have leaf {name : Bytes} {child : Pointer} (validChild : ValidPath (names ++ [name]))
      (found : backend.pathHash (render (names ++ [name])) = some child) : False := by
    have listed := (shaped.children m monitor names name child present valid here).mpr ⟨validChild, found⟩
    rw [childless] at listed
    cases listed
  refine ⟨?_, ?_, ?_, ?_, ?_, ?_, ?_⟩
  · intro other stored isStored
    obtain ⟨-, before, isBefore, rfl⟩ := drop_cases isStored
    exact shaped.named other before isBefore
  · intro path other
    rw [drop_pathHash]
    split
    · rename_i isPath
      refine iff_of_false (nomatch ·) ?_
      rintro ⟨stored, isStored, same⟩
      obtain ⟨notM, before, isBefore, rfl⟩ := drop_cases isStored
      exact notM (shaped.unique isBefore present (same.trans isPath))
    · rename_i notPath
      rw [shaped.hashed]
      constructor
      · rintro ⟨before, isBefore, rfl⟩
        have notM : other ≠ m := by
          rintro rfl
          exact notPath (congrArg Monitor.path (Option.some.inj (isBefore.symm.trans present)))
        rw [drop_monitors, if_neg notM, isBefore]
        split
        · exact ⟨_, rfl, rfl⟩
        · exact ⟨before, rfl, rfl⟩
      · rintro ⟨stored, isStored, rfl⟩
        obtain ⟨-, before, isBefore, rfl⟩ := drop_cases isStored
        exact ⟨before, isBefore, rfl⟩
  · intro other stored isStored isRoot
    obtain ⟨-, before, isBefore, rfl⟩ := drop_cases isStored
    exact shaped.rooted other before isBefore isRoot
  · intro other stored front name isStored validFront path
    obtain ⟨-, before, isBefore, rfl⟩ := drop_cases isStored
    obtain ⟨above, isParent, found⟩ := shaped.parents other before front name isBefore validFront path
    refine ⟨above, isParent, ?_⟩
    rw [drop_pathHash, if_neg, found]
    intro isPath
    obtain rfl := render_injective (validPath_concat.mp validFront).1 valid (isPath.trans here)
    exact leaf validFront ((shaped.hashed _ other).mpr ⟨before, isBefore, path⟩)
  · intro other stored front name child isStored validFront path
    obtain ⟨notM, before, isBefore, rfl⟩ := drop_cases isStored
    have old := shaped.children other before front name child isBefore validFront path
    have up := (shaped.hashed before.path other).mpr ⟨before, isBefore, rfl⟩
    rw [path] at up
    rw [drop_pathHash]
    by_cases isHere : names = front ++ [name]
    · -- The monitor was this child.
      subst isHere
      obtain ⟨above, isParent, found⟩ := shaped.parents m monitor front name present valid here
      obtain rfl := Option.some.inj (up.symm.trans found)
      have erased : (before.children.erase (fileName monitor.path)).lookup name = none := by
        rw [here, fileName_render valid, AList.lookup_erase]
      simp only [isParent, if_true, erased]
      rw [if_pos here.symm]
      simp
    · have notPath (validChild : ValidPath (front ++ [name])) : render (front ++ [name]) ≠ monitor.path :=
        fun same => isHere (render_injective valid validChild (here.symm.trans same.symm))
      have same : ((if monitor.parent = some other then before.children.erase (fileName monitor.path)
          else before.children).lookup name = some child) = (before.children.lookup name = some child) := by
        split
        · rename_i isParent
          obtain rfl | ⟨front', name', rfl⟩ := names.eq_nil_or_concat
          · exact absurd ((shaped.rooted m monitor present here).symm.trans isParent) (by simp)
          · rw [List.concat_eq_append] at valid isHere here
            obtain ⟨above, isAbove, there⟩ := shaped.parents m monitor front' name' present valid here
            obtain rfl := Option.some.inj (isParent.symm.trans isAbove)
            obtain ⟨found, isFound, path'⟩ := shaped.lookup there
            obtain rfl := Option.some.inj (isBefore.symm.trans isFound)
            obtain rfl := render_injective (validPath_concat.mp valid).1 validFront (path'.symm.trans path)
            have different : name ≠ name' := fun same => isHere (by rw [same])
            rw [here, fileName_render valid, AList.lookup_erase_ne different]
        · rfl
      refine (Eq.to_iff same).trans (old.trans (and_congr_right fun validChild => ?_))
      rw [if_neg (notPath validChild)]
  · intro other beyond
    have free : backend.next ≤ other := by
      refine Nat.le_trans (Nat.le_of_eq ?_) beyond
      unfold HurdBackend.drop HurdBackend.unlink
      split
      · rfl
      · split <;> rfl
    rw [drop_monitors, shaped.fresh other free]
    split
    · rfl
    · split <;> rfl
  · intro other stored isStored
    obtain ⟨-, before, isBefore, rfl⟩ := drop_cases isStored
    have same : (backend.drop m monitor).subscriptions = backend.subscriptions := by
      unfold HurdBackend.drop HurdBackend.unlink
      split
      · rfl
      · split <;> rfl
    rw [same]
    exact shaped.served other before isBefore

/-! ## All that are not used -/

/-- What `monitor_consider` comes to. -/
structure Considers (before after : HurdBackend) : Prop where
  shaped : Shaped after
  subs : ∀ m, after.subsAt m = before.subsAt m
  rest : SameRest before after
  emitted : after.emitted = before.emitted
  used : UsedBut after none

theorem subsAt_drop (present : backend.monitors m = some monitor) (empty : monitor.subs = []) (other : Pointer) :
    (backend.drop m monitor).subsAt other = backend.subsAt other := by
  rw [HurdBackend.subsAt, drop_monitors]
  split
  · rename_i same
    rw [same, subsAt_of present, empty]
    rfl
  · split
    · rw [HurdBackend.subsAt, Option.map_map]
      rfl
    · rfl

theorem drop_rest (backend : HurdBackend) (m : Pointer) (monitor : Monitor) :
    SameRest backend (backend.drop m monitor) ∧ (backend.drop m monitor).emitted = backend.emitted := by
  unfold HurdBackend.drop HurdBackend.unlink
  split
  · exact ⟨⟨rfl, rfl, rfl, rfl, rfl⟩, rfl⟩
  · split <;> exact ⟨⟨rfl, rfl, rfl, rfl, rfl⟩, rfl⟩

/-- Only the parent may be without a use then. -/
theorem UsedBut.drop (used : UsedBut backend (some m)) (monitor : Monitor) :
    UsedBut (backend.drop m monitor) monitor.parent := by
  intro other stored isStored
  obtain ⟨notM, before, isBefore, rfl⟩ := drop_cases isStored
  by_cases isParent : monitor.parent = some other
  · exact .inr (.inr isParent)
  · simp only [isParent, if_false]
    obtain subscribed | children | spare := used other before isBefore
    · exact .inl subscribed
    · exact .inr (.inl children)
    · exact absurd (Option.some.inj spare).symm notM

theorem Considers.drop (present : backend.monitors m = some monitor) (noSubs : monitor.subs = [])
    {after : HurdBackend} (rest : Considers (backend.drop m monitor) after) : Considers backend after := by
  obtain ⟨same, emitted⟩ := drop_rest backend m monitor
  exact {
    shaped := rest.shaped
    subs := fun other => (rest.subs other).trans (subsAt_drop present noSubs other)
    rest := same.trans rest.rest
    emitted := rest.emitted.trans emitted
    used := rest.used }

/-- A monitor without children is not the parent of another one. -/
theorem Shaped.loose (shaped : Shaped backend) (present : backend.monitors m = some monitor)
    (childless : monitor.children = ∅) : Loose backend m monitor.path := by
  intro other stored isStored notM
  refine ⟨fun same => notM (shaped.unique isStored present same), fun isParent => ?_⟩
  obtain ⟨names, valid, path⟩ := shaped.named other stored isStored
  obtain rfl | ⟨front, name, rfl⟩ := names.eq_nil_or_concat
  · exact nomatch (shaped.rooted other stored isStored path).symm.trans isParent
  · rw [List.concat_eq_append] at valid path
    obtain ⟨above, isAbove, found⟩ := shaped.parents other stored front name isStored valid path
    obtain rfl := Option.some.inj (isParent.symm.trans isAbove)
    obtain ⟨containing, isContaining, here⟩ := shaped.lookup found
    obtain rfl := Option.some.inj (present.symm.trans isContaining)
    have own := (shaped.hashed stored.path other).mpr ⟨stored, isStored, rfl⟩
    have listed := (shaped.children m monitor front name other present (validPath_concat.mp valid).1 here).mpr
      ⟨valid, path ▸ own⟩
    rw [childless] at listed
    cases listed

theorem Loose.unlisted (loose : Loose backend m monitor.path) {above : Pointer} {containing : Monitor}
    (present : backend.monitors above = some containing) (notM : above ≠ m)
    (children : AList fun _ : Bytes => Pointer) :
    Loose (backend.setMonitor above { containing with children := children }) m monitor.path := by
  intro other stored isStored different
  simp only [HurdBackend.setMonitor, Function.update_apply] at isStored
  split at isStored
  · obtain rfl := Option.some.inj isStored
    exact loose above containing present notM
  · exact loose other stored isStored different

theorem Considers.busy (shaped : Shaped backend) (used : UsedBut backend (some m))
    (present : backend.monitors m = some monitor) (busy : monitor.subs ≠ [] ∨ monitor.children ≠ ∅) :
    Considers backend backend where
  shaped := shaped
  subs _ := rfl
  rest := .refl backend
  emitted := rfl
  used other stored isStored := by
    obtain subscribed | children | spare := used other stored isStored
    · exact .inl subscribed
    · exact .inr (.inl children)
    · obtain rfl := Option.some.inj spare
      obtain rfl := Option.some.inj (present.symm.trans isStored)
      exact busy.imp_right .inl

/-- By induction on the names, from a path up: no assertion fails, and all that has no use goes. -/
theorem monitorConsider_considers {names : Path} {backend : HurdBackend} {m : Pointer} (shaped : Shaped backend)
    (used : UsedBut backend (some m)) (valid : ValidPath names) (found : backend.pathHash (render names) = some m)
    {depth : Nat} (enough : names.length < depth) :
    ∃ after, monitorConsider depth backend m = some after ∧ Considers backend after := by
  induction names using List.reverseRecOn generalizing backend m depth with
  | nil =>
    obtain ⟨depth, rfl⟩ := Nat.exists_eq_add_of_lt enough
    obtain ⟨monitor, present, path⟩ := shaped.lookup found
    rw [monitorConsider, present, Option.bind_some]
    by_cases busy : monitor.subs ≠ [] ∨ monitor.children ≠ ∅
    · exact ⟨backend, if_pos busy, .busy shaped used present busy⟩
    · rw [if_neg busy]
      simp only [not_or, not_not] at busy
      -- the root has no parent to be considered
      have parent := shaped.rooted m monitor present path
      have isRoot : monitor.path = [slash] := path
      have dropped : backend.drop m monitor = backend.without m monitor.path := by
        rw [HurdBackend.drop, parent]
        rfl
      have usedAfter := used.drop monitor
      rw [parent] at usedAfter
      refine ⟨backend.drop m monitor, ?_, .drop present busy.1
        ⟨shaped.drop present busy.2, fun _ => rfl, .refl _, rfl, usedAfter⟩⟩
      rw [render_nil] at found
      simp only [parent, isRoot, if_true, Option.bind_some, found, reduceCtorEq, if_false, dropped]
      rfl
  | append_singleton names name inductionHypothesis =>
    obtain ⟨depth, rfl⟩ := Nat.exists_eq_add_of_lt enough
    obtain ⟨monitor, present, path⟩ := shaped.lookup found
    rw [monitorConsider, present, Option.bind_some]
    by_cases busy : monitor.subs ≠ [] ∨ monitor.children ≠ ∅
    · exact ⟨backend, if_pos busy, .busy shaped used present busy⟩
    · rw [if_neg busy]
      simp only [not_or, not_not] at busy
      have validFront := (validPath_concat.mp valid).1
      -- the parent loses its child and is considered next
      obtain ⟨above, parent, there⟩ := shaped.parents m monitor names name present valid path
      obtain ⟨containing, isContaining, pathAbove⟩ := shaped.lookup there
      have differs : render names ≠ monitor.path := by
        intro same
        exact absurd (render_injective validFront valid (same.trans path)) (by simp)
      have notM : above ≠ m := by
        rintro rfl
        obtain rfl := Option.some.inj (present.symm.trans isContaining)
        exact differs pathAbove.symm
      have listed : containing.children.lookup (fileName monitor.path) = some m := by
        rw [path, fileName_render valid]
        exact (shaped.children above containing names name m isContaining validFront pathAbove).mpr ⟨valid, found⟩
      have dropped : backend.drop m monitor = (backend.setMonitor above { containing with
          children := containing.children.erase (fileName monitor.path) }).without m monitor.path := by
        rw [HurdBackend.drop, parent, HurdBackend.unlink, isContaining]
      have usedAfter := used.drop monitor
      rw [parent] at usedAfter
      obtain ⟨after, ran, considers⟩ := @inductionHypothesis (backend.drop m monitor) above
        (shaped.drop present busy.2) usedAfter validFront (by rw [drop_pathHash, if_neg differs, there])
        ((names ++ [name]).length + depth) (by rw [List.length_append, List.length_singleton]; omega)
      refine ⟨after, ?_, .drop present busy.1 considers⟩
      rw [dropped] at ran
      -- the source frees the monitor after its parents have been considered, and they
      -- come to the same end without it
      obtain ⟨kept, ranKept, isKept, hash⟩ :=
        monitorConsider_without ((shaped.loose present busy.2).unlisted isContaining notM _) notM ran
      have own : kept.pathHash monitor.path = some m := hash.trans (path ▸ found)
      simp only [parent, isContaining, Option.bind_some, listed, reduceCtorEq, if_false, ranKept, own]
      exact congrArg some isKept

end Gamin.Hurd
