import Gamin.Hurd.Removal

/-! # Runs of the Hurd backend

The server adds and removes subscriptions, the idle callback takes them on, and notifications arrive, in any order.
-/

namespace Gamin.Hurd

open Gamin Gamin.Server Gamin.Inotify Gamin.Library

variable {backend : HurdBackend} {m : Pointer} {monitor : Monitor}

/-- The path is in normal form. -/
def Normal (path : Bytes) : Prop := ∃ names, ValidPath names ∧ path = render names

/-- What holds between the callbacks: the monitors make up a tree in which each has a use, and an idle source is
installed while subscriptions are pending. -/
structure Upheld (backend : HurdBackend) : Prop where
  shaped : Shaped backend
  used : UsedBut backend none
  normal : ∀ sub ∈ backend.newSubs, Normal (backend.subscriptions sub).path
  source : backend.idleSources = if backend.haveConsumeIdler then 1 else 0
  pending : backend.newSubs ≠ [] ∨ backend.removedSubs ≠ [] → backend.haveConsumeIdler = true

theorem HurdBackend.new_upheld (subscriptions : Pointer → GamSubscription) :
    Upheld (HurdBackend.new subscriptions) where
  shaped := {
    named := fun _ _ present => nomatch present
    hashed := fun _ _ => iff_of_false (nomatch ·) fun found => nomatch found.choose_spec.1
    rooted := fun _ _ present => nomatch present
    parents := fun _ _ _ _ present => nomatch present
    children := fun _ _ _ _ _ present => nomatch present
    fresh := fun _ _ => rfl
    served := fun _ _ present => nomatch present }
  used _ _ present := nomatch present
  normal _ member := absurd member List.not_mem_nil
  source := rfl
  pending pending := by simp [HurdBackend.new] at pending

/-! ## Emitting -/

/-- Emitting changes nothing but what has been emitted. -/
theorem monitorEmit_eq (backend : HurdBackend) (monitor : Monitor) (item : Bytes) (event : GaminEventType) :
    monitorEmit backend monitor item event =
      { backend with emitted := (monitorEmit backend monitor item event).emitted } := by
  unfold monitorEmit
  split <;> rfl

theorem emitEntries_eq (backend : HurdBackend) (monitor : Monitor) (entries : List Bytes) :
    ∃ emitted, entries.foldl (fun backend entry => if isDots entry then backend
      else monitorEmit backend monitor entry .exists) backend = { backend with emitted := emitted } := by
  induction entries generalizing backend with
  | nil => exact ⟨_, rfl⟩
  | cons entry entries inductionHypothesis =>
    rw [List.foldl_cons]
    split
    · exact inductionHypothesis backend
    · obtain ⟨emitted, same⟩ := inductionHypothesis (monitorEmit backend monitor entry .exists)
      rw [same, monitorEmit_eq]
      exact ⟨emitted, rfl⟩

theorem emitInitial_eq (backend : HurdBackend) (monitor : Monitor) (entries : List Bytes) :
    ∃ emitted, emitInitial backend monitor entries = { backend with emitted := emitted } := by
  unfold emitInitial
  dsimp only
  obtain ⟨emitted, same⟩ := emitEntries_eq
    (monitorEmit backend monitor monitor.path (if monitor.fd = none then .deleted else .exists)) monitor entries
  rw [same, monitorEmit_eq, monitorEmit_eq backend]
  exact ⟨_, rfl⟩

theorem Shaped.emit (shaped : Shaped backend) (emitted : List Emission) : Shaped { backend with emitted := emitted } :=
  { shaped with }

/-! ## Taking on -/

theorem subsAt_setMonitor (backend : HurdBackend) (m : Pointer) (monitor : Monitor) (other : Pointer) :
    (backend.setMonitor m monitor).subsAt other = if other = m then monitor.subs else backend.subsAt other := by
  simp only [HurdBackend.subsAt, HurdBackend.setMonitor, Function.update_apply]
  split <;> rfl

/-- What a handler comes to: the tree is upheld, and of the lists of subscriptions only this is said. -/
structure Handles (before after : HurdBackend) : Prop where
  shaped : Shaped after
  used : UsedBut after none
  rest : SameRest before after

/-- The subscription is put on the monitor at its path, or it is left out. -/
theorem addHandler_handles (answers : SystemAnswers) (shaped : Shaped backend) (used : UsedBut backend none)
    {sub : Pointer} (normal : Normal (backend.subscriptions sub).path) :
    Handles backend (addHandler answers backend sub) ∧
      ((∀ m, (addHandler answers backend sub).subsAt m = backend.subsAt m) ∨
        ∃ own, (addHandler answers backend sub).pathHash (backend.subscriptions sub).path = some own ∧
          ∀ m, (addHandler answers backend sub).subsAt m =
            if m = own then sub :: backend.subsAt m else backend.subsAt m) := by
  obtain ⟨names, valid, path⟩ := normal
  have unchanged : Handles backend backend := ⟨shaped, used, .refl backend⟩
  obtain ⟨creates, failed⟩ := monitorCreate_creates answers valid shaped used
  unfold addHandler
  rw [path]
  dsimp only
  split
  · exact ⟨unchanged, .inl fun _ => rfl⟩
  · rename_i entries _
    split
    · rename_i front same
      rw [same] at creates failed
      obtain rfl : front = backend := failed rfl
      exact ⟨unchanged, .inl fun _ => rfl⟩
    · rename_i front own same
      rw [same] at creates
      have found := creates.found own rfl
      obtain ⟨monitor, present, here⟩ := creates.shaped.lookup found
      rw [present]
      obtain ⟨emitted, emits⟩ := emitInitial_eq
        (front.setMonitor own { monitor with subs := sub :: monitor.subs }) { monitor with subs := sub :: monitor.subs }
        entries
      dsimp only
      rw [emits]
      -- the new monitors had no use before; the subscription is one
      have shapedAfter : Shaped (front.setMonitor own { monitor with subs := sub :: monitor.subs }) := by
        refine creates.shaped.setMonitor present rfl rfl rfl fun other member => ?_
        cases List.mem_cons.mp member with
        | inl isSub =>
          rw [isSub, creates.rest.subscriptions, path]
          exact here.symm
        | inr old => exact creates.shaped.served own monitor present other old
      refine ⟨⟨shapedAfter.emit emitted, ?_, creates.rest.trans ⟨rfl, rfl, rfl, rfl, rfl⟩⟩, .inr ⟨own, found, ?_⟩⟩
      · intro other stored isStored
        have isStored' : Function.update front.monitors own (some { monitor with subs := sub :: monitor.subs }) other =
            some stored := isStored
        rw [Function.update_apply] at isStored'
        split at isStored'
        · obtain rfl := Option.some.inj isStored'
          exact .inl (List.cons_ne_nil _ _)
        · rename_i notOwn
          obtain subscribed | children | spare := creates.used other stored isStored'
          · exact .inl subscribed
          · exact .inr (.inl children)
          · exact absurd (Option.some.inj spare).symm notOwn
      · intro other
        have touched := subsAt_setMonitor front own { monitor with subs := sub :: monitor.subs } other
        refine touched.trans ?_
        rw [← creates.subs other]
        split
        · rename_i isOwn
          rw [isOwn, subsAt_of present]
        · rfl

theorem length_le_render (names : Path) : names.length ≤ (render names).length := by
  rcases eq_or_ne names [] with rfl | nonempty
  · exact Nat.zero_le _
  · rw [render_of_ne_nil nonempty]
    clear nonempty
    induction names with
    | nil => exact Nat.zero_le _
    | cons name names inductionHypothesis =>
      have cons : joined (name :: names) = slash :: name ++ joined names := rfl
      rw [cons, List.length_append, List.length_cons, List.length_cons]
      omega

/-- A subscription is on no monitor but the one at its path. -/
theorem Shaped.own (shaped : Shaped backend) {sub : Pointer} (member : sub ∈ backend.subsAt m) :
    backend.pathHash (backend.subscriptions sub).path = some m := by
  cases present : backend.monitors m with
  | none =>
    rw [HurdBackend.subsAt, present] at member
    cases member
  | some monitor =>
    rw [subsAt_of present] at member
    exact (shaped.hashed _ m).mpr ⟨monitor, present, (shaped.served m monitor present sub member).symm⟩

/-- The subscription is taken off the monitor, which goes if it has no use then; no assertion fails. -/
theorem removeHandler_handles (shaped : Shaped backend) (used : UsedBut backend none) (sub : Pointer) :
    ∃ after, removeHandler backend sub = some after ∧ Handles backend after ∧ after.emitted = backend.emitted ∧
      ∀ m, after.subsAt m = (backend.subsAt m).filter (· ≠ sub) := by
  have away (notListed : ∀ own, backend.pathHash (backend.subscriptions sub).path = some own →
      sub ∉ backend.subsAt own) (m : Pointer) : backend.subsAt m = (backend.subsAt m).filter (· ≠ sub) := by
    refine (List.filter_eq_self.mpr fun other member => decide_eq_true ?_).symm
    rintro rfl
    exact notListed m (shaped.own member) member
  unfold removeHandler
  dsimp only
  cases found : backend.pathHash (backend.subscriptions sub).path with
  | none =>
    refine ⟨backend, rfl, ⟨shaped, used, .refl backend⟩, rfl, away fun own listed => ?_⟩
    exact nomatch found.symm.trans listed
  | some own =>
    obtain ⟨monitor, present, here⟩ := shaped.lookup found
    obtain ⟨names, valid, path⟩ := shaped.named own monitor present
    dsimp only
    rw [present, Option.bind_some]
    by_cases listed : sub ∈ monitor.subs
    · rw [if_pos listed]
      have shapedFront : Shaped (backend.setMonitor own { monitor with subs := monitor.subs.filter (· ≠ sub) }) :=
        shaped.setMonitor present rfl rfl rfl fun other member =>
          shaped.served own monitor present other (List.mem_filter.mp member).1
      -- only its own monitor may have no use any more
      have usedFront : UsedBut (backend.setMonitor own { monitor with subs := monitor.subs.filter (· ≠ sub) })
          (some own) := by
        intro other stored isStored
        simp only [HurdBackend.setMonitor, Function.update_apply] at isStored
        split at isStored
        · rename_i isOwn
          exact .inr (.inr (congrArg some isOwn.symm))
        · obtain subscribed | children | spare := used other stored isStored
          · exact .inl subscribed
          · exact .inr (.inl children)
          · cases spare
      obtain ⟨after, ran, considers⟩ := monitorConsider_considers shapedFront usedFront valid
        (show backend.pathHash (render names) = some own by rw [← path, here, found])
        (show names.length < (backend.subscriptions sub).path.length + 1 by
          rw [← here, path]
          exact Nat.lt_succ_of_le (length_le_render names))
      refine ⟨after, ran, ⟨considers.shaped, considers.used, ?_⟩, considers.emitted, fun m => ?_⟩
      · have front : SameRest backend
            (backend.setMonitor own { monitor with subs := monitor.subs.filter (· ≠ sub) }) := ⟨rfl, rfl, rfl, rfl, rfl⟩
        exact front.trans considers.rest
      · rw [considers.subs, subsAt_setMonitor]
        split
        · rename_i isOwn
          rw [isOwn, subsAt_of present]
        · rename_i notOwn
          refine (List.filter_eq_self.mpr fun other member => decide_eq_true ?_).symm
          rintro rfl
          exact notOwn (Option.some.inj ((shaped.own member).symm.trans found))
    · rw [if_neg listed]
      refine ⟨backend, rfl, ⟨shaped, used, .refl backend⟩, rfl, away fun other isOther => ?_⟩
      obtain rfl := Option.some.inj (found.symm.trans isOther)
      rwa [subsAt_of present]

/-! ## The idle callback -/

theorem addHandlers_handle (answers : SystemAnswers) (subs : List Pointer) {backend : HurdBackend}
    (shaped : Shaped backend) (used : UsedBut backend none)
    (normal : ∀ sub ∈ subs, Normal (backend.subscriptions sub).path) :
    Handles backend (subs.foldl (addHandler answers) backend) ∧
      ∀ m, ∀ sub ∈ (subs.foldl (addHandler answers) backend).subsAt m, sub ∈ backend.subsAt m ∨ sub ∈ subs := by
  induction subs generalizing backend with
  | nil => exact ⟨⟨shaped, used, .refl backend⟩, fun m sub member => .inl member⟩
  | cons sub subs inductionHypothesis =>
    obtain ⟨handles, attached⟩ := addHandler_handles answers shaped used (normal sub List.mem_cons_self)
    obtain ⟨rest, later⟩ := inductionHypothesis handles.shaped handles.used fun other member => by
      rw [handles.rest.subscriptions]
      exact normal other (List.mem_cons_of_mem _ member)
    rw [List.foldl_cons]
    refine ⟨⟨rest.shaped, rest.used, handles.rest.trans rest.rest⟩, fun m other member => ?_⟩
    cases later m other member with
    | inr pending => exact .inr (List.mem_cons_of_mem _ pending)
    | inl before =>
      obtain same | ⟨own, -, same⟩ := attached
      · exact .inl (same m ▸ before)
      · rw [same] at before
        split at before
        · cases List.mem_cons.mp before with
          | inl isSub => exact .inr (isSub ▸ List.mem_cons_self)
          | inr old => exact .inl old
        · exact .inl before

theorem removeHandlers_handle (subs : List Pointer) {backend : HurdBackend} (shaped : Shaped backend)
    (used : UsedBut backend none) :
    ∃ after, subs.foldlM removeHandler backend = some after ∧ Handles backend after ∧
      after.emitted = backend.emitted ∧ ∀ m, after.subsAt m = (backend.subsAt m).filter (· ∉ subs) := by
  induction subs generalizing backend with
  | nil => exact ⟨backend, rfl, ⟨shaped, used, .refl backend⟩, rfl, fun m => by simp⟩
  | cons sub subs inductionHypothesis =>
    obtain ⟨front, removed, handles, emitted, attached⟩ := removeHandler_handles shaped used sub
    obtain ⟨after, ran, rest, emittedLater, later⟩ := inductionHypothesis handles.shaped handles.used
    refine ⟨after, ?_, ⟨rest.shaped, rest.used, handles.rest.trans rest.rest⟩, emittedLater.trans emitted, fun m => ?_⟩
    · rw [List.foldlM_cons, removed]
      exact ran
    · rw [later, attached, List.filter_filter]
      refine List.filter_congr fun other _ => ?_
      simp only [List.mem_cons, not_or, Bool.decide_and, Bool.and_comm]

/-- The idle callback takes on what is pending; no assertion fails. -/
theorem consume_upheld (answers : SystemAnswers) (upheld : Upheld backend) :
    ∃ after, consumeSubscriptionsReal answers backend = some after ∧ Upheld after ∧
      after.subscriptions = backend.subscriptions ∧ after.newSubs = [] ∧ after.removedSubs = [] ∧
      ∀ m, ∀ sub ∈ after.subsAt m,
        (sub ∈ backend.subsAt m ∨ sub ∈ backend.newSubs) ∧ sub ∉ backend.removedSubs := by
  have front : Shaped { backend with newSubs := [] } := { upheld.shaped with }
  obtain ⟨added, attached⟩ := addHandlers_handle answers backend.newSubs front upheld.used upheld.normal
  have middle : Shaped { backend.newSubs.foldl (addHandler answers) { backend with newSubs := [] } with
      removedSubs := [] } := { added.shaped with }
  obtain ⟨last, ran, removed, -, left⟩ := removeHandlers_handle
    (backend.newSubs.foldl (addHandler answers) { backend with newSubs := [] }).removedSubs middle added.used
  -- the additions go first and leave the removals as they were
  have pending : (backend.newSubs.foldl (addHandler answers) { backend with newSubs := [] }).removedSubs =
      backend.removedSubs := added.rest.removedSubs
  have noneNew : last.newSubs = [] := removed.rest.newSubs.trans added.rest.newSubs
  have noneRemoved : last.removedSubs = [] := removed.rest.removedSubs
  have sources : last.idleSources = backend.idleSources := removed.rest.idleSources.trans added.rest.idleSources
  refine ⟨{ last with haveConsumeIdler := false, idleSources := last.idleSources - 1 }, ?_, ?_,
    removed.rest.subscriptions.trans added.rest.subscriptions, noneNew, noneRemoved, ?_⟩
  · exact congrArg (Option.map fun after : HurdBackend =>
      { after with haveConsumeIdler := false, idleSources := after.idleSources - 1 }) ran
  · exact {
      shaped := { removed.shaped with }
      used := removed.used
      normal := fun sub member => absurd member (noneNew ▸ List.not_mem_nil)
      source := by
        have source := upheld.source
        simp only [sources, Bool.false_eq_true, if_false]
        split at source <;> omega
      pending := fun either => absurd either (by simp [noneNew, noneRemoved]) }
  · intro m sub member
    have kept : sub ∈ last.subsAt m := member
    rw [left, pending] at kept
    obtain ⟨before, notRemoved⟩ := List.mem_filter.mp kept
    exact ⟨attached m sub before, of_decide_eq_true notRemoved⟩

/-! ## One step -/

theorem Upheld.emit (upheld : Upheld backend) (monitor : Monitor) (item : Bytes) (event : GaminEventType) :
    Upheld (monitorEmit backend monitor item event) := by
  rw [monitorEmit_eq]
  exact { upheld with shaped := upheld.shaped.emit _ }

/-- Only the descriptor of a monitor changes. -/
theorem Upheld.setFd (upheld : Upheld backend) (present : backend.monitors m = some monitor) (fd : Option Nat) :
    Upheld (backend.setMonitor m { monitor with fd := fd }) := by
  refine { upheld with shaped := ?_, used := ?_ }
  · exact upheld.shaped.setMonitor present rfl rfl rfl (upheld.shaped.served m monitor present)
  · intro other stored isStored
    simp only [HurdBackend.setMonitor, Function.update_apply] at isStored
    split at isStored
    · obtain rfl := Option.some.inj isStored
      obtain subscribed | children | spare := upheld.used m monitor present
      · exact .inl subscribed
      · exact .inr (.inl children)
      · cases spare
    · exact upheld.used other stored isStored

theorem Upheld.consume (upheld : Upheld { backend with haveConsumeIdler := true, idleSources := 1 })
    (source : backend.idleSources = if backend.haveConsumeIdler then 1 else 0) :
    Upheld (consumeSubscriptions backend) := by
  unfold consumeSubscriptions
  split
  · rename_i installed
    rw [if_pos installed] at source
    exact {
      shaped := { upheld.shaped with }
      used := upheld.used
      normal := upheld.normal
      source := by rw [source, if_pos installed]
      pending := fun _ => installed }
  · rename_i notInstalled
    rw [if_neg notInstalled] at source
    exact {
      shaped := { upheld.shaped with }
      used := upheld.used
      normal := upheld.normal
      source := by simp [source]
      pending := fun _ => rfl }

theorem Upheld.add (upheld : Upheld backend) {sub : Pointer} (normal : Normal (backend.subscriptions sub).path) :
    Upheld (gamHurdNotifyAddSubscription backend sub) := by
  refine Upheld.consume ?_ upheld.source
  exact {
    shaped := { upheld.shaped with }
    used := upheld.used
    normal := fun other member => (List.mem_cons.mp member).elim (fun same => same ▸ normal) (upheld.normal other)
    source := rfl
    pending := fun _ => rfl }

theorem cancelled_path (backend : HurdBackend) (sub other : Pointer) :
    (Function.update backend.subscriptions sub { backend.subscriptions sub with cancelled := true } other).path =
      (backend.subscriptions other).path := by
  rw [Function.update_apply]
  split
  · rename_i same
    rw [same]
  · rfl

theorem Upheld.remove (upheld : Upheld backend) (sub : Pointer) :
    Upheld (gamHurdNotifyRemoveSubscription backend sub) := by
  unfold gamHurdNotifyRemoveSubscription
  split
  · rename_i member
    exact { upheld with
      shaped := { upheld.shaped with }
      normal := fun other member => upheld.normal other (List.mem_filter.mp member).1
      pending := fun _ => upheld.pending (.inl (List.ne_nil_of_mem member)) }
  · refine Upheld.consume ?_ upheld.source
    exact {
      shaped := { upheld.shaped with
        served := fun m monitor present other member =>
          (cancelled_path backend sub other).trans (upheld.shaped.served m monitor present other member) }
      used := upheld.used
      normal := fun other member => by
        rw [cancelled_path]
        exact upheld.normal other member
      source := rfl
      pending := fun _ => rfl }

theorem remove_path (backend : HurdBackend) (sub other : Pointer) :
    ((gamHurdNotifyRemoveSubscription backend sub).subscriptions other).path = (backend.subscriptions other).path := by
  unfold gamHurdNotifyRemoveSubscription consumeSubscriptions
  split
  · rfl
  · split <;> exact cancelled_path backend sub other

theorem Upheld.removeAll (upheld : Upheld backend) (subs : List Pointer) :
    Upheld (gamHurdNotifyRemoveAllFor backend subs) ∧
      ∀ other, ((gamHurdNotifyRemoveAllFor backend subs).subscriptions other).path =
        (backend.subscriptions other).path := by
  unfold gamHurdNotifyRemoveAllFor
  induction subs generalizing backend with
  | nil => exact ⟨upheld, fun _ => rfl⟩
  | cons sub subs inductionHypothesis =>
    obtain ⟨after, paths⟩ := inductionHypothesis (upheld.remove sub)
    exact ⟨after, fun other => (paths other).trans (remove_path backend sub other)⟩

/-- A file system tells of a new entry whose monitor has a descriptor already. -/
def HurdBackend.WatchedAlready (backend : HurdBackend) : HurdStep → Prop
  | .dirChanged port .new name _ => ∃ m child monitor, backend.monitors port = some m ∧
    m.children.lookup name = some child ∧ backend.monitors child = some monitor ∧ monitor.fd ≠ none
  | _ => False

theorem monitorEmit_tables (backend : HurdBackend) (monitor : Monitor) (item : Bytes) (event : GaminEventType) :
    (monitorEmit backend monitor item event).monitors = backend.monitors ∧
      (monitorEmit backend monitor item event).subscriptions = backend.subscriptions := by
  rw [monitorEmit_eq]
  exact ⟨rfl, rfl⟩

theorem Upheld.dirChanged (upheld : Upheld backend) (port : Pointer) (change : DirChanged) (name : Bytes)
    (answer : WatchAnswer) :
    (Gamin.Hurd.dirChanged backend port change name answer = none ∧
        backend.WatchedAlready (.dirChanged port change name answer)) ∨
      ¬ backend.WatchedAlready (.dirChanged port change name answer) ∧
        ∃ after, Gamin.Hurd.dirChanged backend port change name answer = some after ∧ Upheld after ∧
          after.subscriptions = backend.subscriptions := by
  unfold Gamin.Hurd.dirChanged
  cases present : backend.monitors port with
  | none =>
    refine .inr ⟨?_, backend, rfl, upheld, rfl⟩
    cases change with
    | new =>
      rintro ⟨m, _, _, isM, _⟩
      exact nomatch present.symm.trans isM
    | null | unlink | renumber | other => exact id
  | some m =>
    dsimp only
    cases change with
    | null | other => exact .inr ⟨id, backend, rfl, upheld, rfl⟩
    | renumber => exact .inr ⟨id, _, rfl, upheld.emit .., (monitorEmit_tables ..).2⟩
    | unlink =>
      refine .inr ⟨id, ?_⟩
      dsimp only
      split
      · exact ⟨backend, rfl, upheld, rfl⟩
      · have emitted := upheld.emit m name .deleted
        obtain ⟨same, subscriptions⟩ := monitorEmit_tables backend m name .deleted
        split
        · exact ⟨_, rfl, emitted, subscriptions⟩
        · rename_i child monitor found
          obtain ⟨child', -, found⟩ := Option.bind_eq_some_iff.mp found
          obtain ⟨monitor', isMonitor, same'⟩ := Option.map_eq_some_iff.mp found
          cases same'
          refine ⟨_, rfl, (emitted.setFd (same ▸ isMonitor) none).emit .., ?_⟩
          exact (monitorEmit_tables ..).2.trans subscriptions
    | new =>
      -- the assertion is on the child that is watched again, so it decides
      have emitted := upheld.emit m name .created
      obtain ⟨same, subscriptions⟩ := monitorEmit_tables backend m name .created
      dsimp only
      cases found : (m.children.lookup name).bind fun child =>
          (backend.monitors child).map fun monitor => (child, monitor) with
      | none =>
        refine .inr ⟨?_, _, rfl, emitted, subscriptions⟩
        rintro ⟨m', child, monitor, isM, listed, isMonitor, -⟩
        obtain rfl := Option.some.inj (present.symm.trans isM)
        simp [listed, isMonitor] at found
      | some entry =>
        obtain ⟨child, listed, found⟩ := Option.bind_eq_some_iff.mp found
        obtain ⟨monitor, isMonitor, rfl⟩ := Option.map_eq_some_iff.mp found
        dsimp only
        unfold HurdBackend.watchAgain
        by_cases closed : monitor.fd = none
        · right
          refine ⟨?_, ?_⟩
          · rintro ⟨m', child', monitor', isM, listed', isMonitor', opened⟩
            obtain rfl := Option.some.inj (present.symm.trans isM)
            obtain rfl := Option.some.inj (listed.symm.trans listed')
            obtain rfl := Option.some.inj (isMonitor.symm.trans isMonitor')
            exact opened closed
          · have watched := emitted.setFd (same ▸ isMonitor) (monitorWatch answer).1
            rw [if_pos closed, Option.map_some]
            refine ⟨_, rfl, ?_, ?_⟩
            · split
              · exact watched.emit ..
              · exact watched
            · split
              · exact (monitorEmit_tables ..).2.trans subscriptions
              · exact subscriptions
        · left
          rw [if_neg closed]
          exact ⟨rfl, m, child, monitor, present, listed, isMonitor, closed⟩

theorem Upheld.fileChanged (upheld : Upheld backend) (port : Pointer) (change : FileChanged) :
    Upheld (Gamin.Hurd.fileChanged backend port change) ∧
      (Gamin.Hurd.fileChanged backend port change).subscriptions = backend.subscriptions := by
  unfold Gamin.Hurd.fileChanged
  cases backend.monitors port with
  | none => exact ⟨upheld, rfl⟩
  | some m =>
    cases change with
    | write | extend | truncate | metadata => exact ⟨upheld.emit .., (monitorEmit_tables ..).2⟩
    | null | other => exact ⟨upheld, rfl⟩

/-- A step returns and keeps all of this, but for one in which an assertion of `monitor_watch` fails. -/
theorem Upheld.step (upheld : Upheld backend) {step : HurdStep}
    (normal : ∀ sub, step = .add sub → Normal (backend.subscriptions sub).path) :
    (backend.step step = none ∧ backend.WatchedAlready step) ∨
      ¬ backend.WatchedAlready step ∧ ∃ after, backend.step step = some after ∧ Upheld after ∧
        ∀ sub, (after.subscriptions sub).path = (backend.subscriptions sub).path := by
  cases step with
  | add sub =>
    refine .inr ⟨id, _, rfl, upheld.add (normal sub rfl), fun other => ?_⟩
    unfold gamHurdNotifyAddSubscription consumeSubscriptions
    split <;> rfl
  | remove sub => exact .inr ⟨id, _, rfl, upheld.remove sub, remove_path backend sub⟩
  | removeAll subs =>
    obtain ⟨after, paths⟩ := upheld.removeAll subs
    exact .inr ⟨id, _, rfl, after, paths⟩
  | idle answers =>
    refine .inr ⟨id, ?_⟩
    by_cases none : backend.idleSources = 0
    · exact ⟨backend, if_pos none, upheld, fun _ => rfl⟩
    · obtain ⟨after, consumed, upheldAfter, same, -⟩ := consume_upheld answers upheld
      exact ⟨after, (if_neg none).trans consumed, upheldAfter, fun sub => by rw [same]⟩
  | dirChanged port change name answer =>
    obtain failed | ⟨fine, after, stepped, upheldAfter, same⟩ := upheld.dirChanged port change name answer
    · exact .inl failed
    · exact .inr ⟨fine, after, stepped, upheldAfter, fun sub => by rw [same]⟩
  | fileChanged port change =>
    obtain ⟨after, same⟩ := upheld.fileChanged port change
    exact .inr ⟨id, _, rfl, after, fun sub => by rw [same]⟩

/-! ## Runs -/

theorem Upheld.next (upheld : Upheld backend) {step : HurdStep} {after : HurdBackend}
    (normal : ∀ sub, step = .add sub → Normal (backend.subscriptions sub).path)
    (stepped : backend.step step = some after) :
    Upheld after ∧ ∀ sub, (after.subscriptions sub).path = (backend.subscriptions sub).path := by
  obtain ⟨failed, -⟩ | ⟨-, after', stepped', upheldAfter, paths⟩ := upheld.step normal
  · exact nomatch stepped.symm.trans failed
  · obtain rfl := Option.some.inj (stepped.symm.trans stepped')
    exact ⟨upheldAfter, paths⟩

theorem Upheld.run {steps : List HurdStep} {backend last : HurdBackend} (upheld : Upheld backend)
    (normal : ∀ sub, .add sub ∈ steps → Normal (backend.subscriptions sub).path)
    (ran : steps.foldlM HurdBackend.step backend = some last) :
    Upheld last ∧ ∀ sub, (last.subscriptions sub).path = (backend.subscriptions sub).path := by
  induction steps generalizing backend with
  | nil =>
    cases ran
    exact ⟨upheld, fun _ => rfl⟩
  | cons step steps inductionHypothesis =>
    rw [List.foldlM_cons] at ran
    obtain ⟨next, stepped, later⟩ := Option.bind_eq_some_iff.mp ran
    obtain ⟨upheldNext, paths⟩ := upheld.next (fun sub same => normal sub (same ▸ List.mem_cons_self)) stepped
    obtain ⟨upheldLast, pathsLast⟩ := inductionHypothesis upheldNext
      (fun sub member => by
        rw [paths]
        exact normal sub (List.mem_cons_of_mem _ member)) later
    exact ⟨upheldLast, fun sub => (pathsLast sub).trans (paths sub)⟩

end Gamin.Hurd
