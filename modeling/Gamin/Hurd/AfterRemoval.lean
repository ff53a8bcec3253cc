import Gamin.Hurd.Exactness

/-! # Removed subscriptions of the Hurd backend

A removal only takes a subscription off its monitor in the next idle callback.  No event is emitted for it all the same,
neither until then nor later.
-/

namespace Gamin.Hurd

open Gamin Gamin.Server Gamin.Inotify Gamin.Library

variable {backend : HurdBackend} {m : Pointer} {monitor : Monitor}

/-! ## Silence -/

/-- Nothing is emitted for the subscription. -/
def Quiet (backend : HurdBackend) (sub : Pointer) : Prop :=
  (backend.subscriptions sub).cancelled = true ∨ ∀ m, sub ∉ backend.subsAt m

/-- Nothing is emitted for it, nor will be by the idle callback. -/
def Silent (backend : HurdBackend) (sub : Pointer) : Prop :=
  (backend.subscriptions sub).cancelled = true ∨ sub ∉ backend.newSubs ∧ ∀ m, sub ∉ backend.subsAt m

/-- Every subscription has its own address. -/
def Addressed (backend : HurdBackend) : Prop := ∀ sub, (backend.subscriptions sub).address = sub

/-- What a step emits is not for this subscription. -/
def EmitsWithout (before after : HurdBackend) (sub : Pointer) : Prop :=
  ∃ more, after.emitted = before.emitted ++ more ∧ ∀ emission ∈ more, emission.sub.address ≠ sub

theorem EmitsWithout.refl (backend : HurdBackend) (sub : Pointer) : EmitsWithout backend backend sub :=
  ⟨[], (List.append_nil _).symm, fun _ member => absurd member List.not_mem_nil⟩

theorem EmitsWithout.trans {first second third : HurdBackend} {sub : Pointer} (front : EmitsWithout first second sub)
    (back : EmitsWithout second third sub) : EmitsWithout first third sub := by
  obtain ⟨more, emitted, others⟩ := front
  obtain ⟨later, emittedLater, othersLater⟩ := back
  refine ⟨more ++ later, by rw [emittedLater, emitted, List.append_assoc], fun emission member => ?_⟩
  exact (List.mem_append.mp member).elim (others emission) (othersLater emission)

theorem monitorEmit_without (addressed : Addressed backend) {sub : Pointer}
    (quiet : (backend.subscriptions sub).cancelled = true ∨ sub ∉ monitor.subs) (item : Bytes)
    (event : GaminEventType) : EmitsWithout backend (monitorEmit backend monitor item event) sub := by
  unfold monitorEmit
  split
  · exact .refl backend sub
  · refine ⟨_, rfl, fun emission member => ?_⟩
    obtain ⟨stored, isStored, emits⟩ := List.mem_flatMap.mp member
    obtain ⟨other, listed, rfl⟩ := List.mem_map.mp isStored
    obtain ⟨wants, rfl⟩ := mem_gamServerEmitOneEvent.mp emits
    rw [addressed]
    rintro rfl
    cases quiet with
    | inl cancelled => simp [gamSubscriptionWantsEvent, cancelled] at wants
    | inr absent => exact absent listed

theorem emitInitial_without (addressed : Addressed backend) {sub : Pointer}
    (quiet : (backend.subscriptions sub).cancelled = true ∨ sub ∉ monitor.subs) (entries : List Bytes) :
    EmitsWithout backend (emitInitial backend monitor entries) sub := by
  have each (entries : List Bytes) (backend : HurdBackend) (addressed : Addressed backend)
      (quiet : (backend.subscriptions sub).cancelled = true ∨ sub ∉ monitor.subs) :
      EmitsWithout backend (entries.foldl (fun backend entry => if isDots entry then backend
        else monitorEmit backend monitor entry .exists) backend) sub := by
    induction entries generalizing backend with
    | nil => exact .refl backend sub
    | cons entry entries inductionHypothesis =>
      rw [List.foldl_cons]
      split
      · exact inductionHypothesis backend addressed quiet
      · have same := (monitorEmit_tables backend monitor entry .exists).2
        refine (monitorEmit_without addressed quiet entry .exists).trans (inductionHypothesis _ ?_ ?_)
        · intro other
          rw [same]
          exact addressed other
        · rwa [same]
  -- the events before and after those of the listing are about the monitor itself
  unfold emitInitial
  dsimp only
  have first := (monitorEmit_tables backend monitor monitor.path
    (if monitor.fd = none then .deleted else .exists)).2
  refine (monitorEmit_without addressed quiet monitor.path (if monitor.fd = none then .deleted else .exists)).trans ?_
  have addressedFirst : Addressed (monitorEmit backend monitor monitor.path
      (if monitor.fd = none then .deleted else .exists)) := fun other => by
    rw [first]
    exact addressed other
  rw [← first] at quiet
  refine (each entries _ addressedFirst quiet).trans ?_
  obtain ⟨emitted, same⟩ := emitEntries_eq
    (monitorEmit backend monitor monitor.path (if monitor.fd = none then .deleted else .exists)) monitor entries
  rw [same]
  refine monitorEmit_without ?_ ?_ monitor.path .endexists
  · exact addressedFirst
  · exact quiet

theorem Addressed.same {after : HurdBackend} (addressed : Addressed backend)
    (same : after.subscriptions = backend.subscriptions) : Addressed after := fun sub => by
  rw [same]
  exact addressed sub

/-- Another subscription is taken on, or a cancelled one. -/
theorem addHandler_without (answers : SystemAnswers) (shaped : Shaped backend) (used : UsedBut backend none)
    (addressed : Addressed backend) {sub other : Pointer} (normal : Normal (backend.subscriptions other).path)
    (quiet : Quiet backend sub) (apart : (backend.subscriptions sub).cancelled = true ∨ sub ≠ other) :
    EmitsWithout backend (addHandler answers backend other) sub := by
  obtain ⟨names, valid, path⟩ := normal
  obtain ⟨creates, failed⟩ := monitorCreate_creates answers valid shaped used
  unfold addHandler
  rw [path]
  dsimp only
  split
  · exact .refl backend sub
  · rename_i entries _
    split
    · rename_i front same
      rw [same] at failed
      obtain rfl : front = backend := failed rfl
      exact .refl front sub
    · rename_i front own same
      rw [same] at creates
      obtain ⟨monitor, present, here⟩ := creates.shaped.lookup (creates.found own rfl)
      rw [present]
      have sameSubs : front.subscriptions = backend.subscriptions := creates.rest.subscriptions
      -- what is told of the monitor goes to its subscriptions, and this one is not among them
      have absent : (backend.subscriptions sub).cancelled = true ∨ sub ∉ other :: monitor.subs := by
        refine quiet.elim .inl fun nowhere => apart.imp_right fun different member => ?_
        cases List.mem_cons.mp member with
        | inl isOther => exact different isOther
        | inr old => exact nowhere own (creates.subs own ▸ subsAt_of present ▸ old)
      have emits := @emitInitial_without (front.setMonitor own { monitor with subs := other :: monitor.subs })
        { monitor with subs := other :: monitor.subs } (addressed.same sameSubs) sub (sameSubs ▸ absent) entries
      have start : EmitsWithout backend (front.setMonitor own { monitor with subs := other :: monitor.subs }) sub :=
        ⟨[], (List.append_nil _).symm ▸ creates.emitted, fun _ member => absurd member List.not_mem_nil⟩
      exact start.trans emits

theorem addHandler_quiet (answers : SystemAnswers) (shaped : Shaped backend) (used : UsedBut backend none)
    {sub other : Pointer} (normal : Normal (backend.subscriptions other).path) (quiet : Quiet backend sub)
    (apart : (backend.subscriptions sub).cancelled = true ∨ sub ≠ other) :
    Quiet (addHandler answers backend other) sub := by
  obtain ⟨handles, attached⟩ := addHandler_handles answers shaped used normal
  have same : (addHandler answers backend other).subscriptions = backend.subscriptions := handles.rest.subscriptions
  rw [Quiet, same]
  refine quiet.elim .inl fun nowhere => apart.imp_right fun different m member => ?_
  obtain unchanged | ⟨own, -, onOne⟩ := attached
  · exact nowhere m (unchanged m ▸ member)
  · rw [onOne] at member
    split at member
    · exact (List.mem_cons.mp member).elim different (nowhere m)
    · exact nowhere m member

theorem addHandlers_without (answers : SystemAnswers) {sub : Pointer} (subs : List Pointer) {backend : HurdBackend}
    (shaped : Shaped backend) (used : UsedBut backend none) (addressed : Addressed backend)
    (normal : ∀ other ∈ subs, Normal (backend.subscriptions other).path) (quiet : Quiet backend sub)
    (apart : (backend.subscriptions sub).cancelled = true ∨ sub ∉ subs) :
    EmitsWithout backend (subs.foldl (addHandler answers) backend) sub := by
  induction subs generalizing backend with
  | nil => exact .refl backend sub
  | cons other subs inductionHypothesis =>
    have normalFirst := normal other List.mem_cons_self
    have apartFirst : (backend.subscriptions sub).cancelled = true ∨ sub ≠ other :=
      apart.imp_right fun absent same => absent (same ▸ List.mem_cons_self)
    obtain ⟨handles, -⟩ := addHandler_handles answers shaped used normalFirst
    have same : (addHandler answers backend other).subscriptions = backend.subscriptions := handles.rest.subscriptions
    rw [List.foldl_cons]
    refine (addHandler_without answers shaped used addressed normalFirst quiet apartFirst).trans
      (inductionHypothesis handles.shaped handles.used (addressed.same same) ?_
        (addHandler_quiet answers shaped used normalFirst quiet apartFirst) ?_)
    · intro later member
      rw [same]
      exact normal later (List.mem_cons_of_mem _ member)
    · rw [same]
      exact apart.imp_right fun absent member => absent (List.mem_cons_of_mem _ member)

theorem Silent.quiet {sub : Pointer} (silent : Silent backend sub) : Quiet backend sub := silent.imp_right And.right

/-- The idle callback emits nothing for it. -/
theorem consume_without (answers : SystemAnswers) (upheld : Upheld backend) (addressed : Addressed backend)
    {sub : Pointer} (silent : Silent backend sub) {after : HurdBackend}
    (consumed : consumeSubscriptionsReal answers backend = some after) :
    Silent after sub ∧ EmitsWithout backend after sub := by
  obtain ⟨after', consumed', -, same, noneNew, -, attached⟩ := consume_upheld answers upheld
  obtain rfl := Option.some.inj (consumed.symm.trans consumed')
  refine ⟨?_, ?_⟩
  · rw [Silent, same, noneNew]
    refine silent.imp_right fun absent => ⟨List.not_mem_nil, fun m member => ?_⟩
    exact (attached m sub member).1.elim (absent.2 m) absent.1
  · have front : Shaped { backend with newSubs := [] } := { upheld.shaped with }
    obtain ⟨added, -⟩ := addHandlers_handle answers backend.newSubs front upheld.used upheld.normal
    have without := @addHandlers_without answers sub backend.newSubs { backend with newSubs := [] } front upheld.used
      addressed upheld.normal silent.quiet (silent.imp_right And.left)
    have middle : Shaped { backend.newSubs.foldl (addHandler answers) { backend with newSubs := [] } with
        removedSubs := [] } := { added.shaped with }
    obtain ⟨last, ran, -, emitted, -⟩ := removeHandlers_handle
      (backend.newSubs.foldl (addHandler answers) { backend with newSubs := [] }).removedSubs middle added.used
    have ends : consumeSubscriptionsReal answers backend =
        some { last with haveConsumeIdler := false, idleSources := last.idleSources - 1 } := by
      exact congrArg (Option.map fun taken : HurdBackend =>
        { taken with haveConsumeIdler := false, idleSources := taken.idleSources - 1 }) ran
    obtain rfl := Option.some.inj (ends.symm.trans consumed)
    obtain ⟨more, isMore, others⟩ := without
    exact ⟨more, emitted.trans isMore, others⟩

theorem Silent.same {after : HurdBackend} {sub : Pointer} (silent : Silent backend sub)
    (subscriptions : after.subscriptions = backend.subscriptions) (newSubs : after.newSubs = backend.newSubs)
    (subs : ∀ m, after.subsAt m = backend.subsAt m) : Silent after sub := by
  rw [Silent, subscriptions, newSubs]
  refine silent.imp_right fun absent => ⟨absent.1, fun m => ?_⟩
  rw [subs]
  exact absent.2 m

/-! ## Notifications -/

/-- Monitors emit, and their descriptors change. -/
inductive Told (backend : HurdBackend) : HurdBackend → Prop where
  | refl : Told backend backend
  | emit {after : HurdBackend} {m : Pointer} {monitor : Monitor} (told : Told backend after)
      (subs : after.subsAt m = monitor.subs) (item : Bytes) (event : GaminEventType) :
      Told backend (monitorEmit after monitor item event)
  | setFd {after : HurdBackend} {m : Pointer} {monitor : Monitor} (told : Told backend after)
      (present : after.monitors m = some monitor) (fd : Option Nat) :
      Told backend (after.setMonitor m { monitor with fd := fd })

theorem dirChanged_told {port : Pointer} {change : DirChanged} {name : Bytes} {answer : WatchAnswer}
    {after : HurdBackend} (stepped : dirChanged backend port change name answer = some after) : Told backend after := by
  unfold dirChanged at stepped
  cases present : backend.monitors port with
  | none =>
    rw [present] at stepped
    cases stepped
    exact .refl
  | some m =>
    rw [present] at stepped
    dsimp only at stepped
    cases change with
    | null | other =>
      cases stepped
      exact .refl
    | renumber =>
      cases stepped
      exact Told.refl.emit (subsAt_of present) ..
    | unlink =>
      dsimp only at stepped
      split at stepped
      · cases stepped
        exact .refl
      · -- a child of the monitor gives its descriptor up and tells its own subscriptions
        have emitted : Told backend (monitorEmit backend m name .deleted) := Told.refl.emit (subsAt_of present) ..
        have same := (monitorEmit_tables backend m name .deleted).1
        split at stepped
        · cases stepped
          exact emitted
        · rename_i child monitor found
          obtain ⟨child', -, found⟩ := Option.bind_eq_some_iff.mp found
          obtain ⟨monitor', isMonitor, same'⟩ := Option.map_eq_some_iff.mp found
          cases same'
          cases stepped
          refine (emitted.setFd (same ▸ isMonitor) none).emit (m := child) ?_ ..
          rw [subsAt_setMonitor, if_pos rfl]
    | new =>
      have emitted : Told backend (monitorEmit backend m name .created) := Told.refl.emit (subsAt_of present) ..
      have same := (monitorEmit_tables backend m name .created).1
      dsimp only at stepped
      split at stepped
      · cases stepped
        exact emitted
      · rename_i child monitor found
        obtain ⟨child', -, found⟩ := Option.bind_eq_some_iff.mp found
        obtain ⟨monitor', isMonitor, same'⟩ := Option.map_eq_some_iff.mp found
        cases same'
        obtain ⟨⟨watched, err⟩, isWatched, ends⟩ := Option.map_eq_some_iff.mp stepped
        -- a monitor for the entry is there already and is opened again
        unfold HurdBackend.watchAgain at isWatched
        split at isWatched
        · cases isWatched
          have changed := emitted.setFd (same ▸ isMonitor) (monitorWatch answer).1
          dsimp only at ends
          split at ends
          · cases ends
            refine changed.emit (m := child) ?_ ..
            rw [subsAt_setMonitor, if_pos rfl]
          · cases ends
            exact changed
        · cases isWatched

theorem fileChanged_told (backend : HurdBackend) (port : Pointer) (change : FileChanged) :
    Told backend (fileChanged backend port change) := by
  unfold fileChanged
  cases present : backend.monitors port with
  | none => exact .refl
  | some m =>
    cases change with
    | null | other => exact .refl
    | write | extend | truncate | metadata => exact Told.refl.emit (subsAt_of present) ..

theorem Told.same {after : HurdBackend} (told : Told backend after) :
    after.newSubs = backend.newSubs ∧ after.subscriptions = backend.subscriptions ∧
      ∀ m, after.subsAt m = backend.subsAt m := by
  induction told with
  | refl => exact ⟨rfl, rfl, fun _ => rfl⟩
  | emit _ _ item event inductionHypothesis =>
    rw [monitorEmit_eq]
    exact inductionHypothesis
  | @setFd after m monitor _ present fd inductionHypothesis =>
    obtain ⟨newSubs, subscriptions, subs⟩ := inductionHypothesis
    refine ⟨newSubs, subscriptions, fun other => ?_⟩
    rw [subsAt_setMonitor, ← subs]
    split
    · rename_i isMonitor
      rw [isMonitor, subsAt_of present]
    · rfl

theorem Told.without {after : HurdBackend} (told : Told backend after) (addressed : Addressed backend) {sub : Pointer}
    (silent : Silent backend sub) : EmitsWithout backend after sub := by
  induction told with
  | refl => exact .refl backend sub
  | @emit after m monitor told subs item event inductionHypothesis =>
    obtain ⟨-, subscriptions, sameSubs⟩ := told.same
    refine inductionHypothesis.trans (monitorEmit_without (addressed.same subscriptions) ?_ item event)
    rw [subscriptions, ← subs, sameSubs]
    exact silent.quiet.imp_right fun nowhere => nowhere m
  | setFd _ _ _ inductionHypothesis => exact inductionHypothesis

theorem Told.silent {after : HurdBackend} (told : Told backend after) {sub : Pointer} (silent : Silent backend sub) :
    Silent after sub :=
  silent.same told.same.2.1 told.same.1 told.same.2.2

/-! ## Removing -/

/-- What a removal leaves as it is. -/
structure Retains (before after : HurdBackend) : Prop where
  newSubs : ∀ sub ∈ after.newSubs, sub ∈ before.newSubs
  subs : ∀ m, after.subsAt m = before.subsAt m
  emitted : after.emitted = before.emitted
  address : ∀ sub, (after.subscriptions sub).address = (before.subscriptions sub).address
  cancelled : ∀ sub, (before.subscriptions sub).cancelled = true → (after.subscriptions sub).cancelled = true

theorem Retains.refl (backend : HurdBackend) : Retains backend backend where
  newSubs _ member := member
  subs _ := rfl
  emitted := rfl
  address _ := rfl
  cancelled _ cancelled := cancelled

theorem Retains.trans {first second third : HurdBackend} (front : Retains first second) (back : Retains second third) :
    Retains first third where
  newSubs sub member := front.newSubs sub (back.newSubs sub member)
  subs m := (back.subs m).trans (front.subs m)
  emitted := back.emitted.trans front.emitted
  address sub := (back.address sub).trans (front.address sub)
  cancelled sub cancelled := back.cancelled sub (front.cancelled sub cancelled)

theorem consumeSubscriptions_retains (backend : HurdBackend) : Retains backend (consumeSubscriptions backend) := by
  unfold consumeSubscriptions
  split <;> exact { Retains.refl backend with }

theorem removeSubscription_retains (backend : HurdBackend) (sub : Pointer) :
    Retains backend (gamHurdNotifyRemoveSubscription backend sub) := by
  unfold gamHurdNotifyRemoveSubscription
  split
  · exact { Retains.refl backend with newSubs := fun other member => (List.mem_filter.mp member).1 }
  · refine Retains.trans ?_ (consumeSubscriptions_retains _)
    refine { Retains.refl backend with address := fun other => ?_, cancelled := fun other cancelled => ?_ }
    · simp only [Function.update_apply]
      split
      · rename_i same
        rw [same]
      · rfl
    · simp only [Function.update_apply]
      split
      · rfl
      · exact cancelled

theorem removeAllFor_retains (backend : HurdBackend) (subs : List Pointer) :
    Retains backend (gamHurdNotifyRemoveAllFor backend subs) := by
  unfold gamHurdNotifyRemoveAllFor
  induction subs generalizing backend with
  | nil => exact .refl backend
  | cons sub subs inductionHypothesis =>
    exact (removeSubscription_retains backend sub).trans (inductionHypothesis _)

theorem Retains.silent {after : HurdBackend} (retains : Retains backend after) {sub : Pointer}
    (silent : Silent backend sub) : Silent after sub := by
  refine silent.imp (retains.cancelled sub) fun absent => ⟨fun member => absent.1 (retains.newSubs sub member), ?_⟩
  intro m
  rw [retains.subs]
  exact absent.2 m

theorem Retains.emitsWithout {after : HurdBackend} (retains : Retains backend after) (sub : Pointer) :
    EmitsWithout backend after sub :=
  ⟨[], retains.emitted.trans (List.append_nil _).symm, fun _ member => absurd member List.not_mem_nil⟩

/-- Pending and on a monitor at once is only what was added twice. -/
def Single (backend : HurdBackend) (sub : Pointer) : Prop := sub ∈ backend.newSubs → ∀ m, sub ∉ backend.subsAt m

theorem removeSubscription_cancels {sub : Pointer} (notPending : sub ∉ backend.newSubs) :
    ((gamHurdNotifyRemoveSubscription backend sub).subscriptions sub).cancelled = true := by
  unfold gamHurdNotifyRemoveSubscription consumeSubscriptions
  rw [if_neg notPending]
  split <;> simp

/-- It is taken out of the pending ones, or cancelled. -/
theorem removeSubscription_silent {sub : Pointer} (single : Single backend sub) :
    Silent (gamHurdNotifyRemoveSubscription backend sub) sub := by
  by_cases pending : sub ∈ backend.newSubs
  · right
    rw [gamHurdNotifyRemoveSubscription, if_pos pending]
    refine ⟨fun member => ?_, single pending⟩
    exact of_decide_eq_true (List.mem_filter.mp member).2 rfl
  · exact .inl (removeSubscription_cancels pending)

/-! ## One step -/

/-- No step but an addition of it ends the silence, and a cancelled one may be added. -/
theorem Silent.step (upheld : Upheld backend) (addressed : Addressed backend) {sub : Pointer}
    (silent : Silent backend sub) {step : HurdStep}
    (added : step = .add sub → (backend.subscriptions sub).cancelled = true) {after : HurdBackend}
    (stepped : backend.step step = some after) : Silent after sub ∧ EmitsWithout backend after sub := by
  cases step with
  | add other =>
    cases stepped
    have retains := consumeSubscriptions_retains { backend with newSubs := other :: backend.newSubs }
    refine ⟨retains.silent ?_, retains.emitsWithout sub⟩
    by_cases isSub : other = sub
    · exact .inl (added (isSub ▸ rfl))
    · refine silent.imp_right fun absent => ⟨fun member => ?_, absent.2⟩
      exact (List.mem_cons.mp member).elim (fun same => isSub same.symm) absent.1
  | remove other =>
    cases stepped
    have retains := removeSubscription_retains backend other
    exact ⟨retains.silent silent, retains.emitsWithout sub⟩
  | removeAll others =>
    cases stepped
    have retains := removeAllFor_retains backend others
    exact ⟨retains.silent silent, retains.emitsWithout sub⟩
  | idle answers =>
    unfold HurdBackend.step at stepped
    dsimp only at stepped
    split at stepped
    · cases stepped
      exact ⟨silent, .refl backend sub⟩
    · exact consume_without answers upheld addressed silent stepped
  | dirChanged port change name answer =>
    have told := dirChanged_told stepped
    exact ⟨told.silent silent, told.without addressed silent⟩
  | fileChanged port change =>
    cases stepped
    have told := fileChanged_told backend port change
    exact ⟨told.silent silent, told.without addressed silent⟩

/-- The addresses stay, and cancelled subscriptions stay so. -/
theorem step_subscriptions (upheld : Upheld backend) {step : HurdStep} {after : HurdBackend}
    (stepped : backend.step step = some after) :
    (∀ sub, (after.subscriptions sub).address = (backend.subscriptions sub).address) ∧
      ∀ sub, (backend.subscriptions sub).cancelled = true → (after.subscriptions sub).cancelled = true := by
  have unchanged (same : after.subscriptions = backend.subscriptions) :
      (∀ sub, (after.subscriptions sub).address = (backend.subscriptions sub).address) ∧
        ∀ sub, (backend.subscriptions sub).cancelled = true → (after.subscriptions sub).cancelled = true := by
    rw [same]
    exact ⟨fun _ => rfl, fun _ => id⟩
  cases step with
  | add other =>
    cases stepped
    have retains := consumeSubscriptions_retains { backend with newSubs := other :: backend.newSubs }
    exact ⟨retains.address, retains.cancelled⟩
  | remove other =>
    cases stepped
    have retains := removeSubscription_retains backend other
    exact ⟨retains.address, retains.cancelled⟩
  | removeAll others =>
    cases stepped
    have retains := removeAllFor_retains backend others
    exact ⟨retains.address, retains.cancelled⟩
  | idle answers =>
    unfold HurdBackend.step at stepped
    dsimp only at stepped
    split at stepped
    · cases stepped
      exact unchanged rfl
    · obtain ⟨after', consumed, -, same, -⟩ := consume_upheld answers upheld
      obtain rfl := Option.some.inj (stepped.symm.trans consumed)
      exact unchanged same
  | dirChanged port change name answer => exact unchanged (dirChanged_told stepped).same.2.1
  | fileChanged port change =>
    cases stepped
    exact unchanged (fileChanged_told backend port change).same.2.1

/-- Where the subscription may be after a step that does not add it. -/
structure Stays (before after : HurdBackend) (sub : Pointer) : Prop where
  pending : sub ∈ after.newSubs → sub ∈ before.newSubs ∧ ∀ m, after.subsAt m = before.subsAt m
  attached : ∀ m, sub ∈ after.subsAt m → sub ∈ before.subsAt m ∨ sub ∈ before.newSubs

theorem Retains.stays {after : HurdBackend} (retains : Retains backend after) (sub : Pointer) :
    Stays backend after sub where
  pending member := ⟨retains.newSubs sub member, retains.subs⟩
  attached m member := .inl (retains.subs m ▸ member)

theorem Told.stays {after : HurdBackend} (told : Told backend after) (sub : Pointer) : Stays backend after sub where
  pending member := ⟨told.same.1 ▸ member, told.same.2.2⟩
  attached m member := .inl (told.same.2.2 m ▸ member)

theorem step_stays (upheld : Upheld backend) {sub : Pointer} {step : HurdStep} (notAdded : step ≠ .add sub)
    {after : HurdBackend} (stepped : backend.step step = some after) : Stays backend after sub := by
  cases step with
  | add other =>
    cases stepped
    have retains := consumeSubscriptions_retains { backend with newSubs := other :: backend.newSubs }
    refine ⟨fun member => ⟨?_, retains.subs⟩, fun m member => .inl (retains.subs m ▸ member)⟩
    exact (List.mem_cons.mp (retains.newSubs sub member)).resolve_left fun same => notAdded (same ▸ rfl)
  | remove other =>
    cases stepped
    exact (removeSubscription_retains backend other).stays sub
  | removeAll others =>
    cases stepped
    exact (removeAllFor_retains backend others).stays sub
  | idle answers =>
    unfold HurdBackend.step at stepped
    dsimp only at stepped
    split at stepped
    · cases stepped
      exact (Retains.refl backend).stays sub
    · obtain ⟨after', consumed, -, -, noneNew, -, attached⟩ := consume_upheld answers upheld
      obtain rfl := Option.some.inj (stepped.symm.trans consumed)
      refine ⟨fun member => absurd member (noneNew ▸ List.not_mem_nil), fun m member => ?_⟩
      exact (attached m sub member).1
  | dirChanged port change name answer => exact (dirChanged_told stepped).stays sub
  | fileChanged port change =>
    cases stepped
    exact (fileChanged_told backend port change).stays sub

/-! ## Runs -/

/-- The subscription that a step adds. -/
def HurdStep.added : HurdStep → Option Pointer
  | .add sub => some sub
  | .remove _ | .removeAll _ | .idle _ | .dirChanged .. | .fileChanged .. => none

theorem Single.run {steps : List HurdStep} {backend last : HurdBackend} {sub : Pointer} (upheld : Upheld backend)
    (normal : ∀ other, .add other ∈ steps → Normal (backend.subscriptions other).path)
    (single : Single backend sub) (notAdded : .add sub ∉ steps)
    (ran : steps.foldlM HurdBackend.step backend = some last) : Single last sub := by
  induction steps generalizing backend with
  | nil =>
    cases ran
    exact single
  | cons step steps inductionHypothesis =>
    rw [List.foldlM_cons] at ran
    obtain ⟨next, stepped, later⟩ := Option.bind_eq_some_iff.mp ran
    obtain ⟨upheldNext, paths⟩ := upheld.next (fun other same => normal other (same ▸ List.mem_cons_self)) stepped
    have stays := step_stays upheld (fun same : step = .add sub => notAdded (same ▸ List.mem_cons_self)) stepped
    refine inductionHypothesis upheldNext (fun other member => ?_) (fun pending => ?_)
      (fun member => notAdded (List.mem_cons_of_mem _ member)) later
    · rw [paths]
      exact normal other (List.mem_cons_of_mem _ member)
    · obtain ⟨before, same⟩ := stays.pending pending
      intro m
      rw [same]
      exact single before m

theorem mem_added {steps : List HurdStep} {sub : Pointer} (member : .add sub ∈ steps) :
    sub ∈ steps.filterMap HurdStep.added :=
  List.mem_filterMap.mpr ⟨.add sub, member, rfl⟩

/-- Until it is added the subscription is nowhere, and after that it is not added again. -/
theorem Single.ofOnce {steps : List HurdStep} {backend last : HurdBackend} {sub : Pointer} (upheld : Upheld backend)
    (normal : ∀ other, .add other ∈ steps → Normal (backend.subscriptions other).path)
    (absent : sub ∉ backend.newSubs ∧ ∀ m, sub ∉ backend.subsAt m) (once : (steps.filterMap HurdStep.added).Nodup)
    (ran : steps.foldlM HurdBackend.step backend = some last) :
    Single last sub ∧ (sub ∈ last.newSubs → .add sub ∈ steps) := by
  induction steps generalizing backend with
  | nil =>
    cases ran
    exact ⟨fun pending => absurd pending absent.1, fun pending => absurd pending absent.1⟩
  | cons step steps inductionHypothesis =>
    rw [List.foldlM_cons] at ran
    obtain ⟨next, stepped, later⟩ := Option.bind_eq_some_iff.mp ran
    obtain ⟨upheldNext, paths⟩ := upheld.next (fun other same => normal other (same ▸ List.mem_cons_self)) stepped
    have normalNext : ∀ other, .add other ∈ steps → Normal (next.subscriptions other).path := by
      intro other member
      rw [paths]
      exact normal other (List.mem_cons_of_mem _ member)
    by_cases isAdd : step = .add sub
    · subst isAdd
      have once : (sub :: steps.filterMap HurdStep.added).Nodup := once
      have single : Single next sub := by
        cases stepped
        intro _ m
        have retains := consumeSubscriptions_retains { backend with newSubs := sub :: backend.newSubs }
        exact retains.subs m ▸ absent.2 m
      have notAgain : .add sub ∉ steps := fun member => (List.nodup_cons.mp once).1 (mem_added member)
      exact ⟨single.run upheldNext normalNext notAgain later, fun _ => List.mem_cons_self⟩
    · -- it stays nowhere until then
      have stays := step_stays upheld isAdd stepped
      have absentNext : sub ∉ next.newSubs ∧ ∀ m, sub ∉ next.subsAt m :=
        ⟨fun pending => absent.1 (stays.pending pending).1, fun m member =>
          (stays.attached m member).elim (absent.2 m) absent.1⟩
      obtain ⟨single, added⟩ := inductionHypothesis upheldNext normalNext absentNext
        (once.sublist ((List.sublist_cons_self step steps).filterMap _)) later
      exact ⟨single, fun pending => List.mem_cons_of_mem _ (added pending)⟩

theorem Silent.run {steps : List HurdStep} {backend last : HurdBackend} {sub : Pointer} (upheld : Upheld backend)
    (addressed : Addressed backend) (silent : Silent backend sub)
    (normal : ∀ other, .add other ∈ steps → Normal (backend.subscriptions other).path)
    (added : .add sub ∈ steps → (backend.subscriptions sub).cancelled = true)
    (ran : steps.foldlM HurdBackend.step backend = some last) : EmitsWithout backend last sub := by
  induction steps generalizing backend with
  | nil =>
    cases ran
    exact .refl last sub
  | cons step steps inductionHypothesis =>
    rw [List.foldlM_cons] at ran
    obtain ⟨next, stepped, later⟩ := Option.bind_eq_some_iff.mp ran
    obtain ⟨upheldNext, paths⟩ := upheld.next (fun other same => normal other (same ▸ List.mem_cons_self)) stepped
    obtain ⟨silentNext, emits⟩ := silent.step upheld addressed (fun same => added (same ▸ List.mem_cons_self)) stepped
    obtain ⟨address, cancelled⟩ := step_subscriptions upheld stepped
    refine emits.trans (inductionHypothesis upheldNext (fun other => (address other).trans (addressed other)) silentNext
      (fun other member => ?_) (fun member => cancelled sub (added (List.mem_cons_of_mem _ member))) later)
    rw [paths]
    exact normal other (List.mem_cons_of_mem _ member)

theorem Addressed.run {steps : List HurdStep} {backend last : HurdBackend} (upheld : Upheld backend)
    (addressed : Addressed backend) (normal : ∀ other, .add other ∈ steps → Normal (backend.subscriptions other).path)
    (ran : steps.foldlM HurdBackend.step backend = some last) : Addressed last := by
  induction steps generalizing backend with
  | nil =>
    cases ran
    exact addressed
  | cons step steps inductionHypothesis =>
    rw [List.foldlM_cons] at ran
    obtain ⟨next, stepped, later⟩ := Option.bind_eq_some_iff.mp ran
    obtain ⟨upheldNext, paths⟩ := upheld.next (fun other same => normal other (same ▸ List.mem_cons_self)) stepped
    obtain ⟨address, -⟩ := step_subscriptions upheld stepped
    refine inductionHypothesis upheldNext (fun other => (address other).trans (addressed other))
      (fun other member => ?_) later
    rw [paths]
    exact normal other (List.mem_cons_of_mem _ member)

/-- No event is emitted for a subscription after its removal, in no order of what comes later; it may wait to be taken
on when it is removed, or be on a monitor, or not have been added yet. -/
theorem removed_silent {subscriptions : Pointer → GamSubscription} {sub : Pointer} {before after : List HurdStep}
    {front last : HurdBackend} (addressed : ∀ other, (subscriptions other).address = other)
    (normal : ∀ other, .add other ∈ before ++ after → Normal (subscriptions other).path)
    (once : ((before ++ after).filterMap HurdStep.added).Nodup)
    (ranBefore : before.foldlM HurdBackend.step (.new subscriptions) = some front)
    (ranAfter : after.foldlM HurdBackend.step (gamHurdNotifyRemoveSubscription front sub) = some last) :
    ∃ more, last.emitted = front.emitted ++ more ∧ ∀ emission ∈ more, emission.sub.address ≠ sub := by
  have new := HurdBackend.new_upheld subscriptions
  have normalBefore (other : Pointer) (member : .add other ∈ before) : Normal (subscriptions other).path :=
    normal other (List.mem_append_left _ member)
  obtain ⟨upheld, paths⟩ := new.run normalBefore ranBefore
  have addressedFront : Addressed front := Addressed.run new addressed normalBefore ranBefore
  rw [List.filterMap_append, List.nodup_append] at once
  obtain ⟨onceBefore, -, apart⟩ := once
  obtain ⟨single, added⟩ := Single.ofOnce new normalBefore
    ⟨List.not_mem_nil, fun _ => List.not_mem_nil⟩ onceBefore ranBefore
  have retains := removeSubscription_retains front sub
  have notPending (later : .add sub ∈ after) : sub ∉ front.newSubs := fun pending =>
    apart sub (mem_added (added pending)) sub (mem_added later) rfl
  obtain ⟨more, emitted, others⟩ := Silent.run (upheld.remove sub)
    (fun other => (retains.address other).trans (addressedFront other)) (removeSubscription_silent single)
    (fun other member => by
      rw [remove_path, paths]
      exact normal other (List.mem_append_right _ member))
    (fun later => removeSubscription_cancels (notPending later)) ranAfter
  exact ⟨more, emitted.trans (congrArg (· ++ more) retains.emitted), others⟩

theorem twoAdded_silent : ∃ front last, twoAdded.foldlM HurdBackend.step (.new onA) = some front ∧
    [HurdStep.fileChanged 1 .write, .idle everyAnswer].foldlM HurdBackend.step
      (gamHurdNotifyRemoveSubscription front 1) = some last ∧
    ∃ more, last.emitted = front.emitted ++ more ∧ ∀ emission ∈ more, emission.sub.address ≠ 1 := by
  obtain ⟨front, ran⟩ := twoAdded_returns
  obtain ⟨upheld, -⟩ := (HurdBackend.new_upheld onA).run (fun sub _ => onA_normal sub) ran
  obtain ⟨last, later⟩ := @run_returns [.fileChanged 1 .write, .idle everyAnswer]
    (gamHurdNotifyRemoveSubscription front 1) (upheld.remove 1) (by simp) (by simp)
  exact ⟨front, last, ran, later,
    removed_silent (fun _ => rfl) (fun sub _ => onA_normal sub) (by decide) ran later⟩

end Gamin.Hurd
