import Gamin.Kqueue.Walks
import Gamin.Library.Runs

/-! # The modes of a directory or file that is subscribed to

A `SubMonitor` is watched by kqueue, polled because kqueue could not watch it, or polled because it is
missing.  While a poller is walked a monitor counts as being on it if it will be when the walk is over.
-/

namespace Gamin.Kqueue

open Gamin Gamin.Server Gamin.Inotify Gamin.Library

/-! ## The invariant -/

inductive Mode where
  | kqueue
  | unsupported
  | missing
  deriving DecidableEq, Repr

def Backend.polledBy (state : Backend) (kind : PollerKind) (smon : Pointer) : Prop :=
  (state.pollers kind).smons.Holds smon

def InMode (state : Backend) (smon : Pointer) : Mode → Prop
  | .kqueue => state.fdOf smon ≠ none ∧ ¬ state.polledBy .unsupportedSmon smon ∧
      ¬ state.polledBy .missingSmon smon
  | .unsupported => state.fdOf smon = none ∧ state.polledBy .unsupportedSmon smon ∧
      ¬ state.polledBy .missingSmon smon
  | .missing => state.fdOf smon = none ∧ ¬ state.polledBy .unsupportedSmon smon ∧
      state.polledBy .missingSmon smon

/-- Every monitor but one is in a mode, and has no files when it is missing. -/
structure ModedBut (but : Option Pointer) (state : Backend) : Prop where
  filed : Filed state
  orderly : ∀ kind, kind ≠ .unsupportedFmon → (state.pollers kind).smons.Orderly
  distinct : ∀ kind, kind ≠ .unsupportedFmon → (state.pollers kind).smons.main.Nodup
  known : ∀ kind, kind ≠ .unsupportedFmon → ∀ smon, state.polledBy kind smon →
    (state.subMonitors smon).isSome
  moded : ∀ smon, (state.subMonitors smon).isSome → but ≠ some smon → ∃ mode, InMode state smon mode
  bare : ∀ smon, state.polledBy .missingSmon smon → but ≠ some smon → fileNames state smon = []

abbrev Moded : Backend → Prop := ModedBut none

variable {state before middle after : Backend} {smon : Pointer} {sub : SubMonitor}

theorem Moded.weaken (moded : Moded state) (but : Option Pointer) : ModedBut but state :=
  { moded with
    moded := fun smon known _ => moded.moded smon known nofun
    bare := fun smon polled _ => moded.bare smon polled nofun }

/-- The monitor that was left out is in a mode again. -/
theorem ModedBut.close (moded : ModedBut (some smon) state) {mode : Mode} (inMode : InMode state smon mode)
    (bare : mode = .missing → fileNames state smon = []) : Moded state :=
  { moded with
    moded := fun other known _ => by
      by_cases same : smon = other
      · exact ⟨mode, same ▸ inMode⟩
      · exact moded.moded other known (by simpa using same)
    bare := fun other polled _ => by
      by_cases same : smon = other
      · subst same
        cases mode with
        | kqueue => exact absurd polled inMode.2.2
        | unsupported => exact absurd polled inMode.2.2
        | missing => exact bare rfl
      · exact moded.bare other polled (by simpa using same) }

/-- The monitor that was left out is not there. -/
theorem ModedBut.forget (moded : ModedBut (some smon) state) (unknown : (state.subMonitors smon).isSome = false) :
    Moded state :=
  { moded with
    moded := fun other isKnown _ => moded.moded other isKnown fun same => by
      cases same
      rw [unknown] at isKnown
      contradiction
    bare := fun other polled _ => moded.bare other polled fun same => by
      cases same
      have isKnown := moded.known _ (by decide) smon polled
      rw [unknown] at isKnown
      contradiction }

/-! ## What a function on one monitor leaves to the others -/

structure Leaves (smon : Pointer) (before after : Backend) : Prop where
  polled : ∀ kind, kind ≠ .unsupportedFmon → ∀ other, other ≠ smon →
    (after.polledBy kind other ↔ before.polledBy kind other)
  walking : ∀ kind, (after.pollers kind).smons.iterating = (before.pollers kind).smons.iterating
  resting : ∀ other, Resting before other → Resting after other

theorem Leaves.trans (first : Leaves smon before middle) (second : Leaves smon middle after) :
    Leaves smon before after where
  polled kind isSmon other different :=
    (second.polled kind isSmon other different).trans (first.polled kind isSmon other different)
  walking kind := (second.walking kind).trans (first.walking kind)
  resting other resting := second.resting other (first.resting other resting)

theorem FilesOnly.pollers (only : FilesOnly smon before after) {kind : PollerKind}
    (isSmon : kind ≠ .unsupportedFmon) : after.pollers kind = before.pollers kind := by
  cases kind with
  | missingSmon => exact only.missing
  | unsupportedSmon => exact only.unsupported
  | unsupportedFmon => contradiction

theorem FilesOnly.leaves (only : FilesOnly smon before after) : Leaves smon before after where
  polled kind isSmon other _ := by rw [Backend.polledBy, only.pollers isSmon, Backend.polledBy]
  walking kind := by
    by_cases isSmon : kind = .unsupportedFmon
    · exact isSmon ▸ only.walking
    · rw [only.pollers isSmon]
  resting other resting := only.resting resting

theorem Touches.leaves {mon : Pointer} (touches : Touches mon before after) : Leaves smon before after where
  polled kind _ other _ := by rw [Backend.polledBy, touches.pollers, Backend.polledBy]
  walking kind := by rw [touches.pollers]
  resting other resting sub found := resting sub (touches.subMonitors ▸ found)

theorem Leaves.pollerAdd (moded : ModedBut (some smon) state) {kind : PollerKind}
    (isSmon : kind ≠ .unsupportedFmon) (resting : (state.pollers kind).smons.iterating = false) :
    Leaves smon state (gamKqueuePollerAddSubMonitor state kind smon) where
  polled other isOther monitor different := by
    unfold gamKqueuePollerAddSubMonitor Backend.polledBy
    by_cases same : other = kind
    · subst same
      rw [pollers_setPoller_same]
      refine ((moded.orderly other isSmon).holds_add resting).trans ?_
      exact or_iff_right different
    · rw [pollers_setPoller_other _ same]
  walking other := by
    unfold gamKqueuePollerAddSubMonitor
    by_cases same : other = kind
    · subst same
      rw [pollers_setPoller_same, Poller.iterating_add]
    · rw [pollers_setPoller_other _ same]
  resting _ resting := resting

theorem Leaves.pollerRemove (moded : ModedBut (some smon) state) {kind : PollerKind}
    (isSmon : kind ≠ .unsupportedFmon) :
    Leaves smon state (gamKqueuePollerRemoveSubMonitor state kind smon) where
  polled other isOther monitor different := by
    unfold gamKqueuePollerRemoveSubMonitor Backend.polledBy
    by_cases same : other = kind
    · subst same
      rw [pollers_setPoller_same]
      refine (moded.orderly other isSmon).holds_remove.trans ?_
      exact and_iff_left different
    · rw [pollers_setPoller_other _ same]
  walking other := by
    unfold gamKqueuePollerRemoveSubMonitor
    by_cases same : other = kind
    · subst same
      rw [pollers_setPoller_same, Poller.iterating_remove]
    · rw [pollers_setPoller_other _ same]
  resting _ resting := resting

/-! ## Steps around one monitor -/

theorem InMode.congr {mode : Mode} (inMode : InMode before smon mode)
    (fdOf : after.fdOf smon = before.fdOf smon)
    (polled : ∀ kind, kind ≠ .unsupportedFmon → (after.polledBy kind smon ↔ before.polledBy kind smon)) :
    InMode after smon mode := by
  have unsupported := polled .unsupportedSmon (by decide)
  have missing := polled .missingSmon (by decide)
  cases mode with
  | kqueue => exact ⟨fdOf ▸ inMode.1, mt unsupported.mp inMode.2.1, mt missing.mp inMode.2.2⟩
  | unsupported => exact ⟨fdOf ▸ inMode.1, unsupported.mpr inMode.2.1, mt missing.mp inMode.2.2⟩
  | missing => exact ⟨fdOf ▸ inMode.1, mt unsupported.mp inMode.2.1, missing.mpr inMode.2.2⟩

/-- A step that leaves the other monitors and their files alone. -/
theorem ModedBut.step (moded : ModedBut (some smon) before) (filed : Filed after)
    (leaves : Leaves smon before after)
    (orderly : ∀ kind, kind ≠ .unsupportedFmon → (after.pollers kind).smons.Orderly ∧
      (after.pollers kind).smons.main.Nodup)
    (known : ∀ kind, kind ≠ .unsupportedFmon → after.polledBy kind smon → (after.subMonitors smon).isSome)
    (elsewhere : ∀ other, other ≠ smon → after.subMonitors other = before.subMonitors other)
    (fdOf : ∀ other, other ≠ smon → (before.subMonitors other).isSome →
      after.fdOf other = before.fdOf other) : ModedBut (some smon) after where
  filed := filed
  orderly kind isSmon := (orderly kind isSmon).1
  distinct kind isSmon := (orderly kind isSmon).2
  known kind isSmon other polled := by
    by_cases same : other = smon
    · subst same
      exact known kind isSmon polled
    · rw [elsewhere other same]
      exact moded.known kind isSmon other ((leaves.polled kind isSmon other same).mp polled)
  moded other isKnown different := by
    have same : other ≠ smon := fun same => different (same ▸ rfl)
    rw [elsewhere other same] at isKnown
    obtain ⟨mode, inMode⟩ := moded.moded other isKnown different
    exact ⟨mode, inMode.congr (fdOf other same isKnown)
      fun kind isSmon => leaves.polled kind isSmon other same⟩
  bare other polled different := by
    have same : other ≠ smon := fun same => different (same ▸ rfl)
    rw [fileNames, elsewhere other same]
    exact moded.bare other ((leaves.polled _ (by decide) other same).mp polled) different

theorem Kept.modedBut (kept : Kept smon before after) (moded : ModedBut (some smon) before) :
    ModedBut (some smon) after := by
  refine moded.step kept.filed kept.only.leaves (fun kind isSmon => ?_) (fun kind isSmon polled => ?_)
    kept.only.elsewhere fun other _ known => Backend.fdOf_congr (kept.only.monitors other known)
  · rw [kept.only.pollers isSmon]
    exact ⟨moded.orderly kind isSmon, moded.distinct kind isSmon⟩
  · rw [Backend.polledBy, kept.only.pollers isSmon] at polled
    exact (kept.only.isSome smon).trans (moded.known kind isSmon smon polled)

/-- A monitor that is missing must be left without files. -/
theorem Kept.moded (kept : Kept smon before after) (moded : Moded before)
    (bare : before.polledBy .missingSmon smon → fileNames after smon = []) : Moded after := by
  have next := kept.modedBut (moded.weaken (some smon))
  cases known : (before.subMonitors smon).isSome with
  | true =>
    obtain ⟨mode, inMode⟩ := moded.moded smon known nofun
    refine @ModedBut.close _ smon next mode (inMode.congr
      (Backend.fdOf_congr (kept.only.monitors smon known)) fun kind isSmon => ?_) fun isMissing => ?_
    · rw [Backend.polledBy, kept.only.pollers isSmon, Backend.polledBy]
    · subst isMissing
      exact bare inMode.2.2
  | false => exact next.forget ((kept.only.isSome smon).trans known)

theorem Touches.modedBut (touches : Touches smon before after) (moded : ModedBut (some smon) before)
    (known : (before.subMonitors smon).isSome) (held : Held after) : ModedBut (some smon) after := by
  have filed : Filed after := by
    refine moded.filed.touchUnpolled touches held fun other sub found holds => ?_
    rw [moded.filed.subMonitors_of_holds found holds] at known
    contradiction
  refine moded.step filed touches.leaves (fun kind isSmon => ?_) (fun _ _ _ => ?_) (fun other _ => ?_)
    fun other different _ => Backend.fdOf_congr (touches.others other different)
  · rw [touches.pollers]
    exact ⟨moded.orderly kind isSmon, moded.distinct kind isSmon⟩
  · rw [touches.subMonitors]
    exact known
  · rw [touches.subMonitors]

theorem ModedBut.pollerAdd (moded : ModedBut (some smon) state) {kind : PollerKind}
    (isSmon : kind ≠ .unsupportedFmon) (resting : (state.pollers kind).smons.iterating = false)
    (known : (state.subMonitors smon).isSome) :
    ModedBut (some smon) (gamKqueuePollerAddSubMonitor state kind smon) := by
  refine moded.step (moded.filed.setPoller _ _) (.pollerAdd moded isSmon resting) (fun other isOther => ?_)
    (fun _ _ _ => known) (fun _ _ => rfl) fun _ _ _ => rfl
  unfold gamKqueuePollerAddSubMonitor
  by_cases same : other = kind
  · subst same
    rw [pollers_setPoller_same]
    exact ⟨(moded.orderly other isSmon).add smon, DeferredSet.nodup_add (moded.distinct other isSmon) smon⟩
  · rw [pollers_setPoller_other _ same]
    exact ⟨moded.orderly other isOther, moded.distinct other isOther⟩

theorem ModedBut.pollerRemove (moded : ModedBut (some smon) state) {kind : PollerKind}
    (isSmon : kind ≠ .unsupportedFmon) :
    ModedBut (some smon) (gamKqueuePollerRemoveSubMonitor state kind smon) := by
  have gone : (gamKqueuePollerRemoveSubMonitor state kind smon).polledBy kind smon →
      (state.subMonitors smon).isSome := fun polled => by
    unfold gamKqueuePollerRemoveSubMonitor Backend.polledBy at polled
    rw [pollers_setPoller_same] at polled
    exact absurd rfl ((moded.orderly kind isSmon).holds_remove.mp polled).2
  refine moded.step (moded.filed.setPoller _ _) (.pollerRemove moded isSmon) (fun other isOther => ?_)
    (fun other isOther polled => ?_) (fun _ _ => rfl) fun _ _ _ => rfl
  · unfold gamKqueuePollerRemoveSubMonitor
    by_cases same : other = kind
    · subst same
      rw [pollers_setPoller_same]
      exact ⟨(moded.orderly other isSmon).remove smon,
        DeferredSet.nodup_remove (moded.distinct other isSmon) smon⟩
    · rw [pollers_setPoller_other _ same]
      exact ⟨moded.orderly other isOther, moded.distinct other isOther⟩
  · by_cases same : other = kind
    · subst same
      exact gone polled
    · unfold gamKqueuePollerRemoveSubMonitor Backend.polledBy at polled
      rw [pollers_setPoller_other _ same] at polled
      exact moded.known other isOther smon polled

theorem pollerAdd_polled (moded : ModedBut (some smon) state) {kind : PollerKind}
    (isSmon : kind ≠ .unsupportedFmon) (resting : (state.pollers kind).smons.iterating = false) :
    (gamKqueuePollerAddSubMonitor state kind smon).polledBy kind smon := by
  unfold gamKqueuePollerAddSubMonitor Backend.polledBy
  rw [pollers_setPoller_same]
  exact ((moded.orderly kind isSmon).holds_add resting).mpr (.inl rfl)

theorem pollerAdd_other (state : Backend) {kind other : PollerKind} (different : other ≠ kind)
    (smon mon : Pointer) :
    (gamKqueuePollerAddSubMonitor state kind smon).polledBy other mon ↔ state.polledBy other mon := by
  unfold gamKqueuePollerAddSubMonitor Backend.polledBy
  rw [pollers_setPoller_other _ different]

theorem pollerRemove_unpolled (moded : ModedBut (some smon) state) {kind : PollerKind}
    (isSmon : kind ≠ .unsupportedFmon) :
    ¬ (gamKqueuePollerRemoveSubMonitor state kind smon).polledBy kind smon := by
  intro polled
  unfold gamKqueuePollerRemoveSubMonitor Backend.polledBy at polled
  rw [pollers_setPoller_same] at polled
  exact ((moded.orderly kind isSmon).holds_remove.mp polled).2 rfl

theorem pollerRemove_other (state : Backend) {kind other : PollerKind} (different : other ≠ kind)
    (smon mon : Pointer) :
    (gamKqueuePollerRemoveSubMonitor state kind smon).polledBy other mon ↔ state.polledBy other mon := by
  unfold gamKqueuePollerRemoveSubMonitor Backend.polledBy
  rw [pollers_setPoller_other _ different]

end Gamin.Kqueue
